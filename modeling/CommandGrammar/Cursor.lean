import CommandGrammar.Token

/-!
# Cursors

A cursor walks the tokens of a line. What a cursor is at can be marked and gone back to, tokens can
be put in behind the current one, and those between two marks taken out.
-/

namespace CommandGrammar

/-- The tokens of a line and how many of them are consumed; the last of those is the current one. -/
structure Cursor where
  raw : String
  tokens : List Token
  consumed : Nat
  deriving DecidableEq, Repr

/-- What a cursor was at: its tokens and how many were consumed. -/
structure Mark where
  tokens : List Token
  consumed : Nat
  deriving DecidableEq, Repr

namespace Cursor

/-- A cursor before the first of some tokens. -/
def ofTokens (raw : String) (tokens : List Token) : Cursor :=
  ⟨raw, tokens, 0⟩

/-- A cursor before the first token of a line. -/
def ofLine (t : Tokenizer) (lenient : Bool) (line : String) : Except ParseError Cursor :=
  (t.tokenize lenient line).map (ofTokens line)

/-- Whether a token is left. -/
def hasNext (c : Cursor) : Bool :=
  c.consumed < c.tokens.length

/-- The token that was consumed last. -/
def current? (c : Cursor) : Option Token :=
  if c.consumed = 0 then none else c.tokens[c.consumed - 1]?

/-- Where the current token starts; the start of the line when there is none. -/
def position (c : Cursor) : Nat :=
  c.current?.elim 0 (·.start)

/-- The line from the start of the current token on. -/
def rawFromCurrent (c : Cursor) : String :=
  String.ofList (c.raw.toList.drop c.position)

/-- An error at the current token. -/
def error (c : Cursor) (message : String) : ParseError :=
  ⟨message, c.raw, c.position, none⟩

/-- The error of a line with too few tokens. -/
def exhausted (c : Cursor) : ParseError :=
  c.error "Not enough arguments!"

/-- The value of the next token, if there is one. -/
def peek? (c : Cursor) : Option String :=
  c.tokens[c.consumed]?.map (·.value)

/-- The value of the next token and the cursor behind it, if there is one. -/
def next? (c : Cursor) : Option (String × Cursor) :=
  c.peek?.map fun v => (v, { c with consumed := c.consumed + 1 })

/-- The cursor one token back. -/
def previous (c : Cursor) : Cursor :=
  { c with consumed := c.consumed - 1 }

/-- The number of tokens. -/
def length (c : Cursor) : Nat :=
  c.tokens.length

def values (c : Cursor) : List String :=
  c.tokens.map (·.value)

/-- The values of the tokens that are left. -/
def remaining (c : Cursor) : List String :=
  c.values.drop c.consumed

/-- The cursor behind all tokens. -/
def toEnd (c : Cursor) : Cursor :=
  { c with consumed := max c.consumed c.tokens.length }

/-- The cursor with a token of its own put in before the next one; it stands at the end of the
current token. -/
def insert (c : Cursor) (value : String) : Cursor :=
  let place := c.current?.elim 0 (·.stop)
  { c with tokens := c.tokens.take c.consumed ++ ⟨value, place, place⟩ :: c.tokens.drop c.consumed }

def mark (c : Cursor) : Mark :=
  ⟨c.tokens, c.consumed⟩

def restore (c : Cursor) (m : Mark) : Cursor :=
  { c with tokens := m.tokens, consumed := min m.consumed m.tokens.length }

/-- The cursor back at the place of a mark, in the tokens as they are now. -/
def rewind (c : Cursor) (m : Mark) : Cursor :=
  { c with consumed := min m.consumed c.tokens.length }

/-- The cursor without the tokens from the one that was current at the first mark to the one that
was current at the second. A cursor among them goes back to before them, one behind them moves with
the tokens that follow. Nothing is taken out when either mark is before the first token. -/
def remove (c : Cursor) (start stop : Mark) : Cursor :=
  if start.consumed = 0 ∨ stop.consumed = 0 then c
  else
    let first := start.consumed - 1
    let consumed :=
      if c.consumed < start.consumed then c.consumed
      else if c.consumed < stop.consumed then first
      else c.consumed - (stop.consumed - first)
    let tokens :=
      if first < stop.consumed then c.tokens.take first ++ c.tokens.drop stop.consumed
      else c.tokens
    { c with tokens, consumed := min consumed tokens.length }

/-- How much is left to read: each token counts its characters and one more. Reading lowers it,
also where a token is put in for a part of the one before. -/
def weight (c : Cursor) : Nat :=
  (c.tokens.drop c.consumed).foldr (fun t n => t.value.length + 1 + n) 0

/-- Nothing can be read exactly when no token is left. -/
theorem next?_eq_none_iff {c : Cursor} : c.next? = none ↔ c.remaining = [] := by
  simp [next?, peek?, remaining, values]

/-- Tokens are left exactly when their values are. -/
theorem hasNext_iff {c : Cursor} : c.hasNext = true ↔ c.remaining ≠ [] := by
  simp [hasNext, remaining, values]

private theorem drop_of_next? {c d : Cursor} {v : String} (h : c.next? = some (v, d)) :
    d = { c with consumed := c.consumed + 1 } ∧
      ∃ t, t.value = v ∧ c.tokens.drop c.consumed = t :: c.tokens.drop (c.consumed + 1) := by
  simp only [next?, peek?, Option.map_map, Option.map_eq_some_iff, Function.comp_apply,
    Prod.mk.injEq] at h
  obtain ⟨t, ht, rfl, rfl⟩ := h
  obtain ⟨lt, ht⟩ := List.getElem?_eq_some_iff.1 ht
  exact ⟨rfl, t, rfl, by rw [List.drop_eq_getElem_cons lt, ht]⟩

/-- Reading takes the first of the tokens that are left. -/
theorem remaining_of_next? {c d : Cursor} {v : String} (h : c.next? = some (v, d)) :
    c.remaining = v :: d.remaining := by
  obtain ⟨rfl, t, rfl, ht⟩ := drop_of_next? h
  simp only [remaining, values, ← List.map_drop, ht, List.map_cons]

/-- Reading a token lowers the weight by what the token counts. -/
theorem weight_of_next? {c d : Cursor} {v : String} (h : c.next? = some (v, d)) :
    c.weight = v.length + 1 + d.weight := by
  obtain ⟨rfl, t, rfl, ht⟩ := drop_of_next? h
  simp only [weight, ht, List.foldr_cons]

/-- Going back to a mark undoes what was done since. -/
theorem restore_mark {c d : Cursor} (raw : d.raw = c.raw) (le : c.consumed ≤ c.tokens.length) :
    d.restore c.mark = c := by
  simp [restore, mark, raw, Nat.min_eq_left le]

/-- A token that was put in is the next one, and those that were left follow it. -/
theorem remaining_insert {c : Cursor} (v : String) (le : c.consumed ≤ c.tokens.length) :
    (c.insert v).remaining = v :: c.remaining := by
  simp [insert, remaining, values, Nat.min_eq_left le]

end Cursor

end CommandGrammar
