import CommandGrammar.Cursor
import CommandGrammar.Source
import CommandGrammar.Text.Case

/-!
# Parsers

A parser reads tokens into values, offers completions for the token being typed, and says how it is
used. Reading moves a cursor and fills a context; a failure leaves both where it happened, and
whoever tries something else goes back by itself. Completing never fails, though it may never come to
an end, and what it did to the cursor cannot be seen.
-/

namespace CommandGrammar

/-- What reading works on. -/
structure State where
  cursor : Cursor
  context : Context

/-- Reading that may fail at a place. -/
abbrev Reading := EStateM ParseError State

namespace Reading

/-- The value of the next token, which must be there. -/
def next : Reading String := fun s =>
  match s.cursor.next? with
  | some (v, c) => .ok v { s with cursor := c }
  | none => .error s.cursor.exhausted s

/-- A failure at the current token. -/
def reject {α : Type} (message : String) : Reading α := fun s =>
  .error (s.cursor.error message) s

def store (key : String) (v : Value) : Reading Unit := fun s =>
  .ok () { s with context := s.context.put key v }

def moveCursor (f : Cursor → Cursor) : Reading Unit := fun s =>
  .ok () { s with cursor := f s.cursor }

/-- Whether a token is left. -/
def hasNext : Reading Bool := fun s =>
  .ok s.cursor.hasNext s

/-- Something tried; what it reads instead of a failure sees the state it began with, the failure,
and the state that one left. -/
def orElse {α : Type} (r : Reading α)
    (f : State → ParseError → State → EStateM.Result ParseError State α) : Reading α := fun s =>
  match r s with
  | .ok a t => .ok a t
  | .error e t => f s e t

end Reading

/-- Offers for the token being typed, and lines sent while looking for them. Where the search is
`endless`, nobody ever gets to see them. -/
structure Completion where
  lines : List String := []
  offers : List String := []
  endless : Bool := false
  deriving DecidableEq, Repr

/-- A list with what it lacks of another put behind. -/
def appendNew (xs ys : List String) : List String :=
  ys.foldl (fun seen y => if seen.contains y then seen else seen ++ [y]) xs

namespace Completion

/-- No offers. -/
def none : Completion := {}

/-- A search without an end. -/
def never : Completion := { endless := true }

def ofList (offers : List String) : Completion := { offers }

/-- The new offers of another completion put behind. -/
def add (c d : Completion) : Completion :=
  ⟨c.lines ++ d.lines, appendNew c.offers d.offers, c.endless || d.endless⟩

/-- The offers of another completion instead. -/
def replace (c d : Completion) : Completion :=
  ⟨c.lines ++ d.lines, d.offers, c.endless || d.endless⟩

/-- The lines without the offers. -/
def clear (c : Completion) : Completion :=
  { c with offers := [] }

/-- The offers that satisfy a predicate. -/
def filter (p : String → Bool) (c : Completion) : Completion :=
  { c with offers := c.offers.filter p }

end Completion

/-- How a part of a grammar behaves: the key its values stand under, whether it may be absent, how
it reads and completes, and how it is used. -/
structure Parser where
  key : Option String := none
  isOptional : Bool := false
  parse : Env → Reading Unit
  complete : Env → State → Completion
  usage : Source → String

/-- The offers among some names that begin with the next token, which is empty when there is none,
ignoring case. -/
def offersFor (names : List String) (c : Cursor) : List String :=
  let typed := (c.peek?).getD ""
  names.filter fun n => Text.startsWithIgnoringCase n typed

theorem appendNew_nil (xs : List String) : appendNew xs [] = xs := rfl

/-- Every item of either list is in the result, and nothing else. -/
theorem mem_appendNew {x : String} {xs ys : List String} :
    x ∈ appendNew xs ys ↔ x ∈ xs ∨ x ∈ ys := by
  induction ys generalizing xs with
  | nil => simp [appendNew]
  | cons y ys ih =>
    simp only [appendNew, List.foldl_cons] at ih ⊢
    rw [ih]
    by_cases h : xs.contains y = true
    · have : y ∈ xs := by simpa using h
      simp only [h, if_true, List.mem_cons]
      constructor
      · rintro (m | m)
        · exact Or.inl m
        · exact Or.inr (Or.inr m)
      · rintro (m | rfl | m)
        · exact Or.inl m
        · exact Or.inl this
        · exact Or.inr m
    · have : y ∉ xs := by simpa using h
      simp [this, or_assoc]

end CommandGrammar
