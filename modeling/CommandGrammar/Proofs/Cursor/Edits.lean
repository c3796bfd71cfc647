import CommandGrammar.Proofs.Cursor
import Mathlib.Data.Nat.PSub

/-!
# Edited cursors

A cursor may be read from, moved back, edited and put back to marks, in any order. It never comes to
stand beyond its tokens; so every index that is looked up and every difference that is taken on the
way is in range, and taking tokens out leaves the consumed tokens and those that are left as they
were, less the ones between the two marks.
-/

namespace CommandGrammar.Cursor

/-- What may be done to a cursor. Taking a mark changes nothing and is none of it; a mark that is
gone back to may be of any cursor at any time. -/
inductive Edit where
  | next
  | previous
  | insert (value : String)
  | restore (mark : Mark)
  | rewind (mark : Mark)
  | remove (start stop : Mark)
  deriving DecidableEq, Repr

/-- The cursor behind an edit; at its end nothing is read. -/
def Edit.carryOut : Edit → Cursor → Cursor
  | next, c => c.next?.elim c (·.2)
  | previous, c => c.previous
  | insert value, c => c.insert value
  | restore mark, c => c.restore mark
  | rewind mark, c => c.rewind mark
  | remove start stop, c => c.remove start stop

/-- The cursor behind some edits, one after the other. -/
def edited (c : Cursor) (edits : List Edit) : Cursor :=
  edits.foldl (fun c e => e.carryOut c) c

/-! ## Edits in range

Edits again, without a result where an index is out of range or a difference falls below zero. -/

/-- A list cut in two at an index up to its end. -/
def cut? {α : Type} (xs : List α) (i : Nat) : Option (List α × List α) :=
  if i ≤ xs.length then some (xs.splitAt i) else none

/-- Where the current token stops. -/
def ending? (c : Cursor) : Option Nat :=
  if c.consumed = 0 then some 0
  else do
    let i ← c.consumed.ppred
    let t ← c.tokens[i]?
    return t.stop

/-- A token put in where the cursor stands. -/
def insert? (c : Cursor) (value : String) : Option Cursor := do
  let place ← c.ending?
  let (before, after) ← cut? c.tokens c.consumed
  return { c with tokens := before ++ ⟨value, place, place⟩ :: after }

/-- Where a cursor goes when tokens from an index on are taken out: it stays before them, goes back
to before them, or moves with the tokens behind. -/
def moved? (consumed first start stop : Nat) : Option Nat :=
  if consumed < start then some consumed
  else if consumed < stop then some first
  else consumed.psub (stop - first)

/-- The tokens without those from one index to another, both included. -/
def takeOut? (tokens : List Token) (first last : Nat) : Option (List Token) :=
  if first ≤ last ∧ first < tokens.length then do
    let (kept, removed) ← cut? tokens first
    let span ← last.psub first
    let (_, rest) ← cut? removed (min (span + 1) removed.length)
    return kept ++ rest
  else some tokens

/-- The tokens from the one that was current at a mark to the one at another taken out. -/
def remove? (c : Cursor) (start stop : Mark) : Option Cursor :=
  if start.consumed = 0 ∨ stop.consumed = 0 then some c
  else do
    let first ← start.consumed.ppred
    let last ← stop.consumed.ppred
    let consumed ← moved? c.consumed first start.consumed stop.consumed
    let tokens ← takeOut? c.tokens first last
    return { c with tokens, consumed := min consumed tokens.length }

/-- An edit with its indices and differences in range. -/
def Edit.checked : Edit → Cursor → Option Cursor
  | next, c => some (if c.hasNext then { c with consumed := c.consumed + 1 } else c)
  | previous, c => some c.previous
  | insert value, c => c.insert? value
  | restore mark, c => some (c.restore mark)
  | rewind mark, c => some (c.rewind mark)
  | remove start stop, c => c.remove? start stop

section InRange

variable {c : Cursor}

theorem cut?_eq {α : Type} {xs : List α} {i : Nat} (inside : i ≤ xs.length) :
    cut? xs i = some (xs.take i, xs.drop i) := by
  rw [cut?, if_pos inside, List.splitAt_eq]

theorem ending?_eq (within : c.consumed ≤ c.tokens.length) :
    c.ending? = some (c.current?.elim 0 (·.stop)) := by
  unfold ending? current?
  by_cases zero : c.consumed = 0
  · rw [if_pos zero, if_pos zero]
    rfl
  · have inside : c.consumed - 1 < c.tokens.length := by omega
    rw [if_neg zero, if_neg zero, Nat.ppred_eq_pred (Nat.pos_of_ne_zero zero), Nat.pred_eq_sub_one]
    simp [List.getElem?_eq_getElem inside]

theorem insert?_eq (within : c.consumed ≤ c.tokens.length) (value : String) :
    c.insert? value = some (c.insert value) := by
  simp only [insert?, ending?_eq within, cut?_eq within, insert, Option.bind_eq_bind,
    Option.bind_some, Option.pure_def]

theorem moved?_eq {consumed first start stop : Nat} (passed : first < start) :
    moved? consumed first start stop =
      some (if consumed < start then consumed
        else if consumed < stop then first else consumed - (stop - first)) := by
  unfold moved?
  by_cases before : consumed < start
  · rw [if_pos before, if_pos before]
  · rw [if_neg before, if_neg before]
    by_cases among : consumed < stop
    · rw [if_pos among, if_pos among]
    · rw [if_neg among, if_neg among]
      exact Nat.psub_eq_sub (by omega)

theorem takeOut?_eq (tokens : List Token) {first stop : Nat} (pos : 0 < stop) :
    takeOut? tokens first (stop - 1) =
      some (if first < stop then tokens.take first ++ tokens.drop stop else tokens) := by
  unfold takeOut?
  by_cases inside : first ≤ stop - 1 ∧ first < tokens.length
  · have span : stop - 1 - first + 1 = stop - first := by omega
    have rest : (tokens.drop first).drop (min (stop - first) (tokens.length - first)) =
        tokens.drop stop := by
      rw [List.drop_drop]
      by_cases short : stop ≤ tokens.length
      · congr 1
        omega
      · rw [List.drop_eq_nil_of_le (by omega), List.drop_eq_nil_of_le (by omega)]
    have count : min (stop - first) (tokens.length - first) ≤ (tokens.drop first).length := by
      rw [List.length_drop]
      exact Nat.min_le_right _ _
    rw [if_pos inside, if_pos (by omega), Nat.psub_eq_sub inside.1, cut?_eq (Nat.le_of_lt inside.2)]
    simp only [Option.bind_eq_bind, Option.bind_some, List.length_drop, span, cut?_eq count, rest,
      Option.pure_def]
  · rw [if_neg inside]
    by_cases beyond : first < stop
    · have long : tokens.length ≤ first := by omega
      rw [if_pos beyond, List.take_of_length_le long, List.drop_eq_nil_of_le (by omega),
        List.append_nil]
    · rw [if_neg beyond]

theorem remove?_eq (c : Cursor) (start stop : Mark) :
    c.remove? start stop = some (c.remove start stop) := by
  unfold remove? remove
  by_cases absent : start.consumed = 0 ∨ stop.consumed = 0
  · rw [if_pos absent, if_pos absent]
  · have first : 0 < start.consumed := by omega
    have last : 0 < stop.consumed := by omega
    rw [if_neg absent, if_neg absent, Nat.ppred_eq_pred first, Nat.ppred_eq_pred last]
    simp only [Option.bind_eq_bind, Option.bind_some, Nat.pred_eq_sub_one, takeOut?_eq _ last,
      moved?_eq (Nat.sub_lt first Nat.one_pos), Option.pure_def]

/-- Within the tokens every edit is in range. -/
theorem checked_eq (within : c.consumed ≤ c.tokens.length) (e : Edit) :
    e.checked c = some (e.carryOut c) := by
  cases e with
  | next =>
      cases read : c.next? with
      | none => simp [Edit.checked, Edit.carryOut, read, hasNext_of_next?_none read]
      | some p =>
          obtain ⟨moved, -⟩ := of_next? read
          simp [Edit.checked, Edit.carryOut, read, hasNext_of_next?_some read, moved]
  | insert value => exact insert?_eq within value
  | remove start stop => exact remove?_eq c start stop
  | previous | restore | rewind => rfl

end InRange

/-! ## Places -/

theorem within_carryOut {c : Cursor} (within : c.consumed ≤ c.tokens.length) (e : Edit) :
    (e.carryOut c).consumed ≤ (e.carryOut c).tokens.length := by
  cases e with
  | next =>
      cases read : c.next? with
      | none => simpa [Edit.carryOut, read] using within
      | some p =>
          obtain ⟨moved, inside⟩ := of_next? read
          simpa [Edit.carryOut, read, moved] using Nat.succ_le_of_lt inside
  | previous => exact Nat.le_trans (Nat.sub_le _ _) within
  | insert value =>
      rw [Edit.carryOut, length_tokens_insert]
      exact Nat.le_trans within (Nat.le_succ _)
  | restore mark => exact Nat.min_le_right _ _
  | rewind mark => exact Nat.min_le_right _ _
  | remove start stop =>
      simp only [Edit.carryOut, Cursor.remove]
      split
      · exact within
      · exact Nat.min_le_right _ _

theorem within_edited {c : Cursor} (within : c.consumed ≤ c.tokens.length) (edits : List Edit) :
    (c.edited edits).consumed ≤ (c.edited edits).tokens.length := by
  induction edits generalizing c with
  | nil => exact within
  | cons e edits ih => exact ih (within_carryOut within e)

/-! ## Removals -/

/-- Numbered tokens without those from the one that was current at a mark to the one that was
current at another. -/
def spared (start stop : Mark) (numbered : List (Token × Nat)) : List Token :=
  (numbered.filter fun p => ¬(start.consumed - 1 ≤ p.2 ∧ p.2 ≤ stop.consumed - 1)).map (·.1)

section Spared

variable {start stop : Mark}

theorem spared_append (ps qs : List (Token × Nat)) :
    spared start stop (ps ++ qs) = spared start stop ps ++ spared start stop qs := by
  simp only [spared, List.filter_append, List.map_append]

theorem spared_cons_of_between {k : Nat} (t : Token) (ps : List (Token × Nat))
    (among : start.consumed - 1 ≤ k ∧ k ≤ stop.consumed - 1) :
    spared start stop ((t, k) :: ps) = spared start stop ps := by
  simp only [spared, List.filter_cons, among, and_self, not_true_eq_false, decide_false,
    Bool.false_eq_true, if_false]

theorem spared_cons_of_not_between {k : Nat} (t : Token) (ps : List (Token × Nat))
    (apart : ¬(start.consumed - 1 ≤ k ∧ k ≤ stop.consumed - 1)) :
    spared start stop ((t, k) :: ps) = t :: spared start stop ps := by
  simp only [spared, List.filter_cons, apart, not_false_eq_true, decide_true, if_true,
    List.map_cons]

/-- Of tokens that are numbered from some number on, those before the first mark's and those behind
the second mark's are spared. -/
theorem spared_zipIdx (last : stop.consumed ≠ 0) (ts : List Token) (k : Nat) :
    spared start stop (ts.zipIdx k) =
      ts.take (start.consumed - 1 - k) ++
        ts.drop (max (start.consumed - 1) stop.consumed - k) := by
  induction ts generalizing k with
  | nil => rw [List.take_nil, List.drop_nil]; rfl
  | cons t ts ih =>
      rw [List.zipIdx_cons]
      by_cases before : k < start.consumed - 1
      · have kept : start.consumed - 1 - k = start.consumed - 1 - (k + 1) + 1 := by omega
        have more : max (start.consumed - 1) stop.consumed - k =
            max (start.consumed - 1) stop.consumed - (k + 1) + 1 := by omega
        rw [spared_cons_of_not_between t _ (by omega), ih, kept, more, List.take_succ_cons,
          List.drop_succ_cons, List.cons_append]
      · have zero : start.consumed - 1 - k = 0 := by omega
        have zero' : start.consumed - 1 - (k + 1) = 0 := by omega
        by_cases among : k < stop.consumed
        · have more : max (start.consumed - 1) stop.consumed - k =
              max (start.consumed - 1) stop.consumed - (k + 1) + 1 := by omega
          rw [spared_cons_of_between t _ (by omega), ih, zero, zero', more, List.drop_succ_cons,
            List.take_zero, List.take_zero]
        · have behind : max (start.consumed - 1) stop.consumed - k = 0 := by omega
          have behind' : max (start.consumed - 1) stop.consumed - (k + 1) = 0 := by omega
          rw [spared_cons_of_not_between t _ (by omega), ih, zero, zero', behind, behind']
          rfl

/-- What is consumed and what is left loses the tokens between the marks, and nothing else. -/
theorem remove_between_spared (raw : String) (before after : List Token)
    (first : start.consumed ≠ 0) (last : stop.consumed ≠ 0) :
    (between raw before after).remove start stop =
      between raw (spared start stop before.zipIdx)
        (spared start stop (after.zipIdx before.length)) := by
  have tokens : (if start.consumed - 1 < stop.consumed then
        (before ++ after).take (start.consumed - 1) ++ (before ++ after).drop stop.consumed
      else before ++ after) =
        spared start stop before.zipIdx ++ spared start stop (after.zipIdx before.length) := by
    rw [← Nat.zero_add before.length, ← spared_append, ← List.zipIdx_append, spared_zipIdx last]
    by_cases ordered : start.consumed - 1 < stop.consumed
    · rw [if_pos ordered, Nat.max_eq_right (Nat.le_of_lt ordered)]
      rfl
    · rw [if_neg ordered, Nat.max_eq_left (Nat.le_of_not_lt ordered)]
      exact (List.take_append_drop _ _).symm
  have place : (if before.length < start.consumed then before.length
      else if before.length < stop.consumed then start.consumed - 1
      else before.length - (stop.consumed - (start.consumed - 1))) =
        (spared start stop before.zipIdx).length := by
    rw [spared_zipIdx last, List.length_append, List.length_take, List.length_drop]
    split
    · omega
    · split <;> omega
  have consumed := congrArg₂ (fun n ts => min n (List.length ts)) place tokens
  rw [List.length_append, Nat.min_eq_left (Nat.le_add_right _ _)] at consumed
  have present : ¬(start.consumed = 0 ∨ stop.consumed = 0) := by omega
  exact (if_neg present).trans (congrArg₂ (Cursor.mk raw) tokens consumed)

/-- The same of any cursor within its tokens. -/
theorem remove_spared {c : Cursor} (within : c.consumed ≤ c.tokens.length)
    (first : start.consumed ≠ 0) (last : stop.consumed ≠ 0) :
    c.remove start stop =
      between c.raw (spared start stop (c.tokens.zipIdx.take c.consumed))
        (spared start stop (c.tokens.zipIdx.drop c.consumed)) := by
  have length : (c.tokens.take c.consumed).length = c.consumed := by
    rw [List.length_take, Nat.min_eq_left within]
  have apart : c = between c.raw (c.tokens.take c.consumed) (c.tokens.drop c.consumed) := by
    simp only [between, List.take_append_drop, length]
  have numbered : c.tokens.zipIdx =
      (c.tokens.take c.consumed).zipIdx ++ (c.tokens.drop c.consumed).zipIdx c.consumed := by
    have whole : (c.tokens.take c.consumed ++ c.tokens.drop c.consumed).zipIdx = _ :=
      List.zipIdx_append
    rwa [List.take_append_drop, Nat.zero_add, length] at whole
  have counted : ((c.tokens.take c.consumed).zipIdx).length = c.consumed := by
    rw [List.length_zipIdx, length]
  have removed := remove_between_spared c.raw (c.tokens.take c.consumed)
    (c.tokens.drop c.consumed) first last
  rw [numbered, List.take_left' counted, List.drop_left' counted]
  rwa [← apart, length] at removed

end Spared

/-- A cursor before the first of any tokens stays within its tokens whatever is done to it, and
whatever is done next is in range. Taking out the tokens between two marks leaves what was consumed
and what was left, in order, less the tokens from the one that was current at the first mark to the
one at the second; it changes nothing when a mark is before the first token. -/
theorem edited_keeps_order (raw : String) (tokens : List Token) (edits : List Edit) :
    let c := (ofTokens raw tokens).edited edits
    c.consumed ≤ c.tokens.length ∧
      (∀ e : Edit, e.checked c = some (e.carryOut c)) ∧
      ∀ start stop : Mark,
        c.remove start stop =
          if start.consumed = 0 ∨ stop.consumed = 0 then c
          else between c.raw (spared start stop (c.tokens.zipIdx.take c.consumed))
            (spared start stop (c.tokens.zipIdx.drop c.consumed)) := by
  intro c
  have within : c.consumed ≤ c.tokens.length := within_edited (Nat.zero_le _) edits
  refine ⟨within, checked_eq within, fun start stop => ?_⟩
  by_cases absent : start.consumed = 0 ∨ stop.consumed = 0
  · rw [if_pos absent, remove, if_pos absent]
  · rw [if_neg absent]
    exact remove_spared within (absent ∘ .inl) (absent ∘ .inr)

end CommandGrammar.Cursor
