import CommandGrammar.Proofs.Grammar.Faithful
import CommandGrammar.Proofs.Token.Lead

/-!
# Reading behind a lead

A line is read behind a lead as it is read by itself. Two cursors are aligned when one stands in the
rest of a line where the other stands in that rest alone; what moves a cursor keeps them aligned, as
long as it is not before the first token of the rest.
-/

namespace CommandGrammar

namespace Lead

variable {l : Lead}

/-- A cursor in a line behind a lead stands where another does in that line alone, and at least so
many tokens of that are consumed. -/
structure Aligned (l : Lead) (low : Nat) (c d : Cursor) : Prop where
  raw : d.raw.toList = l.text ++ c.raw.toList
  tokens : d.tokens = l.tokens ++ c.tokens.map (·.shift l.text.length)
  consumed : d.consumed = l.tokens.length + c.consumed
  within : c.consumed ≤ c.tokens.length
  least : low ≤ c.consumed

namespace Aligned

variable {low : Nat} {c d : Cursor}

theorem weaken (h : l.Aligned low c d) {lower : Nat} (le : lower ≤ low) : l.Aligned lower c d :=
  ⟨h.raw, h.tokens, h.consumed, h.within, Nat.le_trans le h.least⟩

theorem sharpen (h : l.Aligned low c d) : l.Aligned c.consumed c d :=
  ⟨h.raw, h.tokens, h.consumed, h.within, Nat.le_refl _⟩

theorem drop_tokens (h : l.Aligned low c d) :
    d.tokens.drop d.consumed = (c.tokens.drop c.consumed).map (·.shift l.text.length) := by
  rw [h.tokens, h.consumed, List.drop_length_add_append, List.map_drop]

theorem take_tokens (h : l.Aligned low c d) (n : Nat) :
    d.tokens.take (l.tokens.length + n) =
      l.tokens ++ (c.tokens.take n).map (·.shift l.text.length) := by
  rw [h.tokens, List.take_length_add_append, List.map_take]

theorem remaining (h : l.Aligned low c d) : d.remaining = c.remaining := by
  simp only [Cursor.remaining, Cursor.values, ← List.map_drop, h.drop_tokens, List.map_map]
  rfl

theorem getElem? (h : l.Aligned low c d) (i : Nat) :
    d.tokens[l.tokens.length + i]? = c.tokens[i]?.map (·.shift l.text.length) := by
  rw [h.tokens, List.getElem?_append_right (Nat.le_add_right _ _), Nat.add_sub_cancel_left,
    List.getElem?_map]

theorem step (h : l.Aligned low c d) {v : String} {c' d' : Cursor} (here : c.next? = some (v, c'))
    (there : d.next? = some (v, d')) : l.Aligned (low + 1) c' d' := by
  obtain ⟨rfl, inside⟩ := Cursor.of_next? here
  obtain ⟨rfl, -⟩ := Cursor.of_next? there
  exact ⟨h.raw, h.tokens, by simp [h.consumed, Nat.add_assoc], inside, Nat.succ_le_succ h.least⟩

theorem within_behind (h : l.Aligned low c d) : d.consumed ≤ d.tokens.length := by
  have within := h.within
  rw [h.consumed, h.tokens, List.length_append, List.length_map]
  omega

theorem toEnd (h : l.Aligned low c d) : l.Aligned low c.toEnd d.toEnd := by
  have length : d.tokens.length = l.tokens.length + c.tokens.length := by simp [h.tokens]
  have above := h.within
  have consumed := h.consumed
  refine ⟨h.raw, h.tokens, ?_, ?_, Nat.le_trans h.least (Nat.le_max_left _ _)⟩
  · simp only [Cursor.toEnd, length]
    omega
  · simp only [Cursor.toEnd]
    omega

/-- The current token is there when at least one is consumed. -/
theorem current? (h : l.Aligned low c d) (some : 1 ≤ low) :
    ∃ t, c.current? = Option.some t ∧ d.current? = Option.some (t.shift l.text.length) := by
  have least := h.least
  have within := h.within
  have inside : c.consumed - 1 < c.tokens.length := by omega
  have before : d.consumed - 1 = l.tokens.length + (c.consumed - 1) := by
    have consumed := h.consumed
    omega
  have there := List.getElem?_eq_getElem inside
  refine ⟨c.tokens[c.consumed - 1], ?_, ?_⟩
  · rw [Cursor.current?, if_neg (by omega), there]
  · have consumed := h.consumed
    rw [Cursor.current?, if_neg (by omega), before, h.getElem?, there]
    rfl

theorem rawFromCurrent (h : l.Aligned low c d) (some : 1 ≤ low) :
    d.rawFromCurrent = c.rawFromCurrent := by
  obtain ⟨t, here, there⟩ := h.current? some
  have place : d.position = l.text.length + c.position := by
    simp [Cursor.position, here, there, Token.shift, Nat.add_comm]
  rw [Cursor.rawFromCurrent, Cursor.rawFromCurrent, h.raw, place, List.drop_length_add_append]

theorem insert (h : l.Aligned low c d) (some : 1 ≤ low) (v : String) :
    l.Aligned low (c.insert v) (d.insert v) := by
  obtain ⟨t, here, there⟩ := h.current? some
  refine ⟨h.raw, ?_, h.consumed, ?_, h.least⟩
  · simp only [Cursor.insert, here, there, Option.elim_some, h.drop_tokens]
    rw [h.consumed, h.take_tokens]
    simp [Token.shift]
  · have within := h.within
    simp only [Cursor.insert, List.length_append, List.length_take, List.length_cons]
    omega

/-- A cursor that went on from a place goes back to it. -/
theorem rewind (h : l.Aligned low c d) {c' d' : Cursor} (h' : l.Aligned c.consumed c' d') :
    l.Aligned c.consumed (c'.rewind c.mark) (d'.rewind d.mark) := by
  have passed := h'.least
  have within := h'.within
  have length : d'.tokens.length = l.tokens.length + c'.tokens.length := by simp [h'.tokens]
  have consumed := h.consumed
  refine ⟨h'.raw, h'.tokens, ?_, ?_, ?_⟩ <;> simp only [Cursor.rewind, Cursor.mark, length] <;> omega

/-- The tokens from the last one that was consumed at a place to the last one that is consumed now
are taken out, and the cursor stands before them. -/
theorem remove (h : l.Aligned (low + 1) c d) {c' d' : Cursor} (h' : l.Aligned c.consumed c' d') :
    l.Aligned low (c'.remove c.mark c'.mark) (d'.remove d.mark d'.mark) := by
  have least := h.least
  have passed := h'.least
  have within := h'.within
  obtain ⟨n, first⟩ : ∃ n, c.consumed = n + 1 := ⟨c.consumed - 1, by omega⟩
  have consumed : d.consumed = l.tokens.length + n + 1 := by rw [h.consumed, first, Nat.add_assoc]
  have behind : l.tokens.length + n < d'.consumed := by
    have consumed' := h'.consumed
    omega
  have inside : l.tokens.length + n ≤ d'.tokens.length := by
    simp only [h'.tokens, List.length_append, List.length_map]
    omega
  rw [Cursor.remove_eq first rfl (by omega) (by omega), Cursor.remove_eq consumed rfl behind inside]
  refine ⟨h'.raw, ?_, rfl, ?_, by simp only; omega⟩
  · simp only [h'.take_tokens, h'.drop_tokens, List.map_append, List.append_assoc]
  · simp only [List.length_append, List.length_take]
    omega

end Aligned

/-- A line behind a lead and that line alone. -/
abbrev pairing (l : Lead) : Pairing where
  Rel low c d := l.Aligned low c d
  Ordered context := context.values.WellFormed
  least h := h.least
  within h := ⟨h.within, h.within_behind⟩
  weaken h := h.weaken
  sharpen h := h.sharpen
  remaining h := h.remaining
  step h := h.step
  toEnd h := h.toEnd
  insert h := h.insert
  rewind h := h.rewind
  remove h := h.remove
  ordered_put h := h.insert _ _

/-- Aligned cursors and the same values read. -/
abbrev Agree (l : Lead) : Nat → State → State → Prop :=
  l.pairing.Agree

end Lead

/-- Reading goes on behind a lead as it does without it, whatever the command. -/
theorem Spec.faithful_populate {l : Lead} (s : Spec) (env : Env) :
    l.pairing.Faithful (s.behaviour.populate env) := by
  have text : l.pairing.SameText := fun _ _ _ aligned some => aligned.rawFromCurrent some
  exact Specified.faithful_populate
    (Element.faithful_grammar fun e _ => e.faithful env (.of_forall (fun _ _ => text) e))

end CommandGrammar
