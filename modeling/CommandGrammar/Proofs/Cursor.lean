import CommandGrammar.Cursor

/-!
# Cursors between tokens

A cursor stands between the tokens that it consumed and those that are left. Reading, editing and
going back are said here by these two lists.
-/

namespace CommandGrammar.Cursor

section Left

variable {c d : Cursor} {v : String}

theorem peek?_eq_head? (c : Cursor) : c.peek? = c.remaining.head? := by
  rw [peek?, remaining, values, List.head?_drop, List.getElem?_map]

theorem hasNext_eq_false_iff : c.hasNext = false ↔ c.remaining = [] := by
  rw [Bool.eq_false_iff, Ne, hasNext_iff, Classical.not_not]

theorem hasNext_of_next?_some (h : c.next? = some (v, d)) : c.hasNext = true := by
  rw [hasNext_iff, remaining_of_next? h]
  exact List.cons_ne_nil _ _

theorem hasNext_of_next?_none (h : c.next? = none) : c.hasNext = false :=
  hasNext_eq_false_iff.2 (next?_eq_none_iff.1 h)

theorem of_next? (h : c.next? = some (v, d)) :
    d = { c with consumed := c.consumed + 1 } ∧ c.consumed < c.tokens.length := by
  have more := hasNext_of_next?_some h
  obtain ⟨_, -, next⟩ := Option.map_eq_some_iff.mp h
  exact ⟨(Prod.mk.inj next).2.symm, of_decide_eq_true more⟩

theorem tokens_of_next? (h : c.next? = some (v, d)) : d.tokens = c.tokens := by
  rw [(of_next? h).1]

theorem length_tokens_insert (c : Cursor) (v : String) :
    (c.insert v).tokens.length = c.tokens.length + 1 := by
  simp only [insert, List.length_append, List.length_cons, List.length_take, List.length_drop]
  omega

theorem next?_of_hasNext (h : c.hasNext = true) : ∃ v d, c.next? = some (v, d) := by
  cases there : c.next? with
  | none => simp [hasNext_of_next?_none there] at h
  | some p => exact ⟨p.1, p.2, rfl⟩

theorem next?_of_remaining {vs : List String} (h : c.remaining = v :: vs) :
    ∃ d, c.next? = some (v, d) ∧ d.remaining = vs := by
  cases there : c.next? with
  | none =>
      rw [next?_eq_none_iff.mp there] at h
      cases h
  | some p =>
      obtain ⟨w, d⟩ := p
      rw [remaining_of_next? there, List.cons.injEq] at h
      obtain ⟨rfl, behind⟩ := h
      exact ⟨d, rfl, behind⟩

theorem hasNext_of_remaining (h : d.remaining = c.remaining) : d.hasNext = c.hasNext := by
  rw [Bool.eq_iff_iff, hasNext_iff, hasNext_iff, h]

theorem weight_of_remaining (h : d.remaining = c.remaining) : d.weight = c.weight := by
  have told : ∀ c : Cursor, c.weight = c.remaining.foldr (fun v n => v.length + 1 + n) 0 := by
    intro c
    simp only [weight, remaining, values, ← List.map_drop, List.foldr_map]
  rw [told, told, h]

end Left

/-- The cursor of a line between some tokens and others. -/
def between (raw : String) (before after : List Token) : Cursor :=
  ⟨raw, before ++ after, before.length⟩

variable {raw : String} {before after : List Token}

@[simp] theorem remaining_between : (between raw before after).remaining = after.map (·.value) := by
  simp [remaining, values, between]

@[simp] theorem hasNext_between : (between raw before after).hasNext = !after.isEmpty := by
  cases after <;> simp [hasNext, between]

@[simp] theorem next?_between_cons {t : Token} :
    (between raw before (t :: after)).next? =
      some (t.value, between raw (before ++ [t]) after) := by
  simp [next?, peek?, between]

@[simp] theorem next?_between_nil : (between raw before []).next? = none := by
  simp [next?, peek?, between]

@[simp] theorem consumed_between : (between raw before after).consumed = before.length := rfl

/-- No token counts less than one. -/
theorem length_le_weight_between : after.length ≤ (between raw before after).weight := by
  unfold weight between
  rw [List.drop_left]
  induction after with
  | nil => simp
  | cons t after ih =>
      simp only [List.length_cons, List.foldr_cons]
      omega

theorem rewind_between {read : List Token} {m : Mark} (h : m.consumed = before.length) :
    (between raw (before ++ read) after).rewind m = between raw before (read ++ after) := by
  simp [rewind, between, h]

/-- What was consumed behind a place is taken out, and the cursor stands there. -/
theorem remove_eq {c : Cursor} {start stop : Mark} {n : Nat} (first : start.consumed = n + 1)
    (last : stop.consumed = c.consumed) (passed : n < c.consumed) (within : n ≤ c.tokens.length) :
    c.remove start stop =
      { c with tokens := c.tokens.take n ++ c.tokens.drop c.consumed, consumed := n } := by
  have back : c.consumed - (c.consumed - n) = n := by omega
  have kept : n ≤ (c.tokens.take n ++ c.tokens.drop c.consumed).length := by
    rw [List.length_append, List.length_take]
    omega
  unfold remove
  rw [if_neg (by omega)]
  simp only [first, last, Nat.add_sub_cancel, passed, if_true]
  rw [if_neg (by omega), if_neg (Nat.lt_irrefl _), back, Nat.min_eq_left kept]

/-- No token is put in, and none changes its place. -/
theorem tokens_remove (c : Cursor) (start stop : Mark) :
    (c.remove start stop).tokens.Sublist c.tokens := by
  unfold remove
  split
  · exact .refl _
  · dsimp only
    split
    · rename_i passed
      have rest : (c.tokens.drop stop.consumed).Sublist (c.tokens.drop (start.consumed - 1)) :=
        List.drop_sublist_drop_left c.tokens (Nat.le_of_lt passed)
      have both := (List.Sublist.refl (c.tokens.take (start.consumed - 1))).append rest
      rw [List.take_append_drop] at both
      exact both
    · exact .refl _

/-- The tokens from the one that a flag was to the last that it consumed are taken out, and the
cursor stands where the flag was. -/
theorem remove_between {taken : List Token} {start stop : Mark} (nonempty : taken ≠ [])
    (first : start.consumed = before.length + 1)
    (last : stop.consumed = (before ++ taken).length) :
    (between raw (before ++ taken) after).remove start stop = between raw before after := by
  have pos := List.length_pos_iff.mpr nonempty
  have passed : before.length < (before ++ taken).length := by
    rw [List.length_append]
    omega
  rw [remove_eq first last passed (by simp [between])]
  simp [between, List.append_assoc]

end CommandGrammar.Cursor
