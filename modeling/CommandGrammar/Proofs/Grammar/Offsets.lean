import CommandGrammar.Proofs.Grammar.Faithful

/-!
# Where tokens stand

A grammar that does not ask for the text of its line reads the values of the tokens only. Where they
stand in the line, and what else the line holds, shows in the place of an error at most.
-/

namespace CommandGrammar

/-- A cursor stands behind some values where another does without them, in tokens of the same values,
and at least so many tokens of the latter are consumed. -/
structure Cursor.Restated (front : List String) (low : Nat) (c d : Cursor) : Prop where
  values : d.values = front ++ c.values
  consumed : d.consumed = c.consumed + front.length
  within : c.Within
  least : low ≤ c.consumed

namespace Cursor.Restated

variable {front : List String} {low : Nat} {c d : Cursor}

theorem length (h : c.Restated front low d) : d.tokens.length = c.tokens.length + front.length := by
  simpa [Cursor.values, Nat.add_comm] using congrArg List.length h.values

theorem take (h : c.Restated front low d) (n : Nat) :
    (d.tokens.take (n + front.length)).map (·.value) =
      front ++ (c.tokens.take n).map (·.value) := by
  have values := h.values
  unfold Cursor.values at values
  rw [List.map_take, List.map_take, values, Nat.add_comm, List.take_length_add_append]

theorem drop (h : c.Restated front low d) (n : Nat) :
    (d.tokens.drop (n + front.length)).map (·.value) = (c.tokens.drop n).map (·.value) := by
  have values := h.values
  unfold Cursor.values at values
  rw [List.map_drop, List.map_drop, values, Nat.add_comm, List.drop_length_add_append]

theorem remaining (h : c.Restated front low d) : d.remaining = c.remaining := by
  rw [Cursor.remaining, Cursor.remaining, h.values, h.consumed, Nat.add_comm,
    List.drop_length_add_append]

/-- The cursors at another place in tokens of the same values. -/
theorem move (h : c.Restated front low d) {n high : Nat} (within : n ≤ c.tokens.length)
    (least : high ≤ n) :
    Restated front high { c with consumed := n } { d with consumed := n + front.length } :=
  ⟨h.values, rfl, within, least⟩

theorem within_other (h : c.Restated front low d) : d.Within := by
  have within := h.within
  simp only [Within] at within ⊢
  rw [h.consumed, h.length]
  omega

theorem step (h : c.Restated front low d) {v : String} {c' d' : Cursor}
    (here : c.next? = some (v, c')) (there : d.next? = some (v, d')) :
    c'.Restated front (low + 1) d' := by
  obtain ⟨rfl, inside⟩ := of_next? here
  obtain ⟨rfl, -⟩ := of_next? there
  rw [h.consumed, Nat.add_right_comm]
  exact h.move inside (Nat.succ_le_succ h.least)

theorem toEnd (h : c.Restated front low d) : c.toEnd.Restated front low d.toEnd := by
  have within := h.within
  have least := h.least
  simp only [Within] at within
  simp only [Cursor.toEnd, h.consumed, h.length, Nat.add_max_add_right]
  exact h.move (by omega) (by omega)

theorem insert (h : c.Restated front low d) (v : String) :
    (c.insert v).Restated front low (d.insert v) := by
  refine ⟨?_, h.consumed, ?_, h.least⟩
  · simp only [Cursor.values, Cursor.insert, List.map_append, List.map_cons, h.consumed, h.take,
      h.drop, List.append_assoc]
  · have within := h.within
    simp only [Within, Cursor.insert, List.length_append, List.length_take,
      List.length_cons] at within ⊢
    omega

theorem rewind (h : c.Restated front low d) {c' d' : Cursor}
    (h' : c'.Restated front c.consumed d') :
    (c'.rewind c.mark).Restated front c.consumed (d'.rewind d.mark) := by
  have passed := h'.least
  have within := h'.within
  simp only [Within] at within
  simp only [Cursor.rewind, mark, h.consumed, h'.length, Nat.add_min_add_right]
  exact h'.move (by omega) (by omega)

theorem remove (h : c.Restated front (low + 1) d) {c' d' : Cursor}
    (h' : c'.Restated front c.consumed d') :
    (c'.remove c.mark c'.mark).Restated front low (d'.remove d.mark d'.mark) := by
  have least := h.least
  have passed := h'.least
  have within := h'.within
  have consumed := h'.consumed
  have length := h'.length
  simp only [Within] at within
  obtain ⟨n, first⟩ : ∃ n, c.consumed = n + 1 := ⟨c.consumed - 1, by omega⟩
  have behind : d.consumed = n + front.length + 1 := by
    rw [h.consumed, first, Nat.add_right_comm]
  rw [remove_eq first rfl (by omega) (by omega), remove_eq behind rfl (by omega) (by omega)]
  refine ⟨?_, rfl, ?_, by dsimp only; omega⟩
  · simp only [Cursor.values, List.map_append, consumed, h'.take, h'.drop, List.append_assoc]
  · simp only [Within, List.length_append, List.length_take]
    omega

end Cursor.Restated

/-- Two lines with tokens of the same values, one of them behind others. -/
abbrev Pairing.behind (front : List String) : Pairing where
  Rel low c d := c.Restated front low d
  Ordered _ := True
  least h := h.least
  within h := ⟨h.within, h.within_other⟩
  weaken h le := ⟨h.values, h.consumed, h.within, Nat.le_trans le h.least⟩
  sharpen h := ⟨h.values, h.consumed, h.within, Nat.le_refl _⟩
  remaining h := h.remaining
  step h := h.step
  toEnd h := h.toEnd
  insert h _ v := h.insert v
  rewind h := h.rewind
  remove h := h.remove
  ordered_put _ := trivial

/-- Two lines with tokens of the same values. -/
abbrev Pairing.restated : Pairing :=
  .behind []

/-- Two lines with tokens of the same values are read alike by a grammar that does not ask for their
text, whatever the tokens' places and whatever else the lines hold: both are read with the same
values and up to the same place, or both are refused and the same is told. -/
theorem Element.parse_restated {e : Element} (env : Env) (textless : e.Every fun d => ¬ d.ReadsText)
    (context : Context) {c d : Cursor} (within : c.Within) (values : d.values = c.values)
    (consumed : d.consumed = c.consumed) :
    (∃ s t, e.parser.parse env ⟨c, context⟩ = .ok () s ∧ e.parser.parse env ⟨d, context⟩ = .ok () t ∧
      t.context = s.context ∧ t.cursor.values = s.cursor.values ∧
      t.cursor.consumed = s.cursor.consumed) ∨
    (∃ f g s t, e.parser.parse env ⟨c, context⟩ = .error f s ∧
      e.parser.parse env ⟨d, context⟩ = .error g t ∧ g.bare = f.bare ∧ g.usage = f.usage) := by
  have read := e.faithful (P := .restated) env (textless.imp fun d free text => absurd text free)
  have start : Pairing.restated.Agree 0 ⟨c, context⟩ ⟨d, context⟩ :=
    ⟨⟨values, consumed, within, Nat.zero_le _⟩, rfl, trivial⟩
  rcases (read 0 _ _ start).both with
    ⟨_, s, t, first, second, agree⟩ | ⟨f, g, s, t, first, second, alike, _⟩
  · exact .inl ⟨s, t, first, second, agree.context, agree.cursor.values, agree.cursor.consumed⟩
  · exact .inr ⟨f, g, s, t, first, second, alike.bare, alike.usage⟩

/-- A flag with an inline value and a word, written otherwise. -/
theorem Element.parse_restated_of_inline :
    let flags := ({} : FlagDeclarations).declare ["-n"] (some (.leaf "n" .integer))
    let e : Element := .flags flags.table flags.values (.allOf (.leaf "k" .string))
    let now : DateTime :=
      ⟨{ year := 2001, month := 2, day := 3 }, { hour := 4, minute := 5, second := 6, nano := 0 }⟩
    let env : Env := { source := { name := "ann" }, now }
    let c : Cursor := .ofTokens "a --n=5" [⟨"a", 0, 1⟩, ⟨"--n=5", 2, 7⟩]
    let d : Cursor := .ofTokens "  'a'   \"--n=5\"" [⟨"a", 2, 5⟩, ⟨"--n=5", 8, 15⟩]
    e.Every (fun d => ¬ d.ReadsText) ∧ c.Within ∧ d.values = c.values ∧ d.consumed = c.consumed ∧
      ∃ s t, e.parser.parse env ⟨c, .empty⟩ = .ok () s ∧ e.parser.parse env ⟨d, .empty⟩ = .ok () t ∧
        t.context = s.context ∧ t.cursor.values = s.cursor.values ∧
        t.cursor.consumed = s.cursor.consumed := by
  intro flags e now env c d
  have textless : e.Every fun d => ¬ d.ReadsText := by
    have leaf : ∀ key l, l ≠ .remaining true → (Element.leaf key l).Every fun d => ¬ d.ReadsText := by
      intro key l other
      refine ⟨?_, fun _ h => nomatch h⟩
      cases l with
      | remaining raw => cases raw <;> simp_all [Element.ReadsText]
      | _ => exact not_false
    refine ⟨not_false, fun d hd => ?_⟩
    rcases List.mem_cons.mp hd with rfl | hd
    · refine ⟨not_false, fun d hd => ?_⟩
      rw [List.mem_singleton.mp hd]
      exact leaf _ _ (by decide)
    · rw [List.mem_singleton.mp hd]
      exact leaf _ _ (by decide)
  have within : c.Within := Nat.zero_le _
  refine ⟨textless, within, rfl, rfl, ?_⟩
  have taken : (e.parser.parse env).end? ⟨c, .empty⟩ = some ⟨"a --n=5", [⟨"a", 0, 1⟩], 1⟩ := by
    decide +kernel
  obtain ⟨_, u, read, -⟩ := Reading.of_end? taken
  rcases Element.parse_restated env textless .empty within (d := d) rfl rfl with
    ⟨s, t, alike⟩ | ⟨f, g, s, t, first, _⟩
  · exact ⟨s, t, alike⟩
  · cases read.symm.trans first

end CommandGrammar
