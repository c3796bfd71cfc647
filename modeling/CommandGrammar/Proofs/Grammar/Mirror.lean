import CommandGrammar.Proofs.Grammar.Progress

/-!
# Reading two lines alike

Two cursors may stand for each other in two lines, in such a way that what moves the one and what
moves the other keep them so. A reading then does the same to both: it ends with the same values, or
it fails and tells the same. A bound from below on what is consumed goes with such cursors, since the
word of a flag must be there when its value is put in or taken out.
-/

namespace CommandGrammar

/-- Errors that tell the same, perhaps of different places. -/
structure ParseError.Alike (e e' : ParseError) : Prop where
  bare : e'.bare = e.bare
  usage : e'.usage = e.usage

/-- Cursors of two lines that stand for each other while at least so many tokens of the first are
consumed, and what is known of the values read. -/
structure Pairing where
  Rel : Nat → Cursor → Cursor → Prop
  Ordered : Context → Prop
  least {low c d} : Rel low c d → low ≤ c.consumed
  within {low c d} : Rel low c d → c.Within ∧ d.Within
  weaken {low lower c d} : Rel low c d → lower ≤ low → Rel lower c d
  sharpen {low c d} : Rel low c d → Rel c.consumed c d
  remaining {low c d} : Rel low c d → d.remaining = c.remaining
  step {low c d v c' d'} : Rel low c d → c.next? = some (v, c') → d.next? = some (v, d') →
    Rel (low + 1) c' d'
  toEnd {low c d} : Rel low c d → Rel low c.toEnd d.toEnd
  insert {low c d} : Rel low c d → 1 ≤ low → ∀ v, Rel low (c.insert v) (d.insert v)
  /-- Cursors that went on from a place go back to it. -/
  rewind {low c d c' d'} : Rel low c d → Rel c.consumed c' d' →
    Rel c.consumed (c'.rewind c.mark) (d'.rewind d.mark)
  /-- The tokens from the last one that was consumed at a place to the last one that is consumed now
  are taken out, and the cursors stand before them. -/
  remove {low c d c' d'} : Rel (low + 1) c d → Rel c.consumed c' d' →
    Rel low (c'.remove c.mark c'.mark) (d'.remove d.mark d'.mark)
  ordered_put {context key v} : Ordered context → Ordered (context.put key v)

namespace Pairing

open Reading

variable {P : Pairing}

section Cursors

variable {low : Nat} {c d : Cursor}

theorem hasNext (h : P.Rel low c d) : d.hasNext = c.hasNext :=
  Cursor.hasNext_of_remaining (P.remaining h)

theorem weight (h : P.Rel low c d) : d.weight = c.weight :=
  Cursor.weight_of_remaining (P.remaining h)

theorem next? (h : P.Rel low c d) :
    (c.next? = none ∧ d.next? = none) ∨
      ∃ v c' d', c.next? = some (v, c') ∧ d.next? = some (v, d') ∧ P.Rel (low + 1) c' d' := by
  have same := P.remaining h
  cases here : c.next? with
  | none =>
      rw [Cursor.next?_eq_none_iff.mp here] at same
      exact .inl ⟨rfl, Cursor.next?_eq_none_iff.mpr same⟩
  | some p =>
      obtain ⟨v, c'⟩ := p
      rw [Cursor.remaining_of_next? here] at same
      cases there : d.next? with
      | none => simp [Cursor.next?_eq_none_iff.mp there] at same
      | some q =>
          obtain ⟨w, d'⟩ := q
          rw [Cursor.remaining_of_next? there, List.cons.injEq] at same
          obtain ⟨rfl, -⟩ := same
          exact .inr ⟨w, c', d', rfl, rfl, P.step h here there⟩

/-- Cursors that went on have moved in both lines or in neither, as what is left tells. -/
theorem mark_eq (h : P.Rel low c d) {low' : Nat} {c' d' : Cursor} (h' : P.Rel low' c' d')
    (onward : c.Onward c') (onward' : d.Onward d') : d'.mark = d.mark ↔ c'.mark = c.mark := by
  rw [onward.mark_eq_iff, onward'.mark_eq_iff, weight h, weight h']

end Cursors

/-! ## Readings of the two lines -/

/-- Cursors that stand for each other, and the same values read. -/
structure Agree (P : Pairing) (low : Nat) (s t : State) : Prop where
  cursor : P.Rel low s.cursor t.cursor
  context : t.context = s.context
  ordered : P.Ordered s.context

theorem Agree.weaken {low lower : Nat} {s t : State} (h : P.Agree low s t) (le : lower ≤ low) :
    P.Agree lower s t :=
  ⟨P.weaken h.cursor le, h.context, h.ordered⟩

theorem Agree.move {low high : Nat} {s t : State} (h : P.Agree low s t) {c d : Cursor}
    (rel : P.Rel high c d) :
    P.Agree high { s with cursor := c } { t with cursor := d } :=
  ⟨rel, h.context, h.ordered⟩

variable {α β : Type}

/-- Both readings end, or both fail and tell the same. -/
inductive Ends (P : Pairing) (high : Nat) :
    EStateM.Result ParseError State α → EStateM.Result ParseError State α → Prop
  | ok {a s t} (agree : P.Agree high s t) : Ends P high (.ok a s) (.ok a t)
  | error {e e' s t} (alike : e.Alike e') (agree : P.Agree 0 s t) :
      Ends P high (.error e s) (.error e' t)

/-- One reading does to the first line what another does to the second, if at least so many tokens
are consumed before and afterwards. -/
def Mirrors (P : Pairing) (low high : Nat) (r r' : Reading α) : Prop :=
  ∀ s t, P.Agree low s t → P.Ends high (r s) (r' t)

theorem Ends.weaken {high lower : Nat} {x y : EStateM.Result ParseError State α}
    (h : P.Ends high x y) (le : lower ≤ high) : P.Ends lower x y := by
  cases h with
  | ok agree => exact .ok (agree.weaken le)
  | error alike agree => exact .error alike agree

theorem Ends.both {high : Nat} {x y : EStateM.Result ParseError State α} (h : P.Ends high x y) :
    (∃ a s t, x = .ok a s ∧ y = .ok a t ∧ P.Agree high s t) ∨
      ∃ e e' s t, x = .error e s ∧ y = .error e' t ∧ e.Alike e' ∧ P.Agree 0 s t := by
  cases h with
  | ok agree => exact .inl ⟨_, _, _, rfl, rfl, agree⟩
  | error alike agree => exact .inr ⟨_, _, _, _, rfl, rfl, alike, agree⟩

namespace Mirrors

variable {low mid high : Nat} {r r' : Reading α}

theorem weaken (h : P.Mirrors low high r r') {more less : Nat} (above : low ≤ more)
    (below : less ≤ high) : P.Mirrors more less r r' :=
  fun s t agree => (h s t (agree.weaken above)).weaken below

theorem pure (a : α) : P.Mirrors low low (Pure.pure a : Reading α) (Pure.pure a) :=
  fun _ _ agree => .ok agree

theorem reject (message : String) :
    P.Mirrors low high (Reading.reject message : Reading α) (Reading.reject message) :=
  fun _ _ agree => .error ⟨rfl, rfl⟩ (agree.weaken (Nat.zero_le _))

theorem store (key : String) (v : Value) :
    P.Mirrors low low (Reading.store key v) (Reading.store key v) := by
  intro s t agree
  refine .ok ⟨agree.cursor, ?_, P.ordered_put agree.ordered⟩
  simp only [agree.context]

theorem hasNext : P.Mirrors low low Reading.hasNext Reading.hasNext := by
  intro s t agree
  simp only [hasNext_apply, P.hasNext agree.cursor]
  exact .ok agree

theorem moveCursor {f g : Cursor → Cursor}
    (h : ∀ c d, P.Rel low c d → P.Rel high (f c) (g d)) :
    P.Mirrors low high (Reading.moveCursor f) (Reading.moveCursor g) :=
  fun s t agree => .ok (agree.move (h s.cursor t.cursor agree.cursor))

theorem next : P.Mirrors low (low + 1) Reading.next Reading.next := by
  intro s t agree
  rcases P.next? agree.cursor with ⟨here, there⟩ | ⟨v, c, d, here, there, rel⟩
  · rw [next_of_none here, next_of_none there]
    exact .error ⟨rfl, rfl⟩ (agree.weaken (Nat.zero_le _))
  · rw [next_of_some here, next_of_some there]
    exact .ok (agree.move rel)

theorem bind {f f' : α → Reading β} (h : P.Mirrors low mid r r')
    (rest : ∀ a, P.Mirrors mid high (f a) (f' a)) : P.Mirrors low high (r >>= f) (r' >>= f') := by
  intro s t agree
  rw [bind_apply, bind_apply]
  have ended := h s t agree
  generalize r s = x at ended ⊢
  generalize r' t = y at ended ⊢
  cases ended with
  | ok agree => exact rest _ _ _ agree
  | error alike agree => exact .error alike agree

/-- What looks at the state sees such cursors, and how much is consumed where it looks. -/
theorem get {k k' : State → Reading β}
    (h : ∀ s t, P.Agree low s t → P.Mirrors s.cursor.consumed high (k s) (k' t)) :
    P.Mirrors low high ((MonadState.get : Reading State) >>= k) (MonadState.get >>= k') := by
  intro s t agree
  exact h s t agree s t (agree.move (P.sharpen agree.cursor))

theorem orElse {f f' : State → ParseError → State → EStateM.Result ParseError State α}
    (h : P.Mirrors low high r r')
    (other : ∀ s t e e' u v, P.Agree low s t → e.Alike e' → P.Agree 0 u v →
      P.Ends high (f s e u) (f' t e' v)) : P.Mirrors low high (r.orElse f) (r'.orElse f') := by
  intro s t agree
  unfold Reading.orElse
  have ended := h s t agree
  generalize r s = x at ended ⊢
  generalize r' t = y at ended ⊢
  cases ended with
  | ok after => exact .ok after
  | error alike after => exact other _ _ _ _ _ _ agree alike after

end Mirrors

/-- A reading does the same to both lines, and never goes back before where it began. -/
def Faithful (P : Pairing) (r : Reading α) : Prop :=
  ∀ low, P.Mirrors low low r r

namespace Faithful

theorem mirrors {r : Reading α} (h : P.Faithful r) {low high : Nat} (le : high ≤ low) :
    P.Mirrors low high r r :=
  (h low).weaken (Nat.le_refl low) le

theorem pure (a : α) : P.Faithful (Pure.pure a : Reading α) :=
  fun _ => Mirrors.pure a

theorem store (key : String) (v : Value) : P.Faithful (Reading.store key v) :=
  fun _ => Mirrors.store key v

end Faithful

/-- Behind a token that was read, the text of the line is the same in both lines. -/
def SameText (P : Pairing) : Prop :=
  ∀ ⦃low c d⦄, P.Rel low c d → 1 ≤ low → d.rawFromCurrent = c.rawFromCurrent

end Pairing

/-- The element itself asks for the text of the line: as its value, or for a subcommand without a
grammar. -/
def Element.ReadsText : Element → Prop
  | .leaf _ (.remaining true) => True
  | .child n => ∃ c ∈ n.commands.callables, ∀ s, c ≠ .spec s
  | _ => False

end CommandGrammar
