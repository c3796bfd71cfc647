import CommandGrammar.Grammar.Combinator

/-!
# Readings step by step

What each primitive reading does at a state, and how one reading goes on after another. Proofs about
parsers open a reading with these equations only.
-/

namespace CommandGrammar

namespace Reading

variable {α β : Type}

@[simp] theorem pure_apply (a : α) (s : State) : (pure a : Reading α) s = .ok a s := rfl

@[simp] theorem get_apply (s : State) : (get : Reading State) s = .ok s s := rfl

@[simp] theorem hasNext_apply (s : State) : hasNext s = .ok s.cursor.hasNext s := rfl

@[simp] theorem moveCursor_apply (f : Cursor → Cursor) (s : State) :
    moveCursor f s = .ok () { s with cursor := f s.cursor } := rfl

@[simp] theorem store_apply (key : String) (v : Value) (s : State) :
    store key v s = .ok () { s with context := s.context.put key v } := rfl

@[simp] theorem reject_apply (message : String) (s : State) :
    (reject message : Reading α) s = .error (s.cursor.error message) s := rfl

theorem next_of_some {s : State} {v : String} {c : Cursor} (h : s.cursor.next? = some (v, c)) :
    next s = .ok v { s with cursor := c } := by
  simp [next, h]

theorem next_of_none {s : State} (h : s.cursor.next? = none) :
    next s = .error s.cursor.exhausted s := by
  simp [next, h]

theorem next_eq_ok {s t : State} {v : String} :
    next s = .ok v t ↔ ∃ c, s.cursor.next? = some (v, c) ∧ { s with cursor := c } = t := by
  cases there : s.cursor.next? with
  | none => simp [next_of_none there]
  | some p =>
      rw [next_of_some there]
      simp only [EStateM.Result.ok.injEq, Option.some.injEq, Prod.ext_iff]
      constructor
      · rintro ⟨rfl, rfl⟩
        exact ⟨_, ⟨rfl, rfl⟩, rfl⟩
      · rintro ⟨_, ⟨rfl, rfl⟩, rfl⟩
        exact ⟨rfl, rfl⟩

/-! ## One reading after another -/

theorem bind_apply (r : Reading α) (f : α → Reading β) (s : State) :
    (r >>= f) s = match r s with
      | .ok a t => f a t
      | .error e t => .error e t := by
  change EStateM.bind r f s = _
  unfold EStateM.bind
  cases r s <;> rfl

theorem bind_of_ok {r : Reading α} {s t : State} {a : α} (h : r s = .ok a t) (f : α → Reading β) :
    (r >>= f) s = f a t := by
  rw [bind_apply, h]

theorem bind_of_error {r : Reading α} {s t : State} {e : ParseError} (h : r s = .error e t)
    (f : α → Reading β) : (r >>= f) s = .error e t := by
  rw [bind_apply, h]

/-- Two readings succeed together exactly when the second succeeds where the first ends. -/
theorem bind_eq_ok {r : Reading α} {f : α → Reading β} {s u : State} {b : β} :
    (r >>= f) s = .ok b u ↔ ∃ a t, r s = .ok a t ∧ f a t = .ok b u := by
  rw [bind_apply]
  constructor
  · intro h
    cases hr : r s with
    | ok a t => exact ⟨a, t, rfl, by simpa [hr] using h⟩
    | error e t => simp [hr] at h
  · rintro ⟨a, t, hr, hf⟩
    simp [hr, hf]

/-- They fail together when the first fails, or the second where the first ends. -/
theorem bind_eq_error {r : Reading α} {f : α → Reading β} {s u : State} {e : ParseError} :
    (r >>= f) s = .error e u ↔ r s = .error e u ∨ ∃ a t, r s = .ok a t ∧ f a t = .error e u := by
  rw [bind_apply]
  cases hr : r s with
  | error e' t => simp
  | ok a t =>
      constructor
      · exact fun second => .inr ⟨a, t, rfl, second⟩
      · rintro (⟨⟨⟩⟩ | ⟨_, _, ⟨⟩, second⟩)
        exact second

theorem orElse_of_ok {r : Reading α} {s t : State} {a : α} (h : r s = .ok a t)
    (f : State → ParseError → State → EStateM.Result ParseError State α) :
    r.orElse f s = .ok a t := by
  simp [orElse, h]

theorem orElse_of_error {r : Reading α} {s t : State} {e : ParseError} (h : r s = .error e t)
    (f : State → ParseError → State → EStateM.Result ParseError State α) :
    r.orElse f s = f s e t := by
  simp [orElse, h]

/-! ## Where a reading ends -/

/-- The cursor that a reading leaves, unless it fails. -/
def end? (r : Reading α) (s : State) : Option Cursor :=
  match r s with
  | .ok _ t => some t.cursor
  | .error _ _ => none

theorem of_end? {r : Reading α} {s : State} {c : Cursor} (h : r.end? s = some c) :
    ∃ a t, r s = .ok a t ∧ t.cursor = c := by
  unfold end? at h
  split at h
  · exact ⟨_, _, ‹_›, Option.some.inj h⟩
  · cases h

end Reading

/-! ## Parts that may be absent -/

namespace Parser

open Reading

variable {p : Parser} (default : Option Value) (weak : Bool) {env : Env} {s t : State}
  {e : ParseError}

/-- The value of an absent part changes the context only. -/
theorem storeDefault_eq_ok (p : Parser) (s : State) :
    ∃ context, p.storeDefault default s = .ok () { s with context } := by
  cases key : p.key with
  | none => exact ⟨s.context, by simp [storeDefault, key]⟩
  | some k =>
      cases default with
      | none => exact ⟨s.context, by simp [storeDefault, key]⟩
      | some v => exact ⟨s.context.put k v, by simp [storeDefault, key]⟩

theorem parse_optional_of_spent (spent : s.cursor.hasNext = false) :
    (p.optional default weak).parse env s = p.storeDefault default s := by
  change (hasNext >>= _) s = _
  rw [bind_of_ok (hasNext_apply s), spent]
  rfl

theorem parse_optional_of_ok (more : s.cursor.hasNext = true) (read : p.parse env s = .ok () t) :
    (p.optional default weak).parse env s = .ok () t := by
  change (hasNext >>= _) s = _
  rw [bind_of_ok (hasNext_apply s), more, if_pos rfl]
  exact orElse_of_ok read _

/-- Whether a failure counts as absence is told where it left the cursor. -/
theorem parse_optional_of_error (more : s.cursor.hasNext = true)
    (failed : p.parse env s = .error e t) :
    (p.optional default weak).parse env s =
      if weak || t.cursor.hasNext then p.storeDefault default s else .error e t := by
  change (hasNext >>= _) s = _
  rw [bind_of_ok (hasNext_apply s), more, if_pos rfl]
  exact orElse_of_error failed _

end Parser

end CommandGrammar
