import CommandGrammar.Proofs.Reading

/-!
# Traces of readings

A reading that does not look at the values read before leaves a trace: how it ends, where it leaves
the cursor, and the pairs it puts behind whatever the context holds. The trace is a matter of the
cursor alone.
-/

namespace CommandGrammar

namespace Context

/-- The context with pairs put behind what it holds, one after the other. -/
def putAll (c : Context) (pairs : List (String × Value)) : Context :=
  pairs.foldl (fun c p => c.put p.1 p.2) c

@[simp] theorem putAll_nil (c : Context) : c.putAll [] = c := rfl

@[simp] theorem putAll_singleton (c : Context) (key : String) (v : Value) :
    c.putAll [(key, v)] = c.put key v := rfl

theorem putAll_append (c : Context) (ps qs : List (String × Value)) :
    c.putAll (ps ++ qs) = (c.putAll ps).putAll qs := by
  simp [putAll]

end Context

/-- How a reading ends, where it leaves the cursor, and the pairs it puts. -/
structure Trace (α : Type) where
  result : Except ParseError α
  cursor : Cursor
  pairs : List (String × Value)

/-- The outcome of a reading with a trace that began with a context. -/
def Trace.onto {α : Type} (t : Trace α) (context : Context) :
    EStateM.Result ParseError State α :=
  match t.result with
  | .ok a => .ok a ⟨t.cursor, context.putAll t.pairs⟩
  | .error e => .error e ⟨t.cursor, context.putAll t.pairs⟩

namespace Reading

variable {α β : Type}

/-- From a cursor the reading leaves a trace, whatever the context. -/
def Leaves (r : Reading α) (c : Cursor) (t : Trace α) : Prop :=
  ∀ context, r ⟨c, context⟩ = t.onto context

/-- From every cursor the reading leaves a trace, and what it puts satisfies a predicate. -/
def Puts (P : List (String × Value) → Prop) (r : Reading α) : Prop :=
  ∀ c, ∃ t, r.Leaves c t ∧ P t.pairs

/-! ## Primitive readings -/

theorem leaves_pure (a : α) (c : Cursor) : (pure a : Reading α).Leaves c ⟨.ok a, c, []⟩ :=
  fun _ => rfl

theorem leaves_store (key : String) (v : Value) (c : Cursor) :
    (store key v).Leaves c ⟨.ok (), c, [(key, v)]⟩ :=
  fun _ => rfl

theorem leaves_reject (message : String) (c : Cursor) :
    (reject message : Reading α).Leaves c ⟨.error (c.error message), c, []⟩ :=
  fun _ => rfl

theorem leaves_moveCursor (f : Cursor → Cursor) (c : Cursor) :
    (moveCursor f).Leaves c ⟨.ok (), f c, []⟩ :=
  fun _ => rfl

theorem leaves_hasNext (c : Cursor) : hasNext.Leaves c ⟨.ok c.hasNext, c, []⟩ :=
  fun _ => rfl

theorem leaves_next_some {c d : Cursor} {v : String} (h : c.next? = some (v, d)) :
    next.Leaves c ⟨.ok v, d, []⟩ := fun _ => next_of_some h

theorem leaves_next_none {c : Cursor} (h : c.next? = none) :
    next.Leaves c ⟨.error c.exhausted, c, []⟩ := fun _ => next_of_none h

/-! ## One reading after another -/

theorem Leaves.bind_ok {r : Reading α} {f : α → Reading β} {c d : Cursor} {a : α}
    {ps : List (String × Value)} {t : Trace β} (hr : r.Leaves c ⟨.ok a, d, ps⟩)
    (hf : (f a).Leaves d t) : (r >>= f).Leaves c ⟨t.result, t.cursor, ps ++ t.pairs⟩ := by
  intro context
  rw [bind_of_ok (hr context), hf, Trace.onto, Trace.onto]
  cases t.result <;> simp [Context.putAll_append]

theorem Leaves.bind_error {r : Reading α} {c d : Cursor} {e : ParseError}
    {ps : List (String × Value)} (hr : r.Leaves c ⟨.error e, d, ps⟩) (f : α → Reading β) :
    (r >>= f).Leaves c ⟨.error e, d, ps⟩ :=
  fun context => bind_of_error (hr context) f

/-- What looks at the state may look at its cursor. -/
theorem Leaves.get_bind {k : Cursor → Reading β} {c : Cursor} {t : Trace β} (h : (k c).Leaves c t) :
    ((get : Reading State) >>= fun s => k s.cursor).Leaves c t :=
  fun context => h context

theorem Leaves.orElse_ok {r : Reading α} {c d : Cursor} {a : α} {ps : List (String × Value)}
    (hr : r.Leaves c ⟨.ok a, d, ps⟩)
    (f : State → ParseError → State → EStateM.Result ParseError State α) :
    (r.orElse f).Leaves c ⟨.ok a, d, ps⟩ :=
  fun context => orElse_of_ok (hr context) f

theorem Leaves.orElse_error {r : Reading α} {c d : Cursor} {e : ParseError}
    {ps : List (String × Value)} {t : Trace α} (hr : r.Leaves c ⟨.error e, d, ps⟩)
    {f : State → ParseError → State → EStateM.Result ParseError State α}
    (hf : ∀ context, f ⟨c, context⟩ e ⟨d, context.putAll ps⟩ = t.onto context) :
    (r.orElse f).Leaves c t := by
  intro context
  rw [orElse_of_error (hr context)]
  exact hf context

/-! ## Predicates of what is put -/

/-- The predicate is true of no pairs, and of pairs put behind others. -/
structure Additive (P : List (String × Value) → Prop) : Prop where
  nil : P []
  append {ps qs : List (String × Value)} (hp : P ps) (hq : P qs) : P (ps ++ qs)

/-- Nothing is asked of the pairs. -/
theorem free : Additive fun _ => True := ⟨trivial, fun _ _ => trivial⟩

/-- From every cursor the reading leaves a trace. -/
abbrev WriteOnly (r : Reading α) : Prop :=
  r.Puts fun _ => True

theorem puts_store {P : List (String × Value) → Prop} {key : String} {v : Value}
    (h : P [(key, v)]) : (store key v).Puts P :=
  fun c => ⟨_, leaves_store key v c, h⟩

theorem Puts.get_bind {P : List (String × Value) → Prop} {k : Cursor → Reading β}
    (h : ∀ c, (k c).Puts P) : ((get : Reading State) >>= fun s => k s.cursor).Puts P := by
  intro c
  obtain ⟨t, ht, hp⟩ := h c c
  exact ⟨t, ht.get_bind, hp⟩

namespace Additive

variable {P : List (String × Value) → Prop} (h : Additive P)

include h

theorem pure (a : α) : (Pure.pure a : Reading α).Puts P :=
  fun c => ⟨_, leaves_pure a c, h.nil⟩

theorem reject (message : String) : (Reading.reject message : Reading α).Puts P :=
  fun c => ⟨_, leaves_reject message c, h.nil⟩

theorem moveCursor (f : Cursor → Cursor) : (Reading.moveCursor f).Puts P :=
  fun c => ⟨_, leaves_moveCursor f c, h.nil⟩

theorem hasNext : Reading.hasNext.Puts P :=
  fun c => ⟨_, leaves_hasNext c, h.nil⟩

theorem next : Reading.next.Puts P := by
  intro c
  cases there : c.next? with
  | none => exact ⟨_, leaves_next_none there, h.nil⟩
  | some p => exact ⟨_, leaves_next_some there, h.nil⟩

theorem bind {r : Reading α} {f : α → Reading β} (hr : r.Puts P) (hf : ∀ a, (f a).Puts P) :
    (r >>= f).Puts P := by
  intro c
  obtain ⟨⟨result, d, ps⟩, first, hp⟩ := hr c
  cases result with
  | ok a =>
      obtain ⟨t, ht, hq⟩ := hf a d
      exact ⟨_, first.bind_ok ht, h.append hp hq⟩
  | error e => exact ⟨_, first.bind_error f, hp⟩

end Additive

/-! ## One way or not at all -/

/-- From a cursor the reading gives a value, leaves the cursor at a place and puts some pairs; or,
where there are no pairs to be put, it fails. -/
def Yields (r : Reading α) (c : Cursor) (a : α) (d : Cursor) :
    Option (List (String × Value)) → Prop
  | some pairs => r.Leaves c ⟨.ok a, d, pairs⟩
  | none => ∃ e u pairs, r.Leaves c ⟨.error e, u, pairs⟩

theorem yields_pure (a : α) (c : Cursor) : (pure a : Reading α).Yields c a c (some []) :=
  leaves_pure a c

theorem yields_store (key : String) (v : Value) (c : Cursor) :
    (store key v).Yields c () c (some [(key, v)]) :=
  leaves_store key v c

theorem yields_reject (message : String) (c d : Cursor) (a : α) :
    (reject message : Reading α).Yields c a d none :=
  ⟨_, _, _, leaves_reject message c⟩

/-- The pairs of one thing and then of another. -/
def both (ps qs : Option (List (String × Value))) : Option (List (String × Value)) :=
  ps.bind fun ps => qs.map fun qs => ps ++ qs

theorem both_assoc (ps qs rs : Option (List (String × Value))) :
    both (both ps qs) rs = both ps (both qs rs) := by
  cases ps <;> cases qs <;> cases rs <;> simp [both]

@[simp] theorem both_nil (ps : Option (List (String × Value))) : both ps (some []) = ps := by
  cases ps <;> simp [both]

@[simp] theorem nil_both (ps : Option (List (String × Value))) : both (some []) ps = ps := by
  cases ps <;> simp [both]

theorem Yields.get_bind {k : Cursor → Reading β} {c u : Cursor} {b : β}
    {ps : Option (List (String × Value))} (h : (k c).Yields c b u ps) :
    ((get : Reading State) >>= fun s => k s.cursor).Yields c b u ps := by
  cases ps with
  | none =>
      obtain ⟨e, v, pairs, h⟩ := h
      exact ⟨e, v, pairs, Leaves.get_bind h⟩
  | some ps => exact Leaves.get_bind h

theorem Yields.bind {r : Reading α} {f : α → Reading β} {c d u : Cursor} {a : α} {b : β}
    {ps qs : Option (List (String × Value))} (hr : r.Yields c a d ps) (hf : (f a).Yields d b u qs) :
    (r >>= f).Yields c b u (both ps qs) := by
  cases ps with
  | none =>
      obtain ⟨e, v, pairs, h⟩ := hr
      exact ⟨e, v, pairs, h.bind_error f⟩
  | some ps =>
      cases qs with
      | none =>
          obtain ⟨e, v, pairs, h⟩ := hf
          exact ⟨e, v, _, hr.bind_ok h⟩
      | some qs => exact hr.bind_ok hf

theorem Yields.bind_leaves {r : Reading α} {f : α → Reading β} {c d u : Cursor} {a : α} {b : β}
    {qs : Option (List (String × Value))} (hr : r.Leaves c ⟨.ok a, d, []⟩)
    (hf : (f a).Yields d b u qs) : (r >>= f).Yields c b u qs := by
  have h : r.Yields c a d (some []) := hr
  simpa using h.bind hf

end Reading

end CommandGrammar
