import CommandGrammar.Proofs.Grammar.Loops

/-!
# Guarded readings

A guard is a property of states that no primitive reading breaks, with what is known of the words
that are read, of the keys that are stored under and of the errors that are told. Readings made of
guarded ones are guarded: where they succeed the state is safe, and where they fail it is safe and
the error tells what it should.
-/

namespace CommandGrammar

open Reading

/-- A property of states, the words that may be read in them, the keys that may be stored under,
what errors are to tell, and whether tokens may be put in and taken out. -/
structure Guard where
  Safe : State → Prop
  Word : String → Prop
  Key : String → Prop
  Tells : ParseError → Prop
  Edits : Prop
  next {s v c} : Safe s → s.cursor.next? = some (v, c) → Safe { s with cursor := c } ∧ Word v
  toEnd {s} : Safe s → Safe { s with cursor := s.cursor.toEnd }
  insert {s v} : Edits → Safe s → Word v → Safe { s with cursor := s.cursor.insert v }
  rewind {s t} : Safe s → Safe t → Safe { t with cursor := t.cursor.rewind s.cursor.mark }
  /-- The tokens from one that was read to the last one that is consumed are taken out. -/
  remove {s v c t} : Edits → Safe s → s.cursor.next? = some (v, c) → Safe t →
    Safe { t with cursor := t.cursor.remove c.mark t.cursor.mark }
  store {s key v} : Safe s → Key key → Safe { s with context := s.context.put key v }
  error {s} (message : String) : Safe s → Tells (s.cursor.error message)
  withUsage {e} (usage : String) : Tells e → Tells (e.withUsage usage)
  /-- The value written in the word of a flag may be put in as a word. -/
  inline {w flag name v} : Word w → w.toList = '-' :: '-' :: flag →
    FlagScanner.splitInline flag = (name, some v) → Word v

namespace Guard

variable {α β : Type}

/-- How a guarded reading may end. -/
def Allows (G : Guard) : EStateM.Result ParseError State α → Prop
  | .ok _ t => G.Safe t
  | .error e t => G.Safe t ∧ G.Tells e

/-- From a safe state a reading ends as it may. -/
def Keeps (G : Guard) (r : Reading α) : Prop :=
  ∀ s, G.Safe s → G.Allows (r s)

variable {G : Guard} {r : Reading α} {f : α → Reading β} {s t : State}

theorem Keeps.ok {a : α} (h : G.Keeps r) (safe : G.Safe s) (done : r s = .ok a t) : G.Safe t := by
  have ended := h s safe
  rw [done] at ended
  exact ended

theorem Keeps.error {e : ParseError} (h : G.Keeps r) (safe : G.Safe s) (failed : r s = .error e t) :
    G.Safe t ∧ G.Tells e := by
  have ended := h s safe
  rw [failed] at ended
  exact ended

theorem keeps_pure (a : α) : G.Keeps (Pure.pure a : Reading α) :=
  fun _ safe => safe

theorem keeps_reject (message : String) : G.Keeps (Reading.reject message : Reading α) :=
  fun _ safe => ⟨safe, G.error message safe⟩

theorem keeps_store {key : String} (allowed : G.Key key) (v : Value) :
    G.Keeps (Reading.store key v) :=
  fun _ safe => G.store safe allowed

theorem keeps_hasNext : G.Keeps Reading.hasNext :=
  fun _ safe => safe

theorem keeps_moveCursor {g : Cursor → Cursor}
    (h : ∀ s, G.Safe s → G.Safe { s with cursor := g s.cursor }) :
    G.Keeps (Reading.moveCursor g) :=
  h

theorem keeps_get {k : State → Reading β} (h : ∀ s, G.Safe s → G.Keeps (k s)) :
    G.Keeps ((MonadState.get : Reading State) >>= k) :=
  fun s safe => h s safe s safe

theorem keeps_bind (h : G.Keeps r) (rest : ∀ a, G.Keeps (f a)) : G.Keeps (r >>= f) := by
  intro s safe
  rw [bind_apply]
  cases done : r s with
  | ok a t => exact rest a t (h.ok safe done)
  | error e t => exact h.error safe done

/-- What follows the reading of a token may count on what is known of its word. -/
theorem keeps_next {f : String → Reading β} (rest : ∀ v, G.Word v → G.Keeps (f v)) :
    G.Keeps (Reading.next >>= f) := by
  intro s safe
  cases there : s.cursor.next? with
  | none =>
      rw [bind_of_error (next_of_none there)]
      exact ⟨safe, G.error _ safe⟩
  | some pair =>
      obtain ⟨v, c⟩ := pair
      obtain ⟨safe', word⟩ := G.next safe there
      rw [bind_of_ok (next_of_some there)]
      exact rest v word _ safe'

/-- What is read instead of a failure begins where that began, or ends where it ended. -/
theorem keeps_orElse {g : State → ParseError → State → EStateM.Result ParseError State α}
    (h : G.Keeps r)
    (other : ∀ s e t, G.Safe s → G.Safe t → G.Tells e → G.Allows (g s e t)) :
    G.Keeps (r.orElse g) := by
  intro s safe
  cases done : r s with
  | ok a t =>
      rw [orElse_of_ok done]
      exact h.ok safe done
  | error e t =>
      rw [orElse_of_error done]
      obtain ⟨safe', tells⟩ := h.error safe done
      exact other s e t safe safe' tells

/-- How a turn of a guarded loop may end: in a safe state, or as the loop may. -/
def AllowsTurn (G : Guard) : State ⊕ EStateM.Result ParseError State Unit → Prop
  | .inl t => G.Safe t
  | .inr ended => G.Allows ended

theorem keeps_run {turn : State → State ⊕ EStateM.Result ParseError State Unit}
    (turns : ∀ s, G.Safe s → G.AllowsTurn (turn s)) (steps : Nat) :
    G.Keeps (Loop.run turn (.ok ()) steps) := by
  induction steps with
  | zero => exact keeps_pure ()
  | succ steps ih =>
      intro s safe
      have one := turns s safe
      simp only [Loop.run]
      cases next : turn s with
      | inl t =>
          rw [next] at one
          exact ih t one
      | inr ended =>
          rw [next] at one
          exact one

end Guard

end CommandGrammar
