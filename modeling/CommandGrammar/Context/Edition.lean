import CommandGrammar.Context

/-!
# Editions of a context

A context that is changed step by step goes through editions, which are numbered as they are made.
A snapshot keeps one edition, and going back to it brings that edition back. Two snapshots of one
edition are the same even if it holds a number that differs from itself.
-/

namespace CommandGrammar

/-- A context, the number of its edition, and the number of the newest edition made so far. -/
structure EditedContext where
  context : Context := .empty
  edition : Nat := 0
  newest : Nat := 0

/-- An edition that is kept. -/
structure ContextSnapshot where
  context : Context
  edition : Nat

instance : BEq ContextSnapshot :=
  ⟨fun a b => a.edition == b.edition || a.context == b.context⟩

namespace EditedContext

/-- The edition with one more value under a key, which no edition before it is. -/
def put (e : EditedContext) (key : String) (v : Value) : EditedContext where
  context := e.context.put key v
  edition := e.newest + 1
  newest := e.newest + 1

/-- Keeps the edition there is. -/
def snapshot (e : EditedContext) : ContextSnapshot :=
  ⟨e.context, e.edition⟩

/-- Goes back to an edition that was kept. -/
def restore (e : EditedContext) (s : ContextSnapshot) : EditedContext :=
  { e with context := s.context, edition := s.edition }

/-- Going back to the edition there is changes nothing. -/
theorem restore_snapshot (e : EditedContext) : e.restore e.snapshot = e := rfl

/-- What was gone back to is what is kept next. -/
theorem snapshot_restore (e : EditedContext) (s : ContextSnapshot) :
    (e.restore s).snapshot = s := rfl

/-- A snapshot is the same as itself, whatever values it holds. -/
theorem beq_snapshot_self (s : ContextSnapshot) : (s == s) = true := by
  simp [BEq.beq]

/-- No edition is numbered beyond the newest. -/
theorem edition_put_le (e : EditedContext) (key : String) (v : Value) :
    (e.put key v).edition ≤ (e.put key v).newest :=
  Nat.le_refl _

end EditedContext

end CommandGrammar
