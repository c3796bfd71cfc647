/-!
# Character ranges

A class of characters written as closed ranges of scalar values.
-/

namespace CommandGrammar.Text

/-- A set of characters, as closed ranges of scalar values. -/
structure Ranges where
  bounds : List (Nat × Nat)
  deriving DecidableEq, Repr

namespace Ranges

/-- A character belongs when some range holds its scalar value. -/
def contains (r : Ranges) (c : Char) : Bool :=
  r.bounds.any fun b => b.1 ≤ c.toNat && c.toNat ≤ b.2

/-- Both classes together. -/
def union (r s : Ranges) : Ranges :=
  ⟨r.bounds ++ s.bounds⟩

theorem contains_union (r s : Ranges) (c : Char) :
    (r.union s).contains c = (r.contains c || s.contains c) := by
  simp [contains, union]

end Ranges

end CommandGrammar.Text
