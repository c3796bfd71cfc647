import CommandGrammar.Pattern.Word
import CommandGrammar.Text.Blank
import CommandGrammar.Text.Case

/-!
# Patterns

Regular expressions over characters. A pattern is matched by the set of places where a match can
end. A repetition takes at most as many steps as there are places: among more steps some stay where
they are, and those may as well be left out.
-/

namespace CommandGrammar

/-- A set of characters. -/
inductive CharClass where
  | range (first last : Nat)
  | digit
  | word
  | blank
  | complement (c : CharClass)
  | union (c d : CharClass)
  | inter (c d : CharClass)
  deriving DecidableEq, Repr

namespace CharClass

def none : CharClass := .range 1 0

def single (c : Char) : CharClass := .range c.toNat c.toNat

/-- Any character that does not end a line. -/
def inLine : CharClass := .complement (.range 0xa 0xa)

/-- The characters of one class without those of another. -/
def diff (c d : CharClass) : CharClass := .inter c (.complement d)

/-- Whether a class holds some character of a set of characters that count as the same. -/
def meets (forms : List Char) : CharClass → Bool
  | .range first last => forms.any fun c => first ≤ c.toNat && c.toNat ≤ last
  | .digit => forms.any Pattern.digits.contains
  | .word => forms.any Pattern.words.contains
  | .blank => forms.any Text.isBlank
  | .complement c => !meets forms c
  | .union c d => meets forms c || meets forms d
  | .inter c d => meets forms c && meets forms d

end CharClass

/-- A regular expression. The flag of a class makes it ignore case. -/
inductive Pattern where
  | empty
  | char (anyCase : Bool) (c : CharClass)
  | seq (p q : Pattern)
  | alt (p q : Pattern)
  | repeated (p : Pattern) (least : Nat) (most : Option Nat)
  | start
  | stop
  | lineStart
  | lineStop
  | wordEdge (expected : Bool)
  deriving DecidableEq, Repr

namespace Pattern

/-- The small letter of the capital of a character; the dotted and the dotless i have no other
case. -/
def fold (c : Char) : Char :=
  if c.toNat = 0x130 || c.toNat = 0x131 then c
  else
    let upper := match Text.upperSequences.lookup c.toNat with
      | some _ => c
      | none => Text.Shift.applyTable Text.upperShifts c
    Text.Shift.applyTable Text.lowerShifts upper

/-- The characters that a table moves to the given one. -/
def preimages (table : List Text.Shift) (c : Char) : List Char :=
  table.filterMap fun s =>
    let n := ((c.toNat : Int) - s.distance).toNat
    if s.moves n then some (Char.ofNat n) else none

/-- The characters that differ from the given one in case only, itself among them. -/
def forms (c : Char) : List Char :=
  let small := fold c
  let capitals := small :: preimages Text.lowerShifts small
  let all := capitals ++ capitals.flatMap (preimages Text.upperShifts)
  c :: all.filter fun d => fold d == small

def charMatches (anyCase : Bool) (cls : CharClass) (c : Char) : Bool :=
  cls.meets (if anyCase then forms c else [c])

def wordAt (cs : Array Char) (i : Nat) : Bool :=
  match cs[i]? with
  | some c => words.contains c
  | none => false

/-- Places without repetitions. -/
def union (xs ys : List Nat) : List Nat :=
  ys.foldl (fun seen y => if seen.contains y then seen else seen ++ [y]) xs

def reach (step : Nat → List Nat) (places : List Nat) : List Nat :=
  places.foldl (fun seen i => union seen (step i)) []

/-- The places reached by a number of steps. -/
def iterate (step : Nat → List Nat) : Nat → List Nat → List Nat
  | 0, places => places
  | n + 1, places => iterate step n (reach step places)

/-- The places reached by at most a number of steps. -/
def within (step : Nat → List Nat) : Nat → List Nat → List Nat
  | 0, places => places
  | n + 1, places => within step n (union places (reach step places))

/-- The places where a match from a place can end. -/
def ends (cs : Array Char) : Pattern → Nat → List Nat
  | .empty, i => [i]
  | .char anyCase cls, i =>
    match cs[i]? with
    | some c => if charMatches anyCase cls c then [i + 1] else []
    | none => []
  | .seq p q, i => reach (ends cs q) (ends cs p i)
  | .alt p q, i => union (ends cs p i) (ends cs q i)
  | .repeated p least most, i =>
    let more := match most with
      | some n => min (n - least) (cs.size + 1)
      | none => cs.size + 1
    within (ends cs p) more (iterate (ends cs p) (min least (cs.size + 1)) [i])
  | .start, i => if i = 0 then [i] else []
  | .stop, i => if i = cs.size then [i] else []
  | .lineStart, i => if i = 0 || cs[i - 1]? == some '\n' then [i] else []
  | .lineStop, i => if i = cs.size || cs[i]? == some '\n' then [i] else []
  | .wordEdge expected, i =>
    let before := i != 0 && wordAt cs (i - 1)
    if (before != wordAt cs i) == expected then [i] else []

def matchesIn (p : Pattern) (s : String) : Bool :=
  let cs := s.toList.toArray
  (List.range (cs.size + 1)).any fun i => !(ends cs p i).isEmpty

end Pattern

end CommandGrammar
