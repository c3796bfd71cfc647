import CommandGrammar.Text.Case.Shifts
import CommandGrammar.Text.Case.Context

/-!
# Case mapping

Full case mapping of text over all of Unicode, without regard to language: a capital sigma at the
end of a word becomes the final small sigma, a dotted capital I becomes an i with a dot above, and
some letters have capitals of several characters. Names are compared through their small letters.
-/

namespace CommandGrammar.Text

/-- The small letters of one character, away from any context. -/
def lowerChar (c : Char) : List Char :=
  if c.toNat == 0x130 then ['i', Char.ofNat 0x307] else [Shift.applyTable lowerShifts c]

def upperChar (c : Char) : List Char :=
  match upperSequences.lookup c.toNat with
  | some ns => ns.map Char.ofNat
  | none => [Shift.applyTable upperShifts c]

/-- Whether the first character that is not skipped is a cased letter. -/
def meetsCased : List Char → Bool
  | [] => false
  | c :: rest => if caseIgnorable.contains c then meetsCased rest else cased.contains c

/-- A sigma is final when a cased letter comes before it and none after it; `before` runs
backwards. -/
def sigmaIsFinal (before after : List Char) : Bool :=
  meetsCased before && !meetsCased after

/-- Small letters of a text whose part already read, last character first, is `before`. -/
def lowerFrom (before : List Char) : List Char → List Char
  | [] => []
  | c :: rest =>
    let small :=
      if c.toNat == 0x3a3 then
        [Char.ofNat (if sigmaIsFinal before rest then 0x3c2 else 0x3c3)]
      else lowerChar c
    small ++ lowerFrom (c :: before) rest

/-- The text in small letters. -/
def lowercase (s : String) : String :=
  String.ofList (lowerFrom [] s.toList)

/-- The text in capitals. -/
def uppercase (s : String) : String :=
  String.ofList (s.toList.flatMap upperChar)

/-- Two texts are the same ignoring case when their small letters are the same. -/
def sameIgnoringCase (s t : String) : Bool :=
  lowercase s == lowercase t

/-- The small letters of `typed` begin the small letters of `candidate`. -/
def startsWithIgnoringCase (candidate typed : String) : Bool :=
  (lowercase typed).toList.isPrefixOf (lowercase candidate).toList

theorem lowercase_empty : lowercase "" = "" := rfl

/-- Nothing typed begins every candidate. -/
theorem startsWithIgnoringCase_empty (candidate : String) :
    startsWithIgnoringCase candidate "" = true := by
  simp [startsWithIgnoringCase, lowercase_empty]

end CommandGrammar.Text
