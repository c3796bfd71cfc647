import CommandGrammar.Numeral
import CommandGrammar.Pattern

/-!
# Reading patterns

The usual notation of regular expressions: alternatives, groups, repetition, classes, escapes. There
are no back references and nothing looks around. An opening brace must begin a count; a closing one
stands for itself.
-/

namespace CommandGrammar.Pattern

/-- How the characters that follow are read. -/
structure Flags where
  anyCase : Bool := false
  dotAll : Bool := false
  multiLine : Bool := false
  deriving DecidableEq, Repr

/-- What an escape in a pattern stands for. -/
inductive Escape where
  | char (c : Char)
  | cls (c : CharClass)
  | place (p : Pattern)

/-- A scalar value, if the number is one. -/
def charOf? (n : Nat) : Option Char :=
  if n < 0xd800 || (0xdfff < n && n < 0x110000) then some (Char.ofNat n) else none

/-- A character by hexadecimal digits: so many of them, or any number between braces. -/
def readHex (width : Nat) (cs : List Char) : Option (Char × List Char) :=
  match cs with
  | '\x7b' :: rest => do
    let ds := rest.takeWhile (· != '\x7d')
    let c ← charOf? (← Numeral.natural 16 ds)
    match rest.drop ds.length with
    | _ :: rest => some (c, rest)
    | [] => none
  | _ => do
    if cs.length < width then none
    let c ← charOf? (← Numeral.natural 16 (cs.take width))
    return (c, cs.drop width)

/-- What follows a backslash. -/
def readEscape (cs : List Char) : Option (Escape × List Char) :=
  match cs with
  | [] => none
  | 'd' :: rest => some (.cls .digit, rest)
  | 'D' :: rest => some (.cls (.complement .digit), rest)
  | 's' :: rest => some (.cls .blank, rest)
  | 'S' :: rest => some (.cls (.complement .blank), rest)
  | 'w' :: rest => some (.cls .word, rest)
  | 'W' :: rest => some (.cls (.complement .word), rest)
  | 'b' :: rest => some (.place (.wordEdge true), rest)
  | 'B' :: rest => some (.place (.wordEdge false), rest)
  | 'A' :: rest => some (.place .start, rest)
  | 'z' :: rest => some (.place .stop, rest)
  | 'a' :: rest => some (.char '\x07', rest)
  | 'f' :: rest => some (.char '\x0c', rest)
  | 't' :: rest => some (.char '\t', rest)
  | 'n' :: rest => some (.char '\n', rest)
  | 'r' :: rest => some (.char '\r', rest)
  | 'v' :: rest => some (.char '\x0b', rest)
  | 'x' :: rest => (readHex 2 rest).map fun (c, rest) => (.char c, rest)
  | 'u' :: rest => (readHex 4 rest).map fun (c, rest) => (.char c, rest)
  | 'U' :: rest => (readHex 8 rest).map fun (c, rest) => (.char c, rest)
  | c :: rest =>
    if c.toNat < 0x80 && !c.isAlphanum && c != '<' && c != '>' then some (.char c, rest) else none

def namedClass (name : String) : Option CharClass :=
  let lower : CharClass := .range 0x61 0x7a
  let upper : CharClass := .range 0x41 0x5a
  let decimal : CharClass := .range 0x30 0x39
  let alpha : CharClass := .union lower upper
  let alnum : CharClass := .union alpha decimal
  match name with
  | "alnum" => some alnum
  | "alpha" => some alpha
  | "ascii" => some (.range 0 0x7f)
  | "blank" => some (.union (.single '\t') (.single ' '))
  | "cntrl" => some (.union (.range 0 0x1f) (.range 0x7f 0x7f))
  | "digit" => some decimal
  | "graph" => some (.range 0x21 0x7e)
  | "lower" => some lower
  | "print" => some (.range 0x20 0x7e)
  | "punct" =>
    some (.union (.union (.range 0x21 0x2f) (.range 0x3a 0x40))
      (.union (.range 0x5b 0x60) (.range 0x7b 0x7e)))
  | "space" => some (.union (.range 0x9 0xd) (.single ' '))
  | "upper" => some upper
  | "word" => some (.union alnum (.single '_'))
  | "xdigit" => some (.union decimal (.union (.range 0x41 0x46) (.range 0x61 0x66)))
  | _ => none

/-- A class by its name between `[:` and `:]`, the first bracket being read already. -/
def readNamed (cs : List Char) : Option (CharClass × List Char) := do
  let (negated, cs) := match cs with
    | ':' :: '^' :: rest => (true, rest)
    | ':' :: rest => (false, rest)
    | _ => (false, [])
  let name := cs.takeWhile Char.isAlpha
  let cls ← namedClass (String.ofList name)
  match cs.drop name.length with
  | ':' :: ']' :: rest => some (if negated then .complement cls else cls, rest)
  | _ => none

/-- One end of a range, or a class that cannot be one. -/
def readMember (cs : List Char) : Option ((Char ⊕ CharClass) × List Char) :=
  match cs with
  | [] => none
  | '\\' :: rest =>
    match readEscape rest with
    | some (.char c, rest) => some (.inl c, rest)
    | some (.cls c, rest) => some (.inr c, rest)
    | _ => none
  | c :: rest => some (.inl c, rest)

/-- How two parts of a class are put together. -/
def combine (op : Option Char) (left right : CharClass) : CharClass :=
  match op with
  | some '&' => .inter left right
  | some '-' => .diff left right
  | some '~' => .union (.diff left right) (.diff right left)
  | _ => right

/-- The start of a class: whether it is negated, and the members that stand for themselves only
there, which are hyphens, or a closing bracket. -/
def openClass (cs : List Char) : Bool × CharClass × List Char :=
  let (negated, cs) := match cs with
    | '^' :: rest => (true, rest)
    | _ => (false, cs)
  match cs with
  | ']' :: rest => (negated, .single ']', rest)
  | '-' :: rest => (negated, .single '-', rest.dropWhile (· == '-'))
  | _ => (negated, .none, cs)

/-- The rest of a class up to its bracket: what stands left of the last operator, that operator,
and the members since then. -/
def readMembers : (fuel : Nat) → (negated : Bool) → (left : CharClass) → (op : Option Char) →
    (seen : CharClass) → List Char → Option (CharClass × List Char)
  | 0, _, _, _, _, _ => none
  | fuel + 1, negated, left, op, seen, cs =>
    let more (cls : CharClass) (rest : List Char) :=
      readMembers fuel negated left op (.union seen cls) rest
    let operator (c : Char) (rest : List Char) :=
      readMembers fuel negated (combine op left seen) (some c) .none rest
    match cs with
    | [] => none
    | ']' :: rest =>
      let all := combine op left seen
      some (if negated then .complement all else all, rest)
    | '[' :: rest =>
      match readNamed rest with
      | some (cls, rest) => more cls rest
      | none =>
        let (negated', first, rest) := openClass rest
        match readMembers fuel negated' .none none first rest with
        | some (cls, rest) => more cls rest
        | none => none
    | '&' :: '&' :: rest => operator '&' rest
    | '-' :: '-' :: rest => operator '-' rest
    | '~' :: '~' :: rest => operator '~' rest
    | _ =>
      match readMember cs with
      | none => none
      | some (member, rest) =>
        let isRange := match rest with
          | '-' :: c :: _ => c != ']' && c != '-'
          | _ => false
        if isRange then
          match member, readMember (rest.drop 1) with
          | .inl a, some (.inl b, rest) =>
            if b.toNat < a.toNat then none else more (.range a.toNat b.toNat) rest
          | _, _ => none
        else
          match member with
          | .inl a => more (.single a) rest
          | .inr cls => more cls rest

/-- A class, its bracket being read already. -/
def readClass (cs : List Char) : Option (CharClass × List Char) :=
  let (negated, first, rest) := openClass cs
  readMembers (cs.length + 1) negated .none none first rest

/-- A count with blanks around it; none if there are no digits or it does not fit 32 bits. -/
def readCount (cs : List Char) : Option Nat × List Char :=
  let cs := Text.trimStart cs
  let ds := cs.takeWhile Char.isDigit
  ((Numeral.natural 10 ds).filter (· < Nat.pow 2 32), Text.trimStart (cs.drop ds.length))

/-- The bounds of a repetition, their brace being read already. -/
def readBounds (cs : List Char) : Option ((Nat × Option Nat) × List Char) := do
  let (least, cs) := readCount cs
  match cs with
  | '\x7d' :: rest => some ((← least, least), rest)
  | ',' :: '\x7d' :: rest => some ((← least, none), rest)
  | ',' :: rest =>
    let (most, rest) := readCount rest
    match rest with
    | '\x7d' :: rest => if (← most) < (← least) then none else some ((← least, most), rest)
    | _ => none
  | _ => none

/-- The letters of flags up to a colon or a parenthesis; those after a hyphen are taken back. -/
def readFlags (on : Bool) (flags : Flags) : List Char → Option (Flags × Char × List Char)
  | [] => none
  | ':' :: rest => some (flags, ':', rest)
  | ')' :: rest => some (flags, ')', rest)
  | '-' :: ':' :: _ => none
  | '-' :: ')' :: _ => none
  | '-' :: rest => if on then readFlags false flags rest else none
  | 'i' :: rest => readFlags on { flags with anyCase := on } rest
  | 's' :: rest => readFlags on { flags with dotAll := on } rest
  | 'm' :: rest => readFlags on { flags with multiLine := on } rest
  | 'U' :: rest => readFlags on flags rest
  | 'u' :: rest => readFlags on flags rest
  | 'R' :: rest => readFlags on flags rest
  | _ => none

/-- The name of a group between angle brackets, the first of them being read already. -/
def skipName (cs : List Char) : Option (List Char) :=
  let name := cs.takeWhile (· != '>')
  match name, cs.drop name.length with
  | c :: more, _ :: rest =>
    if (c.isAlpha || c == '_') && more.all (fun d => d.isAlphanum || d == '_' || d == '.') then
      some rest
    else none
  | _, _ => none

/-- A question mark after a repetition makes it lazy, which does not change whether it matches. -/
def skipLazy : List Char → List Char
  | '?' :: rest => rest
  | cs => cs

/-- Items in the order they stand in. -/
def sequence (reversed : List Pattern) : Pattern :=
  reversed.foldl (fun tail p => .seq p tail) .empty

def alternatives (items : List Pattern) (others : List Pattern) : Pattern :=
  others.foldl (fun tail p => .alt p tail) (sequence items)

/-- A pattern up to the end of its group, which is left in place. `items` are those of the current
alternative and `others` the alternatives before it, the last one first. -/
def readItems : (fuel : Nat) → Flags → (items others : List Pattern) → List Char →
    Option (Pattern × List Char)
  | 0, _, _, _, _ => none
  | fuel + 1, flags, items, others, cs =>
    let again (p : Pattern) (rest : List Char) := readItems fuel flags (p :: items) others rest
    let repeatLast (least : Nat) (most : Option Nat) (rest : List Char) :=
      match items with
      | [] => none
      | p :: before =>
        readItems fuel flags (.repeated p least most :: before) others (skipLazy rest)
    let group (inner : Flags) (rest : List Char) :=
      match readItems fuel inner [] [] rest with
      | some (p, ')' :: rest) => again p rest
      | _ => none
    match cs with
    | [] => some (alternatives items others, [])
    | ')' :: _ => some (alternatives items others, cs)
    | '|' :: rest => readItems fuel flags [] (sequence items :: others) rest
    | '*' :: rest => repeatLast 0 none rest
    | '+' :: rest => repeatLast 1 none rest
    | '?' :: rest => repeatLast 0 (some 1) rest
    | '\x7b' :: rest =>
      match readBounds rest with
      | some ((least, most), rest) => repeatLast least most rest
      | none => none
    | '^' :: rest => again (if flags.multiLine then .lineStart else .start) rest
    | '$' :: rest => again (if flags.multiLine then .lineStop else .stop) rest
    | '.' :: rest => again (.char false (if flags.dotAll then .complement .none else .inLine)) rest
    | '[' :: rest =>
      match readClass rest with
      | some (cls, rest) => again (.char flags.anyCase cls) rest
      | none => none
    | '\\' :: rest =>
      match readEscape rest with
      | some (.char c, rest) => again (.char flags.anyCase (.single c)) rest
      | some (.cls cls, rest) => again (.char false cls) rest
      | some (.place p, rest) => again p rest
      | none => none
    | '(' :: '?' :: 'P' :: '<' :: rest =>
      match skipName rest with
      | some rest => group flags rest
      | none => none
    | '(' :: '?' :: '<' :: rest =>
      match skipName rest with
      | some rest => group flags rest
      | none => none
    | '(' :: '?' :: ')' :: _ => none
    | '(' :: '?' :: rest =>
      match readFlags true flags rest with
      | some (inner, ':', rest) => group inner rest
      | some (inner, _, rest) => readItems fuel inner items others rest
      | none => none
    | '(' :: rest => group flags rest
    | c :: rest => again (.char flags.anyCase (.single c)) rest

def ofString? (flags : Flags) (s : String) : Option Pattern :=
  let cs := s.toList
  match readItems (cs.length + 1) flags [] [] cs with
  | some (p, []) => some p
  | _ => none

end CommandGrammar.Pattern
