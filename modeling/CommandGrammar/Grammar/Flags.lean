import CommandGrammar.Grammar.Combinator
import CommandGrammar.Names
import CommandGrammar.Text.Split

/-!
# Flags

Words that begin with a hyphen may stand among the arguments of a command, in any place or only
before the first other word. A flag is taken out of the line together with its value before the
arguments are read from what is left.

A scan ends: a flag consumes its word, and a value written behind an equals sign weighs less than
the word it came from.
-/

namespace CommandGrammar

/-- What happens to a flag that is not declared: the line is refused, the word is left to the
arguments, it is stored as being there, or it is stored with a value. -/
inductive UnknownFlag where
  | error
  | ignore
  | acceptNonValue
  | acceptValue
  deriving DecidableEq, Repr

/-- A flag of one letter, or a long one. -/
inductive FlagName where
  | short (c : Char)
  | long (name : String)
  deriving DecidableEq, Repr

namespace FlagName

/-- The key that a flag's value stands under. -/
def key : FlagName → String
  | .short c => String.singleton c
  | .long name => name

def text : FlagName → String
  | .short c => "-" ++ String.singleton c
  | .long name => "--" ++ name

/-- The flags that a word declares: a long one after a hyphen, else each letter. -/
def ofWord (word : String) : List FlagName :=
  match word.toList with
  | '-' :: rest => [.long (String.ofList rest)]
  | cs => cs.map .short

end FlagName

/-- The names of flags, each with the number of its declaration; a later declaration of a name
stands before an earlier one. -/
structure FlagTable where
  short : List (Char × Nat) := []
  long : List (String × Nat) := []
  /-- The names of each declaration in order. -/
  declared : List (List FlagName) := []
  unknownShort : UnknownFlag := .error
  unknownLong : UnknownFlag := .error
  /-- Whether flags stand only before the first other word. -/
  anchored : Bool := false
  deriving DecidableEq, Repr

namespace FlagTable

/-- A name with the number of its declaration put before the others. -/
def addName (t : FlagTable) (index : Nat) : FlagName → FlagTable
  | .short c => { t with short := (c, index) :: t.short }
  | .long name => { t with long := (Text.lowercase name, index) :: t.long }

/-- The table with one more declaration. One without names declares nothing. -/
def declare (t : FlagTable) (names : List FlagName) : FlagTable :=
  match names with
  | [] => t
  | _ =>
    let index := t.declared.length
    let t := names.foldl (fun t n => t.addName index n) t
    { t with declared := t.declared ++ [names] }

/-- The number of the declaration of a letter. -/
def short? (t : FlagTable) (c : Char) : Option Nat :=
  t.short.lookup c

/-- The number of the declaration of a long name in small letters. -/
def long? (t : FlagTable) (name : String) : Option Nat :=
  t.long.lookup name

def longNames (t : FlagTable) : List String :=
  Names.ofList (t.long.map (·.1))

end FlagTable

/-- Flags with the parsers of their values, by the number of their declaration. -/
structure FlagScanner where
  table : FlagTable
  values : List Parser

namespace FlagScanner

def value (f : FlagScanner) (index : Nat) : Parser :=
  f.values.getD index (.sequence [])

/-- The name and the value around an equals sign. -/
def splitInline (flag : List Char) : String × Option String :=
  match Text.splitOnce '=' flag with
  | some (name, value) => (String.ofList name, some (String.ofList value))
  | none => (String.ofList flag, none)

/-- A long flag, its word being read. The result tells whether that is to be taken out. -/
def readLong (f : FlagScanner) (env : Env) (flag : List Char) : Reading Bool := do
  let (name, inline) := splitInline flag
  let key := Text.lowercase name
  match f.table.long? key with
  | some index =>
    match inline with
    | some v => Reading.moveCursor fun c => c.insert v
    | none => pure ()
    (f.value index).parse env
    pure true
  | none =>
    match f.table.unknownLong with
    | .error => Reading.reject ("Unknown long flag " ++ name ++ " specified")
    | .ignore => pure false
    | .acceptNonValue =>
      Reading.store key (inline.elim (.bool true) .string)
      pure true
    | .acceptValue =>
      match inline with
      | some v => Reading.store key (.string v)
      | none => do
        let v ← Reading.next
        Reading.store key (.string v)
      pure true

/-- The letters of a group of short flags, its word being read. An unknown letter leaves the word
in place only where it is the first. -/
def readShort (f : FlagScanner) (env : Env) : (first : Bool) → List Char → Reading Bool
  | _, [] => pure true
  | first, c :: rest => do
    match f.table.short? c with
    | some index =>
      (f.value index).parse env
      readShort f env false rest
    | none =>
      let refusal : Reading Bool :=
        Reading.reject ("Unknown short flag " ++ String.singleton c ++ " specified")
      match f.table.unknownShort with
      | .error => refusal
      | .ignore => if first then pure false else refusal
      | .acceptNonValue =>
        Reading.store (String.singleton c) (.bool true)
        readShort f env false rest
      | .acceptValue =>
        let v ← Reading.next
        Reading.store (String.singleton c) (.string v)
        readShort f env false rest

/-- A flag, its word being read. -/
def readFlag (f : FlagScanner) (env : Env) : List Char → Reading Bool
  | '-' :: long => f.readLong env long
  | letters => f.readShort env true letters

/-- All flags of the tokens that are left, taken out of them. -/
def scan (f : FlagScanner) (env : Env) : (steps : Nat) → Reading Unit
  | 0 => pure ()
  | steps + 1 => do
    if ← Reading.hasNext then
      let word ← Reading.next
      match word.toList with
      | '-' :: flag =>
        let start := (← get).cursor.mark
        if ← f.readFlag env flag then
          Reading.moveCursor fun c => c.remove start c.mark
        scan f env steps
      | _ => if f.table.anchored then pure () else scan f env steps

/-- The flags and then, from where they began, the arguments. -/
def read (f : FlagScanner) (body : Parser) (env : Env) : Reading Unit := do
  let entry ← get
  f.scan env (entry.cursor.weight + 1)
  Reading.moveCursor fun c => c.rewind entry.cursor.mark
  body.parse env

/-- How far completing a flag came: it is settled, some lines having been sent, or it has offers. -/
inductive Progress where
  | settled (lines : List String) (s : State)
  | offered (c : Completion)

/-- The completion of a flag's value. A value that reads with tokens left is settled. One that reads
the last token may still grow, so its offers count and that token is one of them. -/
def completeValue (p : Parser) (env : Env) (s : State) : Progress :=
  match p.parse env s with
  | .error _ _ => .offered (p.complete env s)
  | .ok _ t =>
    if t.cursor.mark = s.cursor.mark then .offered (p.complete env t)
    else if t.cursor.hasNext then .settled [] t
    else
      let last := { t with cursor := t.cursor.previous }
      let c := p.complete env last
      match last.cursor.peek? with
      | some v => .offered (if c.offers.contains v then c else { c with offers := c.offers ++ [v] })
      | none => .offered c

/-- A value that turns out to have no offers settles its flag, where nothing but the flag is
consumed. -/
def settleEmpty (s : State) : Progress → Progress
  | .settled lines t => .settled lines t
  | .offered c => if c.offers.isEmpty && !c.endless then .settled c.lines s else .offered c

/-- The completion of a long flag: of its name while that is the last token, else of its value. -/
def completeLong (f : FlagScanner) (env : Env) (flag : List Char) (s : State) : Progress :=
  let (name, inline) := splitInline flag
  let names : Progress :=
    .offered (.ofList ((f.table.longNames.filter fun n =>
      Text.startsWithIgnoringCase n name).map fun n => "--" ++ n))
  match f.table.long? (Text.lowercase name) with
  | none => names
  | some index =>
    match inline with
    | some v =>
      match completeValue (f.value index) env { s with cursor := s.cursor.insert v } with
      | .settled lines t => .settled lines t
      | .offered c =>
        .offered { c with offers := c.offers.map fun o => "--" ++ name ++ "=" ++ o }
    | none =>
      if s.cursor.hasNext then settleEmpty s (completeValue (f.value index) env s) else names

/-- The completion of a group of short flags: that of the first letter whose value has offers. -/
def completeShort (f : FlagScanner) (env : Env) :
    (first : Bool) → List Char → List String → State → Progress
  | _, [], lines, s => .settled lines s
  | first, c :: rest, lines, s =>
    match f.table.short? c with
    | some index =>
      match settleEmpty s (completeValue (f.value index) env s) with
      | .settled more t => completeShort f env false rest (lines ++ more) t
      | .offered c => .offered { c with lines := lines ++ c.lines }
    | none =>
      if first && f.table.unknownShort = .acceptValue then
        .settled lines (s.cursor.next?.elim s fun (_, c) => { s with cursor := c })
      else completeShort f env false rest lines s

/-- The completion of a flag, its word being read. -/
def completeFlag (f : FlagScanner) (env : Env) (flag : List Char) (s : State) : Progress :=
  match flag with
  | '-' :: long => f.completeLong env long s
  | letters => f.completeShort env true letters [] s

/-- Flags taken out of the tokens that are left, up to one that has offers. -/
def completeScan (f : FlagScanner) (env : Env) :
    (steps : Nat) → List String → State → Progress
  | 0, lines, s => .settled lines s
  | steps + 1, lines, s =>
    match s.cursor.next? with
    | none => .settled lines s
    | some (word, c) =>
      let s := { s with cursor := c }
      match word.toList with
      | '-' :: flag =>
        match f.completeFlag env flag s with
        | .offered done => .offered { done with lines := lines ++ done.lines }
        | .settled more t =>
          completeScan f env steps (lines ++ more)
            { t with cursor := t.cursor.remove c.mark t.cursor.mark }
      | _ => if f.table.anchored then .settled lines s else completeScan f env steps lines s

/-- Whether the last word of a line is still being typed. -/
def typing (line : String) : Bool :=
  match line.toList.getLast? with
  | some c => !Text.isBlank c
  | none => false

/-- The completion of flags and, when none of them has offers, of the arguments. When all tokens
were flags and the last is still being typed there are no offers. -/
def complete (f : FlagScanner) (body : Parser) (env : Env) (s : State) : Completion :=
  match f.completeScan env (s.cursor.weight + 1) [] s with
  | .offered c => c
  | .settled lines t =>
    let t := { t with cursor := t.cursor.rewind s.cursor.mark }
    if !t.cursor.hasNext && typing t.cursor.raw then { lines }
    else
      let c := body.complete env t
      { c with lines := lines ++ c.lines }

def usageOf (source : Source) (names : List FlagName) (value : Parser) : String :=
  let shown := value.usage source
  "[" ++ String.intercalate "|" (names.map FlagName.text) ++
    (if (Text.trim shown.toList).isEmpty then "" else " " ++ shown) ++ "] "

/-- The flags and then the arguments. -/
def usage (f : FlagScanner) (body : Parser) (source : Source) : String :=
  let flags := f.table.declared.mapIdx fun index names => usageOf source names (f.value index)
  let all := String.join flags ++ body.usage source
  String.ofList (Text.trimEnd all.toList)

end FlagScanner

/-- Flags around the parser of the arguments. -/
def Parser.flagged (f : FlagScanner) (body : Parser) : Parser where
  parse := f.read body
  complete := f.complete body
  usage := f.usage body

end CommandGrammar
