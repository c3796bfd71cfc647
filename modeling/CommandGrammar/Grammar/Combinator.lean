import CommandGrammar.Grammar.Parser
import CommandGrammar.Text.Case

/-!
# Combinators

Parsers made of parsers: one after the other, the first that reads, one that may be absent,
repetitions, and parsers with other completions.
-/

namespace CommandGrammar.Parser

def readAll (env : Env) : List Parser → Reading Unit
  | [] => pure ()
  | p :: rest => do
    p.parse env
    readAll env rest

/-- Completions of parsers that read one after the other. A parser that fails is completed and ends
the search. One that reads without moving is completed and passed. One that reads on with tokens
left makes the offers before it void. One that reads the last token is completed too, as that may
still grow; only if it may be absent are those behind it asked as well, for the same token. -/
def completeAll (env : Env) : List Parser → State → Completion → Completion
  | [], _, done => done
  | p :: rest, s, done =>
    match p.parse env s with
    | .error _ _ => done.add (p.complete env s)
    | .ok _ t =>
      if t.cursor.mark = s.cursor.mark then
        completeAll env rest { s with context := t.context } (done.add (p.complete env s))
      else if t.cursor.hasNext then completeAll env rest t done.clear
      else
        let done := done.add (p.complete env s)
        if p.isOptional then completeAll env rest s done else done

def sequence (ps : List Parser) : Parser where
  parse env := readAll env ps
  complete env s := completeAll env ps s .none
  usage source :=
    String.intercalate " " ((ps.map fun p => p.usage source).filter fun u => !u.isEmpty)

/-- The first parser that reads from where all begin. When all fail, the last failure stands and
nothing has been read. -/
def readFirst (env : Env) : List Parser → Reading Unit
  | [] => pure ()
  | p :: rest =>
    (p.parse env).orElse fun s e _ =>
      match rest with
      | [] => .error e s
      | _ :: _ => readFirst env rest s

/-- Alternatives, each completed from where all begin. -/
def firstOf (ps : List Parser) : Parser where
  parse env := readFirst env ps
  complete env s := ps.foldl (fun done p => done.add (p.complete env s)) .none
  usage source := String.intercalate "|" (ps.map fun p => p.usage source)

/-- The value that stands for an absent part, under the key of that part. -/
def storeDefault (p : Parser) (default : Option Value) : Reading Unit :=
  match p.key, default with
  | some key, some v => Reading.store key v
  | _, _ => pure ()

/-- A part that may be absent. A failure counts as absence when tokens are left where it happened,
or always, for a weak part. -/
def optional (p : Parser) (default : Option Value) (weak : Bool) : Parser where
  isOptional := true
  parse env := do
    if ← Reading.hasNext then
      (p.parse env).orElse fun s e t =>
        if weak || t.cursor.hasNext then p.storeDefault default s else .error e t
    else p.storeDefault default
  complete := p.complete
  usage source :=
    let inner := p.usage source
    if inner.isEmpty then inner else "[" ++ inner ++ "]"

def readTimes (p : Parser) (env : Env) : Nat → Reading Unit
  | 0 => pure ()
  | n + 1 => do
    p.parse env
    readTimes p env n

/-- The completions of the first of so many readings that fails. -/
def completeTimes (p : Parser) (env : Env) : Nat → State → Completion
  | 0, _ => .none
  | n + 1, s =>
    match p.parse env s with
    | .ok _ t => completeTimes p env n t
    | .error _ _ => p.complete env s

def repeated (p : Parser) (times : Nat) : Parser where
  parse env := p.readTimes env times
  complete env s := p.completeTimes env times s
  usage source := toString times ++ "*" ++ p.usage source

/-- A parser that reads until the tokens run out or it no longer moves. Each reading that moves
lowers the weight of what is left, so more steps than that weight are never taken. -/
def readWhile (p : Parser) (env : Env) : (steps : Nat) → Reading Unit
  | 0 => pure ()
  | steps + 1 => do
    let before ← get
    if before.cursor.hasNext then
      p.parse env
      let after ← get
      if after.cursor.mark = before.cursor.mark then pure () else readWhile p env steps

/-- The completions of the first reading that fails while tokens are left, if the readings come to
one that fails or to the last token. Those that read without moving are not stopped here. -/
def completeWhile? (p : Parser) (env : Env) (s : State) : Option Completion :=
  if s.cursor.hasNext then
    match p.parse env s with
    -- Put in by `apply`: a call that is written out keeps its place in the file in the definition.
    | .ok _ t => (by apply completeWhile? : Parser → Env → State → Option Completion) p env t
    | .error _ _ => some (p.complete env s)
  else some .none
partial_fixpoint

/-- A parser until the tokens run out. -/
def allOf (p : Parser) : Parser where
  parse env s := p.readWhile env (s.cursor.weight + 1) s
  complete env s := (p.completeWhile? env s).getD .never
  usage source := p.usage source ++ "*"

/-- A parser whose key may hold one value at most when it has read. -/
def onlyOne (p : Parser) : Parser where
  key := p.key
  parse env := do
    p.parse env
    match p.key with
    | some key =>
      if 1 < ((← get).context.all key).length then
        Reading.reject ("Argument " ++ key ++ " may have only one value!")
    | none => pure ()
  complete := p.complete
  usage := p.usage

/-- A parser with offers of its own, perhaps only those that begin with the next token. -/
def suggesting (p : Parser) (suggestions : Source → List String) (requireBegin : Bool) :
    Parser where
  key := p.key
  parse := p.parse
  complete env s :=
    let offers := suggestions env.source
    if requireBegin then
      let typed := (s.cursor.peek?).getD ""
      .ofList (offers.filter fun o => typed.toList.isPrefixOf o.toList)
    else .ofList offers
  usage := p.usage

/-- A parser with those of its offers that satisfy a predicate. -/
def constrained (p : Parser) (keep : String → Bool) : Parser where
  key := p.key
  parse := p.parse
  complete env s := (p.complete env s).filter keep
  usage := p.usage

end CommandGrammar.Parser
