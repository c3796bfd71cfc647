import CommandGrammar.Proofs.Completion
import CommandGrammar.Proofs.Retracing
import CommandGrammar.Proofs.Token.Suffix

/-!
# The rest of a line

A subcommand without a grammar takes what follows the word that named it as it is written, from the
start of the next token to the end of the line. It is run with this text and asked for offers with
it, no token is left to others, and the text is cut into just the tokens that followed the word.
-/

namespace CommandGrammar

open Reading Tokenizer

/-- The text of a line from the first of some tokens to its end; without tokens there is none. -/
def Token.textFrom (line : String) : List Token → String
  | [] => ""
  | t :: _ => String.ofList (line.toList.drop t.start)

/-- What a node offers of what a command says: its offers, or its failure as a line. -/
def Suggestions.offered (s : Suggestions) : Completion :=
  s.completion fun e => Report.error e.message

namespace Cursor

variable {line : String} {before after : List Token} {t : Token}

theorem rawFromCurrent_between :
    (between line (before ++ [t]) after).rawFromCurrent = Token.textFrom line (t :: after) := by
  have here : (between line (before ++ [t]) after).current? = some t := by
    simp [current?, between]
  rw [rawFromCurrent, position, here]
  rfl

theorem toEnd_between : (between line before after).toEnd = between line (before ++ after) [] := by
  simp [toEnd, between]

end Cursor

/-! ## Running -/

/-- All tokens that are left are passed, for the text from the first of them on. -/
theorem Node.restOfLine_between (line : String) (before rest : List Token) (context : Context) :
    Node.restOfLine ⟨.between line before rest, context⟩ =
      .ok (Token.textFrom line rest) ⟨.between line (before ++ rest) [], context⟩ := by
  unfold Node.restOfLine
  rw [bind_of_ok (hasNext_apply _)]
  cases rest with
  | nil =>
      have spent : (Cursor.between line before []).hasNext = false := by simp
      rw [spent, List.append_nil]
      rfl
  | cons t rest =>
      have more : (Cursor.between line before (t :: rest)).hasNext = true := by simp
      rw [more, if_pos rfl, bind_of_ok (next_of_some Cursor.next?_between_cons),
        bind_of_ok (get_apply _), bind_of_ok (moveCursor_apply _ _)]
      simp only [pure_apply, Cursor.rawFromCurrent_between, Cursor.toEnd_between,
        List.append_assoc, List.singleton_append]

namespace Subcommands

variable {env : Env} {n : Subcommands} {m : Mapping Callable} {line : String}
  {before rest : List Token} {key : Token} {context : Context}

theorem populate_text (unspecified : ∀ s, m.callable ≠ .spec s) (line : String)
    (before rest : List Token) (context : Context) :
    n.toNode.populate m.callable.command env ⟨.between line before rest, context⟩ =
      .ok () ⟨.between line (before ++ rest) [],
        context.put (n.key ++ "_args") (.string (Token.textFrom line rest))⟩ := by
  unfold Node.populate
  rw [Callable.program_eq_none unspecified]
  dsimp only
  rw [bind_of_ok (Node.restOfLine_between line before rest context), store_apply,
    toNode_argumentsKey]

theorem argumentsKey_ne (key : String) : key ++ "_args" ≠ key := by
  intro same
  have length := congrArg String.length same
  rw [String.length_append] at length
  have five : "_args".length = 5 := rfl
  omega

/-- A subcommand that is not specified is run with the text behind the word that named it, if
nothing was stored under the keys of its node before. -/
theorem read_text (line : String) (before rest : List Token) (numbered : n.commands.Numbered)
    (named : n.commands.get? (some env.source) key.value = some m)
    (unspecified : ∀ s, m.callable ≠ .spec s) (ordered : context.values.WellFormed)
    (fresh : context.all n.key = [] ∧ context.all (n.key ++ "_args") = []) :
    ∃ t, n.toNode.read env ⟨.between line before (key :: rest), context⟩ = .ok () t ∧
      t.cursor.remaining = [] ∧
      n.toNode.select env t.context = m.callable.command.plan env (Token.textFrom line rest) := by
  let link : Link := ⟨n, key.value, m⟩
  have below : n.toNode.populate m.callable.command env
      ⟨.between line (before ++ [key]) rest, context⟩ = _ :=
    populate_text unspecified line (before ++ [key]) rest context
  have read : n.toNode.read env ⟨.between line before (key :: rest), context⟩ = _ :=
    read_subcommand Cursor.next?_between_cons named below
  have later : Multimap.WellFormed
      (context.put (n.key ++ "_args") (.string (Token.textFrom line rest))).values :=
    ordered.insert _ _
  refine ⟨_, read, by simp [Link.record], ?_⟩
  have selected : n.selected? ((context.put (n.key ++ "_args")
      (.string (Token.textFrom line rest))).put n.key link.handle) = some m := by
    refine Link.selected (k := link) numbered named ?_
    show Context.all _ n.key = _
    rw [Context.all_put later, if_pos rfl, Context.all_put ordered,
      if_neg (argumentsKey_ne n.key).symm, fresh.1]
    rfl
  have arguments : n.arguments ((context.put (n.key ++ "_args")
      (.string (Token.textFrom line rest))).put n.key link.handle) = Token.textFrom line rest := by
    rw [Subcommands.arguments, Context.one?_eq, Context.all_put later,
      if_neg (argumentsKey_ne n.key), Context.all_put ordered, if_pos rfl, fresh.2]
    rfl
  show n.toNode.select env ((context.put (n.key ++ "_args")
      (.string (Token.textFrom line rest))).put n.key link.handle) = _
  rw [select_of_text selected unspecified, arguments]

/-! ## Completing -/

theorem completeBelow_text {c : Command} (bare : c.program = none) (s : State) :
    Node.completeBelow c env s = (c.suggestions env s.restText).offered := by
  unfold Node.completeBelow
  rw [bare]
  rfl

/-- Where more follows the word that named it, a subcommand that is not specified is asked for
offers with the text behind that word; of the node's own arguments only the lines are left. -/
theorem complete_text (named : n.commands.get? (some env.source) key.value = some m)
    (unspecified : ∀ s, m.callable ≠ .spec s) (more : rest ≠ []) (context : Context) :
    n.toNode.complete env ⟨.between line before (key :: rest), context⟩ =
      (n.fallback.elim Completion.none fun e => Completion.none.replace
        (e.parser.complete env ⟨.between line before (key :: rest), context⟩)).replace
          (m.callable.command.suggestions env (Token.textFrom line rest)).offered := by
  have left : (Cursor.between line (before ++ [key]) rest).hasNext = true := by simpa using more
  have text : (State.mk (.between line (before ++ [key]) rest) context).restText =
      Token.textFrom line rest := by
    obtain ⟨t, rest, rfl⟩ := List.exists_cons_of_ne_nil more
    rw [State.restText, Cursor.next?_between_cons]
    exact Cursor.rawFromCurrent_between
  unfold Node.complete
  rw [Cursor.next?_between_cons, toNode_fallback]
  simp only [left, if_true, toNode_get?_some named, Mapping.map_callable, Option.elim_map,
    completeBelow_text (Callable.program_eq_none unspecified), text]
  rfl

end Subcommands

/-! ## Lines -/

namespace Tokenizer

/-- A line that is accepted is cut alike while it is being typed. -/
theorem words?_lenient_of_strict {q : Quoting} {line : String} {ts : List Token}
    (read : words? q false line = .ok ts) : words? q true line = .ok ts := by
  obtain ⟨-, same⟩ := words?_eq_ok_iff.mp read
  exact words?_eq_ok_iff.mpr ⟨.inr rfl, same⟩

/-- The text from a token on is cut into the tokens from there on; a text without characters is cut
into none. -/
theorem tokenize_textFrom {line : String} {before rest : List Token}
    (cut : tokenize default false line = .ok (before ++ rest)) :
    (Token.textFrom line rest = "" → tokenize default false (Token.textFrom line rest) = .ok []) ∧
      (Token.textFrom line rest ≠ "" → ∃ first ∈ rest.head?, ∃ us,
        tokenize default false (Token.textFrom line rest) = .ok us ∧
          us.map (·.shift first.start) = rest) := by
  refine ⟨fun none => ?_, fun visible => ?_⟩
  · rw [none]
    rfl
  · cases rest with
    | nil => exact absurd rfl visible
    | cons t rest =>
        have more : line.toList.drop t.start ≠ [] := by
          intro none
          rw [Token.textFrom, none] at visible
          exact visible rfl
        exact ⟨t, rfl, tokenize_drop cut more⟩

end Tokenizer

/-! ## Commands -/

/-- A node gives a subcommand what follows a word of the line as it is written. -/
structure Subcommands.Gives (n : Subcommands) (env : Env) (c : Callable) (line : String)
    (before : List Token) (word : Token) (rest : List Token) (context : Context) : Prop where
  /-- From the word on all tokens are read, and the values tell to run the subcommand with the
  text. -/
  run : ∃ t, n.toNode.read env ⟨.between line before (word :: rest), context⟩ = .ok () t ∧
    t.cursor.remaining = [] ∧
    n.toNode.select env t.context = c.command.plan env (Token.textFrom line rest)
  /-- A command whose own arguments are before the word does with the line what the subcommand does
  with the text. -/
  process : ∀ s : Spec, s.body = .subcommands n → s.tokenizer = .words {} →
    s.permits env.source = true →
    ReadsOwn env s.own ⟨.between line [] (before ++ word :: rest), .empty⟩
      ⟨.between line before (word :: rest), context⟩ →
    (Callable.spec s).command.process env line = c.command.process env (Token.textFrom line rest)
  /-- The line is cut alike while it is being typed, and if more follows the word the offers are
  those of the subcommand for the text. -/
  complete : tokenize default true line = .ok (before ++ word :: rest) ∧ (rest ≠ [] →
    ∀ context, n.toNode.complete env ⟨.between line before (word :: rest), context⟩ =
      (n.fallback.elim Completion.none fun e => Completion.none.replace
        (e.parser.complete env ⟨.between line before (word :: rest), context⟩)).replace
          (c.command.suggestions env (Token.textFrom line rest)).offered)
  /-- The text is cut into the tokens that follow the word. -/
  cut : (Token.textFrom line rest = "" →
      tokenize default false (Token.textFrom line rest) = .ok []) ∧
    (Token.textFrom line rest ≠ "" → ∃ first ∈ rest.head?, ∃ us,
      tokenize default false (Token.textFrom line rest) = .ok us ∧
        us.map (·.shift first.start) = rest)

/-- In a node whose commands are numbered as registering numbers them, a subcommand that is not
specified is given the rest of the line as it is written, to be run with and to make offers for, if
nothing was stored under the keys of the node before. The text from any token of any line on,
however that is cut, is cut into that token and those behind it. -/
theorem Subcommands.gives_rest {env : Env} {n : Subcommands} {m : Mapping Callable} {line : String}
    {before rest : List Token} {word : Token} {context : Context} (numbered : n.commands.Numbered)
    (cut : tokenize default false line = .ok (before ++ word :: rest))
    (named : n.commands.get? (some env.source) word.value = some m)
    (unspecified : ∀ s, m.callable ≠ .spec s) (ordered : context.values.WellFormed)
    (fresh : context.all n.key = [] ∧ context.all (n.key ++ "_args") = []) :
    n.Gives env m.callable line before word rest context ∧
      ∀ (t : Tokenizer) (lenient : Bool) (other : String) (front back : List Token) (tok : Token),
        t.tokenize lenient other = .ok (front ++ tok :: back) → other.toList.drop tok.start ≠ [] →
        ∃ us, t.tokenize lenient (String.ofList (other.toList.drop tok.start)) = .ok us ∧
          us.map (·.shift tok.start) = tok :: back := by
  have behind : tokenize default false line = .ok ((before ++ [word]) ++ rest) := by
    rw [List.append_assoc]
    exact cut
  obtain ⟨t, read, spent, selected⟩ :=
    read_text line before rest numbered named unspecified ordered fresh
  refine ⟨⟨⟨t, read, spent, selected⟩, ?_, ⟨words?_lenient_of_strict cut, ?_⟩,
    tokenize_textFrom behind⟩, ?_⟩
  · intro s body usual permitted own
    have parsed : s.behaviour.grammar.parse env
        ⟨.between line [] (before ++ word :: rest), .empty⟩ = .ok () t :=
      (Spec.reads_subcommands body).mpr ⟨_, own, read⟩
    have tokens : Cursor.ofLine s.tokenizer false line =
        .ok (.between line [] (before ++ word :: rest)) := by
      rw [usual]
      exact congrArg (Except.map (Cursor.ofTokens line)) cut
    have reads : s.Reads env line t.context := ⟨_, tokens, t, parsed, spent, rfl⟩
    have core : s.body.core.select env t.context = n.toNode.select env t.context := by
      rw [body]
      rfl
    rw [Spec.process_of_reads permitted reads, core, selected]
    rfl
  · intro more context
    exact complete_text named unspecified more context
  · intro t lenient other front back tok read more
    exact tokenize_drop read more

/-- A quoted word directly before a bare one, and a blank behind them, for a command that says what
it is given. -/
theorem Subcommands.gives_rest_quoted :
    let echo : RawCommand :=
      { run := fun _ text => ⟨[text], .ok .empty⟩, suggestions := fun _ text => .ok [text] }
    let n := (Subcommands.mk "child0" none none .empty false).registerAll [(["echo"], .raw echo)]
    let now : DateTime :=
      ⟨{ year := 2001, month := 2, day := 3 }, { hour := 4, minute := 5, second := 6, nano := 0 }⟩
    let env : Env := { source := .withDenied "ann" [], now }
    let rest : List Token := [⟨"a b", 5, 10⟩, ⟨"c", 10, 11⟩, ⟨"", 12, 12⟩]
    Token.textFrom "echo 'a b'c " rest = "'a b'c " ∧
      n.Gives env (.raw echo) "echo 'a b'c " [] ⟨"echo", 0, 4⟩ rest .empty := by
  intro echo n now env rest
  have empty : (Subcommands.mk "child0" none none .empty false).commands.Numbered := .empty _
  have numbered : n.commands.Numbered := Subcommands.numbered_registerAll empty _
  have cut : tokenize default false "echo 'a b'c " = .ok ([] ++ ⟨"echo", 0, 4⟩ :: rest) := rfl
  have named : n.commands.get? (some env.source) "echo" =
      some ⟨⟨0, "echo", ["echo"]⟩, .raw echo⟩ := rfl
  have fresh : Context.empty.all n.key = [] ∧ Context.empty.all (n.key ++ "_args") = [] :=
    ⟨rfl, rfl⟩
  exact ⟨rfl, (gives_rest numbered cut named nofun .empty fresh).1⟩

end CommandGrammar
