import CommandGrammar.Proofs.Grammar.Mirror

/-!
# Grammars of two lines

Every grammar reads two lines alike: it ends in the same way, with the same values, and fails with
the same message. Only what asks for the text of the line must find the same text in both.
-/

namespace CommandGrammar

open Reading Pairing

variable {P : Pairing}

namespace Parser

variable {p : Parser} {ps : List Parser} {env : Env}

/-! ## Combinators -/

theorem faithful_readAll (h : ∀ p ∈ ps, P.Faithful (p.parse env)) : P.Faithful (readAll env ps) := by
  intro low
  induction ps with
  | nil => exact Mirrors.pure ()
  | cons p ps ih =>
      have first := h p List.mem_cons_self
      have later := ih fun q hq => h q (List.mem_cons_of_mem p hq)
      exact Mirrors.bind (first low) fun _ => later

theorem faithful_readFirst (h : ∀ p ∈ ps, P.Faithful (p.parse env)) :
    P.Faithful (readFirst env ps) := by
  intro low
  induction ps with
  | nil => exact Mirrors.pure ()
  | cons p ps ih =>
      have later := ih fun q hq => h q (List.mem_cons_of_mem p hq)
      refine Mirrors.orElse (h p List.mem_cons_self low) ?_
      intro s t e e' u v agree alike _
      cases ps with
      | nil => exact .error alike (agree.weaken (Nat.zero_le _))
      | cons q ps => exact later s t agree

theorem faithful_storeDefault (p : Parser) (default : Option Value) :
    P.Faithful (p.storeDefault default) := by
  intro low
  unfold storeDefault
  split
  · exact Mirrors.store _ _
  · exact Mirrors.pure ()

theorem faithful_optional (h : P.Faithful (p.parse env)) (default : Option Value) (weak : Bool) :
    P.Faithful ((p.optional default weak).parse env) := by
  intro low
  have absent := faithful_storeDefault (P := P) p default low
  refine Mirrors.bind Mirrors.hasNext fun more => ?_
  split
  · refine Mirrors.orElse (h low) ?_
    intro s t e e' u v agree alike after
    rw [P.hasNext after.cursor]
    split
    · exact absent s t agree
    · exact .error alike after
  · exact absent

theorem faithful_readTimes (h : P.Faithful (p.parse env)) (n : Nat) :
    P.Faithful (p.readTimes env n) := by
  intro low
  induction n with
  | zero => exact Mirrors.pure ()
  | succ n ih => exact Mirrors.bind (h low) fun _ => ih

theorem faithful_readWhile (h : P.Faithful (p.parse env)) (onward : (p.parse env).Onward)
    (steps : Nat) : P.Faithful (p.readWhile env steps) := by
  rw [readWhile_eq_run]
  induction steps with
  | zero => exact Faithful.pure ()
  | succ steps ih =>
      intro low s t agree
      obtain ⟨start, start'⟩ := P.within agree.cursor
      have more := P.hasNext agree.cursor
      cases ahead : s.cursor.hasNext with
      | false =>
          simp only [Loop.run, readTurn, more, ahead]
          exact .ok agree
      | true =>
          simp only [Loop.run, readTurn, more, ahead, if_true]
          rcases (h low s t agree).both with
            ⟨_, u, v, read, read', agree'⟩ | ⟨e, e', u, v, read, read', alike, agree'⟩
          -- Both readings stop here or both go on, since moving shows in either line.
          · have moved := P.mark_eq agree.cursor agree'.cursor (onward start read)
              (onward start' read')
            simp only [read, read']
            by_cases still : u.cursor.mark = s.cursor.mark
            · simp only [if_pos still, if_pos (moved.mpr still)]
              exact .ok agree'
            · simp only [if_neg still, if_neg fun same => still (moved.mp same)]
              exact ih low u v agree'
          · simp only [read, read']
            exact .error alike agree'

theorem faithful_allOf (h : P.Faithful (p.parse env)) (onward : (p.parse env).Onward) :
    P.Faithful (p.allOf.parse env) := by
  intro low s t agree
  have read := faithful_readWhile h onward (s.cursor.weight + 1) low s t agree
  change P.Ends low (p.readWhile env (s.cursor.weight + 1) s) (p.readWhile env (t.cursor.weight + 1) t)
  rw [P.weight agree.cursor]
  exact read

theorem faithful_onlyOne (h : P.Faithful (p.parse env)) : P.Faithful (p.onlyOne.parse env) := by
  intro low
  refine Mirrors.bind (h low) fun _ => ?_
  split
  · refine Mirrors.get fun s t agree => ?_
    rw [agree.context]
    split
    · exact Mirrors.reject _
    · exact (Faithful.pure ()).mirrors (P.least agree.cursor)
  · exact Mirrors.pure ()

end Parser

/-! ## Single arguments -/

namespace Leaf

theorem faithful_readNext (leaf : Leaf) (env : Env) : P.Faithful (leaf.readNext env) := by
  intro low
  refine Mirrors.bind Mirrors.next fun text => ?_
  split
  · exact (Faithful.pure _).mirrors (Nat.le_succ _)
  · exact Mirrors.reject _

/-- The text of the line is asked for behind a token that was read. -/
theorem faithful_readRemaining {raw : Bool} (text : raw = true → P.SameText) (env : Env) :
    P.Faithful ((Leaf.remaining raw).readValue env) := by
  intro low
  refine Mirrors.bind Mirrors.next fun first => Mirrors.get fun s t agree => ?_
  have least := P.least agree.cursor
  have ended : low ≤ s.cursor.consumed := by omega
  refine Mirrors.bind (Mirrors.moveCursor fun c d rel => P.toEnd rel) fun _ => ?_
  rw [P.remaining agree.cursor]
  cases raw with
  | true =>
      rw [text rfl agree.cursor (Nat.succ_pos low)]
      exact (Faithful.pure _).mirrors ended
  | false => exact (Faithful.pure _).mirrors ended

theorem faithful_readValue {leaf : Leaf} (text : leaf = .remaining true → P.SameText) (env : Env) :
    P.Faithful (leaf.readValue env) := by
  intro low
  unfold readValue
  split
  · exact Mirrors.pure _
  · exact faithful_readRemaining (fun raw => text (by rw [raw])) env low
  · exact Mirrors.orElse (faithful_readNext _ env low) fun _ _ _ _ _ _ agree _ _ => .ok agree
  · exact faithful_readNext leaf env low

theorem faithful_parse (key : String) {leaf : Leaf} (text : leaf = .remaining true → P.SameText)
    (env : Env) : P.Faithful ((leaf.parser key).parse env) :=
  fun low => Mirrors.bind (faithful_readValue text env low) fun _ => Mirrors.store _ _

end Leaf

theorem Choice.faithful_parse (key : String) (c : Choice) (env : Env) :
    P.Faithful ((c.parser key).parse env) := by
  intro low
  refine Mirrors.bind Mirrors.next fun name => ?_
  split
  · exact (Faithful.store _ _).mirrors (Nat.le_succ _)
  · exact Mirrors.reject _

theorem Selection.faithful_storeAll (key : String) (vs : List Value) :
    P.Faithful (storeAll key vs) := by
  intro low
  induction vs with
  | nil => exact Mirrors.pure ()
  | cons v vs ih => exact Mirrors.bind (Mirrors.store _ _) fun _ => ih

theorem Selection.faithful_parse (key : String) (s : Selection) (env : Env) :
    P.Faithful ((s.parser key).parse env) := by
  intro low
  refine Mirrors.bind Mirrors.next fun text => ?_
  have above : low ≤ low + 1 := Nat.le_succ low
  split
  · exact (Faithful.store _ _).mirrors above
  · split
    · exact Mirrors.reject _
    · split
      · exact Mirrors.reject _
      · exact (faithful_storeAll key _).mirrors above

theorem Phrase.faithful_readWords (words : List String) : P.Faithful (readWords words) := by
  induction words with
  | nil => exact Faithful.pure ()
  | cons expected words ih =>
      intro low
      refine Mirrors.bind Mirrors.next fun word => ?_
      split
      · exact ih.mirrors (Nat.le_succ low)
      · exact Mirrors.reject _

theorem Phrase.faithful_parse (key : Option String) (p : Phrase) (env : Env) :
    P.Faithful ((p.parser key).parse env) := by
  intro low
  refine Mirrors.bind (faithful_readWords p.words low) fun _ => ?_
  split
  · exact Mirrors.store _ _
  · exact Mirrors.pure ()

/-! ## Flags -/

namespace FlagScanner

variable {f : FlagScanner} {env : Env} (values : ∀ index, P.Faithful ((f.value index).parse env))

include values

theorem mirrors_readLong {low : Nat} (word : 1 ≤ low) (flag : List Char) :
    P.Mirrors low low (f.readLong env flag) (f.readLong env flag) := by
  have stored : ∀ n key v, low ≤ n →
      P.Mirrors n low (do store key v; pure true : Reading Bool) (do store key v; pure true) :=
    fun n key v passed =>
      Mirrors.bind (Mirrors.store _ _) fun _ => (Faithful.pure true).mirrors passed
  unfold readLong
  generalize splitInline flag = split
  obtain ⟨name, inline⟩ := split
  dsimp only
  split
  · rename_i index _
    have read : P.Mirrors low low (do (f.value index).parse env; pure true : Reading Bool) _ :=
      Mirrors.bind (values index low) fun _ => Mirrors.pure true
    cases inline with
    | none => exact read
    | some v => exact Mirrors.bind (Mirrors.moveCursor fun c d rel => P.insert rel word v) fun _ => read
  · split
    · exact Mirrors.reject _
    · exact Mirrors.pure false
    · exact stored low _ _ (Nat.le_refl _)
    · cases inline with
      | some v => exact stored low _ _ (Nat.le_refl _)
      | none => exact Mirrors.bind Mirrors.next fun v => stored _ _ _ (Nat.le_succ low)

theorem faithful_readShort (first : Bool) (letters : List Char) :
    P.Faithful (f.readShort env first letters) := by
  induction letters generalizing first with
  | nil => exact Faithful.pure true
  | cons c letters ih =>
      intro low
      unfold readShort
      split
      · exact Mirrors.bind (values _ low) fun _ => ih false low
      · dsimp only
        split
        · exact Mirrors.reject _
        · split
          · exact Mirrors.pure false
          · exact Mirrors.reject _
        · exact Mirrors.bind (Mirrors.store _ _) fun _ => ih false low
        · refine Mirrors.bind Mirrors.next fun v => Mirrors.bind (Mirrors.store _ _) fun _ => ?_
          exact (ih false).mirrors (Nat.le_succ low)

theorem mirrors_readFlag {low : Nat} (word : 1 ≤ low) (flag : List Char) :
    P.Mirrors low low (f.readFlag env flag) (f.readFlag env flag) := by
  unfold readFlag
  split
  · exact mirrors_readLong values word _
  · exact faithful_readShort values true _ low

theorem faithful_scan (steps : Nat) : P.Faithful (f.scan env steps) := by
  induction steps with
  | zero => exact Faithful.pure ()
  | succ steps ih =>
      intro low
      refine Mirrors.bind Mirrors.hasNext fun more => ?_
      split
      · refine Mirrors.bind Mirrors.next fun word => ?_
        split
        · rename_i flag _
          refine Mirrors.get fun s t agree => ?_
          have least := P.least agree.cursor
          have read := mirrors_readFlag values (Nat.le_trans (Nat.succ_pos low) least) flag
          refine Mirrors.bind read fun taken => ?_
          split
          -- A flag that is taken out leaves the cursor where its word was, one that stays behind it.
          · refine Mirrors.bind (Mirrors.moveCursor fun c d rel => ?_) fun _ => ih low
            exact P.remove agree.cursor rel
          · exact ih.mirrors (by omega)
        · split
          · exact (Faithful.pure ()).mirrors (Nat.le_succ low)
          · exact ih.mirrors (Nat.le_succ low)
      · exact Mirrors.pure ()

theorem faithful_read {body : Parser} (rest : P.Faithful (body.parse env)) :
    P.Faithful ((Parser.flagged f body).parse env) := by
  intro low
  refine Mirrors.get fun s t agree => ?_
  rw [P.weight agree.cursor]
  refine Mirrors.bind (faithful_scan values _ _) fun _ => ?_
  refine Mirrors.bind (Mirrors.moveCursor fun c d rel => P.rewind agree.cursor rel) fun _ => ?_
  exact rest.mirrors (P.least agree.cursor)

end FlagScanner

/-! ## Subcommands -/

theorem Specified.faithful_populate {s : Specified} {env : Env} (h : P.Faithful (s.grammar.parse env)) :
    P.Faithful (s.populate env) := by
  intro low
  refine Mirrors.bind (h low) fun _ => Mirrors.bind Mirrors.hasNext fun more => ?_
  split
  · exact Mirrors.bind Mirrors.next fun _ => Mirrors.reject _
  · exact Mirrors.pure ()

namespace Node

variable {n : Node} {env : Env}

theorem faithful_restOfLine (text : P.SameText) : P.Faithful restOfLine := by
  intro low
  refine Mirrors.bind Mirrors.hasNext fun more => ?_
  split
  · refine Mirrors.bind Mirrors.next fun _ => Mirrors.get fun s t agree => ?_
    have least := P.least agree.cursor
    have ended : low ≤ s.cursor.consumed := by omega
    refine Mirrors.bind (Mirrors.moveCursor fun c d rel => P.toEnd rel) fun _ => ?_
    rw [text agree.cursor (Nat.succ_pos low)]
    exact (Faithful.pure _).mirrors ended
  · exact Mirrors.pure ""

theorem faithful_populate {c : Command}
    (program : ∀ p, c.program = some p → P.Faithful (p.populate env))
    (text : c.program = none → P.SameText) :
    P.Faithful (n.populate c env) := by
  intro low
  unfold populate
  split
  · rename_i p there
    exact program p there low
  · rename_i missing
    exact Mirrors.bind (faithful_restOfLine (text missing) low) fun _ => Mirrors.store _ _

theorem ends_recover {low : Nat} (own : ∀ p, n.fallback = some p → P.Faithful (p.parse env))
    (typed : String) (c : Command) {s t : State} (agree : P.Agree low s t) {e e' : ParseError}
    (alike : e.Alike e') : P.Ends low (n.recover env typed c s e) (n.recover env typed c t e') := by
  unfold recover
  split
  · rename_i p _ there
    exact own p there low s t agree
  · refine .error ⟨alike.bare, ?_⟩ (agree.weaken (Nat.zero_le _))
    simp only [failureUsage, ParseError.withUsage, alike.usage]

variable (own : ∀ p, n.fallback = some p → P.Faithful (p.parse env))
  (commands : ∀ typed m, n.commands.get? (some env.source) typed = some m →
    ∀ p, m.callable.program = some p → P.Faithful (p.populate env))
  (text : ∀ typed m, n.commands.get? (some env.source) typed = some m →
    m.callable.program = none → P.SameText)

include own commands text

theorem faithful_readNamed : P.Faithful (n.readNamed env) := by
  intro low s t agree
  unfold readNamed
  rcases P.next? agree.cursor with ⟨here, there⟩ | ⟨typed, c, d, here, there, rel⟩
  · simp only [here, there]
    exact .error ⟨rfl, rfl⟩ (agree.weaken (Nat.zero_le _))
  · simp only [here, there]
    have read := agree.move rel
    cases named : n.commands.get? (some env.source) typed with
    | none =>
        dsimp only
        split
        · rename_i p _ there
          exact own p there low s t agree
        · exact Mirrors.reject _ _ _ read
    | some m =>
        have below :=
          faithful_populate (n := n) (commands typed m named) (text typed m named) (low + 1) _ _ read
        dsimp only
        generalize n.populate m.callable env { s with cursor := c } = x at below ⊢
        generalize n.populate m.callable env { t with cursor := d } = y at below ⊢
        cases below with
        | ok after => exact (Mirrors.store n.key (n.handle m) _ _ after).weaken (Nat.le_succ low)
        | error alike _ => exact ends_recover own typed m.callable agree alike

theorem faithful_read : P.Faithful (n.read env) := by
  intro low
  refine Mirrors.bind Mirrors.hasNext fun more => ?_
  split
  · split
    · rename_i p there
      exact own p there low
    · exact Mirrors.pure ()
  · exact faithful_readNamed own commands text low

end Node

/-! ## Whole grammars -/

namespace Element

variable {env : Env}

theorem faithful_grammar {s : Spec} (h : ∀ e ∈ s.parts, P.Faithful (e.parser.parse env)) :
    P.Faithful (s.behaviour.grammar.parse env) :=
  Spec.forall_grammar (P := fun p => P.Faithful (p.parse env)) (fun _ => Parser.faithful_readAll) h

theorem faithful_child {n : Subcommands} (text : (Element.child n).ReadsText → P.SameText)
    (h : ∀ e ∈ (Element.child n).parts, P.Faithful (e.parser.parse env)) :
    P.Faithful ((Element.child n).parser.parse env) := by
  refine Node.faithful_read ?_ ?_ ?_
  · exact Subcommands.forall_fallback (P := fun p => P.Faithful (p.parse env)) h
  · intro typed m named p program
    obtain ⟨s, rfl, -, inNode⟩ := Subcommands.program_of_get? named program
    exact Specified.faithful_populate (faithful_grammar fun e he => h e (inNode e he))
  · intro typed m named missing
    rw [Subcommands.toNode_get?, Option.map_eq_some_iff] at named
    obtain ⟨m, named, rfl⟩ := named
    refine text ⟨m.callable, Dispatcher.mem_callables_of_get? named, fun s there => ?_⟩
    rw [Mapping.map_callable, there] at missing
    cases missing

/-- An element reads two lines alike, if what in it asks for the text of the line finds the same. -/
theorem faithful {e : Element} (env : Env) (h : e.Every fun d => d.ReadsText → P.SameText) :
    P.Faithful (e.parser.parse env) := by
  induction h with
  | @intro e text below ih =>
      have all : ∀ {es : List Element}, (∀ e ∈ es, P.Faithful (e.parser.parse env)) →
          ∀ p ∈ Element.parsers es, P.Faithful (p.parse env) :=
        forall_parsers (P := fun p => P.Faithful (p.parse env))
      cases e with
      | sequence items => exact Parser.faithful_readAll (all ih)
      | firstOf items => exact Parser.faithful_readFirst (all ih)
      | optional item default weak =>
          exact Parser.faithful_optional (ih item List.mem_cons_self) default weak
      | repeated item times => exact Parser.faithful_readTimes (ih item List.mem_cons_self) times
      | allOf item => exact Parser.faithful_allOf (ih item List.mem_cons_self) (item.onward env)
      | onlyOne item => exact Parser.faithful_onlyOne (ih item List.mem_cons_self)
      | choice key c => exact c.faithful_parse key env
      | selection key s => exact s.faithful_parse key env
      | phrase key p => exact p.faithful_parse key env
      | leaf key leaf =>
          refine leaf.faithful_parse key (fun raw => text ?_) env
          rw [raw]
          trivial
      | flags table values body =>
          have own := table.forall_value (P := fun p => P.Faithful (p.parse env))
            (fun _ => Mirrors.pure ()) fun e he => ih e (List.mem_cons_of_mem body he)
          exact FlagScanner.faithful_read own (ih body List.mem_cons_self)
      | suggesting item _ _ | constrained item _ => exact ih item List.mem_cons_self
      | child n => exact faithful_child text ih

end Element

end CommandGrammar
