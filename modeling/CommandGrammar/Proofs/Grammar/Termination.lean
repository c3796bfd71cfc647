import CommandGrammar.Proofs.Completion
import CommandGrammar.Proofs.Execution
import CommandGrammar.Proofs.Grammar.Progress

/-!
# Termination

Each loop that reading a grammar runs ends by itself, so the number of steps that it is given is never
used up. The loops of completing end where what is repeated until the tokens run out moves the cursor,
and where it does everywhere, no search is endless.
-/

namespace CommandGrammar

open Reading

/-! ## Loops of readings -/

theorem Parser.ends_allOf {p : Parser} {env : Env} (h : (p.parse env).Onward) {s : State}
    (start : s.cursor.Within) : Loop.Ends (p.readTurn env) s (p.allOf.parse env s) := by
  change Loop.Ends _ s (p.readWhile env (s.cursor.weight + 1) s)
  rw [readWhile_eq_run]
  refine Loop.ends_run (fun s => s.cursor.Within) (fun s => s.cursor.weight) _ ?_ start
    (Nat.lt_succ_self _)
  intro s t start next
  obtain ⟨moved, lighter⟩ := onward_readTurn h start next
  exact ⟨moved.within, lighter⟩

theorem Parser.ends_completeAllOf {p : Parser} {env : Env} (h : (p.parse env).Onward)
    (moving : ∀ s t, s.cursor.Within → s.cursor.hasNext = true → p.parse env s = .ok () t →
      t.cursor.mark ≠ s.cursor.mark) {s : State} (start : s.cursor.Within) :
    Loop.Ends (p.completeTurn env) s (p.allOf.complete env s) := by
  suffices ends : ∃ c, Loop.Ends (p.completeTurn env) s c by
    obtain ⟨c, ends⟩ := ends
    rw [complete_allOf_of_ends ends]
    exact ends
  refine ⟨_, Loop.ends_run (fun s => s.cursor.Within) (fun s => s.cursor.weight) (fun _ => .none)
    ?_ start (Nat.lt_succ_self _)⟩
  intro s t start next
  obtain ⟨more, read⟩ := completeTurn_inl next
  have moved := h start read
  exact ⟨moved.within, moved.weight_lt_or_mark.resolve_right (moving s t start more read)⟩

/-! ## Scans for flags -/

namespace FlagScanner

variable {f : FlagScanner} {env : Env} (values : ∀ index, ((f.value index).parse env).Onward)

include values

theorem ends_scan {s : State} (start : s.cursor.Within) :
    Loop.Ends (f.scanTurn env) s (f.scan env (s.cursor.weight + 1) s) := by
  rw [scan_eq_run]
  refine Loop.ends_run (fun s => s.cursor.Within) (fun s => s.cursor.weight) _ ?_ start
    (Nat.lt_succ_self _)
  intro s t _ next
  obtain ⟨moved, lighter⟩ := onward_scanTurn values next
  exact ⟨moved.within, lighter⟩

/-- A value that settles its flag has been read, or nothing has. -/
theorem onward_of_settled {index : Nat} {s t : State} {lines : List String}
    (start : s.cursor.Within)
    (h : completeValue (f.value index) env s = .settled lines t) : s.cursor.Onward t.cursor := by
  unfold completeValue at h
  cases read : (f.value index).parse env s with
  | error e u => simp [read] at h
  | ok _ u =>
      simp only [read] at h
      split at h
      · cases h
      · split at h
        · cases h
          exact values index start read
        · split at h <;> cases h

theorem onward_of_settleEmpty {index : Nat} {s t : State} {lines : List String}
    (start : s.cursor.Within)
    (h : settleEmpty s (completeValue (f.value index) env s) = .settled lines t) :
    s.cursor.Onward t.cursor := by
  cases done : completeValue (f.value index) env s with
  | settled more u =>
      simp only [done, settleEmpty] at h
      cases h
      exact onward_of_settled values start done
  | offered c =>
      simp only [done, settleEmpty] at h
      split at h
      · cases h
        exact .refl start
      · cases h

theorem beyond_completeLong {flag : List Char} {s t : State} {lines : List String}
    (start : s.cursor.Within) (h : f.completeLong env flag s = .settled lines t) :
    s.cursor.Beyond flag.length t.cursor := by
  unfold completeLong at h
  cases cut : splitInline flag with
  | mk name inline =>
      simp only [cut] at h
      split at h
      · cases h
      · rename_i index _
        cases inline with
        | none =>
            simp only at h
            split at h
            · exact (onward_of_settleEmpty values start h).beyond _
            · cases h
        | some v =>
            have put := Cursor.Beyond.insert start v
            simp only at h
            split at h
            · rename_i done
              cases h
              have moved := onward_of_settled values put.within done
              exact (put.onward moved).weaken (length_lt_of_splitInline cut)
            · cases h

theorem onward_completeShort {first : Bool} {letters : List Char} {s t : State}
    {lines more : List String} (start : s.cursor.Within)
    (h : f.completeShort env first letters lines s = .settled more t) :
    s.cursor.Onward t.cursor := by
  induction letters generalizing first lines s with
  | nil =>
      cases h
      exact .refl start
  | cons c letters ih =>
      unfold completeShort at h
      split at h
      · rename_i index _
        cases done : settleEmpty s (completeValue (f.value index) env s) with
        | settled sent u =>
            simp only [done] at h
            have moved := onward_of_settleEmpty values start done
            exact moved.trans (ih moved.within h)
        | offered c => simp [done] at h
      · split at h
        · cases there : s.cursor.next? with
          | none =>
              simp only [there, Option.elim_none] at h
              cases h
              exact .refl start
          | some pair =>
              simp only [there, Option.elim_some] at h
              cases h
              exact .of_next? there
        · exact ih start h

theorem beyond_completeFlag {flag : List Char} {s t : State} {lines : List String}
    (start : s.cursor.Within) (h : f.completeFlag env flag s = .settled lines t) :
    s.cursor.Beyond flag.length t.cursor := by
  unfold completeFlag at h
  split at h
  · exact (beyond_completeLong values start h).weaken (Nat.le_succ _)
  · exact (onward_completeShort values start h).beyond _

/-- Each word of a scan for the completion of a flag leaves something lighter. -/
theorem onward_completeTurn {s t : State} {lines more : List String}
    (next : f.completeTurn env (lines, s) = .inl (more, t)) :
    s.cursor.Onward t.cursor ∧ t.cursor.weight < s.cursor.weight := by
  unfold completeTurn at next
  cases there : s.cursor.next? with
  | none => simp [there] at next
  | some pair =>
      obtain ⟨word, c⟩ := pair
      have first := Cursor.Onward.of_next? there
      have lighter := Cursor.weight_of_next? there
      simp only [there] at next
      split at next
      -- The word of a flag is heavier than any inline value that it leaves behind.
      · rename_i flag letters
        cases done : f.completeFlag env flag { s with cursor := c } with
        | offered offers => simp [done] at next
        | settled sent u =>
            have length : flag.length < word.length := by
              rw [← String.length_toList, letters]
              exact Nat.lt_succ_self _
            have moved := beyond_completeFlag values first.within done
            simp only [done, Sum.inl.injEq, Prod.mk.injEq] at next
            obtain ⟨-, rfl⟩ := next
            exact moved.takeOut there (Nat.le_of_lt length)
      · split at next
        · cases next
        · cases next
          exact ⟨first, by dsimp only; omega⟩

theorem ends_completeScan {s : State} (start : s.cursor.Within) (lines : List String) :
    Loop.Ends (f.completeTurn env) (lines, s)
      (f.completeScan env (s.cursor.weight + 1) lines s) := by
  rw [completeScan_eq_run]
  refine Loop.ends_run (fun p => p.2.cursor.Within) (fun p => p.2.cursor.weight) _ ?_ start
    (Nat.lt_succ_self _)
  rintro ⟨lines, s⟩ ⟨more, t⟩ _ next
  obtain ⟨moved, lighter⟩ := onward_completeTurn values next
  exact ⟨moved.within, lighter⟩

end FlagScanner

/-! ## Searches -/

/-- From everywhere in a line, reading goes on and the search for completions comes to an end. -/
structure Parser.Ending (env : Env) (p : Parser) : Prop where
  onward : (p.parse env).Onward
  ends : ∀ s : State, s.cursor.Within → (p.complete env s).endless = false

namespace Parser

variable {env : Env} {p : Parser} {ps : List Parser} {s : State}

theorem endless_completeAll (h : ∀ p ∈ ps, p.Ending env) (within : s.cursor.Within)
    {done : Completion} (begun : done.endless = false) :
    (completeAll env ps s done).endless = false := by
  induction ps generalizing s done with
  | nil => exact begun
  | cons p ps ih =>
      have here := h p List.mem_cons_self
      have others : ∀ q ∈ ps, q.Ending env := fun q hq => h q (List.mem_cons_of_mem p hq)
      have added : (done.add (p.complete env s)).endless = false := by
        simp [Completion.add, begun, here.ends s within]
      cases read : p.parse env s with
      | error e t =>
          rw [completeAll_cons_failed read]
          exact added
      | ok _ t =>
          by_cases still : t.cursor.mark = s.cursor.mark
          · rw [completeAll_cons_still read still]
            exact ih (s := { s with context := t.context }) others within added
          · cases more : t.cursor.hasNext with
            | true =>
                rw [completeAll_cons_moved read still more]
                exact ih others (here.onward within read).within begun
            | false =>
                cases absent : p.isOptional with
                | true =>
                    rw [completeAll_cons_absent read still more absent]
                    exact ih others within added
                | false =>
                    rw [completeAll_cons_last read still more absent]
                    exact added

theorem ending_sequence (h : ∀ p ∈ ps, p.Ending env) : (sequence ps).Ending env where
  onward := moves_readAll Onward.way.toCourse fun p hp => (h p hp).onward
  ends _ within := endless_completeAll h within rfl

theorem endless_completeFirst (h : ∀ p ∈ ps, p.Ending env) (within : s.cursor.Within)
    {done : Completion} (begun : done.endless = false) :
    (ps.foldl (fun done p => done.add (p.complete env s)) done).endless = false := by
  induction ps generalizing done with
  | nil => exact begun
  | cons p ps ih =>
      rw [List.foldl_cons]
      refine ih (fun q hq => h q (List.mem_cons_of_mem p hq)) ?_
      simp [Completion.add, begun, (h p List.mem_cons_self).ends s within]

theorem endless_completeTimes (h : p.Ending env) (n : Nat) (within : s.cursor.Within) :
    (p.completeTimes env n s).endless = false := by
  induction n generalizing s with
  | zero => rfl
  | succ n ih =>
      unfold completeTimes
      cases read : p.parse env s with
      | ok _ t => exact ih (h.onward within read).within
      | error e t => exact h.ends s within

theorem endless_completeAllOf (h : p.Ending env)
    (moving : ∀ s t, s.cursor.Within → s.cursor.hasNext = true → p.parse env s = .ok () t →
      t.cursor.mark ≠ s.cursor.mark) (within : s.cursor.Within) :
    (p.allOf.complete env s).endless = false := by
  have ends := ends_completeAllOf h.onward moving within
  revert ends
  generalize p.allOf.complete env s = c
  intro ends
  induction ends with
  | stop last =>
      rcases completeTurn_inr last with rfl | rfl
      · rfl
      · exact h.ends _ within
  | go next _ ih => exact ih (h.onward within (completeTurn_inl next).2).within

end Parser

namespace FlagScanner

/-- A flag is settled, or the search for offers has come to an end. -/
def Progress.Ended : Progress → Prop
  | .settled _ _ => True
  | .offered c => c.endless = false

variable {f : FlagScanner} {env : Env}

theorem ended_completeValue {p : Parser} (h : p.Ending env) {s : State} (within : s.cursor.Within) :
    (completeValue p env s).Ended := by
  unfold completeValue
  cases read : p.parse env s with
  | error e t => exact h.ends s within
  | ok _ t =>
      have inside := (h.onward within read).within
      have back : t.cursor.previous.Within := Nat.le_trans (Nat.sub_le _ _) inside
      have before := h.ends { t with cursor := t.cursor.previous } back
      dsimp only
      split
      · exact h.ends t inside
      · split
        · trivial
        · split
          · dsimp only [Progress.Ended]
            split <;> exact before
          · exact before

theorem ended_settleEmpty {s : State} {done : Progress} (h : done.Ended) :
    (settleEmpty s done).Ended := by
  cases done with
  | settled lines t => trivial
  | offered c =>
      simp only [settleEmpty]
      split
      · trivial
      · exact h

variable (values : ∀ index, (f.value index).Ending env)

include values

theorem ended_completeLong (flag : List Char) {s : State} (within : s.cursor.Within) :
    (f.completeLong env flag s).Ended := by
  unfold completeLong
  cases splitInline flag with
  | mk name inline =>
      dsimp only
      cases f.table.long? (Text.lowercase name) with
      | none => exact rfl
      | some index =>
          cases inline with
          | some v =>
              have done := ended_completeValue (values index)
                (s := { s with cursor := s.cursor.insert v }) (Cursor.Beyond.insert within v).within
              dsimp only
              cases result : completeValue (f.value index) env
                  { s with cursor := s.cursor.insert v } with
              | settled lines t => trivial
              | offered c =>
                  rw [result] at done
                  exact done
          | none =>
              dsimp only
              split
              · exact ended_settleEmpty (ended_completeValue (values index) within)
              · exact rfl

theorem ended_completeShort (first : Bool) (letters : List Char) (lines : List String) {s : State}
    (within : s.cursor.Within) : (f.completeShort env first letters lines s).Ended := by
  induction letters generalizing first lines s with
  | nil => trivial
  | cons c letters ih =>
      unfold completeShort
      split
      · rename_i index _
        have done := ended_settleEmpty (s := s) (ended_completeValue (values index) within)
        cases result : settleEmpty s (completeValue (f.value index) env s) with
        | settled more t =>
            exact ih _ _ (onward_of_settleEmpty (fun i => (values i).onward) within result).within
        | offered o =>
            rw [result] at done
            exact done
      · split
        · trivial
        · exact ih _ _ within

theorem ended_completeFlag (flag : List Char) {s : State} (within : s.cursor.Within) :
    (f.completeFlag env flag s).Ended := by
  unfold completeFlag
  split
  · exact ended_completeLong values _ within
  · exact ended_completeShort values true _ [] within

theorem ended_completeScan {lines : List String} {s : State} {done : Progress}
    (ends : Loop.Ends (f.completeTurn env) (lines, s) done) : done.Ended := by
  generalize start : (lines, s) = p at ends
  induction ends generalizing lines s with
  | go next _ ih => exact ih rfl
  | @stop p done last =>
      subst start
      unfold completeTurn at last
      cases there : s.cursor.next? with
      | none =>
          simp only [there] at last
          cases last
          trivial
      | some pair =>
          obtain ⟨word, c⟩ := pair
          have inside := (Cursor.Onward.of_next? there).within
          simp only [there] at last
          split at last
          · rename_i flag letters
            have ended := ended_completeFlag values flag (s := { s with cursor := c }) inside
            cases result : f.completeFlag env flag { s with cursor := c } with
            | settled more t => simp [result] at last
            | offered o =>
                rw [result] at ended
                simp only [result, Sum.inr.injEq] at last
                subst last
                exact ended
          · split at last
            · cases last
              trivial
            · cases last

theorem endless_complete {body : Parser} (rest : body.Ending env) {s : State}
    (within : s.cursor.Within) : (f.complete body env s).endless = false := by
  have scanned := ends_completeScan (fun i => (values i).onward) within []
  have ended := ended_completeScan values scanned
  unfold complete
  cases result : f.completeScan env (s.cursor.weight + 1) [] s with
  | offered c =>
      rw [result] at ended
      exact ended
  | settled lines t =>
      dsimp only
      split
      · rfl
      · exact rest.ends _ (Nat.min_le_right _ _)

end FlagScanner

/-! ## Whole grammars -/

namespace Element

/-- What reading or completing an element may come to: its parts, and the grammars of the commands
that its nodes hold, down through dispatchers. -/
inductive Reaches : Element → Element → Prop
  | self (e : Element) : Reaches e e
  | part {e d a : Element} (h : d ∈ e.parts) (rest : Reaches d a) : Reaches e a
  | command {n : Subcommands} {c : Callable} {s : Spec} {a : Element}
      (h : c ∈ n.commands.callables) (held : c.Holds (.spec s)) (rest : Reaches s.grammar a) :
      Reaches (.child n) a

theorem Reaches.trans {e d a : Element} (h : e.Reaches d) (rest : d.Reaches a) : e.Reaches a := by
  induction h with
  | self _ => exact rest
  | part inside _ ih => exact .part inside (ih rest)
  | command inNode held _ ih => exact .command inNode held (ih rest)

/-- Without a node, there is nothing to come to but the element and what its parts come to. -/
theorem Reaches.eq_or_part {e d : Element} (h : e.Reaches d) (plain : ∀ n, e ≠ .child n) :
    d = e ∨ ∃ a ∈ e.parts, a.Reaches d := by
  cases h with
  | self => exact .inl rfl
  | part inside rest => exact .inr ⟨_, inside, rest⟩
  | command _ _ _ => exact absurd rfl (plain _)

/-- From everywhere in a line, the loop that reading an element runs ends with what is read. -/
def ReadingEnds (env : Env) : Element → Prop
  | .allOf item => ∀ s : State, s.cursor.Within →
      Loop.Ends (item.parser.readTurn env) s (item.parser.allOf.parse env s)
  | .flags table values _ => ∀ s : State, s.cursor.Within →
      Loop.Ends ((table.scanner values).scanTurn env) s
        ((table.scanner values).scan env (s.cursor.weight + 1) s)
  | _ => True

/-- From everywhere in a line, the loop that completing an element runs ends with what is offered. -/
def CompletingEnds (env : Env) : Element → Prop
  | .allOf item => ∀ s : State, s.cursor.Within →
      Loop.Ends (item.parser.completeTurn env) s (item.parser.allOf.complete env s)
  | .flags table values _ => ∀ s : State, s.cursor.Within →
      Loop.Ends ((table.scanner values).completeTurn env) ([], s)
        ((table.scanner values).completeScan env (s.cursor.weight + 1) [] s)
  | _ => True

/-- What is repeated until the tokens run out changes the cursor where it reads with tokens left. -/
def Moving (env : Env) : Element → Prop
  | .allOf item => ∀ s t : State, s.cursor.Within → s.cursor.hasNext = true →
      item.parser.parse env s = .ok () t → t.cursor.mark ≠ s.cursor.mark
  | _ => True

/-! ### Commands -/

end Element

namespace Callable

variable {env : Env}

/-- Whatever is asked of a command for offers, in place or for a line, the search comes to an end. -/
structure Ending (env : Env) (c : Callable) : Prop where
  line : ∀ text, (c.command.suggestions env text).endless = false
  inPlace : ∀ s : State, s.cursor.Within → (Node.completeBelow c.command env s).endless = false

/-- A command that does not read in place is asked for a line. -/
theorem Ending.of_line {c : Callable} (unspecified : ∀ s, c ≠ .spec s)
    (line : ∀ text, (c.command.suggestions env text).endless = false) : c.Ending env where
  line := line
  inPlace s _ := by
    unfold Node.completeBelow Suggestions.completion
    rw [program_eq_none unspecified]
    have ends := line (s.cursor.next?.elim s.cursor (·.2)).rawFromCurrent
    dsimp only
    split <;> exact ends

theorem ending_spec {s : Spec} (h : s.behaviour.grammar.Ending env) : (spec s).Ending env where
  line text := by
    change (s.behaviour.suggestions env text).endless = false
    unfold Specified.suggestions
    split
    · cases cut : Cursor.ofLine s.behaviour.tokenizer true text with
      | ok cursor => exact h.ends ⟨cursor, .forCompletion⟩ (Cursor.within_ofLine cut)
      | error e => rfl
    · rfl
  inPlace st within := h.ends st within

theorem ending_of_held {c : Callable}
    (h : ∀ s, c.Holds (.spec s) → s.behaviour.grammar.Ending env) : c.Ending env := by
  induction c using induction_registered with
  | step c ih =>
      cases c with
      | spec s => exact ending_spec (h s (.self _))
      | raw r => exact .of_line nofun fun _ => rfl
      | dispatcher d =>
          refine .of_line nofun fun text => ?_
          change ((behaviours d).suggestions env text).endless = false
          unfold Dispatcher.suggestions
          rw [behaviours_eq_map]
          split
          · rfl
          · rename_i name arguments _
            rw [Dispatcher.get?_map]
            cases named : d.get? (some env.source) (String.ofList name) with
            | none => rfl
            | some m =>
                have inside : m.callable ∈ (dispatcher d).registered :=
                  Dispatcher.mem_callables_of_get? named
                exact (ih _ inside fun s held => h s (.inside inside held)).line _

/-- What a command holds is no larger than the command. -/
theorem Holds.sizeOf_le {c b : Callable} (h : c.Holds b) : sizeOf b ≤ sizeOf c := by
  induction h with
  | self c => exact Nat.le_refl _
  | inside registered _ ih =>
      exact Nat.le_trans ih (Nat.le_of_lt (sizeOf_lt_of_mem_registered registered))

end Callable

namespace Element

variable {env : Env}

theorem ending_child {n : Subcommands}
    (own : ∀ e, n.fallback = some e → e.parser.Ending env)
    (held : ∀ c ∈ n.commands.callables, ∀ s, c.Holds (.spec s) → s.behaviour.grammar.Ending env) :
    (Element.child n).parser.Ending env where
  onward := (Element.child n).onward env
  ends s within := by
    have fallback : ∀ {o : Completion}, o.endless = false →
        ((n.toNode.fallback.elim .none fun p => Completion.none.replace
          (p.complete env s)).replace o).endless = false := by
      intro o ends
      rw [Subcommands.toNode_fallback]
      cases there : n.fallback with
      | none => exact ends
      | some e => simp [Completion.replace, Completion.none, (own e there).ends s within, ends]
    change (n.toNode.complete env s).endless = false
    unfold Node.complete
    cases next : s.cursor.next? with
    | none => exact fallback rfl
    | some pair =>
        obtain ⟨typed, c⟩ := pair
        dsimp only
        split
        · rw [Subcommands.toNode_get?]
          cases named : n.commands.get? (some env.source) typed with
          | none =>
              have ends := fallback (o := .none) rfl
              simpa [Completion.replace, Completion.none, Completion.clear] using ends
          | some m =>
              have below := Callable.ending_of_held
                (held m.callable (Dispatcher.mem_callables_of_get? named))
              exact fallback
                (below.inPlace { s with cursor := c } (Cursor.Onward.of_next? next).within)
        · exact fallback rfl

/-- The grammar of a command reaches its parts. -/
theorem reaches_of_mem_parts {s : Spec} {d : Element} (h : d ∈ s.parts) : s.grammar.Reaches d := by
  cases s with
  | mk own body description extended permission tokenizer =>
      cases own <;> cases body <;> simp only [Spec.parts, Spec.own, Spec.body, Spec.grammar] at h ⊢
      · simp at h
      · simp only [Option.toList_none, List.nil_append, List.mem_singleton] at h
        rw [h]
        exact .self _
      · simp only [Option.toList_some, List.append_nil, List.mem_singleton] at h
        rw [h]
        exact .self _
      · exact .part h (.self _)

theorem sizeOf_lt_of_held {n : Subcommands} {c : Callable} {s : Spec} {d : Element}
    (inNode : c ∈ n.commands.callables) (held : c.Holds (.spec s)) (h : d ∈ s.parts) :
    sizeOf d < sizeOf (Element.child n) := by
  have inSpec := sizeOf_lt_of_mem_specParts h
  have inCommand := held.sizeOf_le
  have inTable := Dispatcher.sizeOf_lt_of_mem inNode
  cases n with
  | mk key action fallback commands onFail =>
      simp only [Subcommands.commands] at inTable
      simp only [Callable.spec.sizeOf_spec] at inCommand
      simp only [child.sizeOf_spec, Subcommands.mk.sizeOf_spec]
      omega

/-- What is repeated until the tokens run out moves, wherever the element comes to it: so the search
for its completions ends. -/
theorem ending_of_moving (e : Element) (moving : ∀ d, e.Reaches d → d.Moving env) :
    e.parser.Ending env := by
  -- Induction on the size, since the commands in a dispatcher are no parts of the node that holds it.
  induction size : sizeOf e using Nat.strongRecOn generalizing e with
  | ind n ih =>
      subst size
      have below : ∀ d ∈ e.parts, d.parser.Ending env := fun d hd =>
        ih _ (sizeOf_lt_of_mem_parts hd) d (fun a reached => moving a (.part hd reached)) rfl
      have all : ∀ {es : List Element}, (∀ e ∈ es, e.parser.Ending env) →
          ∀ p ∈ Element.parsers es, p.Ending env := forall_parsers (P := fun p => p.Ending env)
      refine ⟨e.onward env, fun s within => ?_⟩
      cases e with
      | sequence items => exact Parser.endless_completeAll (all below) within rfl
      | firstOf items => exact Parser.endless_completeFirst (all below) within rfl
      | optional item default weak => exact (below item List.mem_cons_self).ends s within
      | repeated item times =>
          exact Parser.endless_completeTimes (below item List.mem_cons_self) times within
      | allOf item =>
          exact Parser.endless_completeAllOf (below item List.mem_cons_self)
            (moving _ (.self _)) within
      | onlyOne item => exact (below item List.mem_cons_self).ends s within
      | choice _ _ | phrase _ _ | leaf _ _ => rfl
      | selection key c =>
          simp only [parser, Selection.parser]
          split
          · rfl
          · split <;> rfl
      | flags table values body =>
          have own := table.forall_value (P := fun p => p.Ending env) (Parser.ending_sequence nofun)
            fun d hd => below d (List.mem_cons_of_mem body hd)
          exact FlagScanner.endless_complete own (below body List.mem_cons_self) within
      | suggesting item suggestions requireBegin =>
          simp only [parser, Parser.suggesting]
          split <;> rfl
      | constrained item keep => exact (below item List.mem_cons_self).ends s within
      | child n =>
          refine (ending_child (fun e there => ?_) fun c inNode s held => ?_).ends s within
          · exact below e (List.mem_append_left _ (by simp [there]))
          · refine Spec.forall_grammar (P := fun p => p.Ending env)
              (fun _ => Parser.ending_sequence) fun d hd => ?_
            refine ih _ (sizeOf_lt_of_held inNode held hd) d (fun a reached => moving a ?_) rfl
            exact .command inNode held ((reaches_of_mem_parts hd).trans reached)

theorem readingEnds (e : Element) (env : Env) : e.ReadingEnds env := by
  cases e with
  | allOf item => exact fun s start => Parser.ends_allOf (item.onward env) start
  | flags table values body =>
      exact fun s start => FlagScanner.ends_scan (onward_value table values env) start
  | _ => trivial

theorem completingEnds {e : Element} {env : Env} (moving : e.Moving env) : e.CompletingEnds env := by
  cases e with
  | allOf item => exact fun s start => Parser.ends_completeAllOf (item.onward env) moving start
  | flags table values body =>
      exact fun s start => FlagScanner.ends_completeScan (onward_value table values env) start []
  | _ => trivial

/-- Reading an element keeps the tokens before the place where it begins, does not go back before
that place, and leaves less than there was unless nothing has changed at all. So every loop that it
may come to ends; and so does every loop of its completion, if what is repeated until the tokens run
out changes the cursor wherever it reads with tokens left. The whole search ends then. -/
theorem terminates (e : Element) (env : Env) :
    (∀ s t : State, s.cursor.Within → e.parser.parse env s = .ok () t →
      t.cursor.tokens.take s.cursor.consumed = s.cursor.tokens.take s.cursor.consumed ∧
      s.cursor.consumed ≤ t.cursor.consumed ∧ t.cursor.weight ≤ s.cursor.weight ∧
      (t.cursor.weight < s.cursor.weight ∨ t.cursor.mark = s.cursor.mark)) ∧
    (∀ d, e.Reaches d → d.ReadingEnds env) ∧
    (∀ d, e.Reaches d → d.Moving env → d.CompletingEnds env) ∧
    ((∀ d, e.Reaches d → d.Moving env) → ∀ s : State, s.cursor.Within →
      (e.parser.complete env s).endless = false) := by
  refine ⟨fun s t start read => ?_, fun d _ => d.readingEnds env, fun d _ => completingEnds,
    fun moving => (e.ending_of_moving moving).ends⟩
  have moved := e.onward env start read
  exact ⟨moved.before, moved.place, moved.weight_le, moved.weight_lt_or_mark⟩

/-- Words until the line ends, among which a flag with an inline value may stand. -/
theorem terminates_of_inline :
    let flags := ({} : FlagDeclarations).declare ["-n"] (some (.leaf "n" .integer))
    let words : Element := .allOf (.leaf "k" .string)
    let e : Element := .flags flags.table flags.values words
    let now : DateTime :=
      ⟨{ year := 2001, month := 2, day := 3 }, { hour := 4, minute := 5, second := 6, nano := 0 }⟩
    let env : Env := { source := { name := "ann" }, now }
    let s : State := ⟨.ofTokens "a --n=5" [⟨"a", 0, 1⟩, ⟨"--n=5", 2, 7⟩], .empty⟩
    (∃ t, e.parser.parse env s = .ok () t ∧ t.cursor.weight < s.cursor.weight) ∧
      e.ReadingEnds env ∧ words.CompletingEnds env ∧
      (e.parser.complete env s).endless = false := by
  intro flags words e now env s
  have within : s.cursor.Within := Nat.zero_le _
  have taken : (e.parser.parse env).end? s = some ⟨"a --n=5", [⟨"a", 0, 1⟩], 1⟩ := by decide +kernel
  have moving : words.Moving env := by
    intro s t start more read
    obtain ⟨v, c, next⟩ := Cursor.next?_of_hasNext more
    obtain ⟨rfl, -⟩ := Cursor.of_next? next
    obtain ⟨w, u, first, stored⟩ := bind_eq_ok.mp read
    obtain ⟨text, c', taken, value⟩ := bind_eq_ok.mp first
    cases (next_of_some next).symm.trans taken
    cases value
    cases stored
    simp [Cursor.mark]
  have leaf : ∀ key l d, (Element.leaf key l).Reaches d → d.Moving env := by
    intro key l d reached
    rcases reached.eq_or_part (fun _ => Element.noConfusion) with rfl | ⟨_, inside, -⟩
    · trivial
    · cases inside
  have everywhere : ∀ d, e.Reaches d → d.Moving env := by
    intro d reached
    rcases reached.eq_or_part (fun _ => Element.noConfusion) with rfl | ⟨a, inside, rest⟩
    · trivial
    · rcases List.mem_cons.mp inside with rfl | value
      · rcases rest.eq_or_part (fun _ => Element.noConfusion) with rfl | ⟨a, inside, rest⟩
        · exact moving
        · cases List.mem_singleton.mp inside
          exact leaf _ _ d rest
      · cases List.mem_singleton.mp value
        exact leaf _ _ d rest
  obtain ⟨reading, loops, completing, ending⟩ := terminates e env
  refine ⟨?_, loops e (.self e), completing words (.part List.mem_cons_self (.self words)) moving,
    ending everywhere s within⟩
  obtain ⟨_, t, read, place⟩ := of_end? taken
  obtain ⟨-, -, -, lighter | same⟩ := reading s t within read
  · exact ⟨t, read, lighter⟩
  · simp [place, s, Cursor.mark, Cursor.ofTokens] at same

end Element

end CommandGrammar
