import CommandGrammar.Proofs.Grammar.Loops
import CommandGrammar.Proofs.Grammar.Rollback

/-!
# Offers without values

What an element offers does not depend on the values read before it, where nothing in it asks how
many there are: its parts read alike with all contexts, and so its completion takes the same way
with each of them.
-/

namespace CommandGrammar

open Reading

/-- A reading that leaves a trace ends alike with all contexts. -/
theorem Reading.WriteOnly.ends {r : Reading Unit} (h : r.WriteOnly) (c : Cursor) :
    (∃ d pairs, ∀ x, r ⟨c, x⟩ = .ok () ⟨d, Context.putAll x pairs⟩) ∨
      ∃ e d pairs, ∀ x, r ⟨c, x⟩ = .error e ⟨d, Context.putAll x pairs⟩ := by
  obtain ⟨⟨result, d, pairs⟩, trace, -⟩ := h c
  cases result with
  | ok _ => exact .inl ⟨d, pairs, trace⟩
  | error e => exact .inr ⟨e, d, pairs, trace⟩

/-- A parser that reads and completes alike with all contexts. -/
structure Parser.Unaware (env : Env) (p : Parser) : Prop where
  reads : (p.parse env).WriteOnly
  offers : ∀ c x y, p.complete env ⟨c, x⟩ = p.complete env ⟨c, y⟩

/-! ## Combinators -/

namespace Parser

variable {env : Env} {p : Parser} {ps : List Parser}

theorem completeAll_unaware (h : ∀ p ∈ ps, p.Unaware env) (c : Cursor) (x y : Context)
    (done : Completion) : completeAll env ps ⟨c, x⟩ done = completeAll env ps ⟨c, y⟩ done := by
  induction ps generalizing c x y done with
  | nil => rfl
  | cons p ps ih =>
      have here := h p List.mem_cons_self
      have later := ih fun q hq => h q (List.mem_cons_of_mem p hq)
      simp only [completeAll, here.offers c x y]
      rcases here.reads.ends c with ⟨d, pairs, read⟩ | ⟨e, d, pairs, failed⟩
      · simp only [read]
        split
        · exact later _ _ _ _
        · split
          · exact later _ _ _ _
          · split
            · exact later _ _ _ _
            · rfl
      · simp only [failed]

theorem completeFirst_unaware (h : ∀ p ∈ ps, p.Unaware env) (c : Cursor) (x y : Context)
    (done : Completion) :
    ps.foldl (fun done p => done.add (p.complete env ⟨c, x⟩)) done =
      ps.foldl (fun done p => done.add (p.complete env ⟨c, y⟩)) done := by
  induction ps generalizing done with
  | nil => rfl
  | cons p ps ih =>
      rw [List.foldl_cons, List.foldl_cons, (h p List.mem_cons_self).offers c x y]
      exact ih (fun q hq => h q (List.mem_cons_of_mem p hq)) _

theorem completeTimes_unaware (h : p.Unaware env) (n : Nat) (c : Cursor) (x y : Context) :
    p.completeTimes env n ⟨c, x⟩ = p.completeTimes env n ⟨c, y⟩ := by
  induction n generalizing c x y with
  | zero => rfl
  | succ n ih =>
      simp only [completeTimes, h.offers c x y]
      rcases h.reads.ends c with ⟨d, pairs, read⟩ | ⟨e, d, pairs, failed⟩
      · simp only [read]
        exact ih _ _ _
      · simp only [failed]

/-- A turn of a loop of completions goes on alike with all contexts, or ends it alike. -/
theorem completeTurn_unaware (h : p.Unaware env) (c : Cursor) :
    (∃ d pairs, ∀ x, p.completeTurn env ⟨c, x⟩ = .inl ⟨d, Context.putAll x pairs⟩) ∨
      ∃ o, ∀ x, p.completeTurn env ⟨c, x⟩ = .inr o := by
  by_cases more : c.hasNext = true
  · rcases h.reads.ends c with ⟨d, pairs, read⟩ | ⟨e, d, pairs, failed⟩
    · exact .inl ⟨d, pairs, fun x => by simp [completeTurn, more, read]⟩
    · refine .inr ⟨p.complete env ⟨c, .empty⟩, fun x => ?_⟩
      simp [completeTurn, more, failed, h.offers c x .empty]
  · exact .inr ⟨.none, fun x => by simp [completeTurn, more]⟩

theorem ends_unaware (h : p.Unaware env) {s : State} {o : Completion}
    (ends : Loop.Ends (p.completeTurn env) s o) (y : Context) :
    Loop.Ends (p.completeTurn env) ⟨s.cursor, y⟩ o := by
  induction ends generalizing y with
  | @stop s o last =>
      rcases completeTurn_unaware h s.cursor with ⟨d, pairs, on⟩ | ⟨o', out⟩
      · cases last.symm.trans (on s.context)
      · cases last.symm.trans (out s.context)
        exact .stop (out y)
  | @go s t o next _ ih =>
      rcases completeTurn_unaware h s.cursor with ⟨d, pairs, on⟩ | ⟨o', out⟩
      · cases next.symm.trans (on s.context)
        exact .go (on y) (ih _)
      · cases next.symm.trans (out s.context)

theorem completeAllOf_unaware (h : p.Unaware env) (c : Cursor) (x y : Context) :
    p.allOf.complete env ⟨c, x⟩ = p.allOf.complete env ⟨c, y⟩ := by
  have same : p.completeWhile? env ⟨c, x⟩ = p.completeWhile? env ⟨c, y⟩ := by
    ext o
    simp only [completeWhile?_eq_some_iff]
    exact ⟨fun ends => ends_unaware h ends y, fun ends => ends_unaware h ends x⟩
  simp only [allOf, same]

end Parser

/-! ## Flags -/

namespace FlagScanner

/-- Completions of flags that came equally far, whatever the values. -/
inductive Progress.Alike : Progress → Progress → Prop
  | settled (lines : List String) (c : Cursor) (x y : Context) :
      Alike (.settled lines ⟨c, x⟩) (.settled lines ⟨c, y⟩)
  | offered (c : Completion) : Alike (.offered c) (.offered c)

theorem Progress.Alike.ends {left right : Progress} (alike : left.Alike right) :
    (∃ lines c x y, left = .settled lines ⟨c, x⟩ ∧ right = .settled lines ⟨c, y⟩) ∨
      ∃ c, left = .offered c ∧ right = .offered c := by
  cases alike with
  | settled lines c x y => exact .inl ⟨lines, c, x, y, rfl, rfl⟩
  | offered c => exact .inr ⟨c, rfl, rfl⟩

variable {f : FlagScanner} {env : Env} {p : Parser}

theorem completeValue_unaware (h : p.Unaware env) (c : Cursor) (x y : Context) :
    (completeValue p env ⟨c, x⟩).Alike (completeValue p env ⟨c, y⟩) := by
  unfold completeValue
  rcases h.reads.ends c with ⟨d, pairs, read⟩ | ⟨e, d, pairs, failed⟩
  · have there := h.offers d (x.putAll pairs) (y.putAll pairs)
    have back := h.offers d.previous (x.putAll pairs) (y.putAll pairs)
    simp only [read, there, back]
    split
    · exact .offered _
    · split
      · exact .settled _ _ _ _
      · split <;> exact .offered _
  · simp only [failed, h.offers c x y]
    exact .offered _

theorem Progress.Alike.settleEmpty {done done' : Progress} (alike : done.Alike done') (c : Cursor)
    (x y : Context) :
    (FlagScanner.settleEmpty ⟨c, x⟩ done).Alike (FlagScanner.settleEmpty ⟨c, y⟩ done') := by
  cases alike with
  | settled lines d x' y' => exact .settled lines d x' y'
  | offered o =>
      simp only [FlagScanner.settleEmpty]
      split
      · exact .settled _ _ _ _
      · exact .offered o

section

variable (h : ∀ index, (f.value index).Unaware env)

include h

theorem completeLong_unaware (flag : List Char) (c : Cursor) (x y : Context) :
    (f.completeLong env flag ⟨c, x⟩).Alike (f.completeLong env flag ⟨c, y⟩) := by
  unfold completeLong
  cases splitInline flag with
  | mk name inline =>
      dsimp only
      cases f.table.long? (Text.lowercase name) with
      | none => exact .offered _
      | some index =>
          cases inline with
          | none =>
              dsimp only
              split
              · exact (completeValue_unaware (h index) c x y).settleEmpty c x y
              · exact .offered _
          | some v =>
              dsimp only
              rcases (completeValue_unaware (h index) (c.insert v) x y).ends with
                ⟨lines, d, x', y', left, right⟩ | ⟨o, left, right⟩
              · rw [left, right]
                exact .settled lines d x' y'
              · rw [left, right]
                exact .offered _

theorem completeShort_unaware (letters : List Char) (first : Bool) (lines : List String)
    (c : Cursor) (x y : Context) :
    (f.completeShort env first letters lines ⟨c, x⟩).Alike
      (f.completeShort env first letters lines ⟨c, y⟩) := by
  induction letters generalizing first lines c x y with
  | nil => exact .settled lines c x y
  | cons letter letters ih =>
      unfold completeShort
      cases f.table.short? letter with
      | none =>
          dsimp only
          split
          · cases c.next? <;> exact .settled lines _ _ _
          · exact ih false lines c x y
      | some index =>
          dsimp only
          rcases ((completeValue_unaware (h index) c x y).settleEmpty c x y).ends with
            ⟨more, d, x', y', left, right⟩ | ⟨o, left, right⟩
          · rw [left, right]
            exact ih false _ d x' y'
          · rw [left, right]
            exact .offered _

theorem completeFlag_unaware (flag : List Char) (c : Cursor) (x y : Context) :
    (f.completeFlag env flag ⟨c, x⟩).Alike (f.completeFlag env flag ⟨c, y⟩) := by
  unfold completeFlag
  split
  · exact completeLong_unaware h _ c x y
  · exact completeShort_unaware h _ true [] c x y

theorem completeScan_unaware (steps : Nat) (lines : List String) (c : Cursor) (x y : Context) :
    (f.completeScan env steps lines ⟨c, x⟩).Alike (f.completeScan env steps lines ⟨c, y⟩) := by
  induction steps generalizing lines c x y with
  | zero => exact .settled lines c x y
  | succ steps ih =>
      unfold completeScan
      cases c.next? with
      | none => exact .settled lines c x y
      | some pair =>
          obtain ⟨word, d⟩ := pair
          dsimp only
          split
          · rename_i flag _
            rcases (completeFlag_unaware h flag d x y).ends with
              ⟨more, u, x', y', left, right⟩ | ⟨o, left, right⟩
            · rw [left, right]
              exact ih _ _ x' y'
            · rw [left, right]
              exact .offered _
          · split
            · exact .settled lines d x y
            · exact ih lines d x y

theorem complete_unaware {body : Parser} (rest : body.Unaware env) (c : Cursor) (x y : Context) :
    f.complete body env ⟨c, x⟩ = f.complete body env ⟨c, y⟩ := by
  unfold FlagScanner.complete
  rcases (completeScan_unaware h (c.weight + 1) [] c x y).ends with
    ⟨lines, d, x', y', left, right⟩ | ⟨o, left, right⟩
  · rw [left, right]
    dsimp only
    rw [rest.offers (d.rewind c.mark) x' y']
  · rw [left, right]

end

end FlagScanner

/-! ## Subcommands -/

theorem Node.completeBelow_unaware {k : Command} {env : Env} {c : Cursor} {x y : Context}
    (h : ∀ program, k.program = some program →
      program.complete env ⟨c, x⟩ = program.complete env ⟨c, y⟩) :
    completeBelow k env ⟨c, x⟩ = completeBelow k env ⟨c, y⟩ := by
  unfold completeBelow
  cases there : k.program with
  | none => rfl
  | some program => exact h program there

/-- A node is unaware of values if its own arguments are, and what it completes in place. -/
theorem Node.complete_unaware {n : Node} {env : Env}
    (own : ∀ p, n.fallback = some p → p.Unaware env)
    (below : ∀ typed m program, n.commands.get? (some env.source) typed = some m →
      m.callable.program = some program →
        ∀ c x y, program.complete env ⟨c, x⟩ = program.complete env ⟨c, y⟩)
    (c : Cursor) (x y : Context) : n.complete env ⟨c, x⟩ = n.complete env ⟨c, y⟩ := by
  have same : (n.fallback.elim .none fun p => Completion.none.replace (p.complete env ⟨c, x⟩)) =
      n.fallback.elim .none fun p => Completion.none.replace (p.complete env ⟨c, y⟩) := by
    cases there : n.fallback with
    | none => rfl
    | some p => simp only [Option.elim_some, (own p there).offers c x y]
  unfold Node.complete
  simp only [same]
  cases c.next? with
  | none => rfl
  | some pair =>
      obtain ⟨typed, d⟩ := pair
      dsimp only
      split
      · cases named : n.commands.get? (some env.source) typed with
        | none => rfl
        | some m =>
            dsimp only
            rw [completeBelow_unaware fun program there => below typed m program named there d x y]
      · rfl

/-! ## Elements -/

theorem Parser.unaware_sequence {env : Env} {ps : List Parser} (h : ∀ p ∈ ps, p.Unaware env) :
    (Parser.sequence ps).Unaware env := by
  refine ⟨?_, fun c x y => completeAll_unaware h c x y .none⟩
  show (readAll env ps).WriteOnly
  induction ps with
  | nil => exact free.pure ()
  | cons p ps ih =>
      exact free.bind (h p List.mem_cons_self).reads fun _ =>
        ih fun q hq => h q (List.mem_cons_of_mem p hq)

namespace Element

variable {env : Env}

/-- What an element offers is a matter of its parts. -/
theorem offers_of_parts {e : Element} (below : ∀ d ∈ e.parts, d.parser.Unaware env) (c : Cursor)
    (x y : Context) : e.parser.complete env ⟨c, x⟩ = e.parser.complete env ⟨c, y⟩ := by
  cases e with
  | sequence items =>
      exact (Parser.unaware_sequence (forall_parsers below)).offers c x y
  | firstOf items => exact Parser.completeFirst_unaware (forall_parsers below) c x y .none
  | optional item default weak | onlyOne item =>
      exact (below item List.mem_cons_self).offers c x y
  | repeated item times =>
      exact Parser.completeTimes_unaware (below item List.mem_cons_self) times c x y
  | allOf item => exact Parser.completeAllOf_unaware (below item List.mem_cons_self) c x y
  | choice key k | selection key s | phrase key p | leaf key l => rfl
  | flags table values body =>
      have none : (Parser.sequence []).Unaware env := Parser.unaware_sequence nofun
      exact FlagScanner.complete_unaware
        (table.forall_value none fun d hd => below d (List.mem_cons_of_mem body hd))
        (below body List.mem_cons_self) c x y
  | suggesting item suggestions requireBegin => rfl
  | constrained item keep =>
      exact congrArg (Completion.filter keep) ((below item List.mem_cons_self).offers c x y)
  | child n =>
      refine Node.complete_unaware (Subcommands.forall_fallback below) ?_ c x y
      intro typed m program named there
      obtain ⟨s, rfl, -, inside⟩ := Subcommands.program_of_get? named there
      exact (Spec.forall_grammar (fun _ => Parser.unaware_sequence) fun d hd =>
        below d (inside d hd)).offers

/-- Where nothing asks how many values there are, offers do not depend on the values. -/
theorem WithoutOnlyOne.unaware {e : Element} (h : e.WithoutOnlyOne) (env : Env) :
    e.parser.Unaware env := by
  induction h with
  | @intro e here below ih =>
      have free : e.WithoutOnlyOne := .intro here below
      have kept : e.Kept env := free.kept
      refine ⟨fun c => ?_, offers_of_parts ih⟩
      obtain ⟨t, keeps⟩ := kept c
      exact ⟨t, keeps.leaves, trivial⟩

end Element

end CommandGrammar
