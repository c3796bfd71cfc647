import CommandGrammar.Proofs.Completion
import CommandGrammar.Proofs.Grammar.Guarded
import CommandGrammar.Proofs.Grammar.Progress

/-!
# Settled elements

Elements of a sequence that were read, the last of them going on, with tokens left for those behind
them, have no more say in what is offered. The search passes all of them, since what is left behind one
of them was left to it, and the last one makes void what was offered on the way. But those that read
without moving are asked at once. The lines that they send stay sent, and where one of them has no end,
the search does not come to those behind.
-/

namespace CommandGrammar

open Reading

/-- Whatever is read, the cursor stays in its line. -/
def Guard.line (raw : String) : Guard where
  Safe s := s.cursor.raw = raw
  Word _ := True
  Key _ := True
  Tells _ := True
  Edits := True
  next safe read := by
    obtain ⟨rfl, -⟩ := Cursor.of_next? read
    exact ⟨safe, trivial⟩
  toEnd safe := safe
  insert _ safe _ := safe
  rewind _ safe := safe
  remove _ _ _ safe := by
    unfold Cursor.remove
    split <;> exact safe
  store safe _ := safe
  error _ _ := trivial
  withUsage _ _ := trivial
  inline _ _ _ := trivial

namespace Element

variable {env : Env} {e : Element} {s t u : State}

theorem raw_of_read (read : e.parser.parse env s = .ok () t) : t.cursor.raw = s.cursor.raw := by
  have covers : (Guard.line s.cursor.raw).Covers e :=
    .of_forall (fun _ => ⟨fun _ _ => trivial, fun _ => trivial⟩) e
  exact (guarded env covers).ok rfl read

/-- An element that reads without moving changes the context only. -/
theorem eq_of_still (read : e.parser.parse env s = .ok () t) (still : t.cursor.mark = s.cursor.mark) :
    t = { s with context := t.context } := by
  have raw := raw_of_read read
  obtain ⟨⟨_, _, _⟩, _⟩ := s
  obtain ⟨⟨_, _, _⟩, _⟩ := t
  simp_all [Cursor.mark]

end Element

/-! ## Completions that no longer count -/

namespace Completion

@[simp] theorem none_replace (c : Completion) : Completion.none.replace c = c := by
  simp [replace, none]

theorem clear_eq_replace (c : Completion) : c.clear = c.replace none := by
  simp [clear, replace, none]

theorem clear_replace (c d : Completion) : c.clear.replace d = c.replace d := rfl

theorem replace_clear (c d : Completion) : (c.replace d).clear = c.replace d.clear := rfl

theorem add_replace (c d o : Completion) : (c.add d).replace o = c.replace (d.replace o) := by
  simp [replace, add, Bool.or_assoc]

theorem replace_add (c d o : Completion) : (c.replace d).add o = c.replace (d.add o) := by
  simp [replace, add, Bool.or_assoc]

/-- What is left of some completions, one after the other, before the last one. -/
def behind (before : List Completion) (c : Completion) : Completion :=
  before.foldr replace c

@[simp] theorem behind_nil (c : Completion) : behind [] c = c := rfl

@[simp] theorem behind_cons (d : Completion) (before : List Completion) (c : Completion) :
    behind (d :: before) c = d.replace (behind before c) := rfl

theorem behind_eq (before : List Completion) (c : Completion) :
    behind before c = ⟨before.flatMap (·.lines) ++ c.lines, c.offers,
      before.any (·.endless) || c.endless⟩ := by
  induction before with
  | nil => rfl
  | cons d before ih => simp [ih, replace, Bool.or_assoc]

/-- Completions before another one show if a line was sent, or if one of them has no end where that
one has. -/
theorem behind_eq_self_iff {before : List Completion} {c : Completion} :
    behind before c = c ↔
      ∀ d ∈ before, d.lines = [] ∧ (d.endless = true → c.endless = true) := by
  obtain ⟨lines, offers, endless⟩ := c
  simp only [behind_eq, mk.injEq, List.append_left_eq_self, List.flatMap_eq_nil_iff, true_and]
  cases endless <;> simp [forall_and]

end Completion

/-! ## Passing parsers -/

namespace Parser

variable {env : Env}

/-- What was before stays before what the search comes to. -/
theorem completeAll_replace (ps : List Parser) (s : State) (c done : Completion) :
    completeAll env ps s (c.replace done) = c.replace (completeAll env ps s done) := by
  induction ps generalizing s done with
  | nil => rfl
  | cons p ps ih =>
      simp only [completeAll, Completion.replace_add, Completion.replace_clear, ih]
      cases p.parse env s with
      | error e t => rfl
      | ok _ t =>
          dsimp only
          split
          · rfl
          · split
            · rfl
            · split <;> rfl

/-- The completions of parsers that read one after the other without moving. They are asked while they
are passed. -/
def asked (env : Env) : List Parser → State → List Completion
  | [], _ => []
  | p :: rest, s =>
    match p.parse env s with
    | .error _ _ => []
    | .ok _ t =>
      if t.cursor.mark = s.cursor.mark then p.complete env s :: asked env rest t
      else asked env rest t

end Parser

namespace Element

variable {env : Env} {before rest : List Element} {last : Element} {s t u : State}

theorem completeAll_settled (rest : List Element) (within : s.cursor.Within)
    (settled : Parser.readAll env (parsers before) s = .ok () u)
    (read : last.parser.parse env u = .ok () t) (moved : t.cursor.mark ≠ u.cursor.mark)
    (more : t.cursor.hasNext = true) (done : Completion) :
    Parser.completeAll env (parsers (before ++ last :: rest)) s done =
      done.replace (.behind (Parser.asked env (parsers before) s)
        (Parser.completeAll env (parsers rest) t .none)) := by
  induction before generalizing s done with
  | nil =>
      cases settled
      have passed : Parser.completeAll env (last.parser :: parsers rest) u done = _ :=
        Parser.completeAll_cons_moved read moved more
      rw [Completion.clear_eq_replace, Parser.completeAll_replace] at passed
      exact passed
  | cons e before ih =>
      obtain ⟨⟨⟩, v, first, settled⟩ := bind_eq_ok.1 settled
      have within' := (e.onward env within first).within
      by_cases still : v.cursor.mark = s.cursor.mark
      · have asked : Parser.completeAll env (e.parser :: parsers (before ++ last :: rest)) s done = _ :=
          Parser.completeAll_cons_still first still
        rw [← eq_of_still first still, ih within' settled, Completion.add_replace] at asked
        simpa [parsers, Parser.asked, first, still] using asked
      · -- What the last element leaves was left behind each of those before it.
        have inside := (sequence before).onward env within' settled
        have left := inside.hasNext ((last.onward env inside.within read).hasNext more)
        have passed : Parser.completeAll env (e.parser :: parsers (before ++ last :: rest)) s done = _ :=
          Parser.completeAll_cons_moved first still left
        rw [ih within' settled, Completion.clear_replace] at passed
        simpa [parsers, Parser.asked, first, still] using passed

/-- Elements of a sequence that read one after the other, the last of them going on with tokens left,
do not change what is offered: that is what those behind them offer from where the last one ended. What
is asked on the way stays before it, and so nothing at all is changed just where no element that reads
without moving sends a line, nor has no end where those behind have one. -/
theorem complete_settled (rest : List Element) (within : s.cursor.Within)
    (settled : (Element.sequence before).parser.parse env s = .ok () u)
    (read : last.parser.parse env u = .ok () t) (moved : t.cursor.mark ≠ u.cursor.mark)
    (more : t.cursor.hasNext = true) :
    (Element.sequence (before ++ last :: rest)).parser.complete env s =
        .behind (Parser.asked env (parsers before) s) ((Element.sequence rest).parser.complete env t) ∧
      ((Element.sequence (before ++ last :: rest)).parser.complete env s =
          (Element.sequence rest).parser.complete env t ↔
        ∀ c ∈ Parser.asked env (parsers before) s, c.lines = [] ∧
          (c.endless = true → ((Element.sequence rest).parser.complete env t).endless = true)) := by
  have passed := completeAll_settled rest within settled read moved more .none
  rw [Completion.none_replace] at passed
  have whole : (Element.sequence (before ++ last :: rest)).parser.complete env s =
      .behind (Parser.asked env (parsers before) s)
        ((Element.sequence rest).parser.complete env t) := passed
  refine ⟨whole, ?_⟩
  rw [whole]
  exact Completion.behind_eq_self_iff

/-- A mode that may be left out and a name are read, and the word that is being typed behind them is
asked of the names behind them alone. -/
theorem complete_settled_behind_name :
    let names (key : String) (ns : List String) : Element :=
      .choice key { provider := .ofList (ns.map fun n => (n, .string n)), caseSensitive := true }
    let mode := Element.optional (names "mode" ["slow", "plain"]) .none true
    let last := Element.leaf "name" .string
    let rest := [names "act" ["play", "plan", "stop"]]
    let now : DateTime :=
      ⟨{ year := 2001, month := 2, day := 3 }, { hour := 4, minute := 5, second := 6, nano := 0 }⟩
    let env : Env := { source := { name := "ann" }, now }
    let s : State := ⟨.ofTokens "ann pl" [⟨"ann", 0, 3⟩, ⟨"pl", 4, 6⟩], .forCompletion⟩
    let t : State := { s with
      cursor := { s.cursor with consumed := 1 }, context := s.context.put "name" (.string "ann") }
    (s.cursor.Within ∧ (Element.sequence [mode]).parser.parse env s = .ok () s ∧
      last.parser.parse env s = .ok () t ∧ t.cursor.mark ≠ s.cursor.mark ∧ t.cursor.hasNext = true) ∧
      (Element.sequence ([mode] ++ last :: rest)).parser.complete env s =
        .ofList ["play", "plan"] := by
  intro names mode last rest now env s t
  have within : s.cursor.Within := Nat.zero_le _
  have settled : (Element.sequence [mode]).parser.parse env s = .ok () s := rfl
  have read : last.parser.parse env s = .ok () t := rfl
  have moved : t.cursor.mark ≠ s.cursor.mark := by decide
  have more : t.cursor.hasNext = true := rfl
  have silent : Parser.asked env (parsers [mode]) s = [.none] := by decide +kernel
  have offers : (Element.sequence rest).parser.complete env t = .ofList ["play", "plan"] := by
    decide +kernel
  obtain ⟨-, same⟩ := complete_settled rest within settled read moved more
  refine ⟨⟨within, settled, read, moved, more⟩, (same.mpr ?_).trans offers⟩
  intro c asked
  rw [silent, List.mem_singleton] at asked
  rw [asked]
  exact ⟨rfl, nofun⟩

/-- Elements that read without moving show though a name behind them was read: numbers until the words
run out, which are looked for again and again without an end, and a command that fails when it is asked
for offers, which says so. -/
theorem settled_still_asked :
    let loop : Element := .allOf (.optional (.leaf "n" .integer) .none true)
    let fails : RawCommand :=
      { run := fun _ _ => .ok .empty, suggestions := fun _ _ => .fail (.command "no offers" false) }
    let node := (Subcommands.mk "child0" .none .none .empty false).registerAll [(["foo"], .raw fails)]
    let gone : Element :=
      .optional (.sequence [.child node, .leaf "n" .integer]) .none true
    let last := Element.leaf "name" .string
    let plum : Element := .choices "c" [("plum", .bool true)]
    let now : DateTime :=
      ⟨{ year := 2001, month := 2, day := 3 }, { hour := 4, minute := 5, second := 6, nano := 0 }⟩
    let env : Env := { source := { name := "ann" }, now }
    let s : State := ⟨.ofTokens "foo pl" [⟨"foo", 0, 3⟩, ⟨"pl", 4, 6⟩], .forCompletion⟩
    let t : State := { s with
      cursor := { s.cursor with consumed := 1 }, context := s.context.put "name" (.string "foo") }
    loop.parser.parse env s = .ok () s ∧ gone.parser.parse env s = .ok () s ∧
      last.parser.parse env s = .ok () t ∧ t.cursor.mark ≠ s.cursor.mark ∧
      t.cursor.hasNext = true ∧
      (Element.sequence [plum]).parser.complete env t = .ofList ["plum"] ∧
      ((Element.sequence [loop, last, plum]).parser.complete env s).endless = true ∧
      (Element.sequence [gone, last, plum]).parser.complete env s =
        { lines := [Report.error "no offers"], offers := ["plum"] } := by
  intro loop fails node gone last plum now env s t
  have looped : loop.parser.parse env s = .ok () s := rfl
  have endless : loop.parser.complete env s = .never := by
    refine Parser.complete_allOf_of_not_ends fun c => ?_
    refine Loop.not_ends_of_closed (· = s) ?_ rfl
    rintro _ rfl
    exact ⟨s, rfl, rfl⟩
  have passed : (Element.sequence [loop, last, plum]).parser.complete env s =
      Parser.completeAll env (parsers [last, plum]) s
        (Completion.none.add (loop.parser.complete env s)) :=
    Parser.completeAll_cons_still looped rfl
  refine ⟨looped, rfl, rfl, by decide, rfl, by decide +kernel, ?_, by decide +kernel⟩
  rw [passed, endless]
  decide +kernel

end Element

end CommandGrammar
