import CommandGrammar.Manager
import CommandGrammar.Proofs.Grammar.Behaviour
import CommandGrammar.Proofs.Report

/-!
# What a source is told

A manager answers every line. What its dispatcher answers is passed on, and whatever goes wrong is
told in words behind the lines that were sent: a denial and an ordinary failure by their text, a
failure that was not foreseen by a text without tabs and carriage returns. A failure that asks for a
usage gets one, since it comes from a command that the first word stands for.
-/

namespace CommandGrammar

/-! ## Stops of a dispatcher -/

namespace Dispatcher

variable {d : Dispatcher Command} {env : Env} {line : String}

/-- A missing command is told of only where the first word of the line is none. -/
theorem commandNotFound_iff {name : String} :
    (d.command.process env line).result = .error (.error (.commandNotFound name)) ↔
      d.get? (some env.source) (splitLine line).1 = none ∧ name = (splitLine line).1 := by
  change ((d.plan env line).carryOut env).result = _ ↔ _
  cases named : d.get? (some env.source) (splitLine line).1 with
  | none => simp [plan, named, Plan.carryOut, Reply.fail, eq_comm]
  | some m =>
      simp only [plan, named, reduceCtorEq, false_and, iff_false]
      -- Below a command that was found, a missing one is an ordinary failure.
      cases m.callable.plan env (splitLine line).2 with
      | refuse e =>
          intro missing
          cases e <;> cases missing
      | run job nested =>
          simp only [Plan.nest, Plan.carryOut, if_true, Reply.mapError]
          intro missing
          cases result : (job.run env).result with
          | ok outcome =>
              rw [result] at missing
              cases missing
          | error stop =>
              rw [result] at missing
              cases stop with
              | error e => cases e <;> cases missing
              | panic text => cases missing

/-- Where an error asks for a usage, the first word stands for a command. -/
theorem named_of_includesUsage {e : Error}
    (failed : (d.command.process env line).result = .error (.error e)) (asks : e.includesUsage = true) :
    ∃ m, d.get? (some env.source) (splitLine line).1 = some m := by
  cases named : d.get? (some env.source) (splitLine line).1 with
  | some m => exact ⟨m, rfl⟩
  | none =>
      have missing := commandNotFound_iff.mpr ⟨named, rfl⟩
      cases failed.symm.trans missing
      cases asks

end Dispatcher

/-! ## What is told -/

/-- An error that is told by its text: none of a permission, and no failure that was not foreseen. -/
def Error.ordinary : Error → Bool
  | .permissionDenied _ | .fault _ _ => false
  | _ => true

namespace Manager

/-- The lines that tell a source why a line came to a stop. -/
inductive Tells (m : Manager) (source : Source) (line : String) : Stop → List String → Prop
  | denied (text) : Tells m source line (.error (.permissionDenied text)) ["[ERROR] " ++ text]
  | fault {text causes told} (shows : Report.Shows (Report.chain text causes) told) :
      Tells m source line (.error (.fault text causes)) [told]
  | panic {text told} (shows : Report.Shows (text.getD "panic") told) :
      Tells m source line (.panic text) [told]
  | failed {e} (ordinary : Error.ordinary e = true) (quiet : Error.includesUsage e = false) :
      Tells m source line (.error e) ["[ERROR] " ++ Error.message e]
  /-- The usage is that of the error if it has one, else that of the command of the line. -/
  | misused {e c} (ordinary : Error.ordinary e = true) (asks : Error.includesUsage e = true)
      (named : m.dispatcher.get? (some source) (Dispatcher.splitLine line).1 = some c) :
      Tells m source line (.error e) ["[ERROR] " ++ Error.message e,
        "[ERROR] Usage: " ++ (Dispatcher.splitLine line).1 ++ " " ++
          (Error.usage? e).getD (c.callable.command.usage source)]

variable {m : Manager} {source : Source} {line : String}

/-- A stop is told in one way. -/
theorem Tells.unique {stop : Stop} {told other : List String} (h : m.Tells source line stop told)
    (h' : m.Tells source line stop other) : told = other := by
  cases h with
  | denied text =>
      cases h' with
      | denied => rfl
      | failed ordinary _ | misused ordinary _ _ => cases ordinary
  | fault shows =>
      cases h' with
      | fault shows' => rw [shows.unique shows']
      | failed ordinary _ | misused ordinary _ _ => cases ordinary
  | panic shows =>
      cases h' with
      | panic shows' => rw [shows.unique shows']
  | failed ordinary quiet =>
      cases h' with
      | denied | fault _ => cases ordinary
      | failed _ _ => rfl
      | misused _ asks _ => cases quiet.symm.trans asks
  | misused ordinary asks named =>
      cases h' with
      | denied | fault _ => cases ordinary
      | failed _ quiet => cases quiet.symm.trans asks
      | misused _ _ named' =>
          cases named.symm.trans named'
          rfl

theorem behaviour_get? (m : Manager) (source : Option Source) (key : String) :
    m.behaviour.get? source key =
      (m.dispatcher.get? source key).map (Mapping.map Callable.command) := by
  rw [behaviour, Callable.behaviours_eq_map, Dispatcher.get?_map]

theorem report_of_ordinary {e : Error} (ordinary : e.ordinary = true) :
    m.report source line e = Report.error e.message ::
      if e.includesUsage then
        match m.behaviour.get? (some source) (Dispatcher.splitLine line).1 with
        | some c => [Report.error ("Usage: " ++ (Dispatcher.splitLine line).1 ++ " " ++
            e.usage?.getD (c.callable.usage source))]
        | none => []
      else [] := by
  cases e with
  | permissionDenied text | fault text causes => cases ordinary
  | _ => rfl

/-- A report tells of an error, if the first word stands for a command wherever a usage is asked
for. -/
theorem tells_report {e : Error}
    (named : e.includesUsage = true →
      ∃ c, m.dispatcher.get? (some source) (Dispatcher.splitLine line).1 = some c) :
    m.Tells source line (.error e) (m.report source line e) := by
  cases ordinary : e.ordinary with
  | false =>
      cases e with
      | permissionDenied text => exact .denied text
      | fault text causes => exact .fault (Report.shows_fault _)
      | _ => cases ordinary
  | true =>
      rw [report_of_ordinary ordinary]
      cases asks : e.includesUsage with
      | false => exact .failed ordinary asks
      | true =>
          obtain ⟨c, there⟩ := named asks
          have line' : ∀ usage : String,
              Report.error ("Usage: " ++ (Dispatcher.splitLine line).1 ++ " " ++ usage) =
                "[ERROR] Usage: " ++ (Dispatcher.splitLine line).1 ++ " " ++ usage := by
            intro usage
            simp only [Report.error, ← String.append_assoc]
            rfl
          simp only [if_true, behaviour_get?, there, Option.map_some, line']
          exact .misused ordinary asks there

end Manager

end CommandGrammar
