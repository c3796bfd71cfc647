import CommandGrammar.Shell

/-!
# Sessions

A session is the sequence of its lines. What a shell reads ends at the first input that is neither a
line nor an interruption; of the lines before it, each that is not blank is kept and run against
what those before it left, however they fared, and nothing behind it is read.
-/

namespace CommandGrammar

/-! ## Scripts -/

namespace Input

variable {input : Input}

/-- Whether a session goes on behind an input. -/
def goesOn : Input → Bool
  | .line _ | .interrupted => true
  | .failure _ | .ended => false

/-- The line that an input has a shell run: without the blanks around it, and none if nothing but
blanks is there. -/
def command? : Input → Option String
  | .line text =>
    let line := String.ofList (Text.trim text.toList)
    if line.isEmpty then none else some line
  | .interrupted | .failure _ | .ended => none

/-- The inputs before the one that ends a session. -/
def taken (script : List Input) : List Input :=
  script.takeWhile goesOn

/-- The lines that a shell runs. -/
def commands (script : List Input) : List String :=
  (taken script).filterMap command?

/-- How a session ends: well, unless reading failed. -/
def verdict (script : List Input) : Except Error Unit :=
  match script.find? (!·.goesOn) with
  | some (.failure e) => .error e
  | _ => .ok ()

theorem taken_cons (more : input.goesOn) (rest : List Input) :
    taken (input :: rest) = input :: taken rest :=
  List.takeWhile_cons_of_pos more

theorem taken_last (last : input.goesOn = false) (rest : List Input) :
    taken (input :: rest) = [] :=
  List.takeWhile_cons_of_neg (by simp [last])

theorem commands_cons (more : input.goesOn) (rest : List Input) :
    commands (input :: rest) = input.command?.toList ++ commands rest := by
  rw [commands, taken_cons more]
  cases h : input.command? with
  | none => exact List.filterMap_cons_none h
  | some line => exact List.filterMap_cons_some h

theorem verdict_cons (more : input.goesOn) (rest : List Input) :
    verdict (input :: rest) = verdict rest := by
  simp [verdict, more]

/-- Reading fails just if a failure comes before the end. -/
theorem verdict_error_iff {script : List Input} {e : Error} :
    verdict script = .error e ↔
      ∃ before behind, script = before ++ .failure e :: behind ∧ ∀ i ∈ before, i.goesOn := by
  have first : verdict script = .error e ↔ script.find? (!·.goesOn) = some (.failure e) := by
    unfold verdict
    split <;> simp_all
  rw [first, List.find?_eq_some_iff_append]
  simp [goesOn]

end Input

open Input hiding line

namespace Shell

variable {s : Shell} {env : Env} {effect : Effect} {input : Input} {rest : List Input}

/-- What some lines leave for the next one, run one after the other. -/
def left (s : Shell) (env : Env) (effect : Effect) (lines : List String) : Standing :=
  (lines.foldl (fun (before : Standing × List String) line =>
    (effect env before.2 line before.1, before.2 ++ [line])) (s.toStanding, s.history)).1

/-- What is sent while some lines are run, each against what those before it left. -/
def answers (s : Shell) (env : Env) (effect : Effect) (lines : List String) : List String :=
  lines.zipIdx.flatMap fun (line, place) =>
    let before := s.left env effect (lines.take place)
    (before.manager.process (before.surroundings env) line).1

/-- The shell behind some lines that it ran. -/
def rememberAll (s : Shell) (env : Env) (effect : Effect) (lines : List String) : Shell :=
  lines.foldl (fun t line => t.remember env effect line) s

/-- A shell that showed its prompt and has other inputs to come. -/
def prompted (s : Shell) (rest : List Input) : Shell :=
  { s with prompts := s.prompts ++ [s.config.prompt], script := rest }

/-- The shell behind an input that does not end the session. -/
def took (s : Shell) (env : Env) (effect : Effect) (input : Input) (rest : List Input) : Shell :=
  (s.prompted rest).rememberAll env effect input.command?.toList

/-- The shell behind its session. -/
def closed (s : Shell) (env : Env) (effect : Effect) : Shell :=
  { s with
    toStanding := s.left env effect (commands s.script)
    script := s.script.drop ((taken s.script).length + 1)
    history := s.history ++ commands s.script
    prompts := s.prompts ++ List.replicate ((taken s.script).length + 1) s.config.prompt }

/-! ## Lines run one after the other -/

theorem left_cons (s : Shell) (env : Env) (effect : Effect) (line : String)
    (lines : List String) :
    s.left env effect (line :: lines) = (s.remember env effect line).left env effect lines :=
  rfl

/-- Lines that are run change what the next one is run against and are kept, each once. -/
theorem rememberAll_eq (s : Shell) (env : Env) (effect : Effect) (lines : List String) :
    s.rememberAll env effect lines =
      { s with toStanding := s.left env effect lines, history := s.history ++ lines } := by
  induction lines generalizing s with
  | nil => simp [rememberAll, left]
  | cons line lines ih =>
    have next := ih (s.remember env effect line)
    rw [left_cons, rememberAll, List.foldl_cons]
    rw [rememberAll] at next
    rw [next]
    simp [remember]

theorem left_append (s : Shell) (env : Env) (effect : Effect) (lines more : List String) :
    s.left env effect (lines ++ more) = (s.rememberAll env effect lines).left env effect more := by
  induction lines generalizing s with
  | nil => rfl
  | cons line lines ih => exact ih (s.remember env effect line)

theorem answers_cons (s : Shell) (env : Env) (effect : Effect) (line : String)
    (lines : List String) :
    s.answers env effect (line :: lines) =
      (s.execute env line).1 ++ (s.remember env effect line).answers env effect lines := by
  simp only [answers, List.zipIdx_cons', List.flatMap_cons, List.flatMap_map]
  rfl

theorem answers_append (s : Shell) (env : Env) (effect : Effect) (lines more : List String) :
    s.answers env effect (lines ++ more) =
      s.answers env effect lines ++ (s.rememberAll env effect lines).answers env effect more := by
  induction lines generalizing s with
  | nil => rfl
  | cons line lines ih =>
    rw [List.cons_append, answers_cons, answers_cons, ih, List.append_assoc]
    rfl

/-- What is left of the inputs and which prompts were shown do not matter to a line. -/
theorem left_prompted (s : Shell) (env : Env) (effect : Effect) (rest : List Input)
    (lines : List String) :
    (s.prompted rest).left env effect lines = s.left env effect lines :=
  rfl

theorem answers_prompted (s : Shell) (env : Env) (effect : Effect) (rest : List Input)
    (lines : List String) :
    (s.prompted rest).answers env effect lines = s.answers env effect lines := by
  simp only [answers, left_prompted]

/-! ## One input after the other -/

theorem step_nil (read : s.script = []) : s.step env effect = ([], .ok false, s.prompted []) := by
  simp [step, read, prompted]

/-- A line or an interruption is taken, and its line run if it has one. -/
theorem step_cons (read : s.script = input :: rest) (more : input.goesOn) :
    s.step env effect =
      (s.answers env effect input.command?.toList, .ok true, s.took env effect input rest) := by
  cases input with
  | line text =>
    by_cases blank : (String.ofList (Text.trim text.toList)).isEmpty
    · simp [step, read, command?, blank, took, prompted, rememberAll, answers]
    · simp [step, read, command?, blank, took, prompted, rememberAll, answers, left, execute]
  | interrupted => simp [step, read, command?, took, prompted, rememberAll, answers]
  | failure e => cases more
  | ended => cases more

theorem took_script : (s.took env effect input rest).script = rest := by
  rw [took, rememberAll_eq, prompted]

theorem answers_took (more : input.goesOn) :
    s.answers env effect (commands (input :: rest)) =
      s.answers env effect input.command?.toList ++
        (s.took env effect input rest).answers env effect (commands rest) := by
  rw [commands_cons more, ← answers_prompted s env effect rest, answers_append, answers_prompted,
    took]

theorem closed_took (read : s.script = input :: rest) (more : input.goesOn) :
    s.closed env effect = (s.took env effect input rest).closed env effect := by
  have left_eq : s.left env effect (commands (input :: rest)) =
      (s.took env effect input rest).left env effect (commands rest) := by
    rw [commands_cons more, ← left_prompted s env effect rest, left_append, took]
  rw [closed, closed, took_script, read, left_eq, taken_cons more, commands_cons more]
  simp [took, rememberAll_eq, prompted, List.replicate_succ]

/-- A session that takes no line or interruption shows one prompt and runs nothing. -/
theorem closed_last (none_taken : taken s.script = []) :
    s.closed env effect = s.prompted (s.script.drop 1) := by
  simp [closed, commands, none_taken, prompted, left]

/-- Every input is one step, and so is the end of them. -/
theorem runSteps_session (s : Shell) (env : Env) (effect : Effect) :
    runSteps env effect (s.script.length + 1) s =
      (s.answers env effect (commands s.script), verdict s.script, s.closed env effect) := by
  generalize read : s.script = script
  induction script generalizing s with
  | nil =>
    rw [closed_last (by rw [read]; rfl), runSteps, step_nil read, read]
    rfl
  | cons input rest ih =>
    cases on : input.goesOn with
    | true =>
      have next := ih (s.took env effect input rest) took_script
      rw [List.length_cons, runSteps, step_cons read on]
      simp only [next]
      rw [answers_took on, closed_took read on, verdict_cons on]
    | false =>
      rw [closed_last (by rw [read, taken_last on]), commands, taken_last on, read]
      cases input with
      | failure e => simp [runSteps, step, read, prompted, verdict, goesOn, answers]
      | ended => simp [runSteps, step, read, prompted, verdict, goesOn, answers]
      | line text => cases on
      | interrupted => cases on

end Shell

end CommandGrammar
