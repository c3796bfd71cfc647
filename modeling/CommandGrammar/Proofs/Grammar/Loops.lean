import CommandGrammar.Grammar.Flags
import CommandGrammar.Proofs.Cursor
import CommandGrammar.Proofs.Reading

/-!
# Loops turn by turn

The loops of a grammar are given by their turns here: a turn leads to another one or ends the loop.
A loop whose turns make something smaller ends, and where it is written with a number of steps that
it may take, what it ends with is what so many steps come to. The one that is written without is
defined just where it ends.
-/

namespace CommandGrammar

open Reading

namespace Loop

variable {σ ρ : Type}

/-- Turn after turn, a loop ends with a result. -/
inductive Ends (turn : σ → σ ⊕ ρ) : σ → ρ → Prop
  | stop {s r} (last : turn s = .inr r) : Ends turn s r
  | go {s t r} (next : turn s = .inl t) (rest : Ends turn t r) : Ends turn s r

/-- Turn after turn, a loop comes from one state to another. -/
inductive Passes (turn : σ → σ ⊕ ρ) : σ → σ → Prop
  | here (s) : Passes turn s s
  | go {s t u} (next : turn s = .inl t) (rest : Passes turn t u) : Passes turn s u

variable {turn : σ → σ ⊕ ρ} {s : σ} {r : ρ}

theorem Passes.eq_or_next {t u : σ} (h : Passes turn s u) (next : turn s = .inl t) :
    u = s ∨ Passes turn t u := by
  cases h with
  | here => exact .inl rfl
  | go next' rest =>
      cases next.symm.trans next'
      exact .inr rest

theorem Passes.eq_of_last {u : σ} (h : Passes turn s u) (last : turn s = .inr r) : u = s := by
  cases h with
  | here => rfl
  | go next _ => cases last.symm.trans next

theorem Passes.trans {t u : σ} (h : Passes turn s t) (h' : Passes turn t u) : Passes turn s u := by
  induction h with
  | here => exact h'
  | go next _ ih => exact .go next (ih h')

/-- A loop that ends does so from every state on its way. -/
theorem Ends.of_passes {u : σ} (h : Ends turn s r) (way : Passes turn s u) : Ends turn u r := by
  induction way with
  | here => exact h
  | go next _ ih =>
      cases h with
      | stop last => cases next.symm.trans last
      | go next' rest =>
          cases next.symm.trans next'
          exact ih rest

/-- A loop that ends does so in one way. -/
theorem Ends.unique {r' : ρ} (h : Ends turn s r) (h' : Ends turn s r') : r = r' := by
  induction h with
  | stop last =>
      cases h' with
      | stop last' => exact Sum.inr.inj (last.symm.trans last')
      | go next' _ => cases last.symm.trans next'
  | go next _ ih =>
      cases h' with
      | stop last' => cases next.symm.trans last'
      | go next' rest' =>
          cases next.symm.trans next'
          exact ih rest'

/-- A loop does not end among states from which every turn leads to another of them. -/
theorem not_ends_of_closed (among : σ → Prop)
    (next : ∀ s, among s → ∃ t, turn s = .inl t ∧ among t) (start : among s) :
    ¬ Ends turn s r := by
  intro ends
  induction ends with
  | stop last =>
      obtain ⟨t, step, -⟩ := next _ start
      cases last.symm.trans step
  | go step _ ih =>
      obtain ⟨t, step', inside⟩ := next _ start
      cases step.symm.trans step'
      exact ih inside

/-- So many turns at most, and what the state then stands for. -/
def run (turn : σ → σ ⊕ ρ) (out : σ → ρ) : Nat → σ → ρ
  | 0, s => out s
  | steps + 1, s =>
    match turn s with
    | .inl t => run turn out steps t
    | .inr r => r

/-- A loop ends if its turns make something smaller, and steps above that are never used up. -/
theorem ends_run (valid : σ → Prop) (size : σ → Nat) (out : σ → ρ)
    (smaller : ∀ s t, valid s → turn s = .inl t → valid t ∧ size t < size s) (start : valid s)
    {steps : Nat} (enough : size s < steps) : Ends turn s (run turn out steps s) := by
  -- Induction on the steps, of which there are always more than the size of the state.
  induction steps generalizing s with
  | zero => omega
  | succ steps ih =>
      simp only [run]
      cases next : turn s with
      | inr r => exact .stop next
      | inl t =>
          obtain ⟨inside, less⟩ := smaller s t start next
          exact .go next (ih inside (by omega))

end Loop

/-! ## Elements repeated until the tokens run out -/

namespace Parser

/-- One reading of a parser that is repeated. -/
def readTurn (p : Parser) (env : Env) : State → State ⊕ EStateM.Result ParseError State Unit := fun s =>
  if s.cursor.hasNext then
    match p.parse env s with
    | .ok _ t => if t.cursor.mark = s.cursor.mark then .inr (.ok () t) else .inl t
    | .error e t => .inr (.error e t)
  else .inr (.ok () s)

/-- A turn that goes on has read and moved. -/
theorem readTurn_inl {p : Parser} {env : Env} {s t : State} (next : p.readTurn env s = .inl t) :
    p.parse env s = .ok () t ∧ t.cursor.mark ≠ s.cursor.mark := by
  unfold readTurn at next
  split at next
  · cases read : p.parse env s with
    | ok _ u =>
        simp only [read] at next
        split at next
        · cases next
        · cases next
          exact ⟨rfl, ‹_›⟩
    | error e u => simp [read] at next
  · cases next

/-- The last turn finds no token left, or reads and does not move, or fails. -/
theorem readTurn_inr {p : Parser} {env : Env} {s : State} {r : EStateM.Result ParseError State Unit}
    (last : p.readTurn env s = .inr r) :
    s.cursor.hasNext = false ∧ r = .ok () s ∨ s.cursor.hasNext = true ∧ p.parse env s = r := by
  unfold readTurn at last
  split at last
  · rename_i more
    cases read : p.parse env s with
    | ok _ u =>
        simp only [read] at last
        split at last
        · cases last
          exact .inr ⟨more, rfl⟩
        · cases last
    | error e u =>
        simp only [read, Sum.inr.injEq] at last
        exact .inr ⟨more, last⟩
  · rename_i spent
    cases last
    exact .inl ⟨Bool.eq_false_iff.2 spent, rfl⟩

theorem readWhile_eq_run (p : Parser) (env : Env) (steps : Nat) :
    p.readWhile env steps = Loop.run (p.readTurn env) (.ok ()) steps := by
  induction steps with
  | zero => rfl
  | succ steps ih =>
      funext s
      simp only [readWhile, Loop.run, readTurn, bind_apply, get_apply, ih]
      split
      · simp only [bind_apply]
        cases p.parse env s with
        | ok _ t =>
            simp only [get_apply]
            by_cases still : t.cursor.mark = s.cursor.mark
            · simp [still]
            · simp [still]
        | error e t => rfl
      · rfl

/-- One reading of a parser that is repeated while its completions are looked for. -/
def completeTurn (p : Parser) (env : Env) : State → State ⊕ Completion := fun s =>
  if s.cursor.hasNext then
    match p.parse env s with
    | .ok _ t => .inl t
    | .error _ _ => .inr (p.complete env s)
  else .inr .none

/-- A turn that goes on has read where tokens were left. -/
theorem completeTurn_inl {p : Parser} {env : Env} {s t : State}
    (next : p.completeTurn env s = .inl t) :
    s.cursor.hasNext = true ∧ p.parse env s = .ok () t := by
  unfold completeTurn at next
  split at next
  · rename_i more
    cases read : p.parse env s with
    | ok _ u =>
        simp only [read, Sum.inl.injEq] at next
        exact ⟨more, next ▸ rfl⟩
    | error e u => simp [read] at next
  · cases next

/-- The last turn finds no token left, or completes what does not read. -/
theorem completeTurn_inr {p : Parser} {env : Env} {s : State} {c : Completion}
    (last : p.completeTurn env s = .inr c) : c = .none ∨ c = p.complete env s := by
  unfold completeTurn at last
  split at last
  · cases read : p.parse env s with
    | ok _ u => simp [read] at last
    | error e u =>
        simp only [read, Sum.inr.injEq] at last
        exact .inr last.symm
  · exact .inl (Sum.inr.inj last).symm

theorem ends_of_completeWhile? {p : Parser} {env : Env} {s : State} {c : Completion}
    (h : p.completeWhile? env s = some c) : Loop.Ends (p.completeTurn env) s c := by
  -- Induction on how the loop is approached: what one more turn comes to is what the rest does.
  refine completeWhile?.partial_correctness p env (Loop.Ends (p.completeTurn env)) ?_ s c h
  intro rest ih s c done
  split at done
  · rename_i more
    cases read : p.parse env s with
    | ok _ t =>
        simp only [read] at done
        exact .go (by simp [completeTurn, more, read]) (ih t c done)
    | error e t =>
        simp only [read, Option.some.injEq] at done
        exact .stop (by simp [completeTurn, more, read, done])
  · rename_i spent
    cases done
    exact .stop (by simp [completeTurn, spent])

/-- The loop goes on where a turn does, and has what the last one comes to. -/
theorem completeWhile?_eq (p : Parser) (env : Env) (s : State) :
    p.completeWhile? env s = (p.completeTurn env s).elim (p.completeWhile? env) some := by
  rw [completeWhile?, completeTurn]
  split
  · cases p.parse env s <;> rfl
  · rfl

theorem completeWhile?_of_ends {p : Parser} {env : Env} {s : State} {c : Completion}
    (h : Loop.Ends (p.completeTurn env) s c) : p.completeWhile? env s = some c := by
  induction h with
  | stop last =>
      rw [completeWhile?_eq, last]
      rfl
  | go next _ ih =>
      rw [completeWhile?_eq, next]
      exact ih

/-- The loop has completions just where it ends, with these. -/
theorem completeWhile?_eq_some_iff {p : Parser} {env : Env} {s : State} {c : Completion} :
    p.completeWhile? env s = some c ↔ Loop.Ends (p.completeTurn env) s c :=
  ⟨ends_of_completeWhile?, completeWhile?_of_ends⟩

theorem complete_allOf_of_ends {p : Parser} {env : Env} {s : State} {c : Completion}
    (h : Loop.Ends (p.completeTurn env) s c) : p.allOf.complete env s = c := by
  change (p.completeWhile? env s).getD .never = c
  rw [completeWhile?_of_ends h, Option.getD_some]

/-- Where the loop does not end, neither does the search. -/
theorem complete_allOf_of_not_ends {p : Parser} {env : Env} {s : State}
    (h : ∀ c, ¬ Loop.Ends (p.completeTurn env) s c) : p.allOf.complete env s = .never := by
  change (p.completeWhile? env s).getD .never = .never
  cases done : p.completeWhile? env s with
  | none => rfl
  | some c => exact absurd (ends_of_completeWhile? done) (h c)

end Parser

/-! ## Flags -/

namespace FlagScanner

/-- A word is a flag, or it is none. -/
theorem flag_or_other (word : String) :
    (∃ flag, word.toList = '-' :: flag) ∨ ∀ flag, word.toList = '-' :: flag → False := by
  by_cases flagged : ∃ flag, word.toList = '-' :: flag
  · exact .inl flagged
  · exact .inr fun flag letters => flagged ⟨flag, letters⟩

/-- One word of a scan: a flag, which is taken out with what it consumed unless it is left to the
arguments, or another word. -/
def scanTurn (f : FlagScanner) (env : Env) : State → State ⊕ EStateM.Result ParseError State Unit :=
  fun s =>
    match s.cursor.next? with
    | none => .inr (.ok () s)
    | some (word, c) =>
      let s := { s with cursor := c }
      match word.toList with
      | '-' :: flag =>
        match f.readFlag env flag s with
        | .ok taken t =>
          .inl (if taken then { t with cursor := t.cursor.remove c.mark t.cursor.mark } else t)
        | .error e t => .inr (.error e t)
      | _ => if f.table.anchored then .inr (.ok () s) else .inl s

theorem scanTurn_of_flag {f : FlagScanner} {env : Env} {s t : State} {word : String} {c : Cursor}
    {flag : List Char} (next : s.cursor.next? = some (word, c)) (letters : word.toList = '-' :: flag)
    (read : f.readFlag env flag { s with cursor := c } = .ok true t) :
    f.scanTurn env s = .inl { t with cursor := t.cursor.remove c.mark t.cursor.mark } := by
  simp [scanTurn, next, letters, read]

theorem scanTurn_of_refused {f : FlagScanner} {env : Env} {s t : State} {word : String}
    {c : Cursor} {flag : List Char} {e : ParseError}
    (next : s.cursor.next? = some (word, c)) (letters : word.toList = '-' :: flag)
    (read : f.readFlag env flag { s with cursor := c } = .error e t) :
    f.scanTurn env s = .inr (.error e t) := by
  simp [scanTurn, next, letters, read]

theorem scan_eq_run (f : FlagScanner) (env : Env) (steps : Nat) :
    f.scan env steps = Loop.run (f.scanTurn env) (.ok ()) steps := by
  induction steps with
  | zero => rfl
  | succ steps ih =>
      funext s
      simp only [scan, Loop.run, scanTurn, bind_apply, hasNext_apply]
      cases there : s.cursor.next? with
      | none =>
          rw [Cursor.hasNext_of_next?_none there]
          rfl
      | some pair =>
          obtain ⟨word, c⟩ := pair
          rw [Cursor.hasNext_of_next?_some there, if_pos rfl, bind_of_ok (next_of_some there)]
          obtain ⟨flag, letters⟩ | other := flag_or_other word
          · simp only [letters]
            rw [bind_of_ok (get_apply _), bind_apply]
            cases f.readFlag env flag { s with cursor := c } with
            | error e t => rfl
            | ok taken t =>
                cases taken with
                | true =>
                    simp only [if_true, ih]
                    exact bind_of_ok (moveCursor_apply _ _) _
                | false => simp [ih]
          · simp only
            split
            · rfl
            · rw [ih]

/-- One word of a scan for the completion of a flag, with the lines sent so far. -/
def completeTurn (f : FlagScanner) (env : Env) :
    List String × State → (List String × State) ⊕ Progress :=
  fun (lines, s) =>
    match s.cursor.next? with
    | none => .inr (.settled lines s)
    | some (word, c) =>
      let s := { s with cursor := c }
      match word.toList with
      | '-' :: flag =>
        match f.completeFlag env flag s with
        | .offered done => .inr (.offered { done with lines := lines ++ done.lines })
        | .settled more t =>
          .inl (lines ++ more, { t with cursor := t.cursor.remove c.mark t.cursor.mark })
      | _ => if f.table.anchored then .inr (.settled lines s) else .inl (lines, s)

theorem completeScan_eq_run (f : FlagScanner) (env : Env) (steps : Nat) (lines : List String)
    (s : State) :
    f.completeScan env steps lines s =
      Loop.run (f.completeTurn env) (fun p => .settled p.1 p.2) steps (lines, s) := by
  induction steps generalizing lines s with
  | zero => rfl
  | succ steps ih =>
      simp only [completeScan, Loop.run, completeTurn]
      cases s.cursor.next? with
      | none => rfl
      | some pair =>
          obtain ⟨word, c⟩ := pair
          obtain ⟨flag, letters⟩ | other := flag_or_other word
          · simp only [letters, ih]
            cases f.completeFlag env flag { s with cursor := c } <;> rfl
          · simp only [ih]
            split
            · rfl
            · rfl

end FlagScanner

end CommandGrammar
