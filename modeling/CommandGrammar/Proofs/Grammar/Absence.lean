import CommandGrammar.Proofs.Grammar.Progress

/-!
# The failure of the last token

A part that may be absent takes a failure for absence where that left tokens, and fails with it where
it left none. Most failures at the last token leave none, as what fails has read it. Alternatives leave
it, since they go back to where they began, and so does a node whose subcommand cannot do without
more words. A key that may hold one value leaves it if it is given another without the token being read.
-/

namespace CommandGrammar

open Reading

/-! ## The end of a line -/

namespace Cursor

/-- One cursor is where another is or behind it, in no more tokens. -/
structure Fewer (c d : Cursor) : Prop extends c.Onward d where
  count : d.tokens.length ≤ c.tokens.length

namespace Fewer

variable {c d e : Cursor} {word v : String}

/-- Behind a flag there may be one more token, but the flag's word is taken out. -/
theorem takeOut (read : c.next? = some (word, d)) {k : Nat} (h : d.Beyond k e)
    (light : k ≤ word.length) (count : e.tokens.length ≤ c.tokens.length + 1) :
    c.Fewer (e.remove d.mark e.mark) := by
  refine ⟨(h.takeOut read light).1, ?_⟩
  have place := h.place
  have inside := h.within
  rw [Beyond.takeOut_eq read h]
  obtain ⟨rfl, -⟩ := of_next? read
  simp only [Within] at place inside
  simp only [between, List.length_append, List.length_take, List.length_drop]
  omega

/-- Reading never makes more tokens of those that there are. -/
theorem way : Way Fewer where
  refl h := ⟨.refl h, Nat.le_refl _⟩
  next read := ⟨.of_next? read, (tokens_of_next? read) ▸ Nat.le_refl _⟩
  trans h h' := ⟨h.toOnward.trans h'.toOnward, Nat.le_trans h'.count h.count⟩
  within h := h.within
  toEnd h := ⟨.toEnd h, Nat.le_refl _⟩
  rewind h := ⟨h.toOnward.rewind, h.count⟩
  takeOut read h := by
    refine Fewer.takeOut read (h.toOnward.beyond 0) (Nat.zero_le _) (Nat.le_succ_of_le ?_)
    rw [← tokens_of_next? read]
    exact h.count
  takeOutInline {c d e word v} read light h := by
    have put := Beyond.insert (Onward.of_next? read).within v
    refine Fewer.takeOut read (put.onward h.toOnward) light ?_
    rw [← tokens_of_next? read, ← length_tokens_insert d v]
    exact h.count

end Fewer

/-- No more than so many tokens are left. -/
structure Ending (k : Nat) (c : Cursor) : Prop where
  within : c.Within
  few : c.tokens.length ≤ c.consumed + k

namespace Ending

variable {k : Nat} {c d : Cursor} {v : String}

theorem mono {j : Nat} (h : c.Ending j) (le : j ≤ k) : c.Ending k :=
  ⟨h.within, Nat.le_trans h.few (Nat.add_le_add_left le _)⟩

theorem fewer (h : c.Ending k) (h' : c.Fewer d) : d.Ending k := by
  refine ⟨h'.within, ?_⟩
  have few := h.few
  have count := h'.count
  have place := h'.place
  omega

theorem spent_iff (within : c.Within) : c.Ending 0 ↔ c.hasNext = false := by
  simp only [Cursor.hasNext, decide_eq_false_iff_not, Nat.not_lt]
  exact ⟨fun h => h.few, fun few => ⟨within, few⟩⟩

theorem spent (h : c.Ending 0) : c.hasNext = false :=
  (spent_iff h.within).1 h

theorem next (h : c.Ending (k + 1)) (read : c.next? = some (v, d)) : d.Ending k := by
  have few := h.few
  obtain ⟨rfl, inside⟩ := of_next? read
  exact ⟨inside, by dsimp only; omega⟩

theorem insert (h : c.Ending k) (v : String) : (c.insert v).Ending (k + 1) := by
  refine ⟨(Beyond.insert h.within v).within, ?_⟩
  rw [length_tokens_insert]
  exact Nat.succ_le_succ h.few

theorem of_remaining (h : c.remaining = [v]) : c.Ending 1 := by
  have length := congrArg List.length h
  simp only [remaining, values, List.length_drop, List.length_map, List.length_singleton] at length
  exact ⟨by simp only [Within]; omega, by omega⟩

/-- One token is left, or none. -/
theorem one_or_none (h : c.Ending 1) : c.remaining.length = 1 ∨ c.Ending 0 := by
  have few := h.few
  rcases Nat.lt_or_ge c.consumed c.tokens.length with inside | outside
  · left
    simp only [remaining, values, List.length_drop, List.length_map]
    omega
  · exact .inr ⟨h.within, outside⟩

end Ending

end Cursor

/-! ## Readings that spend -/

namespace Reading

variable {α β : Type} {k : Nat}

/-- Where no more than so many tokens are left, a failure leaves none. -/
def Spends (k : Nat) (r : Reading α) : Prop :=
  ∀ ⦃s e t⦄, s.cursor.Ending k → r s = .error e t → t.cursor.hasNext = false

namespace Spends

theorem mono {j : Nat} {r : Reading α} (h : r.Spends k) (le : j ≤ k) : r.Spends j :=
  fun _ _ _ few failed => h (few.mono le) failed

theorem of_reads {r : Reading α} (h : ∀ s, ∃ a t, r s = .ok a t) : r.Spends k := by
  intro s e t _ failed
  obtain ⟨a, u, read⟩ := h s
  cases read.symm.trans failed

theorem pure (a : α) : (Pure.pure a : Reading α).Spends k :=
  of_reads fun s => ⟨a, s, rfl⟩

theorem store (key : String) (v : Value) : (Reading.store key v).Spends k :=
  of_reads fun _ => ⟨(), _, rfl⟩

theorem hasNext : Reading.hasNext.Spends k :=
  of_reads fun s => ⟨_, s, rfl⟩

theorem next : Reading.next.Spends k := by
  intro s e t _ failed
  cases there : s.cursor.next? with
  | none =>
      rw [next_of_none there] at failed
      cases failed
      exact Cursor.hasNext_of_next?_none there
  | some p =>
      rw [next_of_some there] at failed
      cases failed

/-- A refusal leaves what is there. -/
theorem reject (message : String) : (Reading.reject message : Reading α).Spends 0 := by
  rintro s _ _ few ⟨⟩
  exact few.spent

theorem bind {r : Reading α} {f : α → Reading β} (h : r.Spends k) (fewer : r.Moves Cursor.Fewer)
    (rest : ∀ a, (f a).Spends k) : (r >>= f).Spends k := by
  intro s e t few failed
  rcases bind_eq_error.1 failed with first | ⟨a, u, first, second⟩
  · exact h few first
  · exact rest a (few.fewer (fewer few.within first)) second

/-- Behind a token that is read one token less is left. -/
theorem next_bind {f : String → Reading β} (rest : ∀ v, (f v).Spends k) :
    (Reading.next >>= f).Spends (k + 1) := by
  intro s e t few failed
  rcases bind_eq_error.1 failed with first | ⟨v, u, first, second⟩
  · exact next few first
  · obtain ⟨c, read, rfl⟩ := next_eq_ok.1 first
    exact rest v (few.next read) second

/-- A loop of readings spends if the failures of its turns do. -/
theorem run {turn : State → State ⊕ EStateM.Result ParseError State Unit}
    (go : ∀ ⦃s t⦄, s.cursor.Ending k → turn s = .inl t → s.cursor.Fewer t.cursor)
    (stop : ∀ ⦃s e t⦄, s.cursor.Ending k → turn s = .inr (.error e t) → t.cursor.hasNext = false)
    (steps : Nat) : Spends k (Loop.run turn (.ok ()) steps) := by
  induction steps with
  | zero => exact .pure ()
  | succ steps ih =>
      intro s e u few failed
      simp only [Loop.run] at failed
      cases next : turn s with
      | inl t =>
          rw [next] at failed
          exact ih (few.fewer (go few next)) failed
      | inr r =>
          rw [next] at failed
          dsimp only at failed
          subst failed
          exact stop few next

end Spends

end Reading

namespace Parser

variable {p : Parser} {ps : List Parser} {env : Env} {k : Nat}

theorem spends_readAll (fewer : ∀ p ∈ ps, (p.parse env).Moves Cursor.Fewer)
    (h : ∀ p ∈ ps, (p.parse env).Spends k) : (readAll env ps).Spends k := by
  induction ps with
  | nil => exact .pure ()
  | cons p ps ih =>
      have rest := ih (fun q hq => fewer q (List.mem_cons_of_mem p hq))
        (fun q hq => h q (List.mem_cons_of_mem p hq))
      exact .bind (h p List.mem_cons_self) (fewer p List.mem_cons_self) fun _ => rest

/-- Where all alternatives fail, nothing has been read. -/
theorem readFirst_error {s t : State} {e : ParseError} (failed : readFirst env ps s = .error e t) :
    t = s := by
  induction ps with
  | nil => cases failed
  | cons p ps ih =>
      unfold readFirst at failed
      cases first : p.parse env s with
      | ok _ u =>
          rw [orElse_of_ok first] at failed
          cases failed
      | error e' u =>
          rw [orElse_of_error first] at failed
          cases ps with
          | nil =>
              cases failed
              rfl
          | cons q ps => exact ih failed

theorem spends_optional (p : Parser) (default : Option Value) (weak : Bool) :
    ((p.optional default weak).parse env).Spends k := by
  intro s e t few failed
  obtain ⟨context, stored⟩ := storeDefault_eq_ok default p s
  cases more : s.cursor.hasNext with
  | false =>
      rw [parse_optional_of_spent default weak more, stored] at failed
      cases failed
  | true =>
      cases item : p.parse env s with
      | ok _ u =>
          rw [parse_optional_of_ok default weak more item] at failed
          cases failed
      | error e' u =>
          rw [parse_optional_of_error default weak more item] at failed
          split at failed
          · rw [stored] at failed
            cases failed
          · rename_i needed
            cases failed
            simp only [Bool.or_eq_true, not_or, Bool.not_eq_true] at needed
            exact needed.2

/-- A second value of a key is refused where the item ended. -/
theorem onlyOne_error {s t : State} {e : ParseError} (failed : p.onlyOne.parse env s = .error e t) :
    p.parse env s = .error e t ∨ p.key ≠ none ∧ p.parse env s = .ok () t := by
  rcases bind_eq_error.1 failed with item | ⟨_, u, item, refused⟩
  · exact .inl item
  · cases named : p.key with
    | none =>
        simp only [named] at refused
        cases refused
    | some key =>
        simp only [named, bind_of_ok (get_apply u)] at refused
        split at refused
        · cases refused
          exact .inr ⟨Option.some_ne_none key, item⟩
        · cases refused

theorem spends_onlyOne (h : (p.parse env).Spends k)
    (takes : p.key = none ∨
      ∀ ⦃s t⦄, s.cursor.Ending k → p.parse env s = .ok () t → t.cursor.hasNext = false) :
    (p.onlyOne.parse env).Spends k := by
  intro s e t few failed
  rcases onlyOne_error failed with item | ⟨named, read⟩
  · exact h few item
  · exact takes.resolve_left named few read

variable (fewer : (p.parse env).Moves Cursor.Fewer)

include fewer

theorem spends_readTimes (h : (p.parse env).Spends k) (n : Nat) : (p.readTimes env n).Spends k := by
  induction n with
  | zero => exact .pure ()
  | succ n ih => exact .bind h fewer fun _ => ih

theorem spends_readWhile (h : (p.parse env).Spends k) (steps : Nat) :
    (p.readWhile env steps).Spends k := by
  rw [readWhile_eq_run]
  refine .run (fun s t few next => fewer few.within (readTurn_inl next).1) ?_ steps
  intro s e t few last
  rcases readTurn_inr last with ⟨-, ⟨⟩⟩ | ⟨-, failed⟩
  exact h few failed

end Parser

/-! ## Single arguments -/

theorem Leaf.spends_readNext (leaf : Leaf) (env : Env) : (leaf.readNext env).Spends 1 := by
  refine .next_bind fun text => ?_
  split
  · exact .pure _
  · exact .reject _

theorem Leaf.spends_readValue (leaf : Leaf) (env : Env) : (leaf.readValue env).Spends 1 := by
  unfold readValue
  split
  · exact .pure _
  · rename_i raw
    refine .next_bind fun first => .of_reads fun s => ?_
    cases raw with
    | true | false => exact ⟨_, _, rfl⟩
  · refine .of_reads fun s => ?_
    cases first : readNext (.dateTime true) env s with
    | ok v t => exact ⟨v, t, orElse_of_ok first _⟩
    | error e t => exact ⟨_, s, orElse_of_error first _⟩
  · exact spends_readNext leaf env

theorem Leaf.spends_parse (key : String) (leaf : Leaf) (env : Env) :
    ((leaf.parser key).parse env).Spends 1 :=
  .bind (spends_readValue leaf env) (moves_readValue Cursor.Fewer.way leaf env) fun _ => .store _ _

theorem Choice.spends_parse (key : String) (c : Choice) (env : Env) :
    ((c.parser key).parse env).Spends 1 := by
  refine .next_bind fun name => ?_
  split
  · exact .store _ _
  · exact .reject _

theorem Selection.storeAll_eq_ok (key : String) (vs : List Value) (s : State) :
    ∃ t, storeAll key vs s = .ok () t := by
  induction vs generalizing s with
  | nil => exact ⟨s, rfl⟩
  | cons v vs ih => exact ih _

theorem Selection.spends_parse (key : String) (s : Selection) (env : Env) :
    ((s.parser key).parse env).Spends 1 := by
  refine .next_bind fun text => ?_
  split
  · exact .store _ _
  · split
    · exact .reject _
    · split
      · exact .reject _
      · exact .of_reads fun st => ⟨(), storeAll_eq_ok key _ st⟩

theorem Phrase.spends_readWords (words : List String) : (readWords words).Spends 1 := by
  induction words with
  | nil => exact .pure ()
  | cons expected words ih =>
      refine .next_bind fun word => ?_
      split
      · exact ih.mono (Nat.zero_le _)
      · exact .reject _

theorem Phrase.spends_parse (key : Option String) (p : Phrase) (env : Env) :
    ((p.parser key).parse env).Spends 1 := by
  refine .bind (spends_readWords p.words) (moves_readWords Cursor.Fewer.way.toCourse p.words)
    fun _ => ?_
  split
  · exact .store _ _
  · exact .pure ()

/-! ## Flags -/

namespace FlagScanner

variable {f : FlagScanner} {env : Env}
  (fewer : ∀ index, ((f.value index).parse env).Moves Cursor.Fewer)
  (values : ∀ index, ((f.value index).parse env).Spends 1)

include fewer values

/-- Behind the last word a group of flags finds nothing. -/
theorem spends_readShort (first : Bool) (letters : List Char) :
    (f.readShort env first letters).Spends 0 := by
  induction letters generalizing first with
  | nil => exact .pure true
  | cons c letters ih =>
      unfold readShort
      split
      · exact .bind ((values _).mono (Nat.zero_le _)) (fewer _) fun _ => ih false
      · dsimp only
        split
        · exact .reject _
        · split
          · exact .pure false
          · exact .reject _
        · exact .bind (.store _ _) (Cursor.Fewer.way.store _ _) fun _ => ih false
        · refine .bind .next Cursor.Fewer.way.read fun v => ?_
          exact .bind (.store _ _) (Cursor.Fewer.way.store _ _) fun _ => ih false

/-- Behind the last word a flag finds the value that the word held at most. -/
theorem spends_readLong (flag : List Char) : (f.readLong env flag).Spends 0 := by
  unfold readLong
  cases cut : splitInline flag with
  | mk name inline =>
      dsimp only
      split
      · rename_i index _
        cases inline with
        | none => exact .bind ((values index).mono (Nat.zero_le _)) (fewer index) fun _ => .pure true
        | some v =>
            -- The value is put before what is left, so its element finds one token.
            intro s e t few failed
            change ((f.value index).parse env >>= fun _ => Pure.pure true)
              { s with cursor := s.cursor.insert v } = _ at failed
            exact Spends.bind (values index) (fewer index) (fun _ => .pure true) (few.insert v) failed
      · split
        · exact .reject _
        · exact .pure false
        · exact .bind (.store _ _) (Cursor.Fewer.way.store _ _) fun _ => .pure true
        · cases inline with
          | some v => exact .bind (.store _ _) (Cursor.Fewer.way.store _ _) fun _ => .pure true
          | none =>
              refine .bind .next Cursor.Fewer.way.read fun v => ?_
              exact .bind (.store _ _) (Cursor.Fewer.way.store _ _) fun _ => .pure true

theorem spends_readFlag (flag : List Char) : (f.readFlag env flag).Spends 0 := by
  unfold readFlag
  split
  · exact spends_readLong fewer values _
  · exact spends_readShort fewer values true _

theorem spends_scan (steps : Nat) : (f.scan env steps).Spends 1 := by
  rw [scan_eq_run]
  refine .run (fun s t _ next => moves_scanTurn Cursor.Fewer.way fewer next) ?_ steps
  intro s e t few last
  obtain ⟨word, c, flag, next, letters, failed⟩ := scanTurn_error last
  exact spends_readFlag fewer values flag (few.next next) failed

omit values

/-- Without a word there is no flag. -/
theorem spends_scan_none (steps : Nat) : (f.scan env steps).Spends 0 := by
  rw [scan_eq_run]
  refine .run (fun s t _ next => moves_scanTurn Cursor.Fewer.way fewer next) ?_ steps
  intro s e t few last
  obtain ⟨word, c, flag, next, -⟩ := scanTurn_error last
  cases few.spent.symm.trans (Cursor.hasNext_of_next?_some next)

theorem spends_read {k : Nat} {body : Parser} (scan : ∀ steps, (f.scan env steps).Spends k)
    (rest : (body.parse env).Spends k) : ((Parser.flagged f body).parse env).Spends k := by
  intro s e t few failed
  change f.read body env s = _ at failed
  unfold read at failed
  rw [bind_of_ok (get_apply s)] at failed
  rcases bind_eq_error.1 failed with scanned | ⟨_, u, scanned, failed⟩
  · exact scan _ few scanned
  · have back := Cursor.Fewer.way.rewind (moves_scan Cursor.Fewer.way fewer _ few.within scanned)
    exact rest (few.fewer back) failed

end FlagScanner

/-! ## Subcommands -/

namespace Node

variable {n : Node} {env : Env}

/-- What a failure below comes to: a failure of the node's own arguments, or the word is given back. -/
theorem recover_error {typed : String} {c : Command} {s t : State} {e e' : ParseError}
    (failed : n.recover env typed c s e' = .error e t) :
    (n.fallbackOnFail = true ∧ ∃ p, n.fallback = some p ∧ p.parse env s = .error e t) ∨
      ((n.fallbackOnFail = false ∨ n.fallback = none) ∧ t = s) := by
  unfold recover at failed
  split at failed
  · rename_i p onFail there
    exact .inl ⟨onFail, p, there, failed⟩
  · rename_i gone
    cases failed
    refine .inr ⟨?_, rfl⟩
    cases onFail : n.fallbackOnFail with
    | false => exact .inl rfl
    | true => exact .inr (Option.eq_none_iff_forall_ne_some.2 fun p there => gone p onFail there)

/-- A node fails at a word that names a subcommand as this fails. -/
theorem readNamed_error {typed : String} {c : Cursor} {m : Mapping Command} {s t : State}
    {e : ParseError} (word : s.cursor.next? = some (typed, c))
    (named : n.commands.get? (some env.source) typed = some m)
    (failed : n.readNamed env s = .error e t) :
    ∃ e' u, n.populate m.callable env { s with cursor := c } = .error e' u ∧
      n.recover env typed m.callable s e' = .error e t := by
  simp only [readNamed, word, named] at failed
  cases below : n.populate m.callable env { s with cursor := c } with
  | ok _ u =>
      simp only [below] at failed
      cases failed
  | error e' u =>
      simp only [below] at failed
      exact ⟨e', u, rfl, failed⟩

/-- Either the node's own arguments are tried where those of a subcommand cannot be read, or all that
its source may name can be read without words. -/
def Settles (n : Node) (env : Env) : Prop :=
  (n.fallbackOnFail = true ∧ n.fallback.isSome = true) ∨
    ∀ typed m, n.commands.get? (some env.source) typed = some m →
      ∀ s, s.cursor.hasNext = false → ∃ t, n.populate m.callable env s = .ok () t

variable {k : Nat} (low : k ≤ 1) (own : ∀ p, n.fallback = some p → (p.parse env).Spends k)
  (settles : k = 0 ∨ n.Settles env)

include low own settles

theorem spends_readNamed : (n.readNamed env).Spends k := by
  intro s e t few failed
  cases word : s.cursor.next? with
  | none =>
      simp only [readNamed, word] at failed
      cases failed
      exact Cursor.hasNext_of_next?_none word
  | some pair =>
      obtain ⟨typed, c⟩ := pair
      have last : c.Ending 0 := (few.mono low).next word
      cases named : n.commands.get? (some env.source) typed with
      | none =>
          simp only [readNamed, word, named] at failed
          split at failed
          · rename_i p _ fallback
            exact own p fallback few failed
          · cases failed
            exact last.spent
      | some m =>
          -- The word is given back only where nothing else is tried, and the subcommand had no word left.
          obtain ⟨e', u, below, failed⟩ := readNamed_error word named failed
          rcases recover_error failed with ⟨-, p, fallback, failed⟩ | ⟨gone, rfl⟩
          · exact own p fallback few failed
          · rcases settles with rfl | ⟨onFail, there⟩ | reads
            · exact few.spent
            · rcases gone with off | none
              · simp [off] at onFail
              · simp [none] at there
            · obtain ⟨v, read⟩ := reads typed m named { t with cursor := c } last.spent
              cases read.symm.trans below

/-- A node that does not settle gives the word back that named a subcommand. -/
theorem spends_read : (n.read env).Spends k := by
  refine .bind .hasNext Cursor.Fewer.way.hasNext fun more => ?_
  split
  · split
    · rename_i p there
      exact own p there
    · exact .pure ()
  · exact spends_readNamed low own settles

end Node

/-! ## Whole grammars -/

namespace Element

variable {env : Env}

theorem fewer (e : Element) (env : Env) : (e.parser.parse env).Moves Cursor.Fewer :=
  e.moves Cursor.Fewer.way env

theorem fewer_value (table : FlagTable) (values : List Element) (env : Env) (index : Nat) :
    (((table.scanner values).value index).parse env).Moves Cursor.Fewer :=
  table.forall_value (P := fun p => (p.parse env).Moves Cursor.Fewer)
    (Cursor.Fewer.way.pure ()) (fun e _ => e.fewer env) index

theorem spends_sequence {k : Nat} {items : List Element}
    (h : ∀ e ∈ items, (e.parser.parse env).Spends k) :
    ((Element.sequence items).parser.parse env).Spends k :=
  Parser.spends_readAll
    (forall_parsers (P := fun p => (p.parse env).Moves Cursor.Fewer) fun e _ => e.fewer env)
    (forall_parsers (P := fun p => (p.parse env).Spends k) h)

/-- Where no token is left, a failure leaves none, whatever the element. -/
theorem spends_none (e : Element) (env : Env) : (e.parser.parse env).Spends 0 := by
  induction e using induction_parts with
  | step e ih =>
      cases e with
      | sequence items => exact spends_sequence ih
      | firstOf items =>
          intro s e t few failed
          rw [Parser.readFirst_error failed]
          exact few.spent
      | optional item default weak => exact Parser.spends_optional item.parser default weak
      | repeated item times =>
          exact Parser.spends_readTimes (item.fewer env) (ih item List.mem_cons_self) times
      | allOf item =>
          exact fun s _ _ few failed =>
            Parser.spends_readWhile (item.fewer env) (ih item List.mem_cons_self) _ few failed
      | onlyOne item =>
          refine Parser.spends_onlyOne (ih item List.mem_cons_self) (.inr fun s t few read => ?_)
          exact (few.fewer (item.fewer env few.within read)).spent
      | choice key c => exact (c.spends_parse key env).mono (Nat.zero_le _)
      | selection key s => exact (s.spends_parse key env).mono (Nat.zero_le _)
      | phrase key p => exact (p.spends_parse key env).mono (Nat.zero_le _)
      | leaf key leaf => exact (leaf.spends_parse key env).mono (Nat.zero_le _)
      | flags table values body =>
          exact FlagScanner.spends_read (fewer_value table values env)
            (FlagScanner.spends_scan_none (fewer_value table values env)) (ih body List.mem_cons_self)
      | suggesting item _ _ | constrained item _ => exact ih item List.mem_cons_self
      | child n =>
          exact Node.spends_read (Nat.zero_le _)
            (Subcommands.forall_fallback (P := fun p => (p.parse env).Spends 0) ih) (.inl rfl)

/-! ## Elements that keep to their last token -/

/-- Where one token is left, the element reads it. -/
def Takes (env : Env) (e : Element) : Prop :=
  ∀ ⦃s t⦄, s.cursor.remaining.length = 1 → e.parser.parse env s = .ok () t → t.cursor.hasNext = false

/-- Where one token is left, the element reads something. -/
def Reads (env : Env) (e : Element) : Prop :=
  ∀ ⦃s⦄, s.cursor.remaining.length = 1 → ∃ t, e.parser.parse env s = .ok () t

/-- The element does not give its last token back when it fails. Alternatives do not if they never
fail there, and a node if its own arguments are tried instead or its subcommands can do without words;
all others do not if those that they are made of do not, up to one that takes the token. -/
inductive Steadfast (env : Env) : Element → Prop
  | sequence {items} (all : ∀ e ∈ items, Steadfast env e) : Steadfast env (.sequence items)
  | behind {before e rest} (all : ∀ d ∈ before, Steadfast env d) (last : Steadfast env e)
      (takes : Takes env e) : Steadfast env (.sequence (before ++ e :: rest))
  | firstOf {items} (reads : Reads env (.firstOf items)) : Steadfast env (.firstOf items)
  | optional (item default weak) : Steadfast env (.optional item default weak)
  | repeated {item} (times) (h : Steadfast env item) : Steadfast env (.repeated item times)
  | allOf {item} (h : Steadfast env item) : Steadfast env (.allOf item)
  | onlyOne {item} (h : Steadfast env item)
      (takes : (Element.parser item).key = .none ∨ Takes env item) : Steadfast env (.onlyOne item)
  | choice (key c) : Steadfast env (.choice key c)
  | selection (key s) : Steadfast env (.selection key s)
  | phrase (key p) : Steadfast env (.phrase key p)
  | leaf (key l) : Steadfast env (.leaf key l)
  | flags {values body} (table) (all : ∀ e ∈ values, Steadfast env e) (rest : Steadfast env body) :
      Steadfast env (.flags table values body)
  | suggesting {item} (suggestions requireBegin) (h : Steadfast env item) :
      Steadfast env (.suggesting item suggestions requireBegin)
  | constrained {item} (keep) (h : Steadfast env item) : Steadfast env (.constrained item keep)
  | child {n} (own : ∀ e, Subcommands.fallback n = some e → Steadfast env e)
      (settles : n.toNode.Settles env) : Steadfast env (.child n)

variable {e : Element} {s t : State}

/-- What takes the last token leaves none, be it there or not. -/
theorem Takes.spent (h : e.Takes env) (few : s.cursor.Ending 1)
    (read : e.parser.parse env s = .ok () t) : t.cursor.hasNext = false := by
  rcases few.one_or_none with one | none
  · exact h one read
  · exact (none.fewer (e.fewer env none.within read)).spent

/-- Behind an element that takes the token, the others find none. -/
theorem spends_behind {before rest : List Element} (all : ∀ d ∈ before, (d.parser.parse env).Spends 1)
    (last : (e.parser.parse env).Spends 1) (takes : e.Takes env) :
    ((Element.sequence (before ++ e :: rest)).parser.parse env).Spends 1 := by
  induction before with
  | nil =>
      intro s error t few failed
      rcases bind_eq_error.1 failed with first | ⟨_, u, first, failed⟩
      · exact last few first
      · have within := (few.fewer (e.fewer env few.within first)).within
        have none := (Cursor.Ending.spent_iff within).2 (takes.spent few first)
        exact (Element.sequence rest).spends_none env none failed
  | cons d before ih =>
      exact .bind (all d List.mem_cons_self) (d.fewer env) fun _ =>
        ih fun d' h => all d' (List.mem_cons_of_mem d h)

/-- The failure of a steadfast element at the last token leaves none. -/
theorem Steadfast.spends (h : e.Steadfast env) : (e.parser.parse env).Spends 1 := by
  induction h with
  | sequence _ ih => exact spends_sequence ih
  | behind _ _ takes ih ihLast => exact spends_behind ih ihLast takes
  | firstOf reads =>
      intro s error t few failed
      rcases few.one_or_none with one | none
      · obtain ⟨u, read⟩ := reads one
        cases read.symm.trans failed
      · exact (Element.firstOf _).spends_none env none failed
  | optional item default weak => exact Parser.spends_optional item.parser default weak
  | @repeated item times _ ih => exact Parser.spends_readTimes (item.fewer env) ih times
  | @allOf item _ ih =>
      exact fun s _ _ few failed => Parser.spends_readWhile (item.fewer env) ih _ few failed
  | onlyOne _ takes ih =>
      exact Parser.spends_onlyOne ih (takes.imp_right fun (h : Takes env _) _ _ few read =>
        h.spent few read)
  | choice key c => exact c.spends_parse key env
  | selection key s => exact s.spends_parse key env
  | phrase key p => exact p.spends_parse key env
  | leaf key l => exact l.spends_parse key env
  | @flags values _ table _ _ ih ihRest =>
      have own := table.forall_value (P := fun p => (p.parse env).Spends 1) (.pure ()) ih
      have fewer := fewer_value table values env
      exact FlagScanner.spends_read fewer (FlagScanner.spends_scan fewer own) ihRest
  | suggesting _ _ _ ih | constrained _ _ ih => exact ih
  | @child n _ settles ih =>
      refine Node.spends_read (Nat.le_refl 1) (fun p there => ?_) (.inr settles)
      rw [Subcommands.toNode_fallback, Option.map_eq_some_iff] at there
      obtain ⟨own, there, rfl⟩ := there
      exact ih own there

/-! ## Elements that go back -/

/-- What fails gives the token back itself: alternatives, a word that named a subcommand, and a key
that may hold one value, once its item has been read without the token. -/
inductive Retreats (env : Env) (s : State) : Element → Prop
  | firstOf (items) : Retreats env s (.firstOf items)
  | child {n typed c m} (word : Cursor.next? s.cursor = some (typed, c))
      (named : (Subcommands.commands n).get? (some env.source) typed = some m)
      (bare : n.toNode.fallbackOnFail = false ∨ n.fallback = .none) : Retreats env s (.child n)
  | onlyOne {item u} (read : (Element.parser item).parse env s = .ok () u)
      (more : u.cursor.hasNext = true) : Retreats env s (.onlyOne item)

theorem Retreats.hasNext {error : ParseError} (h : e.Retreats env s) (more : s.cursor.hasNext = true)
    (failed : e.parser.parse env s = .error error t) : t.cursor.hasNext = true := by
  cases h with
  | firstOf items =>
      rw [Parser.readFirst_error failed]
      exact more
  | @child n typed c m word named bare =>
      have there : n.toNode.readNamed env s = .error error t :=
        (Subcommands.read_of_next word).symm.trans failed
      obtain ⟨error', u, -, recovered⟩ :=
        Node.readNamed_error word (Subcommands.toNode_get?_some named) there
      rcases Node.recover_error recovered with ⟨onFail, p, fallback, -⟩ | ⟨-, rfl⟩
      · rcases bare with off | none
        · simp [off] at onFail
        · simp [Subcommands.toNode_fallback_none none] at fallback
      · exact more
  | onlyOne read left =>
      rcases Parser.onlyOne_error failed with item | ⟨-, item⟩
      · cases read.symm.trans item
      · cases read.symm.trans item
        exact left

/-- A part that may be absent fails as what it is made of fails, at the last token, just where that
leaves none, and counts as absent where the token was given back. Steadfast elements leave none. -/
theorem optional_last_word (default : Option Value) {v : String} {error : ParseError}
    (last : s.cursor.remaining = [v]) (failed : e.parser.parse env s = .error error t) :
    ((Element.optional e default false).parser.parse env s = .error error t ↔
        t.cursor.hasNext = false) ∧
      (t.cursor.hasNext = true →
        (Element.optional e default false).parser.parse env s = e.parser.storeDefault default s) ∧
      (e.Steadfast env → t.cursor.hasNext = false) ∧
      (e.Retreats env s → t.cursor.hasNext = true) := by
  have more : s.cursor.hasNext = true := Cursor.hasNext_iff.2 (by simp [last])
  have read := Parser.parse_optional_of_error default false more failed
  rw [Bool.false_or] at read
  refine ⟨?_, fun left => ?_, ?_, ?_⟩
  · change (e.parser.optional default false).parse env s = _ ↔ _
    rw [read]
    cases left : t.cursor.hasNext with
    | false => simp
    | true =>
        obtain ⟨context, stored⟩ := Parser.storeDefault_eq_ok default e.parser s
        simp [stored]
  · rw [if_pos left] at read
    exact read
  · exact fun steadfast => steadfast.spends (.of_remaining last) failed
  · exact fun retreats => retreats.hasNext more failed

/-- An integer that is none is no absent integer where it is the last word. -/
theorem optional_last_word_of_integer :
    let e := Element.sequence [.leaf "n" .integer]
    let now : DateTime :=
      ⟨{ year := 2001, month := 2, day := 3 }, { hour := 4, minute := 5, second := 6, nano := 0 }⟩
    let env : Env := { source := { name := "ann" }, now }
    let s : State := ⟨.ofTokens "word" [⟨"word", 0, 4⟩], .empty⟩
    let t : State := { s with cursor := { s.cursor with consumed := 1 } }
    let error := t.cursor.error "Expected an integer, but input 'word' was not"
    (s.cursor.remaining = ["word"] ∧ e.parser.parse env s = .error error t) ∧
      (Element.optional e (some (.int 7)) false).parser.parse env s = .error error t := by
  intro e now env s t error
  have last : s.cursor.remaining = ["word"] := rfl
  have failed : e.parser.parse env s = .error error t := rfl
  have steadfast : e.Steadfast env := .sequence fun d h => by
    rw [List.mem_singleton.1 h]
    exact .leaf "n" .integer
  obtain ⟨same, -, spent, -⟩ := optional_last_word (some (.int 7)) last failed
  exact ⟨⟨last, failed⟩, same.2 (spent steadfast)⟩

/-- As the only alternative it is. -/
theorem optional_last_word_given_back :
    let e := Element.firstOf [.leaf "n" .integer]
    let now : DateTime :=
      ⟨{ year := 2001, month := 2, day := 3 }, { hour := 4, minute := 5, second := 6, nano := 0 }⟩
    let env : Env := { source := { name := "ann" }, now }
    let s : State := ⟨.ofTokens "word" [⟨"word", 0, 4⟩], .empty⟩
    let t : State := { s with cursor := { s.cursor with consumed := 1 } }
    let error := t.cursor.error "Expected an integer, but input 'word' was not"
    s.cursor.remaining = ["word"] ∧ e.parser.parse env s = .error error s ∧
      (Element.optional e .none false).parser.parse env s = .ok () s := by
  intro e now env s t error
  exact ⟨rfl, rfl, rfl⟩

end Element

end CommandGrammar
