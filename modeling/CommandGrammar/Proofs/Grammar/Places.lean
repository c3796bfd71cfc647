import CommandGrammar.Proofs.Grammar.Guarded
import CommandGrammar.Proofs.Token.Spans

/-!
# Places of errors

Whatever is done to a cursor in a line, and whatever reads from it, its tokens stand in that line one
behind the other, and so an error at the current token points into the line.
-/

namespace CommandGrammar

open Reading

/-- The error is about a line, and its place is in it. -/
structure ParseError.PointsInto (line : String) (e : ParseError) : Prop where
  input : e.input = line
  position : e.position ≤ line.length

namespace Cursor

/-- A cursor in a line that is not beyond its tokens, which stand in the line one behind the other. -/
structure Sound (line : String) (c : Cursor) : Prop where
  raw : c.raw = line
  placed : Token.Placed 0 line.length c.tokens
  within : c.consumed ≤ c.tokens.length

/-- The place where the current token ends. -/
def ending (c : Cursor) : Nat :=
  c.current?.elim 0 (·.stop)

variable {line : String} {c d e : Cursor} {v : String}

/-! ## Operations -/

theorem sound_ofTokens {ts : List Token} (placed : Token.Placed 0 line.length ts) :
    (ofTokens line ts).Sound line :=
  ⟨rfl, placed, Nat.zero_le _⟩

namespace Sound

theorem current (h : c.Sound line) (nonzero : c.consumed ≠ 0) :
    ∃ t, c.current? = some t ∧ c.tokens.take c.consumed = c.tokens.take (c.consumed - 1) ++ [t] := by
  obtain ⟨n, last⟩ := Nat.exists_eq_succ_of_ne_zero nonzero
  have inside : n < c.tokens.length := by
    have within := h.within
    omega
  refine ⟨c.tokens[n], ?_, ?_⟩
  · rw [current?, if_neg nonzero, last, Nat.succ_sub_one, List.getElem?_eq_getElem inside]
  · rw [last, Nat.succ_sub_one, List.take_succ_eq_append_getElem inside]

theorem position_le (h : c.Sound line) : c.position ≤ line.length := by
  unfold position current?
  split
  · exact Nat.zero_le _
  · cases there : c.tokens[c.consumed - 1]? with
    | none => exact Nat.zero_le _
    | some t =>
        have inside := h.placed.inside t (List.mem_of_getElem? there)
        exact Nat.le_trans inside.2.1 inside.2.2

theorem error (h : c.Sound line) (message : String) : (c.error message).PointsInto line :=
  ⟨h.raw, h.position_le⟩

/-- The end of the current token is behind all tokens up to that one and before all others. -/
theorem ending_between (h : c.Sound line) :
    c.ending ≤ line.length ∧ (∀ t ∈ c.tokens.take c.consumed, t.stop ≤ c.ending) ∧
      ∀ u ∈ c.tokens.drop c.consumed, c.ending ≤ u.start := by
  by_cases zero : c.consumed = 0
  · have start : c.ending = 0 := by simp [ending, current?, zero]
    rw [start, zero]
    refine ⟨Nat.zero_le _, ?_, fun u _ => Nat.zero_le _⟩
    simp
  · obtain ⟨t, current, taken⟩ := h.current zero
    have stop : c.ending = t.stop := by simp [ending, current]
    have apart := h.placed.apart
    rw [← List.take_append_drop c.consumed c.tokens, List.pairwise_append] at apart
    obtain ⟨before, -, behind⟩ := apart
    have there : t ∈ c.tokens.take c.consumed := by simp [taken]
    have inside := h.placed.inside t (List.mem_of_mem_take there)
    rw [stop]
    refine ⟨inside.2.2, fun u earlier => ?_, behind t there⟩
    rw [taken, List.mem_append, List.mem_singleton] at earlier
    rw [taken, List.pairwise_append] at before
    rcases earlier with earlier | rfl
    · exact Nat.le_trans (before.2.2 u earlier t List.mem_cons_self) inside.2.1
    · exact Nat.le_refl _

theorem next (h : c.Sound line) (read : c.next? = some (v, d)) : d.Sound line := by
  obtain ⟨rfl, inside⟩ := of_next? read
  exact ⟨h.raw, h.placed, inside⟩

theorem previous (h : c.Sound line) : c.previous.Sound line :=
  ⟨h.raw, h.placed, Nat.le_trans (Nat.sub_le _ _) h.within⟩

theorem toEnd (h : c.Sound line) : c.toEnd.Sound line := by
  refine ⟨h.raw, h.placed, ?_⟩
  have within := h.within
  simp only [Cursor.toEnd]
  omega

theorem insert (h : c.Sound line) (v : String) : (c.insert v).Sound line := by
  obtain ⟨bound, before, behind⟩ := h.ending_between
  have within := h.within
  refine ⟨h.raw, ?_, ?_⟩
  · have first := h.placed.sublist (List.take_sublist c.consumed c.tokens)
    have rest := h.placed.sublist (List.drop_sublist c.consumed c.tokens)
    have put : Token.Placed c.ending line.length (c.tokens.drop c.consumed) :=
      ⟨fun u there => ⟨behind u there, (rest.inside u there).2⟩, rest.apart⟩
    refine first.append (.cons (Nat.zero_le _) (Nat.le_refl _) bound put) ?_
    intro t earlier u later
    rcases List.mem_cons.mp later with rfl | later
    · exact before t earlier
    · exact Nat.le_trans (before t earlier) (behind u later)
  · simp only [Cursor.insert, List.length_append, List.length_take, List.length_cons]
    omega

theorem restore (h : c.Sound line) (h' : d.Sound line) : (c.restore d.mark).Sound line :=
  ⟨h.raw, h'.placed, Nat.min_le_right _ _⟩

theorem rewind (h : c.Sound line) (m : Mark) : (c.rewind m).Sound line :=
  ⟨h.raw, h.placed, Nat.min_le_right _ _⟩

theorem remove (h : c.Sound line) (start stop : Mark) : (c.remove start stop).Sound line := by
  have placed := h.placed.sublist (tokens_remove c start stop)
  unfold Cursor.remove at placed ⊢
  split
  · exact h
  · rename_i there
    rw [if_neg there] at placed
    exact ⟨h.raw, placed, Nat.min_le_right _ _⟩

end Sound

end Cursor

/-! ## Readings -/

/-- Cursors stay sound, and errors point into the line. -/
def Guard.places (line : String) : Guard where
  Safe s := s.cursor.Sound line
  Word _ := True
  Key _ := True
  Tells e := e.PointsInto line
  Edits := True
  next safe read := ⟨safe.next read, trivial⟩
  toEnd safe := safe.toEnd
  insert _ safe _ := safe.insert _
  rewind _ safe := safe.rewind _
  remove _ _ _ safe := safe.remove _ _
  store safe _ := safe
  error message safe := safe.error message
  withUsage _ tells := ⟨tells.input, tells.position⟩
  inline _ _ _ := trivial

theorem Guard.places_covers (line : String) (e : Element) : (Guard.places line).Covers e :=
  Element.Every.of_forall (fun _ => ⟨fun _ _ => trivial, fun _ => trivial⟩) e

theorem Element.keeps_places (line : String) (e : Element) (env : Env) :
    (Guard.places line).Keeps (e.parser.parse env) :=
  Element.guarded env (Guard.places_covers line e)

theorem Spec.keeps_places (line : String) (s : Spec) (env : Env) :
    (Guard.places line).Keeps (s.behaviour.populate env) :=
  Spec.guarded_populate env fun e _ => Guard.places_covers line e

/-! ## Runs -/

/-- Where a reading leaves the cursor, whether it succeeds or fails. -/
def Reading.endsAt {α : Type} (r : Reading α) (s : State) : Cursor :=
  match r s with
  | .ok _ t => t.cursor
  | .error _ t => t.cursor

theorem Guard.Keeps.sound {α : Type} {line : String} {r : Reading α}
    (h : (Guard.places line).Keeps r) {s : State} (sound : s.cursor.Sound line) :
    (r.endsAt s).Sound line := by
  unfold Reading.endsAt
  cases done : r s with
  | ok a t => exact h.ok sound done
  | error e t => exact (h.error sound done).1

/-- What a cursor may become: by its own operations, with the marks of any cursors it was before, and
by elements and commands that read from it, also when they fail. -/
inductive Cursor.Reached (start : Cursor) : Cursor → Prop
  | start : Reached start start
  | next {c v d} (h : Reached start c) (read : Cursor.next? c = some (v, d)) : Reached start d
  | previous {c} (h : Reached start c) : Reached start c.previous
  | insert {c} (h : Reached start c) (v : String) : Reached start (c.insert v)
  | remove {c d e} (h : Reached start c) (first : Reached start d) (last : Reached start e) :
      Reached start (c.remove d.mark e.mark)
  | restore {c d} (h : Reached start c) (before : Reached start d) :
      Reached start (c.restore d.mark)
  | rewind {c d} (h : Reached start c) (before : Reached start d) : Reached start (c.rewind d.mark)
  | element {c} (h : Reached start c) (e : Element) (env : Env) (context : Context) :
      Reached start (Reading.endsAt (e.parser.parse env) ⟨c, context⟩)
  | command {c} (h : Reached start c) (s : Spec) (env : Env) (context : Context) :
      Reached start (Reading.endsAt (s.behaviour.populate env) ⟨c, context⟩)

theorem Cursor.Reached.sound {line : String} {start c : Cursor} (h : start.Reached c)
    (first : start.Sound line) : c.Sound line := by
  induction h with
  | start => exact first
  | next _ read ih => exact ih.next read
  | previous _ ih => exact ih.previous
  | insert _ v ih => exact ih.insert v
  | remove _ _ _ ih _ _ => exact ih.remove _ _
  | restore _ _ ih ih' => exact ih.restore ih'
  | rewind _ _ ih _ => exact ih.rewind _
  | element _ e env context ih => exact (e.keeps_places line env).sound ih
  | command _ s env context ih => exact (s.keeps_places line env).sound ih

/-- Cutting a line fails at a place in it. Otherwise its tokens stand in it one behind the other, and
do so after whatever is done to the cursor and whatever reads from it; and every error of a cursor,
an element or a command on the way points into the line. -/
theorem errors_point_into_line (tokenizer : Tokenizer) (lenient : Bool) (line : String) :
    (∀ e, tokenizer.tokenize lenient line = .error e → e.PointsInto line) ∧
      ∀ tokens c, tokenizer.tokenize lenient line = .ok tokens →
        (Cursor.ofTokens line tokens).Reached c →
          Token.Placed 0 line.length c.tokens ∧
            (∀ message, (c.error message).PointsInto line) ∧
            (∀ (e : Element) env context failure t,
              e.parser.parse env ⟨c, context⟩ = .error failure t → failure.PointsInto line) ∧
            ∀ (s : Spec) env context failure t,
              s.behaviour.populate env ⟨c, context⟩ = .error failure t → failure.PointsInto line := by
  refine ⟨fun e refused => ?_, fun tokens c read reached => ?_⟩
  · obtain ⟨input, position⟩ := Tokenizer.tokenize_error refused
    exact ⟨input, by omega⟩
  · have sound := reached.sound (Cursor.sound_ofTokens (Tokenizer.placed_tokenize read))
    refine ⟨sound.placed, sound.error, ?_, ?_⟩
    · intro e env context failure t failed
      exact ((e.keeps_places line env).error (s := ⟨c, context⟩) sound failed).2
    · intro s env context failure t failed
      exact ((s.keeps_places line env).error (s := ⟨c, context⟩) sound failed).2

/-- A word that is no number is pointed at where it stands, behind another word. -/
theorem errors_point_into_line_of_integer :
    let line := "set x"
    let tokens : List Token := [⟨"set", 0, 3⟩, ⟨"x", 4, 5⟩]
    let c : Cursor := ⟨line, tokens, 1⟩
    let now : DateTime :=
      ⟨{ year := 2001, month := 2, day := 3 }, { hour := 4, minute := 5, second := 6, nano := 0 }⟩
    let env : Env := { source := .withDenied "ann" [], now }
    let failure : ParseError := ⟨"Expected an integer, but input 'x' was not", line, 4, none⟩
    (Cursor.ofTokens line tokens).Reached c ∧
      (Element.leaf "k" .integer).parser.parse env ⟨c, .empty⟩ =
        .error failure ⟨⟨line, tokens, 2⟩, .empty⟩ ∧
      Token.Placed 0 line.length tokens ∧ failure.PointsInto line := by
  intro line tokens c now env failure
  have read : Tokenizer.tokenize default false "set x" = .ok [⟨"set", 0, 3⟩, ⟨"x", 4, 5⟩] := rfl
  have reached : (Cursor.ofTokens line tokens).Reached c := .next (v := "set") .start rfl
  have failed : (Element.leaf "k" .integer).parser.parse env ⟨c, .empty⟩ =
      .error failure ⟨⟨line, tokens, 2⟩, .empty⟩ := rfl
  obtain ⟨placed, -, elements, -⟩ := (errors_point_into_line default false line).2 tokens c read reached
  exact ⟨reached, failed, placed, elements _ env .empty failure _ failed⟩

end CommandGrammar
