import CommandGrammar.Proofs.Grammar.Behaviour
import CommandGrammar.Proofs.Grammar.Loops

/-!
# Progress of readings

Reading goes on in a line. The tokens before the place where it began stay, the cursor does not go
back before that place, and what stands from there on is lighter than it was or has not changed. A
flag is taken out with what it consumed, and an inline value that stays behind in its place is
lighter than the word that it came from.
-/

namespace CommandGrammar

/-- What some tokens count together. -/
def Token.total (ts : List Token) : Nat :=
  ts.foldr (fun t n => t.value.length + 1 + n) 0

@[simp] theorem Token.total_nil : Token.total [] = 0 := rfl

@[simp] theorem Token.total_cons (t : Token) (ts : List Token) :
    Token.total (t :: ts) = t.value.length + 1 + Token.total ts := rfl

@[simp] theorem Token.total_append (ts us : List Token) :
    Token.total (ts ++ us) = Token.total ts + Token.total us := by
  induction ts with
  | nil => simp
  | cons t ts ih => simp [ih, Nat.add_assoc]

namespace Cursor

theorem weight_eq_total (c : Cursor) : c.weight = Token.total (c.tokens.drop c.consumed) := rfl

/-- A cursor that is not beyond its tokens. -/
def Within (c : Cursor) : Prop :=
  c.consumed ≤ c.tokens.length

theorem within_ofLine {t : Tokenizer} {lenient : Bool} {line : String} {c : Cursor}
    (h : ofLine t lenient line = .ok c) : c.Within := by
  unfold ofLine at h
  cases cut : t.tokenize lenient line with
  | error e => simp [cut, Except.map] at h
  | ok ts =>
      rw [cut] at h
      cases h
      exact Nat.zero_le _

variable {c d e : Cursor} {v : String} {n m : Nat}

/-- What stands from a place on is what stands between it and a later one and what stands from there
on. -/
theorem total_drop_split (ts : List Token) {n m : Nat} (le : n ≤ m) :
    Token.total (ts.drop n) = Token.total ((ts.take m).drop n) + Token.total (ts.drop m) := by
  rw [← Token.total_append, List.drop_take]
  congr 1
  have split := List.take_append_drop (m - n) (ts.drop n)
  rw [List.drop_drop, Nat.add_sub_cancel' le] at split
  exact split.symm

theorem take_of_take {ts us : List Token} (le : n ≤ m) (same : ts.take m = us.take m) :
    ts.take n = us.take n := by
  rw [← Nat.min_eq_left le, ← List.take_take, same, List.take_take]

theorem weight_pos_iff : 0 < c.weight ↔ c.hasNext = true := by
  rw [weight_eq_total]
  by_cases inside : c.consumed < c.tokens.length
  · rw [List.drop_eq_getElem_cons inside, Token.total_cons]
    exact iff_of_true (by omega) (decide_eq_true inside)
  · rw [List.drop_eq_nil_of_le (by omega), Token.total_nil]
    simp [hasNext, inside]

/-! ## Going on in a line -/

/-- One cursor is where another is or behind it, and what stands from there on got lighter or is the
same. -/
structure Onward (c d : Cursor) : Prop where
  before : d.tokens.take c.consumed = c.tokens.take c.consumed
  place : c.consumed ≤ d.consumed
  within : d.Within
  lighter : d.tokens = c.tokens ∨
    Token.total (d.tokens.drop c.consumed) < Token.total (c.tokens.drop c.consumed)

namespace Onward

theorem refl (h : c.Within) : c.Onward c :=
  ⟨rfl, Nat.le_refl _, h, .inl rfl⟩

theorem trans (h : c.Onward d) (h' : d.Onward e) : c.Onward e := by
  have before : e.tokens.take c.consumed = d.tokens.take c.consumed := take_of_take h.place h'.before
  refine ⟨before.trans h.before, Nat.le_trans h.place h'.place, h'.within, ?_⟩
  have lighter : e.tokens = d.tokens ∨
      Token.total (e.tokens.drop c.consumed) < Token.total (d.tokens.drop c.consumed) := by
    refine h'.lighter.imp_right fun less => ?_
    rw [total_drop_split e.tokens h.place, total_drop_split d.tokens h.place, h'.before]
    omega
  rcases lighter with same | less
  · rw [same]
    exact h.lighter
  · rcases h.lighter with same | more
    · rw [← same]
      exact .inr less
    · exact .inr (Nat.lt_trans less more)

theorem weight_le_total (h : c.Onward d) : d.weight ≤ Token.total (d.tokens.drop c.consumed) := by
  rw [weight_eq_total, total_drop_split d.tokens h.place]
  exact Nat.le_add_left _ _

/-- What is left gets lighter, unless the cursor is where it was in the tokens that there were. -/
theorem weight_lt_or_mark (h : c.Onward d) : d.weight < c.weight ∨ d.mark = c.mark := by
  have bound := h.weight_le_total
  rcases h.lighter with same | less
  -- In the same tokens the cursor has not moved, or it has a token behind it that was left before.
  · rcases Nat.eq_or_lt_of_le h.place with still | moved
    · right
      simp [mark, same, still]
    · left
      have inside := h.within
      rw [Within, same] at inside
      rw [weight_eq_total, weight_eq_total, same, total_drop_split c.tokens h.place, List.drop_take]
      obtain ⟨t, ts, taken⟩ :
          ∃ t ts, (c.tokens.drop c.consumed).take (d.consumed - c.consumed) = t :: ts := by
        refine List.exists_cons_of_length_pos ?_
        rw [List.length_take, List.length_drop]
        omega
      rw [taken, Token.total_cons]
      omega
  · exact .inl (Nat.lt_of_le_of_lt bound less)

theorem weight_eq_of_mark (h : d.mark = c.mark) : d.weight = c.weight := by
  simp only [mark, Mark.mk.injEq] at h
  rw [weight_eq_total, weight_eq_total, h.1, h.2]

theorem weight_le (h : c.Onward d) : d.weight ≤ c.weight := by
  rcases h.weight_lt_or_mark with less | same
  · exact Nat.le_of_lt less
  · exact Nat.le_of_eq (weight_eq_of_mark same)

/-- Whether reading has moved can be told from the weight. -/
theorem mark_eq_iff (h : c.Onward d) : d.mark = c.mark ↔ d.weight = c.weight := by
  refine ⟨weight_eq_of_mark, fun same => ?_⟩
  rcases h.weight_lt_or_mark with less | there
  · omega
  · exact there

/-- What is left was left before. -/
theorem hasNext (h : c.Onward d) (more : d.hasNext = true) : c.hasNext = true :=
  weight_pos_iff.mp (Nat.lt_of_lt_of_le (weight_pos_iff.mpr more) h.weight_le)

theorem of_next? (h : c.next? = some (v, d)) : c.Onward d := by
  obtain ⟨rfl, inside⟩ := Cursor.of_next? h
  exact ⟨rfl, Nat.le_succ _, inside, .inl rfl⟩

theorem toEnd (h : c.Within) : c.Onward c.toEnd := by
  refine ⟨rfl, Nat.le_max_left _ _, ?_, .inl rfl⟩
  simp only [Within, Cursor.toEnd] at h ⊢
  omega

/-- A cursor that went on goes back to where it began. -/
theorem rewind (h : c.Onward d) : c.Onward (d.rewind c.mark) := by
  have place := h.place
  have within := h.within
  have back : d.rewind c.mark = { d with consumed := c.consumed } := by
    simp only [Within] at within
    simp [Cursor.rewind, mark, Nat.min_eq_left (Nat.le_trans place within)]
  rw [back]
  exact ⟨h.before, Nat.le_refl _, Nat.le_trans place within, h.lighter⟩

end Onward

/-! ## Flags on the way -/

/-- One cursor is where another is or behind it, and so much more may be left there. -/
structure Beyond (k : Nat) (c d : Cursor) : Prop where
  before : d.tokens.take c.consumed = c.tokens.take c.consumed
  place : c.consumed ≤ d.consumed
  within : d.Within
  weight : d.weight ≤ c.weight + k

theorem Onward.beyond (h : c.Onward d) (k : Nat) : c.Beyond k d :=
  ⟨h.before, h.place, h.within, Nat.le_add_right_of_le h.weight_le⟩

namespace Beyond

variable {j k : Nat}

theorem onward (h : c.Beyond k d) (h' : d.Onward e) : c.Beyond k e :=
  ⟨(take_of_take h.place h'.before).trans h.before, Nat.le_trans h.place h'.place, h'.within,
    Nat.le_trans h'.weight_le h.weight⟩

theorem weaken (h : c.Beyond j d) (le : j ≤ k) : c.Beyond k d :=
  ⟨h.before, h.place, h.within, by have := h.weight; omega⟩

theorem insert (h : c.Within) (v : String) : c.Beyond (v.length + 1) (c.insert v) := by
  have length : (c.tokens.take c.consumed).length = c.consumed := by
    rw [List.length_take, Nat.min_eq_left h]
  refine ⟨?_, Nat.le_refl _, ?_, ?_⟩
  · simp [Cursor.insert, Nat.min_eq_left h]
  · simp only [Within, Cursor.insert, List.length_append, length]
    omega
  · simp only [weight_eq_total, Cursor.insert]
    rw [List.drop_append_of_le_length (by omega), List.drop_of_length_le (by omega)]
    simp [Nat.add_comm]

/-- A flag's word is taken out with what was consumed behind it, and the cursor stands where the
word was. -/
theorem takeOut_eq (read : c.next? = some (v, d)) (h : d.Beyond k e) :
    e.remove d.mark e.mark =
      between e.raw (e.tokens.take c.consumed) (e.tokens.drop e.consumed) := by
  obtain ⟨rfl, -⟩ := Cursor.of_next? read
  have inside := h.within
  have place := h.place
  simp only [Within] at inside place
  have length : c.consumed ≤ e.tokens.length := by omega
  rw [remove_eq (c := e) (n := c.consumed) rfl rfl (by omega) length]
  simp [between, Nat.min_eq_left length]

/-- What is left behind a flag is left where it is taken out. -/
theorem takeOut_remaining (read : c.next? = some (v, d)) (h : d.Beyond k e) :
    (e.remove d.mark e.mark).remaining = e.remaining := by
  rw [takeOut_eq read h, remaining_between]
  simp [remaining, values, List.map_drop]

/-- Where a flag is taken out, less is left than there was, if its word was heavy enough. -/
theorem takeOut (read : c.next? = some (v, d)) (h : d.Beyond k e) (light : k ≤ v.length) :
    c.Onward (e.remove d.mark e.mark) ∧ (e.remove d.mark e.mark).weight < c.weight := by
  have word := weight_of_next? read
  have bound := h.weight
  have lighter : Token.total (e.tokens.drop e.consumed) < c.weight := by
    rw [weight_eq_total e] at bound
    omega
  have place := h.place
  have inside := h.within
  rw [takeOut_eq read h]
  obtain ⟨rfl, -⟩ := Cursor.of_next? read
  simp only [Within] at inside place
  have length : (e.tokens.take c.consumed).length = c.consumed := by
    rw [List.length_take]
    omega
  have rest : (e.tokens.take c.consumed ++ e.tokens.drop e.consumed).drop c.consumed =
      e.tokens.drop e.consumed := by
    rw [List.drop_append_of_le_length (by omega), List.drop_of_length_le (by omega),
      List.nil_append]
  have before : e.tokens.take c.consumed = c.tokens.take c.consumed :=
    take_of_take (Nat.le_succ _) h.before
  refine ⟨⟨?_, ?_, ?_, .inr ?_⟩, ?_⟩
  · simp only [between]
    rw [List.take_append_of_le_length (Nat.le_of_eq length.symm), List.take_take, Nat.min_self,
      before]
  · simp [between, length]
  · simp only [Within, between, List.length_append, length]
    omega
  · simp only [between, rest]
    exact lighter
  · simp only [weight_eq_total, between, length, rest]
    exact lighter

end Beyond

end Cursor

/-! ## Readings that go on -/

namespace Reading

variable {α β : Type} {R S T : Cursor → Cursor → Prop}

/-- Where a reading succeeds, the cursor that it leaves has a relation to the one it began with. -/
def Moves (R : Cursor → Cursor → Prop) (r : Reading α) : Prop :=
  ∀ ⦃s a t⦄, s.cursor.Within → r s = .ok a t → R s.cursor t.cursor

/-- A reading goes on where it succeeds. -/
abbrev Onward (r : Reading α) : Prop :=
  r.Moves Cursor.Onward

theorem Moves.bind {r : Reading α} {f : α → Reading β} (h : r.Moves R)
    (within : ∀ {c d}, R c d → d.Within) (rest : ∀ a, (f a).Moves S)
    (both : ∀ {c d e}, R c d → S d e → T c e) : (r >>= f).Moves T := by
  intro s b u start done
  obtain ⟨a, t, first, second⟩ := bind_eq_ok.mp done
  have moved := h start first
  exact both moved (rest a (within moved) second)

/-- What looks at the state goes on as what it reads there. -/
theorem Moves.get {k : State → Reading β}
    (h : ∀ s, s.cursor.Within → ∀ b t, k s s = .ok b t → R s.cursor t.cursor) :
    ((MonadState.get : Reading State) >>= k).Moves R :=
  fun s b t start done => h s start b t done

/-- A relation that cursors have where nothing is read or one token, and one after the other. -/
structure Course (R : Cursor → Cursor → Prop) : Prop where
  refl {c : Cursor} : c.Within → R c c
  next {c d : Cursor} {v : String} : c.next? = some (v, d) → R c d
  trans {c d e : Cursor} : R c d → R d e → R c e
  within {c d : Cursor} : R c d → d.Within

/-- One that cursors also have at the end of the line, back where they began, and where a flag is
taken out with what was read behind it, or from the value on that its word held. -/
structure Way (R : Cursor → Cursor → Prop) : Prop extends Course R where
  toEnd {c : Cursor} : c.Within → R c c.toEnd
  rewind {c d : Cursor} : R c d → R c (d.rewind c.mark)
  takeOut {c d e : Cursor} {word : String} :
    c.next? = some (word, d) → R d e → R c (e.remove d.mark e.mark)
  takeOutInline {c d e : Cursor} {word v : String} :
    c.next? = some (word, d) → v.length < word.length → R (d.insert v) e →
      R c (e.remove d.mark e.mark)

theorem Moves.reject (message : String) : (Reading.reject message : Reading α).Moves R := by
  rintro s _ _ _ ⟨⟩

namespace Course

variable (course : Course R)

include course

theorem pure (a : α) : (Pure.pure a : Reading α).Moves R := by
  rintro s _ _ start ⟨⟩
  exact course.refl start

theorem store (key : String) (v : Value) : (Reading.store key v).Moves R := by
  rintro s _ _ start ⟨⟩
  exact course.refl start

theorem hasNext : Reading.hasNext.Moves R := by
  rintro s _ _ start ⟨⟩
  exact course.refl start

theorem read : Reading.next.Moves R := by
  intro s v t _ done
  cases there : s.cursor.next? with
  | none => simp [next_of_none there] at done
  | some p =>
      rw [next_of_some there] at done
      cases done
      exact course.next there

theorem bind {r : Reading α} {f : α → Reading β} (h : r.Moves R) (rest : ∀ a, (f a).Moves R) :
    (r >>= f).Moves R :=
  Moves.bind h course.within rest course.trans

/-- A loop of readings moves as each of its turns does. -/
theorem run {turn : State → State ⊕ EStateM.Result ParseError State Unit}
    (go : ∀ ⦃s t⦄, s.cursor.Within → turn s = .inl t → R s.cursor t.cursor)
    (stop : ∀ ⦃s t⦄, s.cursor.Within → turn s = .inr (.ok () t) → R s.cursor t.cursor)
    (steps : Nat) : Moves R (Loop.run turn (.ok ()) steps) := by
  induction steps with
  | zero => exact course.pure ()
  | succ steps ih =>
      intro s _ u start done
      simp only [Loop.run] at done
      cases next : turn s with
      | inl t =>
          rw [next] at done
          have moved := go start next
          exact course.trans moved (ih (course.within moved) done)
      | inr r =>
          rw [next] at done
          dsimp only at done
          subst done
          exact stop start next

end Course

theorem moves_moveCursor {f : Cursor → Cursor} (h : ∀ c : Cursor, c.Within → R c (f c)) :
    (Reading.moveCursor f).Moves R := by
  rintro s _ _ start ⟨⟩
  exact h s.cursor start

/-- What is read instead of a failure begins where that began. -/
theorem Moves.orElse {r : Reading α}
    {f : State → ParseError → State → EStateM.Result ParseError State α} (h : r.Moves R)
    (other : ∀ s e u a t, s.cursor.Within → f s e u = .ok a t → R s.cursor t.cursor) :
    (r.orElse f).Moves R := by
  intro s a t start done
  cases first : r s with
  | ok b u =>
      rw [orElse_of_ok first] at done
      cases done
      exact h start first
  | error e u =>
      rw [orElse_of_error first] at done
      exact other s e u a t start done

/-- Readings go on a way. -/
theorem Onward.way : Way Cursor.Onward where
  refl := .refl
  next := .of_next?
  trans := .trans
  within h := h.within
  toEnd := .toEnd
  rewind := .rewind
  takeOut read h := (Cursor.Beyond.takeOut read (h.beyond 0) (Nat.zero_le _)).1
  takeOutInline read light h :=
    (Cursor.Beyond.takeOut read
      ((Cursor.Beyond.insert (Cursor.Onward.of_next? read).within _).onward h) light).1

end Reading

open Reading

namespace Parser

variable {p : Parser} {ps : List Parser} {env : Env}

section Combinators

variable {R : Cursor → Cursor → Prop} (course : Course R)

include course

theorem moves_readAll (h : ∀ p ∈ ps, (p.parse env).Moves R) : (readAll env ps).Moves R := by
  induction ps with
  | nil => exact course.pure ()
  | cons p ps ih =>
      exact course.bind (h p List.mem_cons_self) fun _ =>
        ih fun q hq => h q (List.mem_cons_of_mem p hq)

theorem moves_readFirst (h : ∀ p ∈ ps, (p.parse env).Moves R) : (readFirst env ps).Moves R := by
  induction ps with
  | nil => exact course.pure ()
  | cons p ps ih =>
      have later := ih fun q hq => h q (List.mem_cons_of_mem p hq)
      refine .orElse (h p List.mem_cons_self) fun s e u a t start done => ?_
      cases ps with
      | nil => cases done
      | cons q ps => exact later start done

theorem moves_optional (h : (p.parse env).Moves R) (default : Option Value) (weak : Bool) :
    ((p.optional default weak).parse env).Moves R := by
  have absent : (p.storeDefault default).Moves R := by
    intro s _ _ start done
    obtain ⟨_, stored⟩ := storeDefault_eq_ok default p s
    cases stored.symm.trans done
    exact course.refl start
  refine course.bind course.hasNext fun more => ?_
  split
  · refine .orElse h fun s e u a t start done => ?_
    split at done
    · exact absent start done
    · cases done
  · exact absent

theorem moves_readTimes (h : (p.parse env).Moves R) (n : Nat) : (p.readTimes env n).Moves R := by
  induction n with
  | zero => exact course.pure ()
  | succ n ih => exact course.bind h fun _ => ih

theorem moves_readWhile (h : (p.parse env).Moves R) (steps : Nat) :
    (p.readWhile env steps).Moves R := by
  rw [readWhile_eq_run]
  refine course.run (fun s t start next => ?_) (fun s t start last => ?_) steps
  · obtain ⟨read, -⟩ := readTurn_inl next
    exact h start read
  · rcases readTurn_inr last with ⟨-, ⟨⟩⟩ | ⟨-, read⟩
    · exact course.refl start
    · exact h start read

theorem moves_onlyOne (h : (p.parse env).Moves R) : (p.onlyOne.parse env).Moves R := by
  refine course.bind h fun _ => ?_
  split
  · refine .get fun s start _ t done => ?_
    split at done
    · cases done
    · exact course.pure () start done
  · exact course.pure ()

end Combinators

/-- A reading that is repeated went on, and something lighter is left. -/
theorem onward_readTurn (h : (p.parse env).Onward) {s t : State} (start : s.cursor.Within)
    (next : p.readTurn env s = .inl t) :
    s.cursor.Onward t.cursor ∧ t.cursor.weight < s.cursor.weight := by
  obtain ⟨read, moved⟩ := readTurn_inl next
  have onward := h start read
  exact ⟨onward, onward.weight_lt_or_mark.resolve_right moved⟩

end Parser

/-! ## Single arguments -/

section Arguments

variable {R : Cursor → Cursor → Prop}

theorem Leaf.moves_readNext (course : Course R) (leaf : Leaf) (env : Env) :
    (leaf.readNext env).Moves R := by
  refine course.bind course.read fun text => ?_
  split
  · exact course.pure _
  · exact .reject _

theorem Leaf.moves_readValue (way : Way R) (leaf : Leaf) (env : Env) :
    (leaf.readValue env).Moves R := by
  have course := way.toCourse
  unfold readValue
  split
  · exact course.pure _
  · refine course.bind course.read fun first => .get fun s start v t done => ?_
    refine course.bind (moves_moveCursor fun _ => way.toEnd) (fun _ => ?_) start done
    split
    · exact course.pure _
    · exact course.pure _
  · refine .orElse (moves_readNext course _ env) ?_
    rintro s e u _ _ start ⟨⟩
    exact course.refl start
  · exact moves_readNext course leaf env

theorem Leaf.moves_parse (way : Way R) (key : String) (leaf : Leaf) (env : Env) :
    ((leaf.parser key).parse env).Moves R :=
  way.bind (moves_readValue way leaf env) fun _ => way.store _ _

variable (course : Course R)

include course

theorem Choice.moves_parse (key : String) (c : Choice) (env : Env) :
    ((c.parser key).parse env).Moves R := by
  refine course.bind course.read fun name => ?_
  split
  · exact course.store _ _
  · exact .reject _

theorem Selection.moves_storeAll (key : String) (vs : List Value) : (storeAll key vs).Moves R := by
  induction vs with
  | nil => exact course.pure ()
  | cons v vs ih => exact course.bind (course.store _ _) fun _ => ih

theorem Selection.moves_parse (key : String) (s : Selection) (env : Env) :
    ((s.parser key).parse env).Moves R := by
  refine course.bind course.read fun text => ?_
  split
  · exact course.store _ _
  · split
    · exact .reject _
    · split
      · exact .reject _
      · exact moves_storeAll course key _

theorem Phrase.moves_readWords (words : List String) : (readWords words).Moves R := by
  induction words with
  | nil => exact course.pure ()
  | cons expected words ih =>
      refine course.bind course.read fun word => ?_
      split
      · exact ih
      · exact .reject _

theorem Phrase.moves_parse (key : Option String) (p : Phrase) (env : Env) :
    ((p.parser key).parse env).Moves R := by
  refine course.bind (moves_readWords course p.words) fun _ => ?_
  split
  · exact course.store _ _
  · exact course.pure ()

end Arguments

/-! ## Flags -/

namespace Reading

variable {α : Type}

/-- A reading never tells that something is left. -/
def Affirms (r : Reading Bool) : Prop :=
  ∀ ⦃s taken t⦄, r s = .ok taken t → taken = true

/-- A reading that tells that something is left has done nothing. -/
def Still (r : Reading Bool) : Prop :=
  ∀ ⦃s t⦄, r s = .ok false t → t = s

theorem Affirms.pure : (Pure.pure true : Reading Bool).Affirms := by
  rintro _ _ _ ⟨⟩
  rfl

theorem Affirms.reject (message : String) : (Reading.reject message : Reading Bool).Affirms := by
  rintro _ _ _ ⟨⟩

theorem Affirms.bind {r : Reading α} {f : α → Reading Bool} (h : ∀ a, (f a).Affirms) :
    (r >>= f).Affirms := by
  intro s taken t done
  obtain ⟨a, u, _, rest⟩ := bind_eq_ok.mp done
  exact h a rest

end Reading

namespace FlagTable

/-- A flag whose word is left to the arguments. -/
def leavesFlag (table : FlagTable) : List Char → Bool
  | '-' :: long => (table.long? (Text.lowercase (FlagScanner.splitInline long).1)).isNone &&
      table.unknownLong == .ignore
  | c :: _ => (table.short? c).isNone && table.unknownShort == .ignore
  | [] => false

/-- A word that the scan leaves to the arguments: one that is no flag, or a flag that is not
declared, where such are left. -/
def leaves (table : FlagTable) (word : String) : Bool :=
  match word.toList with
  | '-' :: flag => table.leavesFlag flag
  | _ => true

end FlagTable

namespace FlagScanner

/-- An inline value is shorter than its flag. -/
theorem length_lt_of_splitInline {flag : List Char} {name v : String}
    (h : splitInline flag = (name, some v)) : v.length < flag.length := by
  unfold splitInline at h
  split at h
  · rename_i left right cut
    obtain ⟨rfl, -⟩ := Text.splitOnce_eq_some_iff.mp cut
    cases h
    simp
    omega
  · cases h

variable {f : FlagScanner} {env : Env}

/-- Letters behind the first leave nothing to the arguments. -/
theorem affirms_readShort (letters : List Char) : (f.readShort env false letters).Affirms := by
  induction letters with
  | nil => exact .pure
  | cons c letters ih =>
      unfold readShort
      split
      · exact .bind fun _ => ih
      · dsimp only
        split
        · exact .reject _
        · exact .reject _
        · exact .bind fun _ => ih
        · exact .bind fun _ => .bind fun _ => ih

theorem leaves_of_flag {word : String} {flag : List Char} (letters : word.toList = '-' :: flag) :
    f.table.leaves word = f.table.leavesFlag flag := by
  simp [FlagTable.leaves, letters]

theorem leaves_of_other {word : String} (other : ∀ flag, word.toList = '-' :: flag → False) :
    f.table.leaves word = true := by
  unfold FlagTable.leaves
  split
  · rename_i flag letters
    exact (other flag letters).elim
  · rfl

theorem readFlag_of_short {c : Char} {rest : List Char} (other : c ≠ '-') :
    f.readFlag env (c :: rest) = f.readShort env true (c :: rest) := by
  unfold readFlag
  split
  · rename_i long letters
    exact (other (List.cons.inj letters).1).elim
  · rfl

/-- A flag that stays is not read. -/
theorem readFlag_of_leaves {flag : List Char} (leaves : f.table.leavesFlag flag = true) (s : State) :
    f.readFlag env flag s = .ok false s := by
  unfold FlagTable.leavesFlag at leaves
  split at leaves
  · simp only [Bool.and_eq_true, Option.isNone_iff_eq_none, beq_iff_eq] at leaves
    simp [readFlag, readLong, leaves.1, leaves.2]
  · rename_i hyphen
    simp only [Bool.and_eq_true, Option.isNone_iff_eq_none, beq_iff_eq] at leaves
    rw [readFlag_of_short hyphen]
    simp [readShort, leaves.1, leaves.2]
  · cases leaves

/-- Any other is taken out. -/
theorem affirms_readFlag {flag : List Char} (taken : f.table.leavesFlag flag = false) :
    (f.readFlag env flag).Affirms := by
  unfold FlagTable.leavesFlag at taken
  split at taken
  · rename_i long
    change (f.readLong env long).Affirms
    unfold readLong
    revert taken
    generalize splitInline long = cut
    obtain ⟨name, inline⟩ := cut
    intro taken
    dsimp only
    split
    · cases inline with
      | none => exact .bind fun _ => .pure
      | some v => exact .bind fun _ => .bind fun _ => .pure
    · rename_i unknown
      split
      · exact .reject _
      · rename_i ignored
        simp [unknown, ignored] at taken
      · exact .bind fun _ => .pure
      · cases inline with
        | some v => exact .bind fun _ => .pure
        | none => exact .bind fun _ => .bind fun _ => .pure
  · rename_i c rest hyphen
    rw [readFlag_of_short hyphen, readShort]
    split
    · exact .bind fun _ => affirms_readShort rest
    · rename_i unknown
      dsimp only
      split
      · exact .reject _
      · rename_i ignored
        simp [unknown, ignored] at taken
      · exact .bind fun _ => affirms_readShort rest
      · exact .bind fun _ => .bind fun _ => affirms_readShort rest
  · exact .pure

/-- Where a flag is left to the arguments, nothing has been read. -/
theorem still_readFlag (flag : List Char) : (f.readFlag env flag).Still := by
  intro s t read
  cases leaves : f.table.leavesFlag flag with
  | true =>
      cases (readFlag_of_leaves leaves s).symm.trans read
      rfl
  | false => cases affirms_readFlag leaves read

/-- A turn that goes on passes a word that stays, or takes out a flag with what it consumed. -/
theorem scanTurn_inl {s t : State} (next : f.scanTurn env s = .inl t) :
    ∃ word c, s.cursor.next? = some (word, c) ∧
      ((f.table.leaves word = true ∧ t = { s with cursor := c }) ∨
        ∃ flag u, word.toList = '-' :: flag ∧
          f.readFlag env flag { s with cursor := c } = .ok true u ∧
          t = { u with cursor := u.cursor.remove c.mark u.cursor.mark }) := by
  unfold scanTurn at next
  cases there : s.cursor.next? with
  | none => simp [there] at next
  | some pair =>
      obtain ⟨word, c⟩ := pair
      refine ⟨word, c, rfl, ?_⟩
      simp only [there] at next
      obtain ⟨flag, letters⟩ | other := flag_or_other word
      · simp only [letters] at next
        cases read : f.readFlag env flag { s with cursor := c } with
        | error e u => simp [read] at next
        | ok taken u =>
            simp only [read, Sum.inl.injEq] at next
            subst next
            cases taken with
            | true => exact .inr ⟨flag, u, letters, read, rfl⟩
            | false =>
                obtain rfl := still_readFlag flag read
                refine .inl ⟨?_, rfl⟩
                rw [leaves_of_flag letters]
                cases leaves : f.table.leavesFlag flag with
                | true => rfl
                | false => cases affirms_readFlag leaves read
      · split at next
        · rename_i flag letters
          exact (other flag letters).elim
        · split at next
          · cases next
          · cases next
            exact .inl ⟨leaves_of_other other, rfl⟩

/-- The last turn finds no word, or one that stays. -/
theorem scanTurn_inr {s t : State} (last : f.scanTurn env s = .inr (.ok () t)) :
    (s.cursor.next? = none ∧ t = s) ∨
      ∃ word c, s.cursor.next? = some (word, c) ∧ f.table.leaves word = true ∧
        t = { s with cursor := c } := by
  unfold scanTurn at last
  cases there : s.cursor.next? with
  | none =>
      simp only [there] at last
      cases last
      exact .inl ⟨rfl, rfl⟩
  | some pair =>
      obtain ⟨word, c⟩ := pair
      simp only [there] at last
      split at last
      · split at last <;> cases last
      · rename_i other
        split at last
        · cases last
          exact .inr ⟨word, c, rfl, leaves_of_other fun flag letters => other flag letters, rfl⟩
        · cases last

/-- A turn that fails has come to a flag that fails. -/
theorem scanTurn_error {s t : State} {e : ParseError}
    (last : f.scanTurn env s = .inr (.error e t)) :
    ∃ word c flag, s.cursor.next? = some (word, c) ∧ word.toList = '-' :: flag ∧
      f.readFlag env flag { s with cursor := c } = .error e t := by
  unfold scanTurn at last
  cases there : s.cursor.next? with
  | none => simp [there] at last
  | some pair =>
      obtain ⟨word, c⟩ := pair
      simp only [there] at last
      split at last
      · rename_i flag letters
        cases read : f.readFlag env flag { s with cursor := c } with
        | ok taken u => simp [read] at last
        | error e' u =>
            simp only [read] at last
            cases last
            exact ⟨word, c, flag, rfl, letters, read⟩
      · split at last <;> cases last

/-- Where the next word stays, the scan goes past it or ends behind it. -/
theorem scanTurn_of_leaves (env : Env) {s : State} {word : String} {c : Cursor}
    (next : s.cursor.next? = some (word, c)) (leaves : f.table.leaves word = true) :
    f.scanTurn env s = .inl { s with cursor := c } ∨
      f.scanTurn env s = .inr (.ok () { s with cursor := c }) := by
  unfold scanTurn
  simp only [next]
  obtain ⟨flag, letters⟩ | other := flag_or_other word
  · rw [leaves_of_flag letters] at leaves
    left
    simp [letters, readFlag_of_leaves leaves]
  · split
    · rename_i flag letters
      exact (other flag letters).elim
    · split
      · exact .inr rfl
      · exact .inl rfl

section Moves

variable {R : Cursor → Cursor → Prop}

/-- The letters of a group move as the values of flags do. -/
theorem moves_readShort (course : Course R) (values : ∀ index, ((f.value index).parse env).Moves R)
    (first : Bool) (letters : List Char) : (f.readShort env first letters).Moves R := by
  induction letters generalizing first with
  | nil => exact course.pure true
  | cons c letters ih =>
      unfold readShort
      split
      · exact course.bind (values _) fun _ => ih false
      · dsimp only
        split
        · exact .reject _
        · split
          · exact course.pure false
          · exact .reject _
        · exact course.bind (course.store _ _) fun _ => ih false
        · exact course.bind course.read fun v => course.bind (course.store _ _) fun _ => ih false

/-- So do flags, unless the element of one reads a value in its word. -/
theorem moves_readFlag (course : Course R) (values : ∀ index, ((f.value index).parse env).Moves R)
    {flag : List Char} {s t : State} {taken : Bool} (start : s.cursor.Within)
    (read : f.readFlag env flag s = .ok taken t) :
    R s.cursor t.cursor ∨
      ∃ long name v index, flag = '-' :: long ∧ splitInline long = (name, some v) ∧
        f.table.long? (Text.lowercase name) = some index ∧
        (f.value index).parse env { s with cursor := s.cursor.insert v } = .ok () t := by
  unfold readFlag at read
  split at read
  · rename_i long
    unfold readLong at read
    cases cut : splitInline long with
    | mk name inline =>
        simp only [cut] at read
        cases known : f.table.long? (Text.lowercase name) with
        | some index =>
            simp only [known] at read
            cases inline with
            | none => exact .inl (course.bind (values index) (fun _ => course.pure true) start read)
            | some v =>
                obtain ⟨_, _, ⟨⟩, read⟩ := bind_eq_ok.mp read
                obtain ⟨_, _, parsed, ⟨⟩⟩ := bind_eq_ok.mp read
                exact .inr ⟨long, name, v, index, rfl, cut, known, parsed⟩
        | none =>
            simp only [known] at read
            left
            cases unknown : f.table.unknownLong with
            | error =>
                simp only [unknown] at read
                exact Moves.reject (R := R) _ start read
            | ignore =>
                simp only [unknown] at read
                exact course.pure false start read
            | acceptNonValue =>
                simp only [unknown] at read
                exact course.bind (course.store _ _) (fun _ => course.pure true) start read
            | acceptValue =>
                simp only [unknown] at read
                cases inline with
                | some v => exact course.bind (course.store _ _) (fun _ => course.pure true) start read
                | none =>
                    exact course.bind course.read
                      (fun v => course.bind (course.store _ _) fun _ => course.pure true) start read
  · exact .inl (moves_readShort course values true _ start read)

variable (way : Way R) (values : ∀ index, ((f.value index).parse env).Moves R)

include way values

theorem moves_scanTurn {s t : State} (turn : f.scanTurn env s = .inl t) : R s.cursor t.cursor := by
  obtain ⟨word, c, next, ⟨-, rfl⟩ | ⟨flag, u, letters, read, rfl⟩⟩ := scanTurn_inl turn
  · exact way.next next
  · have start := way.within (way.next next)
    rcases moves_readFlag way.toCourse values start read with
      moved | ⟨long, name, v, index, rfl, inline, -, parsed⟩
    · exact way.takeOut next moved
    · -- The value is put before what is left, and is shorter than the flag's word, which also had the
      -- name and the sign between them.
      have put : (c.insert v).Within := (Cursor.Beyond.insert start v).within
      have light : v.length < word.length := by
        have shorter := length_lt_of_splitInline inline
        rw [← String.length_toList (s := word), letters, List.length_cons, List.length_cons]
        omega
      exact way.takeOutInline next light (values index put parsed)

theorem moves_scan (steps : Nat) : (f.scan env steps).Moves R := by
  rw [scan_eq_run]
  refine way.run (fun s t _ next => moves_scanTurn way values next) (fun s t start last => ?_) steps
  rcases scanTurn_inr last with ⟨-, rfl⟩ | ⟨_, c, next, -, rfl⟩
  · exact way.refl start
  · exact way.next next

theorem moves_read {body : Parser} (rest : (body.parse env).Moves R) :
    ((Parser.flagged f body).parse env).Moves R := by
  intro s _ t start done
  change f.read body env s = _ at done
  unfold read at done
  obtain ⟨_, u, scanned, done⟩ := bind_eq_ok.mp ((bind_of_ok (get_apply s) _).symm.trans done)
  have back := way.rewind (moves_scan way values _ start scanned)
  exact way.trans back (rest (way.within back) done)

end Moves

variable (values : ∀ index, ((f.value index).parse env).Onward)

include values

theorem onward_readShort (first : Bool) (letters : List Char) :
    (f.readShort env first letters).Onward :=
  moves_readShort Onward.way.toCourse values first letters

/-- The only token that a flag leaves behind is its inline value. -/
theorem beyond_readFlag (flag : List Char) :
    (f.readFlag env flag).Moves (Cursor.Beyond flag.length) := by
  intro s taken t start read
  rcases moves_readFlag Onward.way.toCourse values start read with
    moved | ⟨long, name, v, index, rfl, inline, -, parsed⟩
  · exact moved.beyond _
  · have put := Cursor.Beyond.insert start v
    have light := length_lt_of_splitInline inline
    refine (put.onward (values index put.within parsed)).weaken ?_
    rw [List.length_cons]
    omega

/-- Each word of a scan that goes on leaves something lighter. -/
theorem onward_scanTurn {s t : State} (turn : f.scanTurn env s = .inl t) :
    s.cursor.Onward t.cursor ∧ t.cursor.weight < s.cursor.weight := by
  obtain ⟨word, c, next, ⟨-, rfl⟩ | ⟨flag, u, letters, read, rfl⟩⟩ := scanTurn_inl turn
  · refine ⟨.of_next? next, ?_⟩
    have lighter := Cursor.weight_of_next? next
    dsimp only
    omega
  · have moved := beyond_readFlag values flag (Cursor.Onward.of_next? next).within read
    have length : flag.length ≤ word.length := by
      rw [← String.length_toList, letters]
      exact Nat.le_succ _
    exact moved.takeOut next length

theorem onward_scan (steps : Nat) : (f.scan env steps).Onward :=
  moves_scan Onward.way values steps

end FlagScanner

/-! ## Subcommands -/

section Nodes

variable {R : Cursor → Cursor → Prop} (way : Way R)

include way

theorem Specified.moves_populate {s : Specified} {env : Env} (h : (s.grammar.parse env).Moves R) :
    (s.populate env).Moves R := by
  have course := way.toCourse
  refine course.bind h fun _ => course.bind course.hasNext fun more => ?_
  split
  · exact course.bind course.read fun _ => .reject _
  · exact course.pure ()

namespace Node

variable {n : Node} {env : Env}

theorem moves_restOfLine : restOfLine.Moves R := by
  have course := way.toCourse
  refine course.bind course.hasNext fun more => ?_
  split
  · refine course.bind course.read fun v => .get fun s start v t done => ?_
    exact course.bind (moves_moveCursor fun _ => way.toEnd) (fun _ => course.pure _) start done
  · exact course.pure ""

theorem moves_populate {c : Command}
    (program : ∀ p, c.program = some p → (p.populate env).Moves R) :
    (n.populate c env).Moves R := by
  unfold populate
  split
  · rename_i p there
    exact program p there
  · exact way.bind (moves_restOfLine way) fun _ => way.store _ _

variable (own : ∀ p, n.fallback = some p → (p.parse env).Moves R)
  (commands : ∀ typed m, n.commands.get? (some env.source) typed = some m →
    ∀ p, m.callable.program = some p → (p.populate env).Moves R)

include own commands

theorem moves_readNamed : (n.readNamed env).Moves R := by
  intro s _ t start done
  unfold readNamed at done
  cases there : s.cursor.next? with
  | none => simp [there] at done
  | some pair =>
      obtain ⟨typed, c⟩ := pair
      have first := way.next there
      simp only [there] at done
      cases named : n.commands.get? (some env.source) typed with
      | none =>
          simp only [named] at done
          split at done
          · rename_i p _ fallback
            exact own p fallback start done
          · cases done
      | some m =>
          simp only [named] at done
          have below := moves_populate (n := n) way (commands typed m named)
          cases arguments : n.populate m.callable env { s with cursor := c } with
          | ok _ u =>
              simp only [arguments, store_apply] at done
              cases done
              exact way.trans first (below (way.within first) arguments)
          | error e u =>
              simp only [arguments, recover] at done
              split at done
              · rename_i p _ fallback
                exact own p fallback start done
              · cases done

theorem moves_read : (n.read env).Moves R := by
  refine way.bind way.hasNext fun more => ?_
  split
  · split
    · rename_i p there
      exact own p there
    · exact way.pure ()
  · exact moves_readNamed way own commands

end Node

/-! ## Whole grammars -/

namespace Element

variable {env : Env}

theorem moves_child {n : Subcommands}
    (h : ∀ e ∈ (Element.child n).parts, (e.parser.parse env).Moves R) :
    ((Element.child n).parser.parse env).Moves R := by
  refine Node.moves_read way (Subcommands.forall_fallback (P := fun p => (p.parse env).Moves R) h) ?_
  intro typed m named p program
  obtain ⟨s, rfl, -, inNode⟩ := Subcommands.program_of_get? named program
  refine Specified.moves_populate way (Spec.forall_grammar (P := fun p => (p.parse env).Moves R) ?_ ?_)
  · exact fun ps => Parser.moves_readAll way.toCourse
  · exact fun e he => h e (inNode e he)

/-- Whatever the element, reading goes any way that single readings and scans go. -/
theorem moves (e : Element) (env : Env) : (e.parser.parse env).Moves R := by
  have course := way.toCourse
  induction e using induction_parts with
  | step e ih =>
      have all : ∀ {es : List Element}, (∀ e ∈ es, (e.parser.parse env).Moves R) →
          ∀ p ∈ Element.parsers es, (p.parse env).Moves R :=
        forall_parsers (P := fun p => (p.parse env).Moves R)
      cases e with
      | sequence items => exact Parser.moves_readAll course (all ih)
      | firstOf items => exact Parser.moves_readFirst course (all ih)
      | optional item default weak =>
          exact Parser.moves_optional course (ih item List.mem_cons_self) default weak
      | repeated item times => exact Parser.moves_readTimes course (ih item List.mem_cons_self) times
      | allOf item =>
          exact fun s _ _ start done =>
            Parser.moves_readWhile course (ih item List.mem_cons_self) _ start done
      | onlyOne item => exact Parser.moves_onlyOne course (ih item List.mem_cons_self)
      | choice key c => exact c.moves_parse course key env
      | selection key s => exact s.moves_parse course key env
      | phrase key p => exact p.moves_parse course key env
      | leaf key leaf => exact leaf.moves_parse way key env
      | flags table values body =>
          have own := table.forall_value (P := fun p => (p.parse env).Moves R) (course.pure ())
            fun e he => ih e (List.mem_cons_of_mem body he)
          exact FlagScanner.moves_read way own (ih body List.mem_cons_self)
      | suggesting item _ _ | constrained item _ => exact ih item List.mem_cons_self
      | child n => exact moves_child way ih

end Element

end Nodes

namespace Element

/-- Reading goes on in the line, whatever the element. -/
theorem onward (e : Element) (env : Env) : (e.parser.parse env).Onward :=
  e.moves Onward.way env

theorem onward_value (table : FlagTable) (values : List Element) (env : Env) (index : Nat) :
    (((table.scanner values).value index).parse env).Onward :=
  table.forall_value (P := fun p => (p.parse env).Onward) (Onward.way.pure ())
    (fun e _ => e.onward env) index

end Element

end CommandGrammar
