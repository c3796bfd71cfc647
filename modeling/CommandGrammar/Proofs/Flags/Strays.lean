import CommandGrammar.Proofs.Grammar.Guarded
import CommandGrammar.Proofs.Grammar.Termination

/-!
# What flags leave to the arguments

The scan of flags puts tokens in and takes tokens out. What is in the line stays in its order, and
only a value that was written in the word of a long flag can be left behind: it is where the element
of the flag does not consume it and the scan does not take it for a flag. The arguments then read a
token that nobody typed.
-/

namespace CommandGrammar

open Reading

/-- A token that stands for a part of the line. One that was put in has no length there. -/
def Token.typed (t : Token) : Bool :=
  t.start < t.stop

namespace Cursor

variable {c d e : Cursor} {v : String} {k : Nat}

/-- The tokens that are left. -/
def left (c : Cursor) : List Token :=
  c.tokens.drop c.consumed

/-- The tokens from a place on that are consumed. -/
def passed (c : Cursor) (k : Nat) : List Token :=
  (c.tokens.take c.consumed).drop k

/-- The token that is put in for a value. -/
def fresh (c : Cursor) (v : String) : Token :=
  ⟨v, c.current?.elim 0 (·.stop), c.current?.elim 0 (·.stop)⟩

theorem drop_eq_passed (place : k ≤ c.consumed) : c.tokens.drop k = c.passed k ++ c.left := by
  have split := List.take_append_drop (c.consumed - k) (c.tokens.drop k)
  rw [List.drop_drop, Nat.add_sub_cancel' place] at split
  rw [passed, left, List.drop_take]
  exact split.symm

theorem left_eq_nil_iff : c.left = [] ↔ c.next? = none := by
  rw [next?_eq_none_iff, remaining, values, ← List.map_drop, List.map_eq_nil_iff, left]

theorem left_of_next? (h : c.next? = some (v, d)) :
    ∃ t, t.value = v ∧ c.left = t :: d.left ∧ (k ≤ c.consumed → d.passed k = c.passed k ++ [t]) := by
  obtain ⟨u, peeked, same⟩ := Option.map_eq_some_iff.mp h
  obtain rfl := (Prod.mk.inj same).1
  obtain ⟨t, there, rfl⟩ := Option.map_eq_some_iff.mp peeked
  obtain ⟨rfl, inside⟩ := of_next? h
  obtain rfl : c.tokens[c.consumed] = t := by
    rw [List.getElem?_eq_getElem inside] at there
    exact Option.some.inj there
  refine ⟨_, rfl, List.drop_eq_getElem_cons inside, fun place => ?_⟩
  have length : k ≤ (c.tokens.take c.consumed).length := by
    rw [List.length_take]
    omega
  simp only [passed]
  rw [List.take_succ_eq_append_getElem inside, List.drop_append_of_le_length length]

theorem left_insert (h : c.Within) (v : String) : (c.insert v).left = c.fresh v :: c.left := by
  have length : (c.tokens.take c.consumed).length = c.consumed := by
    rw [List.length_take, Nat.min_eq_left h]
  simp only [left, insert, fresh]
  rw [List.drop_append_of_le_length (Nat.le_of_eq length.symm), List.drop_of_length_le
    (Nat.le_of_eq length), List.nil_append]

theorem typed_insert (c : Cursor) (v : String) :
    (c.insert v).tokens.filter Token.typed = c.tokens.filter Token.typed := by
  simp only [insert]
  rw [List.filter_append, List.filter_cons_of_neg (by simp [Token.typed]), ← List.filter_append,
    List.take_append_drop]

/-- From where a cursor began to go on, the tokens are left when it goes back. -/
theorem left_rewind (h : c.Onward d) : (d.rewind c.mark).left = d.tokens.drop c.consumed := by
  have inside : c.consumed ≤ d.tokens.length := Nat.le_trans h.place h.within
  simp [left, rewind, mark, Nat.min_eq_left inside]

/-- A flag is taken out behind what was passed before it, and what it left is left. -/
theorem takeOut_left (read : c.next? = some (v, d)) (h : d.Beyond k e) :
    (e.remove d.mark e.mark).left = e.left ∧
      ∀ n, (e.remove d.mark e.mark).passed n = c.passed n := by
  have before := h.before
  have place := h.place
  have inside := h.within
  rw [Beyond.takeOut_eq read h]
  obtain ⟨rfl, -⟩ := of_next? read
  simp only [Within] at before place inside
  refine ⟨by simp [left, between], fun n => ?_⟩
  have same := take_of_take (Nat.le_succ c.consumed) before
  simp [passed, between, same]

/-- One cursor is where another is or behind it, and all that is left there was left before. -/
structure Trims (c d : Cursor) : Prop extends c.Onward d where
  fewer : d.left.Sublist c.left

namespace Trims

theorem trans (h : c.Trims d) (h' : d.Trims e) : c.Trims e :=
  ⟨h.toOnward.trans h'.toOnward, h'.fewer.trans h.fewer⟩

/-- A cursor went on in tokens that did not change. -/
theorem of_tokens (h : c.Onward d) (same : d.tokens = c.tokens) : c.Trims d := by
  refine ⟨h, ?_⟩
  unfold left
  rw [same]
  exact List.drop_sublist_drop_left c.tokens h.place

theorem refl (h : c.Within) : c.Trims c :=
  .of_tokens (.refl h) rfl

theorem of_next? (h : c.next? = some (v, d)) : c.Trims d :=
  .of_tokens (.of_next? h) (tokens_of_next? h)

end Trims

end Cursor

/-! ## Readings that leave only what they found -/

/-- Where a reading succeeds, all that it leaves was left to it. -/
abbrev Reading.Trims {α : Type} (r : Reading α) : Prop :=
  r.Moves Cursor.Trims

theorem Reading.Trims.course : Reading.Course Cursor.Trims :=
  ⟨.refl, .of_next?, .trans, fun h => h.within⟩

/-- Tokens are only read, not put in or taken out. -/
def Guard.reads (ts : List Token) : Guard where
  Safe s := s.cursor.tokens = ts
  Word _ := True
  Key _ := True
  Tells _ := True
  Edits := False
  next safe read := by
    obtain ⟨rfl, -⟩ := Cursor.of_next? read
    exact ⟨safe, trivial⟩
  toEnd safe := safe
  insert edits := edits.elim
  rewind _ safe := safe
  remove edits := edits.elim
  store safe _ := safe
  error _ _ := trivial
  withUsage _ _ := trivial
  inline _ _ _ := trivial

/-- Whatever is put in and taken out, no token of the line is new or out of its order. -/
def Guard.typed (ts : List Token) : Guard where
  Safe s := (s.cursor.tokens.filter Token.typed).Sublist ts
  Word _ := True
  Key _ := True
  Tells _ := True
  Edits := True
  next safe read := by
    obtain ⟨rfl, -⟩ := Cursor.of_next? read
    exact ⟨safe, trivial⟩
  toEnd safe := safe
  insert _ safe _ := by
    rw [Cursor.typed_insert]
    exact safe
  rewind _ safe := safe
  remove _ _ _ safe := ((Cursor.tokens_remove _ _ _).filter _).trans safe
  store safe _ := safe
  error _ _ := trivial
  withUsage _ _ := trivial
  inline _ _ _ := trivial

namespace Element

/-- Wherever the element reads, all that it leaves was left to it. -/
def Clean (env : Env) (e : Element) : Prop :=
  (e.parser.parse env).Trims

/-- An element without flags in it puts nothing in. -/
theorem clean_of_every {e : Element} (env : Env) (h : e.Every fun d => d.edits = false) :
    e.Clean env := by
  intro s _ t start done
  have covers : (Guard.reads s.cursor.tokens).Covers e :=
    h.imp fun d plain => ⟨fun _ _ => trivial, fun edits => by simp [plain] at edits⟩
  exact .of_tokens (e.onward env start done) ((Element.guarded env covers).ok rfl done)

end Element

/-! ## Values that stay -/

namespace FlagScanner

variable {f : FlagScanner} {env : Env}

/-- The scan is at a long flag whose element leaves the value in its word as the next token. -/
def Unread (f : FlagScanner) (env : Env) (s : State) (v : String) : Prop :=
  ∃ word c flag name index t, s.cursor.next? = some (word, c) ∧ word.toList = '-' :: '-' :: flag ∧
    splitInline flag = (name, some v) ∧ f.table.long? (Text.lowercase name) = some index ∧
    (f.value index).parse env { s with cursor := c.insert v } = .ok () t ∧
    t.cursor.left.head? = some (c.fresh v)

theorem readFlag_inline {flag : List Char} {name v : String} {index : Nat} {s t : State}
    (cut : splitInline flag = (name, some v))
    (known : f.table.long? (Text.lowercase name) = some index)
    (read : (f.value index).parse env { s with cursor := s.cursor.insert v } = .ok () t) :
    f.readFlag env ('-' :: flag) s = .ok true t := by
  simp only [readFlag, readLong, cut, known]
  rw [bind_of_ok (moveCursor_apply _ _), bind_of_ok read]
  rfl

/-! ## What is kept along the scan -/

/-- What the scan passed since it began at a place, and what is left, were there when it began, but
for an inline value that is the next word and will be taken for a flag. -/
def Kept (f : FlagScanner) (k : Nat) (entry : List Token) (c : Cursor) : Prop :=
  ∃ rest, (c.passed k ++ rest).Sublist entry ∧
    (c.left = rest ∨ ∃ x, c.left = x :: rest ∧ f.table.leaves x.value = false)

variable {k : Nat} {entry : List Token} {c d : Cursor} {word : String}

/-- Behind the next word all is kept, and so is that word if it stays. -/
theorem Kept.next (h : f.Kept k entry c) (place : k ≤ c.consumed) (next : c.next? = some (word, d)) :
    (c.passed k ++ d.left).Sublist entry ∧
      (f.table.leaves word = true → (d.passed k ++ d.left).Sublist entry) := by
  obtain ⟨x, rfl, left, passed⟩ := Cursor.left_of_next? (k := k) next
  rw [passed place]
  obtain ⟨rest, kept, here | ⟨y, here, taken⟩⟩ := h
  · obtain rfl := here.symm.trans left
    have less : (c.passed k ++ d.left).Sublist (c.passed k ++ x :: d.left) :=
      (List.Sublist.refl _).append (List.sublist_cons_self _ _)
    refine ⟨less.trans kept, fun _ => ?_⟩
    rw [List.append_assoc]
    exact kept
  · obtain ⟨rfl, rfl⟩ := List.cons.inj (here.symm.trans left)
    refine ⟨kept, fun stays => ?_⟩
    rw [taken] at stays
    cases stays

theorem Kept.of_stays (h : f.Kept k entry c) (place : k ≤ c.consumed)
    (next : c.next? = some (word, d)) (stays : f.table.leaves word = true) : f.Kept k entry d :=
  ⟨d.left, (h.next place next).2 stays, .inl rfl⟩

/-- A flag that is taken out keeps what there was, if its element consumes an inline value or the
scan will. -/
theorem Kept.of_taken (values : ∀ index, ((f.value index).parse env).Trims) {s u : State}
    (h : f.Kept k entry s.cursor) (place : k ≤ s.cursor.consumed)
    (next : s.cursor.next? = some (word, c)) {flag : List Char} (letters : word.toList = '-' :: flag)
    (read : f.readFlag env flag { s with cursor := c } = .ok true u)
    (clean : ∀ v, f.Unread env s v → f.table.leaves v = false) :
    f.Kept k entry (u.cursor.remove c.mark u.cursor.mark) := by
  have within := (Cursor.Onward.of_next? next).within
  have kept := (h.next place next).1
  have moved := beyond_readFlag (fun index => fun _ _ _ start done =>
    (values index start done).toOnward) flag within read
  obtain ⟨left, passed⟩ := Cursor.takeOut_left next moved
  have less : ∀ {rest : List Token}, rest.Sublist c.left →
      (s.cursor.passed k ++ rest).Sublist entry :=
    fun sub => ((List.Sublist.refl _).append sub).trans kept
  unfold Kept
  rw [left, passed]
  rcases moves_readFlag Reading.Trims.course values within read with trimmed |
    ⟨long, name, v, index, rfl, cut, known, parsed⟩
  · exact ⟨_, less trimmed.fewer, .inl rfl⟩
  · have fewer := (values index (Cursor.Beyond.insert within v).within parsed).fewer
    rw [Cursor.left_insert within] at fewer
    -- The value is still there, or what is left is left of what stood behind the flag.
    by_cases unread : u.cursor.left.head? = some (c.fresh v)
    · obtain ⟨rest, there⟩ := List.head?_eq_some_iff.mp unread
      rw [there] at fewer ⊢
      refine ⟨rest, less (List.cons_sublist_cons.mp fewer), .inr ⟨c.fresh v, rfl, ?_⟩⟩
      exact clean v ⟨word, c, long, name, index, u, next, letters, cut, known, parsed, unread⟩
    · refine ⟨_, less ?_, .inl rfl⟩
      rcases List.sublist_cons_iff.mp fewer with sub | ⟨rest, there, -⟩
      · exact sub
      · simp [there] at unread

/-! ## Whole scans -/

/-- On the way of a scan no value in the word of a flag is left unread, but for one that is taken
for a flag next. -/
def Tidy (f : FlagScanner) (env : Env) (s : State) : Prop :=
  ∀ u v, Loop.Passes (f.scanTurn env) s u → f.Unread env u v → f.table.leaves v = false

theorem Tidy.next {s t : State} (h : f.Tidy env s) (next : f.scanTurn env s = .inl t) :
    f.Tidy env t :=
  fun u v way unread => h u v (.go next way) unread

theorem Kept.ends (values : ∀ index, ((f.value index).parse env).Trims) {s t : State}
    (h : f.Kept k entry s.cursor) (place : k ≤ s.cursor.consumed) (tidy : f.Tidy env s)
    (ends : Loop.Ends (f.scanTurn env) s (.ok () t)) : (t.cursor.tokens.drop k).Sublist entry := by
  generalize outcome : (EStateM.Result.ok () t : EStateM.Result ParseError State Unit) = r at ends
  induction ends with
  | stop last =>
      subst outcome
      rcases scanTurn_inr last with ⟨none, rfl⟩ | ⟨word, c, next, stays, rfl⟩
      · obtain ⟨rest, kept, all⟩ := h
        rw [Cursor.drop_eq_passed place, Cursor.left_eq_nil_iff.mpr none, List.append_nil]
        exact (List.sublist_append_left _ _).trans kept
      · rw [Cursor.drop_eq_passed (Nat.le_trans place (Cursor.Onward.of_next? next).place)]
        exact (h.next place next).2 stays
  | go turn _ ih =>
      have onward := onward_scanTurn (fun index _ _ _ start done => (values index start done).toOnward)
        turn
      refine ih ?_ (Nat.le_trans place onward.1.place) (tidy.next turn) outcome
      obtain ⟨word, c, next, ⟨stays, rfl⟩ | ⟨flag, u, letters, read, rfl⟩⟩ := scanTurn_inl turn
      · exact h.of_stays place next stays
      · exact h.of_taken values place next letters read fun v => tidy _ v (.here _)

section Onward

variable (values : ∀ index, ((f.value index).parse env).Onward)

include values

theorem onward_passes {s t : State} (start : s.cursor.Within)
    (way : Loop.Passes (f.scanTurn env) s t) : s.cursor.Onward t.cursor := by
  induction way with
  | here => exact .refl start
  | go next _ ih =>
      have moved := (onward_scanTurn values next).1
      exact moved.trans (ih moved.within)

theorem onward_ends {s t : State} (start : s.cursor.Within)
    (ends : Loop.Ends (f.scanTurn env) s (.ok () t)) : s.cursor.Onward t.cursor := by
  generalize outcome : (EStateM.Result.ok () t : EStateM.Result ParseError State Unit) = r at ends
  induction ends with
  | stop last =>
      subst outcome
      rcases scanTurn_inr last with ⟨-, rfl⟩ | ⟨_, c, next, -, rfl⟩
      · exact .refl start
      · exact .of_next? next
  | go turn _ ih =>
      have moved := (onward_scanTurn values turn).1
      exact moved.trans (ih moved.within outcome)

/-- A word that stays is there when the scan ends. -/
theorem mem_of_stays {s t : State} (place : k ≤ s.cursor.consumed)
    {x : Token} {rest : List Token} (left : s.cursor.left = x :: rest)
    (stays : f.table.leaves x.value = true) (ends : Loop.Ends (f.scanTurn env) s (.ok () t)) :
    x ∈ t.cursor.tokens.drop k := by
  cases there : s.cursor.next? with
  | none => cases left.symm.trans (Cursor.left_eq_nil_iff.mpr there)
  | some pair =>
      obtain ⟨v, c⟩ := pair
      obtain ⟨y, rfl, here, passed⟩ := Cursor.left_of_next? (k := k) there
      obtain ⟨rfl, -⟩ := List.cons.inj (left.symm.trans here)
      have behind : c.Onward t.cursor := by
        have within := (Cursor.Onward.of_next? there).within
        rcases scanTurn_of_leaves env there stays with turn | last
        · exact onward_ends values within (ends.of_passes (.go turn (.here _)))
        · cases ends with
          | stop last' =>
              cases last.symm.trans last'
              exact .refl within
          | go turn _ => cases last.symm.trans turn
      have mine : x ∈ (t.cursor.tokens.take c.consumed).drop k := by
        rw [behind.before]
        change x ∈ c.passed k
        simp [passed place]
      rw [List.drop_take] at mine
      exact List.mem_of_mem_take mine

/-- An inline value that is left unread and stays is there when the scan ends. -/
theorem mem_of_unread {s u t : State} {v : String} (start : s.cursor.Within)
    (way : Loop.Passes (f.scanTurn env) s u) (unread : f.Unread env u v)
    (stays : f.table.leaves v = true) (ends : Loop.Ends (f.scanTurn env) s (.ok () t)) :
    ∃ x ∈ t.cursor.tokens.drop s.cursor.consumed, x.value = v ∧ x.typed = false := by
  have onward := onward_passes values start way
  obtain ⟨word, c, flag, name, index, w, next, letters, cut, known, parsed, unread⟩ := unread
  have read : f.readFlag env ('-' :: flag) { u with cursor := c } = .ok true w :=
    readFlag_inline cut known parsed
  have moved := beyond_readFlag values _ (Cursor.Onward.of_next? next).within read
  have turn := scanTurn_of_flag next letters read
  have further := (onward_scanTurn values turn).1
  obtain ⟨rest, there⟩ := List.head?_eq_some_iff.mp unread
  refine ⟨c.fresh v, ?_, rfl, by simp [Token.typed, Cursor.fresh]⟩
  exact mem_of_stays values (Nat.le_trans onward.place further.place)
    ((Cursor.takeOut_left next moved).1.trans there) stays
    (ends.of_passes (way.trans (.go turn (.here _))))

end Onward

end FlagScanner

/-! ## What the arguments are read from -/

theorem Element.keeps_typed (ts : List Token) (e : Element) (env : Env) :
    (Guard.typed ts).Keeps (e.parser.parse env) :=
  Element.guarded env (Every.of_forall (fun _ => ⟨fun _ _ => trivial, fun _ => trivial⟩) e)

variable {table : FlagTable} {values : List Element} {env : Env}

theorem trims_value (clean : ∀ e ∈ values, e.Clean env) (index : Nat) :
    (((table.scanner values).value index).parse env).Trims :=
  table.forall_value (P := fun p => (p.parse env).Trims) (Reading.Trims.course.pure ()) clean index

section Scanned

variable {s t : State} (within : s.cursor.Within)
  (scanned : (table.scanner values).scan env (s.cursor.weight + 1) s = .ok () t)

include within scanned

/-- What is in the line and left to the arguments was left to the flags, in its order. -/
theorem typed_of_scan : ((t.cursor.rewind s.cursor.mark).left.filter Token.typed).Sublist
    (s.cursor.left.filter Token.typed) := by
  have moved := FlagScanner.onward_scan (Element.onward_value table values env) _ within scanned
  have values_kept := table.forall_value
    (P := fun p => (Guard.typed (s.cursor.tokens.filter Token.typed)).Keeps (p.parse env))
    (Guard.keeps_pure ()) fun e (_ : e ∈ values) => e.keeps_typed _ env
  have kept : (t.cursor.tokens.filter Token.typed).Sublist (s.cursor.tokens.filter Token.typed) :=
    (FlagScanner.guarded_scan trivial values_kept (fun _ _ => trivial) _).ok (.refl _) scanned
  rw [← List.take_append_drop s.cursor.consumed t.cursor.tokens,
    ← List.take_append_drop s.cursor.consumed s.cursor.tokens, moved.before, List.filter_append,
    List.filter_append] at kept
  rw [Cursor.left_rewind moved]
  exact (List.append_sublist_append_left _).mp kept

theorem left_of_tidy (clean : ∀ e ∈ values, e.Clean env)
    (tidy : (table.scanner values).Tidy env s) :
    (t.cursor.rewind s.cursor.mark).left.Sublist s.cursor.left := by
  have onward := Element.onward_value table values env
  have ends := scanned ▸ FlagScanner.ends_scan onward within
  have first : (table.scanner values).Kept s.cursor.consumed s.cursor.left s.cursor :=
    ⟨s.cursor.left, by simp [Cursor.passed], .inl rfl⟩
  rw [Cursor.left_rewind (FlagScanner.onward_scan onward _ within scanned)]
  exact first.ends (trims_value clean) (Nat.le_refl _) tidy ends

/-- A value that stays is among what is left, and it is not of the line. -/
theorem tidy_of_left (typed : ∀ x ∈ s.cursor.left, x.typed = true)
    (fewer : (t.cursor.rewind s.cursor.mark).left.Sublist s.cursor.left) :
    (table.scanner values).Tidy env s := by
  have onward := Element.onward_value table values env
  have ends := scanned ▸ FlagScanner.ends_scan onward within
  rw [Cursor.left_rewind (FlagScanner.onward_scan onward _ within scanned)] at fewer
  intro u v way unread
  cases stays : (table.scanner values).table.leaves v with
  | false => rfl
  | true =>
      obtain ⟨x, there, -, put⟩ := FlagScanner.mem_of_unread onward within way unread stays ends
      cases (typed x (fewer.subset there)).symm.trans put

/-- The arguments behind flags are read from the tokens that were left, without the flags and what
they consumed: nothing of the line is out of its order, and nothing is new, unless a value in the
word of a long flag is left by its element and then not taken for a flag. -/
theorem flags_leave_typed :
    let start : State := { t with cursor := t.cursor.rewind s.cursor.mark }
    (∀ body : Element, (Element.flags table values body).parser.parse env s =
      body.parser.parse env start) ∧
    (start.cursor.left.filter Token.typed).Sublist (s.cursor.left.filter Token.typed) ∧
    ((∀ e ∈ values, e.Clean env) → (table.scanner values).Tidy env s →
      start.cursor.left.Sublist s.cursor.left) ∧
    ((∀ x ∈ s.cursor.left, x.typed = true) → start.cursor.left.Sublist s.cursor.left →
      (table.scanner values).Tidy env s) := by
  refine ⟨fun body => ?_, typed_of_scan within scanned, left_of_tidy within scanned,
    tidy_of_left within scanned⟩
  change (table.scanner values).read body.parser env s = _
  unfold FlagScanner.read
  rw [bind_of_ok (get_apply s), bind_of_ok scanned, bind_of_ok (moveCursor_apply _ _)]

end Scanned

/-- A value in the word of a flag that takes one, among other words. -/
theorem flags_leave_typed_of_inline :
    let flags := ({} : Element.FlagDeclarations).declare ["-n"] (some (.leaf "n" .integer))
    let now : DateTime :=
      ⟨{ year := 2001, month := 2, day := 3 }, { hour := 4, minute := 5, second := 6, nano := 0 }⟩
    let env : Env := { source := { name := "ann" }, now }
    let scanner := flags.table.scanner flags.values
    let s : State :=
      ⟨.ofTokens "a --n=5 b" [⟨"a", 0, 1⟩, ⟨"--n=5", 2, 7⟩, ⟨"b", 8, 9⟩], .empty⟩
    s.cursor.Within ∧ (∀ x ∈ s.cursor.left, x.typed = true) ∧ (∀ e ∈ flags.values, e.Clean env) ∧
      ∃ t, scanner.scan env (s.cursor.weight + 1) s = .ok () t ∧
        t.cursor = ⟨"a --n=5 b", [⟨"a", 0, 1⟩, ⟨"b", 8, 9⟩], 2⟩ ∧ scanner.Tidy env s := by
  intro flags now env scanner s
  have within : s.cursor.Within := Nat.zero_le _
  have typed : ∀ x ∈ s.cursor.left, x.typed = true := by decide
  have clean : ∀ e ∈ flags.values, e.Clean env := by
    intro e he
    obtain rfl := List.mem_singleton.mp he
    exact Element.clean_of_every env ⟨rfl, fun d hd => absurd hd List.not_mem_nil⟩
  have taken : (scanner.scan env (s.cursor.weight + 1)).end? s =
      some ⟨"a --n=5 b", [⟨"a", 0, 1⟩, ⟨"b", 8, 9⟩], 2⟩ := by decide +kernel
  obtain ⟨_, t, scanned, place⟩ := of_end? taken
  obtain ⟨-, -, -, tidy⟩ := flags_leave_typed within scanned
  have fewer : (t.cursor.rewind s.cursor.mark).left.Sublist s.cursor.left := by
    have left : (t.cursor.rewind s.cursor.mark).left = [⟨"a", 0, 1⟩, ⟨"b", 8, 9⟩] := by
      rw [place]
      rfl
    rw [left]
    decide
  exact ⟨within, typed, clean, t, scanned, place, tidy typed fewer⟩

/-- A value in the word of a flag without a value is left to the arguments. -/
theorem flags_leave_untyped :
    let flags := ({} : Element.FlagDeclarations).declare ["-v"] none
    let now : DateTime :=
      ⟨{ year := 2001, month := 2, day := 3 }, { hour := 4, minute := 5, second := 6, nano := 0 }⟩
    let env : Env := { source := { name := "ann" }, now }
    let scanner := flags.table.scanner flags.values
    let s : State := ⟨.ofTokens "--v=x a" [⟨"--v=x", 0, 5⟩, ⟨"a", 6, 7⟩], .empty⟩
    let start : Cursor := ⟨"--v=x a", [⟨"x", 5, 5⟩, ⟨"a", 6, 7⟩], 0⟩
    ((scanner.scan env (s.cursor.weight + 1)).end? s).map (·.rewind s.cursor.mark) = some start ∧
      ¬start.left.Sublist s.cursor.left := by
  decide +kernel

end CommandGrammar
