import CommandGrammar.Proofs.Completion
import CommandGrammar.Proofs.Grammar.Loops
import Mathlib.Data.List.Forall2

/-!
# What arguments do where a line ends

A line may end with no word left or with an empty one. What an argument does at either end is
computed from what its parts do: whether it reads where no word is left, whether it refuses an empty
word, leaves it or takes it, what it offers, and whether that must be the same at both ends.
-/

namespace CommandGrammar

open Reading

/-! ## Endings -/

/-- What is done with an empty word: it is refused, left, or taken. -/
inductive Fate where
  | refused
  | left
  | taken
  deriving DecidableEq, Repr

/-- What an argument does at the end of a line. -/
structure LineEnd where
  /-- Whether it is marked as one that may be absent. -/
  optional : Bool := false
  /-- Whether it reads where no word is left. -/
  skips : Bool
  /-- What it does with an empty word. -/
  fate : Fate
  /-- What it offers where no word is left. -/
  offers : List String
  /-- Whether it is bound to offer the same for an empty word. -/
  even : Bool
  deriving DecidableEq, Repr

namespace LineEnd

/-- An argument that reads nothing. -/
def nothing : LineEnd :=
  { skips := true, fate := .left, offers := [], even := true }

/-! ### One after the other -/

/-- Whether completing an empty word goes on behind the argument. -/
def goesOn (c : LineEnd) : Bool :=
  match c.fate with
  | .refused => false
  | .left => true
  | .taken => c.optional

def sequenceFate : List LineEnd → Fate
  | [] => .left
  | c :: rest =>
    match c.fate with
    | .refused => .refused
    | .left => sequenceFate rest
    | .taken => if rest.all (·.skips) then .taken else .refused

/-- The offers of the arguments that are come to where no word is left: up to the first that needs
one. -/
def sequenceOffers : List LineEnd → List (List String)
  | [] => []
  | c :: rest => c.offers :: if c.skips then sequenceOffers rest else []

/-- An argument must be even, and the empty word must go on behind it where nothing would. Behind
the last argument it does not matter. -/
def sequenceEven : List LineEnd → Bool
  | [] => true
  | c :: rest =>
    c.even && (rest.isEmpty || (c.skips == c.goesOn && (!c.goesOn || sequenceEven rest)))

theorem sequenceEven_cons {c : LineEnd} {rest : List LineEnd} :
    sequenceEven (c :: rest) = true ↔ c.even = true ∧
      (rest = [] ∨ c.skips = c.goesOn ∧ (c.goesOn = true → sequenceEven rest = true)) := by
  rw [sequenceEven]
  cases c.goesOn <;> simp

def sequence (cs : List LineEnd) : LineEnd where
  skips := cs.all (·.skips)
  fate := sequenceFate cs
  offers := (sequenceOffers cs).foldl appendNew []
  even := sequenceEven cs

/-! ### Alternatives -/

/-- The fate of the first alternative that reads. -/
def firstFate : List LineEnd → Fate
  | [] => .left
  | [c] => c.fate
  | c :: rest => if c.fate = .refused then firstFate rest else c.fate

theorem firstFate_cons_of_reads {c : LineEnd} {rest : List LineEnd} (reads : c.fate ≠ .refused) :
    firstFate (c :: rest) = c.fate := by
  cases rest <;> simp [firstFate, reads]

theorem firstFate_cons_of_refused {c : LineEnd} {rest : List LineEnd} (refused : c.fate = .refused)
    (more : rest ≠ []) : firstFate (c :: rest) = firstFate rest := by
  cases rest with
  | nil => exact absurd rfl more
  | cons d rest => simp [firstFate, refused]

def firstOf (cs : List LineEnd) : LineEnd where
  skips := cs.isEmpty || cs.any (·.skips)
  fate := firstFate cs
  offers := (cs.map (·.offers)).foldl appendNew []
  even := cs.all (·.even)

/-! ### One argument, absent or repeated -/

/-- A weak part: what it refuses counts as absent. -/
def weak (c : LineEnd) : LineEnd where
  optional := true
  skips := true
  fate := if c.fate = .refused then .left else c.fate
  offers := c.offers
  even := c.even

/-- So many times. An argument that needs a word offers once it is refused one. -/
def times (c : LineEnd) : Nat → LineEnd
  | 0 => nothing
  | n + 1 =>
    { skips := c.skips
      fate :=
        match c.fate with
        | .refused => .refused
        | .left => .left
        | .taken => if n = 0 || c.skips then .taken else .refused
      offers := if c.skips then [] else c.offers
      even :=
        match c.fate with
        | .refused => !c.skips && c.even
        | .left => c.skips
        | .taken => c.skips || n != 0 }

/-- Until the words run out: nothing is offered without a word, nor behind an empty one that is
taken. One that is left would be come to again and again. -/
def untilEnd (c : LineEnd) : LineEnd where
  skips := true
  fate := c.fate
  offers := []
  even := c.fate == .taken

end LineEnd

/-! ## What an argument does -/

/-- A search for completions comes to an end with some offers. -/
structure Completion.EndsWith (c : Completion) (offers : List String) : Prop where
  ends : c.endless = false
  offered : c.offers = offers

namespace Completion.EndsWith

theorem none : Completion.none.EndsWith [] := ⟨rfl, rfl⟩

theorem ofList (offers : List String) : (Completion.ofList offers).EndsWith offers := ⟨rfl, rfl⟩

theorem add {c d : Completion} {xs ys : List String} (h : c.EndsWith xs) (h' : d.EndsWith ys) :
    (c.add d).EndsWith (appendNew xs ys) where
  ends := by simp [Completion.add, h.ends, h'.ends]
  offered := by simp [Completion.add, h.offered, h'.offered]

end Completion.EndsWith

/-- What a reading comes to is the fate of the empty word. -/
def Fate.Holds (s : State) : Fate → EStateM.Result ParseError State Unit → Prop
  | .refused, r => ∃ e t, r = .error e t
  | .left, r => ∃ context, r = .ok () { s with context }
  | .taken, r => ∃ t, r = .ok () t ∧ t.cursor.remaining = []

/-- What the context was does not matter. -/
theorem Fate.Holds.of_context {s : State} {context : Context} {fate : Fate}
    {r : EStateM.Result ParseError State Unit} (h : fate.Holds { s with context } r) :
    fate.Holds s r := by
  cases fate <;> exact h

/-- What reads without a word behind one that took the empty word has it taken, too. -/
theorem Fate.holds_behind {s t : State} {skips : Bool} {r : EStateM.Result ParseError State Unit}
    (ended : t.cursor.remaining = [])
    (later : (if skips then Fate.left else Fate.refused).Holds t r) :
    (if skips then Fate.taken else Fate.refused).Holds s r := by
  cases skips with
  | false => exact later
  | true =>
      obtain ⟨context, done⟩ := later
      exact ⟨_, done, ended⟩

/-- A parser does at the end of a line what was computed. -/
structure Parser.EndsAs (env : Env) (p : Parser) (c : LineEnd) : Prop where
  optional : p.isOptional = c.optional
  skips : ∀ s, s.cursor.remaining = [] →
    (if c.skips then Fate.left else Fate.refused).Holds s (p.parse env s)
  fate : ∀ s, s.cursor.remaining = [""] → c.fate.Holds s (p.parse env s)
  offers : ∀ s, s.cursor.remaining = [] → (p.complete env s).EndsWith c.offers
  even : c.even = true → ∀ s, s.cursor.remaining = [""] → (p.complete env s).EndsWith c.offers

namespace Parser.EndsAs

variable {env : Env} {p : Parser} {c : LineEnd} {ps : List Parser} {cs : List LineEnd}

theorem nothing_left (h : p.EndsAs env c) (skips : c.skips = true) {s : State}
    (ended : s.cursor.remaining = []) : ∃ context, p.parse env s = .ok () { s with context } := by
  have read := h.skips s ended
  rw [if_pos skips] at read
  exact read

theorem refused_at_end (h : p.EndsAs env c) (needs : c.skips = false) {s : State}
    (ended : s.cursor.remaining = []) : ∃ e t, p.parse env s = .error e t := by
  have read := h.skips s ended
  rw [if_neg (by simp [needs])] at read
  exact read

theorem refuses (h : p.EndsAs env c) (fate : c.fate = .refused) {s : State}
    (empty : s.cursor.remaining = [""]) : ∃ e t, p.parse env s = .error e t := by
  have read := h.fate s empty
  rw [fate] at read
  exact read

theorem leaves (h : p.EndsAs env c) (fate : c.fate = .left) {s : State}
    (empty : s.cursor.remaining = [""]) :
    ∃ context, p.parse env s = .ok () { s with context } := by
  have read := h.fate s empty
  rw [fate] at read
  exact read

theorem takes (h : p.EndsAs env c) (fate : c.fate = .taken) {s : State}
    (empty : s.cursor.remaining = [""]) :
    ∃ t, p.parse env s = .ok () t ∧ t.cursor.remaining = [] := by
  have read := h.fate s empty
  rw [fate] at read
  exact read

theorem mark_ne {s t : State} (empty : s.cursor.remaining = [""])
    (ended : t.cursor.remaining = []) : t.cursor.mark ≠ s.cursor.mark := by
  intro same
  simp only [Cursor.mark, Mark.mk.injEq] at same
  rw [Cursor.remaining, Cursor.values, same.1, same.2] at ended
  exact List.cons_ne_nil _ _ (empty.symm.trans ended)

/-! ### Sequences -/

theorem completeAll_goesOn (h : p.EndsAs env c) (goes : c.goesOn = true) {s : State}
    (empty : s.cursor.remaining = [""]) (ps : List Parser) (done : Completion) :
    ∃ context, completeAll env (p :: ps) s done =
      completeAll env ps { s with context } (done.add (p.complete env s)) := by
  unfold LineEnd.goesOn at goes
  cases fate : c.fate with
  | refused => simp [fate] at goes
  | left =>
      obtain ⟨context, read⟩ := h.leaves fate empty
      exact ⟨context, completeAll_cons_still read rfl⟩
  | taken =>
      rw [fate] at goes
      obtain ⟨t, read, ended⟩ := h.takes fate empty
      have spent := Cursor.hasNext_eq_false_iff.mpr ended
      have absent := h.optional.trans goes
      exact ⟨s.context, completeAll_cons_absent read (mark_ne empty ended) spent absent⟩

theorem completeAll_stops (h : p.EndsAs env c) (stops : c.goesOn = false) {s : State}
    (empty : s.cursor.remaining = [""]) (ps : List Parser) (done : Completion) :
    completeAll env (p :: ps) s done = done.add (p.complete env s) := by
  unfold LineEnd.goesOn at stops
  cases fate : c.fate with
  | refused =>
      obtain ⟨e, t, read⟩ := h.refuses fate empty
      exact completeAll_cons_failed read
  | left => simp [fate] at stops
  | taken =>
      rw [fate] at stops
      obtain ⟨t, read, ended⟩ := h.takes fate empty
      have spent := Cursor.hasNext_eq_false_iff.mpr ended
      have present := h.optional.trans stops
      exact completeAll_cons_last read (mark_ne empty ended) spent present

section Sequence

variable (h : List.Forall₂ (Parser.EndsAs env) ps cs)

include h

theorem readAll_at_end {s : State} (ended : s.cursor.remaining = []) :
    (if cs.all (·.skips) then Fate.left else Fate.refused).Holds s (readAll env ps s) := by
  induction h generalizing s with
  | nil => exact ⟨s.context, rfl⟩
  | @cons p c ps cs first _ ih =>
      cases skips : c.skips with
      | false =>
          obtain ⟨e, t, read⟩ := first.refused_at_end skips ended
          simp only [List.all_cons, skips, Bool.false_and]
          exact ⟨e, t, bind_of_error read _⟩
      | true =>
          obtain ⟨context, read⟩ := first.nothing_left skips ended
          simp only [List.all_cons, skips, Bool.true_and]
          rw [readAll, bind_of_ok read]
          exact .of_context (ih ended)

theorem readAll_at_empty {s : State} (empty : s.cursor.remaining = [""]) :
    (LineEnd.sequenceFate cs).Holds s (readAll env ps s) := by
  induction h generalizing s with
  | nil => exact ⟨s.context, rfl⟩
  | @cons p c ps cs first rest ih =>
      unfold LineEnd.sequenceFate
      cases fate : c.fate with
      | refused =>
          obtain ⟨e, t, read⟩ := first.refuses fate empty
          exact ⟨e, t, bind_of_error read _⟩
      | left =>
          obtain ⟨context, read⟩ := first.leaves fate empty
          rw [readAll, bind_of_ok read]
          exact .of_context (ih empty)
      | taken =>
          obtain ⟨t, read, ended⟩ := first.takes fate empty
          rw [readAll, bind_of_ok read]
          exact Fate.holds_behind ended (readAll_at_end rest ended)

theorem completeAll_at_end {s : State} (ended : s.cursor.remaining = []) {done : Completion}
    {offers : List String} (before : done.EndsWith offers) :
    (completeAll env ps s done).EndsWith ((LineEnd.sequenceOffers cs).foldl appendNew offers) := by
  induction h generalizing s done offers with
  | nil => exact before
  | @cons p c ps cs first _ ih =>
      have added := before.add (first.offers s ended)
      cases skips : c.skips with
      | false =>
          obtain ⟨e, t, read⟩ := first.refused_at_end skips ended
          rw [completeAll_cons_failed read]
          simpa [LineEnd.sequenceOffers, skips] using added
      | true =>
          obtain ⟨context, read⟩ := first.nothing_left skips ended
          have later := ih (s := { s with context }) ended added
          rw [completeAll_cons_still read rfl]
          simpa [LineEnd.sequenceOffers, skips] using later

theorem completeAll_at_empty (even : LineEnd.sequenceEven cs = true) {s : State}
    (empty : s.cursor.remaining = [""]) {done : Completion} {offers : List String}
    (before : done.EndsWith offers) :
    (completeAll env ps s done).EndsWith ((LineEnd.sequenceOffers cs).foldl appendNew offers) := by
  induction h generalizing s done offers with
  | nil => exact before
  | @cons p c ps cs first rest ih =>
      obtain ⟨here, behind⟩ := LineEnd.sequenceEven_cons.mp even
      have added := before.add (first.even here s empty)
      cases goes : c.goesOn with
      | true =>
          obtain ⟨context, further⟩ := first.completeAll_goesOn goes empty ps done
          have listed :
              LineEnd.sequenceOffers (c :: cs) = c.offers :: LineEnd.sequenceOffers cs := by
            rcases behind with rfl | ⟨skips, -⟩
            · simp [LineEnd.sequenceOffers]
            · simp [LineEnd.sequenceOffers, skips, goes]
          have later : LineEnd.sequenceEven cs = true := by
            rcases behind with rfl | ⟨-, later⟩
            · rfl
            · exact later goes
          rw [further, listed, List.foldl_cons]
          exact ih later (s := { s with context }) empty added
      -- Nothing behind is come to with the empty word, nor without a word.
      | false =>
          have listed : LineEnd.sequenceOffers (c :: cs) = [c.offers] := by
            rcases behind with rfl | ⟨skips, -⟩
            · simp [LineEnd.sequenceOffers]
            · simp [LineEnd.sequenceOffers, skips, goes]
          rw [first.completeAll_stops goes empty ps done, listed]
          exact added

end Sequence

theorem sequence (h : List.Forall₂ (Parser.EndsAs env) ps cs) :
    (Parser.sequence ps).EndsAs env (.sequence cs) where
  optional := rfl
  skips _ ended := readAll_at_end h ended
  fate _ empty := readAll_at_empty h empty
  offers _ ended := completeAll_at_end h ended .none
  even even _ empty := completeAll_at_empty h even empty .none

/-! ### Alternatives -/

section Alternatives

variable (h : List.Forall₂ (Parser.EndsAs env) ps cs)

include h

theorem readFirst_at_end {s : State} (ended : s.cursor.remaining = []) :
    (if cs.isEmpty || cs.any (·.skips) then Fate.left else Fate.refused).Holds s
      (readFirst env ps s) := by
  induction h generalizing s with
  | nil => exact ⟨s.context, rfl⟩
  | @cons p c ps cs first rest ih =>
      cases skips : c.skips with
      | true =>
          obtain ⟨context, read⟩ := first.nothing_left skips ended
          simp only [List.isEmpty_cons, List.any_cons, skips, Bool.true_or, Bool.or_true, if_true]
          exact ⟨context, orElse_of_ok read _⟩
      | false =>
          obtain ⟨e, t, read⟩ := first.refused_at_end skips ended
          simp only [List.isEmpty_cons, List.any_cons, skips, Bool.false_or]
          rw [readFirst, orElse_of_error read]
          cases rest with
          | nil => exact ⟨e, s, rfl⟩
          | cons second rest => simpa using ih ended

theorem readFirst_at_empty {s : State} (empty : s.cursor.remaining = [""]) :
    (LineEnd.firstFate cs).Holds s (readFirst env ps s) := by
  induction h generalizing s with
  | nil => exact ⟨s.context, rfl⟩
  | @cons p c ps cs first rest ih =>
      cases fate : c.fate with
      | refused =>
          obtain ⟨e, t, read⟩ := first.refuses fate empty
          rw [readFirst, orElse_of_error read]
          cases rest with
          | nil =>
              rw [LineEnd.firstFate, fate]
              exact ⟨e, s, rfl⟩
          | cons second rest =>
              rw [LineEnd.firstFate_cons_of_refused fate (List.cons_ne_nil _ _)]
              exact ih empty
      | left =>
          obtain ⟨context, read⟩ := first.leaves fate empty
          rw [LineEnd.firstFate_cons_of_reads (by simp [fate]), fate]
          exact ⟨context, orElse_of_ok read _⟩
      | taken =>
          obtain ⟨t, read, ended⟩ := first.takes fate empty
          rw [LineEnd.firstFate_cons_of_reads (by simp [fate]), fate]
          exact ⟨t, orElse_of_ok read _, ended⟩

theorem completeFirst_at_end {s : State} (ended : s.cursor.remaining = []) {done : Completion}
    {offers : List String} (before : done.EndsWith offers) :
    (ps.foldl (fun done p => done.add (p.complete env s)) done).EndsWith
      ((cs.map (·.offers)).foldl appendNew offers) := by
  induction h generalizing done offers with
  | nil => exact before
  | @cons p c ps cs first _ ih => exact ih (before.add (first.offers s ended))

theorem completeFirst_at_empty (even : cs.all (·.even) = true) {s : State}
    (empty : s.cursor.remaining = [""]) {done : Completion} {offers : List String}
    (before : done.EndsWith offers) :
    (ps.foldl (fun done p => done.add (p.complete env s)) done).EndsWith
      ((cs.map (·.offers)).foldl appendNew offers) := by
  induction h generalizing done offers with
  | nil => exact before
  | @cons p c ps cs first _ ih =>
      rw [List.all_cons, Bool.and_eq_true] at even
      exact ih even.2 (before.add (first.even even.1 s empty))

theorem firstOf : (Parser.firstOf ps).EndsAs env (.firstOf cs) where
  optional := rfl
  skips _ ended := readFirst_at_end h ended
  fate _ empty := readFirst_at_empty h empty
  offers _ ended := completeFirst_at_end h ended .none
  even even _ empty := completeFirst_at_empty h even empty .none

end Alternatives

/-! ### One argument, absent or repeated -/

theorem weak (h : p.EndsAs env c) (default : Option Value) :
    (p.optional default true).EndsAs env c.weak where
  optional := rfl
  skips s ended := by
    rw [parse_optional_of_spent default true (Cursor.hasNext_eq_false_iff.mpr ended)]
    exact storeDefault_eq_ok default p s
  fate s empty := by
    have more : s.cursor.hasNext = true := Cursor.hasNext_iff.mpr (by simp [empty])
    unfold LineEnd.weak
    cases fate : c.fate with
    | refused =>
        obtain ⟨e, t, read⟩ := h.refuses fate empty
        rw [parse_optional_of_error default true more read]
        exact storeDefault_eq_ok default p s
    | left =>
        obtain ⟨context, read⟩ := h.leaves fate empty
        exact ⟨context, parse_optional_of_ok default true more read⟩
    | taken =>
        obtain ⟨t, read, ended⟩ := h.takes fate empty
        exact ⟨t, parse_optional_of_ok default true more read, ended⟩
  offers := h.offers
  even := h.even

theorem readWhile_at_end (steps : Nat) {s : State} (ended : s.cursor.remaining = []) :
    p.readWhile env steps s = .ok () s := by
  cases steps with
  | zero => rfl
  | succ steps =>
      rw [readWhile_eq_run]
      simp [Loop.run, readTurn, Cursor.hasNext_eq_false_iff.mpr ended]

theorem ends_completeTurn_at_end {s : State} (ended : s.cursor.remaining = []) :
    Loop.Ends (p.completeTurn env) s .none :=
  .stop (by simp [completeTurn, Cursor.hasNext_eq_false_iff.mpr ended])

section Repeated

variable (h : p.EndsAs env c)

include h

/-- An argument that reads where no word is left does so again and again. -/
theorem readTimes_at_end (n : Nat) {s : State} (ended : s.cursor.remaining = []) :
    (if n = 0 || c.skips then Fate.left else Fate.refused).Holds s (p.readTimes env n s) := by
  induction n generalizing s with
  | zero => exact ⟨s.context, rfl⟩
  | succ n ih =>
      cases skips : c.skips with
      | false =>
          obtain ⟨e, t, read⟩ := h.refused_at_end skips ended
          exact ⟨e, t, bind_of_error read _⟩
      | true =>
          obtain ⟨context, read⟩ := h.nothing_left skips ended
          have again := ih (s := { s with context }) ended
          simp only [skips, Bool.or_true, if_true] at again ⊢
          rw [readTimes, bind_of_ok read]
          exact .of_context again

theorem readTimes_left (left : c.fate = .left) (n : Nat) {s : State}
    (empty : s.cursor.remaining = [""]) : Fate.left.Holds s (p.readTimes env n s) := by
  induction n generalizing s with
  | zero => exact ⟨s.context, rfl⟩
  | succ n ih =>
      obtain ⟨context, read⟩ := h.leaves left empty
      rw [readTimes, bind_of_ok read]
      exact .of_context (ih empty)

theorem completeTimes_at_end (n : Nat) {s : State} (ended : s.cursor.remaining = []) :
    (p.completeTimes env n s).EndsWith (if n = 0 || c.skips then [] else c.offers) := by
  induction n generalizing s with
  | zero => exact .none
  | succ n ih =>
      cases skips : c.skips with
      | false =>
          obtain ⟨e, t, read⟩ := h.refused_at_end skips ended
          simpa [completeTimes, read] using h.offers s ended
      | true =>
          obtain ⟨context, read⟩ := h.nothing_left skips ended
          have again := ih (s := { s with context }) ended
          simpa [completeTimes, read, skips] using again

theorem completeTimes_left (left : c.fate = .left) (n : Nat) {s : State}
    (empty : s.cursor.remaining = [""]) : p.completeTimes env n s = .none := by
  induction n generalizing s with
  | zero => rfl
  | succ n ih =>
      obtain ⟨context, read⟩ := h.leaves left empty
      simpa only [completeTimes, read] using ih (s := { s with context }) empty

/-- What the first time does with an empty word is what all do: the others find it as it was, or find
no word left. -/
theorem readTimes_at_empty (n : Nat) {s : State} (empty : s.cursor.remaining = [""]) :
    (c.times (n + 1)).fate.Holds s (p.readTimes env (n + 1) s) := by
  simp only [LineEnd.times]
  cases fate : c.fate with
  | refused =>
      obtain ⟨e, t, read⟩ := h.refuses fate empty
      exact ⟨e, t, bind_of_error read _⟩
  | left => exact h.readTimes_left fate (n + 1) empty
  | taken =>
      obtain ⟨t, read, ended⟩ := h.takes fate empty
      rw [readTimes, bind_of_ok read]
      exact Fate.holds_behind ended (h.readTimes_at_end n ended)

theorem completeTimes_at_empty (n : Nat) (even : (c.times (n + 1)).even = true) {s : State}
    (empty : s.cursor.remaining = [""]) :
    (p.completeTimes env (n + 1) s).EndsWith (c.times (n + 1)).offers := by
  simp only [LineEnd.times] at even ⊢
  cases fate : c.fate with
  | refused =>
      obtain ⟨e, t, read⟩ := h.refuses fate empty
      simp only [fate, Bool.and_eq_true, Bool.not_eq_true'] at even
      simpa [completeTimes, read, even.1] using h.even even.2 s empty
  | left =>
      simp only [fate] at even
      rw [h.completeTimes_left fate (n + 1) empty, if_pos even]
      exact .none
  | taken =>
      -- The second time is refused a word, which is where no word would have been refused the first.
      obtain ⟨t, read, ended⟩ := h.takes fate empty
      have later := h.completeTimes_at_end n ended
      simp only [fate, Bool.or_eq_true, bne_iff_ne] at even
      simp only [completeTimes, read]
      by_cases skips : c.skips = true
      · simpa [skips] using later
      · have more : n ≠ 0 := even.resolve_left skips
        simpa [more] using later

theorem times (n : Nat) : (p.repeated n).EndsAs env (c.times n) := by
  cases n with
  | zero =>
      exact ⟨rfl, fun s _ => ⟨s.context, rfl⟩, fun s _ => ⟨s.context, rfl⟩, fun _ _ => .none,
        fun _ _ _ => .none⟩
  | succ n =>
      refine ⟨rfl, fun s ended => ?_, fun s empty => h.readTimes_at_empty n empty,
        fun s ended => ?_, fun even s empty => h.completeTimes_at_empty n even empty⟩
      · have read := h.readTimes_at_end (n + 1) ended
        simp only [Nat.succ_ne_zero, decide_false, Bool.false_or] at read
        exact read
      · have offers := h.completeTimes_at_end (n + 1) ended
        simp only [Nat.succ_ne_zero, decide_false, Bool.false_or] at offers
        exact offers

theorem readWhile_at_empty (steps : Nat) {s : State} (empty : s.cursor.remaining = [""]) :
    c.fate.Holds s (p.readWhile env (steps + 1) s) := by
  have more : s.cursor.hasNext = true := Cursor.hasNext_iff.mpr (by simp [empty])
  rw [readWhile_eq_run]
  simp only [Loop.run, readTurn, more, if_true]
  cases fate : c.fate with
  | refused =>
      obtain ⟨e, t, read⟩ := h.refuses fate empty
      exact ⟨e, t, by simp [read]⟩
  | left =>
      obtain ⟨context, read⟩ := h.leaves fate empty
      exact ⟨context, by simp [read]⟩
  | taken =>
      obtain ⟨t, read, ended⟩ := h.takes fate empty
      have finished : p.readWhile env steps t = .ok () t := readWhile_at_end steps ended
      rw [readWhile_eq_run] at finished
      exact ⟨t, by simp [read, mark_ne empty ended, finished], ended⟩

theorem ends_completeTurn_at_empty (taken : c.fate = .taken) {s : State}
    (empty : s.cursor.remaining = [""]) : Loop.Ends (p.completeTurn env) s .none := by
  have more : s.cursor.hasNext = true := Cursor.hasNext_iff.mpr (by simp [empty])
  obtain ⟨t, read, ended⟩ := h.takes taken empty
  exact .go (by simp [completeTurn, more, read]) (ends_completeTurn_at_end ended)

theorem untilEnd : p.allOf.EndsAs env c.untilEnd where
  optional := rfl
  skips s ended := ⟨s.context, readWhile_at_end (s.cursor.weight + 1) ended⟩
  fate s empty := h.readWhile_at_empty s.cursor.weight empty
  offers s ended := by
    rw [complete_allOf_of_ends (ends_completeTurn_at_end ended)]
    exact .none
  even even s empty := by
    have taken : c.fate = .taken := by simpa [LineEnd.untilEnd] using even
    rw [complete_allOf_of_ends (h.ends_completeTurn_at_empty taken empty)]
    exact .none

end Repeated

end Parser.EndsAs

end CommandGrammar
