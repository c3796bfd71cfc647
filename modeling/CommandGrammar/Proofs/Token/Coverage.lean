import CommandGrammar.Proofs.Token.Resumed
import CommandGrammar.Proofs.Token.Spans

/-!
# What words leave out

The words of a line take up all of it but blanks: a word has at least one character of the line, and
a character that no word has is blank. The empty word at the end of a line stands there for a blank
that ends the line and is in no word, and it is all that passing over such blanks leaves out.
-/

namespace CommandGrammar

/-- Whether a place of a line is inside a token. -/
def Token.Covers (t : Token) (i : Nat) : Prop :=
  t.start ≤ i ∧ i < t.stop

namespace Tokenizer

variable {quotes : Bool} {pos : Nat} {c : Char} {cs : List Char} {place : Place}

/-! ## Words have characters -/

/-- A word that is being read has begun before the reader's place. -/
def Place.Begun (pos : Nat) : Place → Prop
  | .between _ => True
  | .bare start _ | .bareEscape start _ | .quoted _ start _ | .quotedEscape _ start _ => start < pos

theorem Place.Begun.origin_le (begun : place.Begun pos) : place.origin pos ≤ pos := by
  cases place with
  | between blank => exact Nat.le_refl pos
  | bare _ _ | bareEscape _ _ | quoted _ _ _ | quotedEscape _ _ _ => exact Nat.le_of_lt begun

theorem begun_startWord : (startWord quotes pos c).Begun (pos + 1) := by
  unfold startWord
  split
  · exact Nat.lt_succ_self pos
  · split <;> exact Nat.lt_succ_self pos

theorem step_begun (quotes : Bool) (c : Char) (begun : place.Begun pos) :
    (step quotes pos c place).2.Begun (pos + 1) ∧
      ∀ t ∈ (step quotes pos c place).1, t.start < t.stop := by
  cases place with
  | between blank =>
      simp only [step]
      split
      · exact ⟨trivial, by simp⟩
      · exact ⟨begun_startWord, by simp⟩
  | bare start w =>
      have onward : start < pos + 1 := Nat.lt_succ_of_lt begun
      simp only [step]
      split
      · refine ⟨trivial, ?_⟩
        simp only [Option.mem_def, Option.some.injEq, forall_eq']
        exact begun
      · split <;> exact ⟨onward, by simp⟩
  | bareEscape start w | quotedEscape quote start w =>
      have onward : start < pos + 1 := Nat.lt_succ_of_lt begun
      exact ⟨onward, by simp [step]⟩
  | quoted quote start w =>
      have onward : start < pos + 1 := Nat.lt_succ_of_lt begun
      simp only [step]
      split
      · refine ⟨trivial, ?_⟩
        simp only [Option.mem_def, Option.some.injEq, forall_eq']
        exact onward
      · split <;> exact ⟨onward, by simp⟩

theorem finish_begun (begun : place.Begun pos) : ∀ t ∈ (finish pos place).1, t.start < t.stop := by
  cases place with
  | between blank => simp [finish]
  | bare _ _ | bareEscape _ _ | quoted _ _ _ | quotedEscape _ _ _ =>
      simp only [finish, Option.mem_def, Option.some.injEq, forall_eq']
      exact begun

theorem mem_scan_nil {t : Token} :
    t ∈ (scan quotes place pos []).1 ↔ t ∈ (finish pos place).1 := by
  simp [scan]

theorem mem_scan_cons {t : Token} : t ∈ (scan quotes place pos (c :: cs)).1 ↔
    t ∈ (step quotes pos c place).1 ∨
      t ∈ (scan quotes (step quotes pos c place).2 (pos + 1) cs).1 := by
  simp only [scan, List.mem_append, Option.mem_toList]
  rfl

theorem scan_solid (begun : place.Begun pos) :
    ∀ t ∈ (scan quotes place pos cs).1, t.start < t.stop := by
  induction cs generalizing place pos with
  | nil =>
      intro t there
      exact finish_begun begun t (mem_scan_nil.mp there)
  | cons c cs ih =>
      obtain ⟨onward, solid⟩ := step_begun quotes c begun
      intro t there
      rcases mem_scan_cons.mp there with ended | later
      · exact solid t ended
      · exact ih onward t later

/-! ## Characters in no word -/

/-- A character that is read while no word is, and begins none, is blank. -/
theorem step_left_out (begun : place.Begun pos) {i : Nat} (low : place.origin pos ≤ i)
    (high : i < (step quotes pos c place).2.origin (pos + 1)) :
    (∃ t ∈ (step quotes pos c place).1, t.Covers i) ∨ i = pos ∧ Text.isBlank c = true := by
  cases place with
  | between blank =>
      simp only [Place.origin] at low
      simp only [step] at high
      split at high
      · rename_i empty
        simp only [Place.origin] at high
        exact .inr ⟨by omega, empty⟩
      · have same := origin_startWord quotes pos c
        dsimp only at high
        omega
  | bare start w =>
      simp only [Place.origin] at low
      simp only [step] at high ⊢
      split at high
      · rename_i empty
        simp only [Place.origin] at high
        by_cases same : i = pos
        · exact .inr ⟨same, empty⟩
        · refine .inl ⟨word w start pos, by simp [empty], low, ?_⟩
          show i < pos
          omega
      · split at high
        · simp only [Place.origin] at high
          omega
        · simp only [Place.origin] at high
          omega
  | bareEscape start w | quotedEscape quote start w =>
      simp only [step, Place.origin] at low high
      omega
  | quoted quote start w =>
      simp only [Place.origin] at low
      simp only [step] at high ⊢
      split at high
      · rename_i closing
        refine .inl ⟨word w start (pos + 1), by simp [closing], low, ?_⟩
        exact high
      · split at high
        · simp only [Place.origin] at high
          omega
        · simp only [Place.origin] at high
          omega

theorem finish_left_out {i : Nat} (low : place.origin pos ≤ i) (high : i < pos) :
    ∃ t ∈ (finish pos place).1, t.Covers i := by
  cases place with
  | between blank =>
      simp only [Place.origin] at low
      omega
  | bare _ _ | bareEscape _ _ | quoted _ _ _ | quotedEscape _ _ _ => exact ⟨_, rfl, low, high⟩

/-- Every character read is in a word or blank. -/
theorem scan_left_out (begun : place.Begun pos) {i : Nat} (low : place.origin pos ≤ i)
    (high : i < pos + cs.length) :
    (∃ t ∈ (scan quotes place pos cs).1, t.Covers i) ∨
      ∃ j c, i = pos + j ∧ cs[j]? = some c ∧ Text.isBlank c = true := by
  induction cs generalizing place pos with
  | nil =>
      obtain ⟨t, there, covers⟩ := finish_left_out low high
      exact .inl ⟨t, mem_scan_nil.mpr there, covers⟩
  | cons c cs ih =>
      by_cases sooner : i < (step quotes pos c place).2.origin (pos + 1)
      · rcases step_left_out begun low sooner with ⟨t, ended, covers⟩ | ⟨same, empty⟩
        · exact .inl ⟨t, mem_scan_cons.mpr (.inl ended), covers⟩
        · exact .inr ⟨0, c, same, rfl, empty⟩
      · have length : pos + (c :: cs).length = pos + 1 + cs.length := by
          rw [List.length_cons]
          omega
        rw [length] at high
        have onward := (step_begun quotes c begun).1
        rcases ih onward (Nat.le_of_not_lt sooner) high with
          ⟨t, later, covers⟩ | ⟨j, d, at_, there, empty⟩
        · exact .inl ⟨t, mem_scan_cons.mpr (.inr later), covers⟩
        · exact .inr ⟨j + 1, d, by omega, there, empty⟩

/-! ## The blank that ends a line -/

/-- The characters from a place on end in a blank that is in none of the tokens. -/
def EndsBlank (ts : List Token) (pos : Nat) (cs : List Char) : Prop :=
  ∃ c ∈ cs.getLast?, Text.isBlank c = true ∧ ∀ t ∈ ts, ¬ t.Covers (pos + cs.length - 1)

theorem finish_settled : (finish pos place).2 = .settled true ↔ place = .between true := by
  cases place <;> simp [finish]

/-- The last character leaves the reader behind blanks exactly if it is one, outside of words. -/
theorem scan_last (begun : place.Begun pos) :
    (scan quotes place pos [c]).2 = .settled true ↔
      Text.isBlank c = true ∧ ∀ t ∈ (scan quotes place pos [c]).1, ¬ t.Covers pos := by
  rw [scan_snd_cons]
  -- Where the last character goes into a word, that word is a token that covers it.
  have into : ∀ w start, start < pos → word w start (pos + 1) ∈ (scan quotes place pos [c]).1 →
      (finish (pos + 1) (step quotes pos c place).2).2 ≠ .settled true →
      ((scan quotes (step quotes pos c place).2 (pos + 1) []).2 = .settled true ↔
        Text.isBlank c = true ∧ ∀ t ∈ (scan quotes place pos [c]).1, ¬ t.Covers pos) := by
    intro w start before there other
    have covers : (word w start (pos + 1)).Covers pos := ⟨Nat.le_of_lt before, Nat.lt_succ_self pos⟩
    exact ⟨fun settled => absurd settled other, fun free => absurd covers (free.2 _ there)⟩
  cases place with
  | between blank =>
      cases empty : Text.isBlank c with
      | true => simp [scan, step, empty, finish]
      | false => simp [scan, finish_settled, step, empty, startWord_ne]
  | bare start w =>
      cases empty : Text.isBlank c with
      | true => simp [scan, step, empty, finish, Token.Covers, word]
      | false =>
          simp only [scan, finish_settled, step, empty, Bool.false_eq_true, if_false, false_and,
            iff_false]
          split <;> simp
  | bareEscape start w =>
      exact into (c :: w) start begun (by simp [scan, step, finish]) (by simp [step, finish])
  | quotedEscape quote start w =>
      exact into (c :: w) start begun (by simp [scan, step, finish]) (by simp [step, finish])
  | quoted quote start w =>
      by_cases closing : c = quote
      · exact into w start begun (by simp [scan, step, closing]) (by simp [step, closing, finish])
      · by_cases same : c = '\\'
        · have opened : step quotes pos c (.quoted quote start w) =
              (none, .quotedEscape quote start w) := by
            rw [step, if_neg closing, if_pos same]
          exact into w start begun (by simp [scan, opened, finish]) (by simp [opened, finish])
        · have kept : step quotes pos c (.quoted quote start w) =
              (none, .quoted quote start (c :: w)) := by
            rw [step, if_neg closing, if_neg same]
          exact into (c :: w) start begun (by simp [scan, kept, finish]) (by simp [kept, finish])

/-- The reader is behind blanks at the end of a line exactly if a blank outside of words ends it. -/
theorem scan_endsBlank (begun : place.Begun pos) (more : cs ≠ []) :
    (scan quotes place pos cs).2 = .settled true ↔
      EndsBlank (scan quotes place pos cs).1 pos cs := by
  induction cs generalizing place pos with
  | nil => exact absurd rfl more
  | cons c cs ih =>
      cases cs with
      | nil =>
          rw [scan_last begun]
          simp [EndsBlank]
      | cons d cs =>
          obtain ⟨-, onward, ended⟩ := step_origin quotes c begun.origin_le
          have last : pos + (c :: d :: cs).length - 1 = pos + 1 + (d :: cs).length - 1 := by
            simp only [List.length_cons]
            omega
          have before : ∀ t ∈ (step quotes pos c place).1,
              ¬ t.Covers (pos + 1 + (d :: cs).length - 1) := by
            intro t there covers
            have stop := (ended t there).2.2
            have inside := covers.2
            simp only [List.length_cons] at inside
            omega
          rw [scan_snd_cons, ih (step_begun quotes c begun).1 (List.cons_ne_nil d cs)]
          simp only [EndsBlank, List.getLast?_cons_cons, last, mem_scan_cons]
          refine exists_congr fun e => and_congr_right fun _ => and_congr_right fun _ => ?_
          constructor
          · intro free t there
            exact there.elim (before t) (free t)
          · intro free t there
            exact free t (.inr there)

theorem scan_settled_iff (quotes : Bool) (line : List Char) :
    (scan quotes (.between false) 0 line).2 = .settled true ↔
      EndsBlank (scan quotes (.between false) 0 line).1 0 line := by
  cases line with
  | nil => simp [scan, finish, EndsBlank]
  | cons c cs =>
      have begun : (Place.between false).Begun 0 := trivial
      exact scan_endsBlank begun (List.cons_ne_nil c cs)

/-! ## Lines -/

/-- What a line is cut into: its words, and the empty one at its end, where that is kept. -/
theorem words?_eq_ok_iff {q : Quoting} {lenient : Bool} {line : String} {ts : List Token} :
    words? q lenient line = .ok ts ↔
      ((∃ blank, (scan q.quotes (.between false) 0 line.toList).2 = .settled blank) ∨
        (lenient || q.lenient) = true) ∧
      (scan q.quotes (.between false) 0 line.toList).1 ++
        (if q.trim then [] else
          trailing line.length (scan q.quotes (.between false) 0 line.toList).2) = ts := by
  unfold words?
  cases scan q.quotes (.between false) 0 line.toList with
  | mk tokens ending =>
      cases ending with
      | settled blank => cases blank <;> cases q.trim <;> simp [trailing]
      | openQuote | dangling =>
          cases lenient || q.lenient <;> cases q.trim <;> simp [trailing]

/-- A line is refused alike, whether the blanks at its end are passed over or not. -/
theorem words?_error_trim {q : Quoting} {lenient : Bool} {line : String} {e : ParseError}
    (refused : words? q lenient line = .error e) :
    words? { q with trim := true } lenient line = .error e := by
  unfold words? at refused ⊢
  cases cut : scan q.quotes (.between false) 0 line.toList with
  | mk tokens ending =>
      rw [cut] at refused
      cases ending with
      | settled blank => cases refused
      | openQuote | dangling => exact refused

/-- The words of a line stand in it one behind the other, and a character that is in none of them is
blank. Each has characters of the line, but for an empty one behind them: that is there exactly if
blanks at the end are not passed over and the line ends in one that is in no word. Passing over them
leaves out just this empty word, and refuses the same lines. -/
theorem words_partition (q : Quoting) (lenient : Bool) (line : String) :
    (∀ ts, tokenize (.words q) lenient line = .ok ts →
      Token.Placed 0 line.length ts ∧
      (∀ i c, line.toList[i]? = some c → (∃ t ∈ ts, t.Covers i) ∨ Text.isBlank c = true) ∧
      ∃ words, tokenize (.words { q with trim := true }) lenient line = .ok words ∧
        (∀ t ∈ words, t.start < t.stop) ∧
        ((ts = words ++ [⟨"", line.length, line.length⟩] ∧
            q.trim = false ∧ EndsBlank words 0 line.toList) ∨
          (ts = words ∧ ¬ (q.trim = false ∧ EndsBlank words 0 line.toList)))) ∧
    (∀ e, tokenize (.words q) lenient line = .error e →
      tokenize (.words { q with trim := true }) lenient line = .error e) := by
  have begun : (Place.between false).Begun 0 := trivial
  refine ⟨fun ts read => ?_, fun e refused => words?_error_trim refused⟩
  obtain ⟨accepted, rfl⟩ := words?_eq_ok_iff.mp read
  have trimmed : words? { q with trim := true } lenient line = .ok _ :=
    words?_eq_ok_iff.mpr ⟨accepted, rfl⟩
  rw [if_pos rfl, List.append_nil] at trimmed
  have settled := scan_settled_iff q.quotes line.toList
  refine ⟨placed_words read, fun i c there => ?_, _, trimmed, scan_solid begun, ?_⟩
  · have inside : i < 0 + line.toList.length := by
      rw [Nat.zero_add]
      exact (List.getElem?_eq_some_iff.mp there).1
    rcases scan_left_out begun (Nat.zero_le i) inside with
      ⟨t, word, covers⟩ | ⟨j, d, at_, same, empty⟩
    · exact .inl ⟨t, List.mem_append_left _ word, covers⟩
    · rw [Nat.zero_add] at at_
      rw [at_, same] at there
      rw [← Option.some.inj there]
      exact .inr empty
  · cases passed : q.trim with
    | true => exact .inr ⟨by simp, by simp⟩
    | false =>
        by_cases ends : (scan q.quotes (.between false) 0 line.toList).2 = .settled true
        · exact .inl ⟨by simp [trailing, ends], rfl, settled.mp ends⟩
        · exact .inr ⟨by simp [trailing, ends], fun last => ends (settled.mpr last.2)⟩

/-- A quoted word directly before a bare one, and blanks behind them. -/
theorem words_partition_blanks :
    tokenize (.words {}) false "'a'b  " = .ok [⟨"a", 0, 3⟩, ⟨"b", 3, 4⟩, ⟨"", 6, 6⟩] ∧
      tokenize (.words { trim := true }) false "'a'b  " = .ok [⟨"a", 0, 3⟩, ⟨"b", 3, 4⟩] ∧
      Token.Placed 0 "'a'b  ".length [⟨"a", 0, 3⟩, ⟨"b", 3, 4⟩, ⟨"", 6, 6⟩] := by
  have read : tokenize (.words {}) false "'a'b  " =
      .ok [⟨"a", 0, 3⟩, ⟨"b", 3, 4⟩, ⟨"", 6, 6⟩] := rfl
  exact ⟨read, rfl, ((words_partition {} false "'a'b  ").1 _ read).1⟩

end Tokenizer

end CommandGrammar
