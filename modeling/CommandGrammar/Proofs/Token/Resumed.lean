import CommandGrammar.Proofs.Token.Lead
import CommandGrammar.Proofs.Token.Spans
import CommandGrammar.Proofs.Token.Unfinished

/-!
# Lines read on from their middle

Reading a line is reading a part of it and then reading on, from the place where that ended. So the
last word of a line can be replaced without reading the rest anew: a word without special characters
is one token there, unless a quote is open or the space before it is escaped.
-/

namespace CommandGrammar

namespace Tokenizer

/-- The words that a part of a line ends, and the place behind it. -/
def walk (quotes : Bool) : Place → (pos : Nat) → List Char → List Token × Place
  | place, _, [] => ([], place)
  | place, pos, c :: rest =>
    let (token, place) := step quotes pos c place
    let (tokens, place) := walk quotes place (pos + 1) rest
    (token.toList ++ tokens, place)

/-- The characters so far of the word that is being read, the last one first. -/
def Place.letters : Place → List Char
  | .between _ => []
  | .bare _ w | .bareEscape _ w | .quoted _ _ w | .quotedEscape _ _ w => w

/-- The empty word that blanks at the end of a line stand for. -/
def trailing (length : Nat) (ending : Ending) : List Token :=
  if ending = .settled true then [⟨"", length, length⟩] else []

variable {quotes : Bool} {place : Place} {pos : Nat} {lead rest : List Char}

theorem walk_append : walk quotes place pos (lead ++ rest) =
    ((walk quotes place pos lead).1 ++
        (walk quotes (walk quotes place pos lead).2 (pos + lead.length) rest).1,
      (walk quotes (walk quotes place pos lead).2 (pos + lead.length) rest).2) := by
  induction lead generalizing place pos with
  | nil => rfl
  | cons c lead ih =>
      have ahead : pos + (c :: lead).length = pos + 1 + lead.length := by
        rw [List.length_cons]
        omega
      simp only [List.cons_append, walk, ih, ahead, List.append_assoc]

/-- A line is read on from the place behind a part of it. -/
theorem scan_append : scan quotes place pos (lead ++ rest) =
    ((walk quotes place pos lead).1 ++
        (scan quotes (walk quotes place pos lead).2 (pos + lead.length) rest).1,
      (scan quotes (walk quotes place pos lead).2 (pos + lead.length) rest).2) := by
  induction lead generalizing place pos with
  | nil => rfl
  | cons c lead ih =>
      have ahead : pos + (c :: lead).length = pos + 1 + lead.length := by
        rw [List.length_cons]
        omega
      simp only [List.cons_append, walk, scan, ih, ahead, List.append_assoc]

theorem scan_snd_eq_finish : (scan quotes place pos lead).2 =
    (finish (pos + lead.length) (walk quotes place pos lead).2).2 := by
  have read : scan quotes place pos (lead ++ []) = _ := scan_append
  rw [List.append_nil] at read
  rw [read]
  rfl

theorem walk_proper (proper : place.Proper quotes) :
    (walk quotes place pos lead).2.Proper quotes := by
  induction lead generalizing place pos with
  | nil => exact proper
  | cons c lead ih => exact ih (step_proper proper)

theorem walk_inEscape (proper : place.Proper quotes) :
    (walk quotes place pos lead).2.inEscape = lead.foldl escapes place.inEscape := by
  induction lead generalizing place pos with
  | nil => rfl
  | cons c lead ih =>
      have stepped : (step quotes pos c place).2.inEscape = escapes place.inEscape c :=
        step_inEscape proper
      rw [List.foldl_cons, ← stepped]
      exact ih (step_proper proper)

/-! ## Behind a space -/

/-- Where a word may begin: at the start of a text, or behind a space. -/
def Spaced (lead : List Char) : Prop :=
  lead = [] ∨ ∃ front, lead = front ++ [' ']

/-- No quote is open where a word begins, and the space before it is not escaped. -/
def Fresh (lead : List Char) : Prop :=
  ¬ OpensQuote true lead ∧ backslashes lead.dropLast % 2 = 0

/-- A space ends what is read, or it is taken into a word: behind a backslash, or in a quote. -/
theorem step_space (pos : Nat) (proper : place.Proper true) :
    (place.inEscape = false ∧ (step true pos ' ' place).2 = .between true) ∨
    ((step true pos ' ' place).2.inEscape = false ∧
      (∃ w, (step true pos ' ' place).2.letters = ' ' :: w) ∧
      (place.inEscape = true ∨
        ∀ stop, (finish stop (step true pos ' ' place).2).2 = .openQuote)) := by
  have blank : Text.isBlank ' ' = true := rfl
  cases place with
  | between b => exact .inl ⟨rfl, by simp [step, blank]⟩
  | bare start w => exact .inl ⟨rfl, by simp [step, blank]⟩
  | bareEscape start w => exact .inr ⟨rfl, ⟨w, rfl⟩, .inl rfl⟩
  | quoted quote start w =>
      have other : ' ' ≠ quote := by
        rintro rfl
        exact absurd blank (by simp [(isQuote_ne proper.2).2])
      have read : step true pos ' ' (.quoted quote start w) =
          (none, .quoted quote start (' ' :: w)) := by
        simp [step, other]
      rw [read]
      exact .inr ⟨rfl, ⟨w, rfl⟩, .inr fun _ => rfl⟩
  | quotedEscape quote start w => exact .inr ⟨rfl, ⟨w, rfl⟩, .inl rfl⟩

/-- Where a word begins afresh, the reader is between words. Elsewhere it is in a word that has a
space in it. -/
theorem walk_spaced (spaced : Spaced lead) :
    (Fresh lead ∧ ∃ blank, (walk true (.between false) 0 lead).2 = .between blank ∧
      (blank = false → lead = [])) ∨
    (¬ Fresh lead ∧ (walk true (.between false) 0 lead).2.inEscape = false ∧
      ∃ w, (walk true (.between false) 0 lead).2.letters = ' ' :: w) := by
  have start : (Place.between false).Proper true := trivial
  obtain ⟨opened, -⟩ := scan_ending true lead
  rw [scan_snd_eq_finish] at opened
  rcases spaced with rfl | ⟨front, rfl⟩
  · refine .inl ⟨⟨fun opens => ?_, rfl⟩, false, rfl, fun _ => rfl⟩
    cases opened.mpr opens
  · have escaped : (walk true (.between false) 0 front).2.inEscape = true ↔
        backslashes front % 2 = 1 := by
      rw [walk_inEscape start]
      exact foldl_escapes front
    have last : (walk true (.between false) 0 (front ++ [' '])).2 =
        (step true (0 + front.length) ' ' (walk true (.between false) 0 front).2).2 := by
      rw [walk_append]
      rfl
    unfold Fresh
    rw [List.dropLast_concat]
    rw [last] at opened ⊢
    have proper : (walk true (.between false) 0 front).2.Proper true := walk_proper start
    rcases step_space (0 + front.length) proper with
      ⟨plain, ended⟩ | ⟨plain, inside, because⟩
    · rw [ended] at opened ⊢
      refine .inl ⟨⟨fun opens => ?_, ?_⟩, true, rfl, by simp⟩
      · cases opened.mpr opens
      · have even : ¬ backslashes front % 2 = 1 := by simp [← escaped, plain]
        omega
    · refine .inr ⟨fun fresh => ?_, plain, inside⟩
      rcases because with escape | quoted
      · have odd := escaped.mp escape
        omega
      · exact fresh.1 (opened.mp (quoted _))

/-! ## A word without special characters -/

theorem isPlain_iff {c : Char} :
    isPlain c = true ↔ Text.isBlank c = false ∧ isQuote c = false ∧ c ≠ '\\' := by
  simp [isPlain, and_assoc]

theorem Plain.spells {special : Char → Bool} {w : String} (plain : Plain w)
    (ordinary : ∀ c, isPlain c = true → special c = false) : Spells special w.toList w.toList := by
  have free : ∀ c ∈ w.toList, special c = false :=
    fun c hc => ordinary c (List.all_eq_true.mp plain.solid c hc)
  have spelled := spells_escaped special w.toList
  rw [escaped_of_plain free] at spelled
  exact spelled

/-- A word without special characters goes on the word that is being read, and ends with the
line. -/
theorem scan_plain (pos : Nat) {w : String} (plain : Plain w) (proper : place.Proper true)
    (unescaped : place.inEscape = false) :
    ∃ t ending, scan true place pos w.toList = ([t], ending) ∧ ending ≠ .settled true ∧
      t.value = String.ofList (place.letters.reverse ++ w.toList) := by
  have bare : Spells specialBare w.toList w.toList := by
    refine plain.spells fun c ordinary => ?_
    obtain ⟨solid, -, other⟩ := isPlain_iff.mp ordinary
    simp [specialBare, solid, other]
  cases place with
  | between b =>
      cases characters : w.toList with
      | nil => exact absurd (String.toList_eq_nil_iff.mp characters) plain.visible
      | cons c cs =>
          have first : isPlain c = true :=
            List.all_eq_true.mp plain.solid c (by simp [characters])
          have unquoted : (true && isQuote c) = false := (isPlain_iff.mp first).2.1
          rw [characters] at bare
          have read : scan true (.between b) pos (c :: cs ++ []) = _ :=
            scan_startBare unquoted bare b
          rw [List.append_nil] at read
          rw [read]
          exact ⟨_, _, rfl, by simp, by simp [word, Place.letters]⟩
  | bare start v =>
      have read : scan true (.bare start v) pos (w.toList ++ []) = _ := scan_bare start bare v
      rw [List.append_nil] at read
      rw [read]
      exact ⟨_, _, rfl, by simp, by simp [word, Place.letters]⟩
  | bareEscape start v | quotedEscape _ start v => cases unescaped
  | quoted quote start v =>
      have inside : Spells (specialIn quote) w.toList w.toList := by
        refine plain.spells fun c ordinary => ?_
        obtain ⟨-, unquoted, other⟩ := isPlain_iff.mp ordinary
        have apart : c ≠ quote := by
          rintro rfl
          rw [proper.2] at unquoted
          cases unquoted
        simp [specialIn, apart, other]
      have read : scan true (.quoted quote start v) pos (w.toList ++ []) = _ :=
        scan_quoted (isQuote_ne proper.2).1 start inside v
      rw [List.append_nil] at read
      rw [read]
      exact ⟨_, _, rfl, by simp, by simp [word, Place.letters]⟩

/-! ## The last word replaced -/

/-- A line that is still being typed is always read. -/
theorem words?_lenient (line : List Char) : words? {} true (String.ofList line) =
    .ok ((scan true (.between false) 0 line).1 ++
      trailing line.length (scan true (.between false) 0 line).2) := by
  unfold words?
  rw [String.toList_ofList, String.length_ofList]
  cases scan true (.between false) 0 line with
  | mk tokens ending =>
      cases ending with
      | settled blank => cases blank <;> simp [trailing]
      | openQuote | dangling => simp [trailing]

theorem dropLast_append_eq_left_iff {α : Type} {front last : List α} (h : last = [] → front = []) :
    (front ++ last).dropLast = front ↔ last.length ≤ 1 := by
  constructor
  · intro same
    have length := congrArg List.length same
    rw [List.length_dropLast, List.length_append] at length
    cases last with
    | nil => exact Nat.zero_le 1
    | cons a last =>
        rw [List.length_cons] at length ⊢
        omega
  · intro short
    match last with
    | [] => simp [h rfl]
    | [a] => exact List.dropLast_concat

/-- The word that is being read is the next token. -/
theorem scan_inWord (quotes : Bool) (pos : Nat) (text : List Char)
    (inside : ∀ blank, place ≠ .between blank) :
    ∃ t ts, (scan quotes place pos text).1 = t :: ts ∧ t.start = place.origin pos := by
  induction text generalizing place pos with
  | nil =>
      cases place with
      | between blank => exact absurd rfl (inside blank)
      | bare _ _ | bareEscape _ _ | quoted _ _ _ | quotedEscape _ _ _ => exact ⟨_, _, rfl, rfl⟩
  | cons c text ih =>
      rcases step_inWord quotes pos c inside with
        ⟨t, blank, ended, start⟩ | ⟨next, kept, within, origin⟩
      · rw [scan_cons_some ended]
        exact ⟨t, _, rfl, start⟩
      · rw [scan_cons_none kept, ← origin]
        exact ih (pos + 1) within

/-- Behind a blank there is a token, if only an empty one. -/
theorem scan_behind_blank {text : List Char} {length : Nat} :
    (scan quotes (.between true) pos text).1 ++
      trailing length (scan quotes (.between true) pos text).2 ≠ [] := by
  induction text generalizing pos with
  | nil => exact List.cons_ne_nil _ _
  | cons c text ih =>
      rcases step_between quotes pos c true with passed | started
      · rw [scan_cons_none passed]
        exact ih
      · obtain ⟨t, ts, read, -⟩ := scan_inWord quotes (pos + 1) text (startWord_ne quotes pos c)
        rw [scan_cons_none started, read]
        exact List.cons_ne_nil _ _

/-- Between words, a text is read as it is by itself, and blanks in front of nothing are a word. -/
theorem length_scan_between (blank : Bool) (text : List Char) (length : Nat) :
    ((scan true (.between blank) pos text).1 ++
        trailing length (scan true (.between blank) pos text).2).length ≤ 1 ↔
      ((scan true (.between false) 0 text).1 ++
        trailing text.length (scan true (.between false) 0 text).2).length ≤ 1 := by
  cases text with
  | nil => cases blank <;> simp [scan, finish, trailing]
  | cons c text =>
      have further : scan true ((Place.between false).shift pos) (0 + pos) (c :: text) = _ :=
        scan_shift
      rw [Nat.zero_add] at further
      have moved : scan true (.between blank) pos (c :: text) = _ :=
        (scan_between_cons blank false).trans further
      rw [moved]
      unfold trailing
      split <;> simp

/-- A word without special characters in the place of another one at the end of a line: it is the
last token and the tokens before are the same exactly if the word that was there begins afresh and
is one token at most. -/
theorem replaced_iff {w : String} (plain : Plain w) (spaced : Spaced lead) (last : List Char) :
    ∃ ts us vs, words? {} true (String.ofList (lead ++ last)) = .ok ts ∧
      words? {} true (String.ofList (lead ++ w.toList)) = .ok us ∧
      words? {} true (String.ofList last) = .ok vs ∧
      (us.map (·.value) = (ts.map (·.value)).dropLast ++ [w] ↔ Fresh lead ∧ vs.length ≤ 1) := by
  refine ⟨_, _, _, words?_lenient _, words?_lenient _, words?_lenient _, ?_⟩
  rw [scan_append, scan_append]
  dsimp only
  have proper : (walk true (.between false) 0 lead).2.Proper true := walk_proper trivial
  have inEscape : (walk true (.between false) 0 lead).2.inEscape = false := by
    rcases walk_spaced spaced with ⟨-, blank, place, -⟩ | ⟨-, free, -⟩
    · rw [place]
      rfl
    · exact free
  obtain ⟨t, ending, read, ended, value⟩ :=
    scan_plain (0 + lead.length) plain proper inEscape
  rw [read]
  have nothing : ∀ length, trailing length ending = [] := by
    intro length
    rw [trailing, if_neg ended]
  simp only [nothing, List.append_nil, List.map_append, List.map_cons, List.map_nil]
  -- A word that begins afresh is a token by itself. Elsewhere the space before it is in its token.
  rcases walk_spaced spaced with ⟨fresh, blank, place, start⟩ | ⟨stale, -, v, letters⟩
  · rw [place] at value ⊢
    have same : t.value = w := by simpa [Place.letters] using value
    rw [same, List.append_left_inj, eq_comm, List.append_assoc, ← List.map_append,
      dropLast_append_eq_left_iff, List.length_map, length_scan_between]
    · exact ⟨fun short => ⟨fresh, short⟩, fun both => both.2⟩
    · intro none
      cases blank with
      | true => exact absurd (List.map_eq_nil_iff.mp none) scan_behind_blank
      | false =>
          rw [start rfl]
          rfl
  · have other : t.value ≠ w := by
      intro same
      rw [value, letters] at same
      have length := congrArg String.length same
      simp only [String.length_ofList, List.length_append, List.length_reverse, List.length_cons,
        String.length_toList] at length
      omega
    refine ⟨fun equal => ?_, fun both => absurd both.1 stale⟩
    have tail := List.append_inj_right' equal rfl
    exact absurd (List.cons.inj tail).1 other

end Tokenizer

end CommandGrammar
