import CommandGrammar.Dispatcher
import CommandGrammar.Grammar.Element

/-!
# Beginnings of names

Whether a text begins a name is told by their small letters. These depend on the letters around in one
case only: a capital sigma is final where no letter follows it. So what a name literally begins with is
known as a beginning of it, unless it stops behind a sigma that is not final in the whole name.
-/

namespace CommandGrammar.Text

variable {before after typed rest ignored : List Char} {c : Char}

/-! ## Final sigmas -/

/-- A text ends in a capital sigma that has a letter before it; signs that do not count as letters
may follow it. What stands in front of the text is given backwards. -/
def EndsInSigma (before typed : List Char) : Prop :=
  ∃ front ignored, typed = front ++ 'Σ' :: ignored ∧
    (∀ c ∈ ignored, caseIgnorable.contains c = true) ∧ meetsCased (front.reverse ++ before) = true

theorem meetsCased_ignored (skipped : ∀ c ∈ ignored, caseIgnorable.contains c = true)
    (after : List Char) : meetsCased (ignored ++ after) = meetsCased after := by
  induction ignored with
  | nil => rfl
  | cons c ignored ih =>
      rw [List.cons_append, meetsCased, if_pos (skipped c List.mem_cons_self)]
      exact ih fun d there => skipped d (List.mem_cons_of_mem c there)

/-- What is met within a text does not depend on what follows it. -/
theorem meetsCased_met (met : ¬∀ c ∈ typed, caseIgnorable.contains c = true) (after : List Char) :
    meetsCased (typed ++ after) = meetsCased typed := by
  induction typed with
  | nil => exact absurd (fun _ there => absurd there List.not_mem_nil) met
  | cons c typed ih =>
      rw [List.cons_append, meetsCased, meetsCased]
      by_cases skipped : caseIgnorable.contains c = true
      · rw [if_pos skipped, if_pos skipped]
        exact ih fun all => met (List.forall_mem_cons.mpr ⟨skipped, all⟩)
      · rw [if_neg skipped, if_neg skipped]

theorem endsInSigma_nil : ¬EndsInSigma before [] := by
  intro ⟨front, ignored, whole, _⟩
  exact absurd whole.symm (by simp)

/-- The first character decides only if it is the sigma. -/
theorem endsInSigma_cons :
    EndsInSigma before (c :: typed) ↔
      (c = 'Σ' ∧ (∀ d ∈ typed, caseIgnorable.contains d = true) ∧ meetsCased before = true) ∨
        EndsInSigma (c :: before) typed := by
  constructor
  · intro ⟨front, ignored, whole, skipped, cased⟩
    cases front with
    | nil =>
        obtain ⟨rfl, rfl⟩ := List.cons.inj whole
        exact .inl ⟨rfl, skipped, cased⟩
    | cons d front =>
        obtain ⟨rfl, rfl⟩ := List.cons.inj whole
        rw [List.reverse_cons, List.append_assoc] at cased
        exact .inr ⟨front, ignored, rfl, skipped, cased⟩
  · intro ends
    rcases ends with ⟨rfl, skipped, cased⟩ | ⟨front, ignored, rfl, skipped, cased⟩
    · exact ⟨[], typed, rfl, skipped, cased⟩
    · refine ⟨c :: front, ignored, rfl, skipped, ?_⟩
      rw [List.reverse_cons, List.append_assoc]
      exact cased

/-! ## Small letters of a beginning -/

/-- The small letters of one character, between what stands before and behind it. -/
def smallLetters (before : List Char) (c : Char) (after : List Char) : List Char :=
  if c = 'Σ' then [if sigmaIsFinal before after then 'ς' else 'σ'] else lowerChar c

theorem lowerFrom_cons (before : List Char) (c : Char) (after : List Char) :
    lowerFrom before (c :: after) = smallLetters before c after ++ lowerFrom (c :: before) after := by
  have sigma : (c.toNat == 0x3a3) = decide (c = 'Σ') := by
    rw [Bool.eq_iff_iff, beq_iff_eq, decide_eq_true_eq]
    exact Char.toNat_inj (d := 'Σ')
  rw [lowerFrom, smallLetters, sigma]
  by_cases here : c = 'Σ'
  · rw [if_pos here, if_pos (decide_eq_true here)]
    by_cases final : sigmaIsFinal before after = true
    · rw [if_pos final, if_pos final]
    · rw [if_neg final, if_neg final]
  · have other : ¬decide (c = 'Σ') = true := fun same => here (of_decide_eq_true same)
    rw [if_neg here, if_neg other]

/-- A sigma that is final before a text is not final before more text exactly if a letter comes
there. -/
theorem sigmaIsFinal_append :
    sigmaIsFinal before (typed ++ rest) = sigmaIsFinal before typed ↔
      ¬((∀ d ∈ typed, caseIgnorable.contains d = true) ∧ meetsCased before = true ∧
        meetsCased rest = true) := by
  unfold sigmaIsFinal
  by_cases skipped : ∀ d ∈ typed, caseIgnorable.contains d = true
  · have alone : meetsCased typed = false := by
      have nothing := meetsCased_ignored skipped []
      rwa [List.append_nil] at nothing
    rw [meetsCased_ignored skipped, alone, and_iff_right skipped]
    cases meetsCased before <;> cases meetsCased rest <;> decide
  · rw [meetsCased_met skipped]
    exact ⟨fun _ turned => skipped turned.1, fun _ => rfl⟩

/-- The small letters of a character are others with more text behind it exactly if it is a sigma
that turns. -/
theorem smallLetters_append :
    smallLetters before c (typed ++ rest) = smallLetters before c typed ↔
      ¬(c = 'Σ' ∧ (∀ d ∈ typed, caseIgnorable.contains d = true) ∧ meetsCased before = true ∧
        meetsCased rest = true) := by
  unfold smallLetters
  by_cases sigma : c = 'Σ'
  · rw [if_pos sigma, if_pos sigma, and_iff_right sigma, ← sigmaIsFinal_append]
    cases sigmaIsFinal before (typed ++ rest) <;> cases sigmaIsFinal before typed <;> decide
  · rw [if_neg sigma, if_neg sigma]
    exact ⟨fun _ turned => sigma turned.1, fun _ => rfl⟩

/-- The small letters of a beginning begin the small letters of the whole, unless its sigma turns. -/
theorem lowerFrom_isPrefix (before typed rest : List Char) :
    lowerFrom before typed <+: lowerFrom before (typed ++ rest) ↔
      ¬(EndsInSigma before typed ∧ meetsCased rest = true) := by
  induction typed generalizing before with
  | nil => exact ⟨fun _ turned => endsInSigma_nil turned.1, fun _ => List.nil_prefix⟩
  | cons c typed ih =>
      rw [List.cons_append, lowerFrom_cons, lowerFrom_cons, endsInSigma_cons]
      by_cases turned : c = 'Σ' ∧ (∀ d ∈ typed, caseIgnorable.contains d = true) ∧
          meetsCased before = true ∧ meetsCased rest = true
      · -- The first small letters differ already: one of them is a final sigma, the other is not.
        obtain ⟨sigma, skipped, cased, met⟩ := turned
        have other := mt smallLetters_append.mp (not_not_intro ⟨sigma, skipped, cased, met⟩)
        refine iff_of_false ?_ fun kept => kept ⟨.inl ⟨sigma, skipped, cased⟩, met⟩
        intro begun
        rw [smallLetters, smallLetters, if_pos sigma, if_pos sigma] at begun other
        exact other (congrArg (fun x => [x]) (List.cons_prefix_cons.mp begun).1.symm)
      · rw [smallLetters_append.mpr turned, List.prefix_append_right_inj, ih]
        constructor
        · intro kept ends
          rcases ends with ⟨⟨sigma, skipped, cased⟩ | later, met⟩
          · exact turned ⟨sigma, skipped, cased, met⟩
          · exact kept ⟨later, met⟩
        · intro kept ends
          exact kept ⟨.inr ends.1, ends.2⟩

/-! ## Small letters have no capital sigma -/

theorem lowerShifts_sigma :
    ∀ s ∈ lowerShifts, 0x3a3 - s.distance < s.first ∨ (s.last : Int) < 0x3a3 - s.distance := by
  decide +kernel

/-- No letter but the capital sigma itself has it as its small letter. -/
theorem applyTable_ne_sigma (other : c ≠ 'Σ') : Shift.applyTable lowerShifts c ≠ 'Σ' := by
  unfold Shift.applyTable
  cases found : lowerShifts.find? (·.moves c.toNat) with
  | none => exact other
  | some s =>
      have away := lowerShifts_sigma s (List.mem_of_find?_eq_some found)
      have moved := List.find?_some found
      simp only [Shift.moves, Bool.and_eq_true, decide_eq_true_eq] at moved
      intro sigma
      have shifted : s.apply c.toNat = 0x3a3 := by
        by_cases valid : (s.apply c.toNat).isValidChar
        · have known : Char.ofNat (s.apply c.toNat) = Char.ofNatAux _ valid := dif_pos valid
          exact congrArg Char.toNat (known.symm.trans sigma)
        · have unknown : Char.ofNat (s.apply c.toNat) = Char.ofNat 0 := dif_neg valid
          exact absurd (unknown.symm.trans sigma) (by decide)
      unfold Shift.apply at shifted
      omega

theorem sigma_not_mem_smallLetters : 'Σ' ∉ smallLetters before c after := by
  unfold smallLetters
  by_cases sigma : c = 'Σ'
  · rw [if_pos sigma]
    cases sigmaIsFinal before after <;> decide
  · rw [if_neg sigma, lowerChar]
    split
    · decide
    · exact fun there => applyTable_ne_sigma sigma (List.mem_singleton.mp there).symm

theorem sigma_not_mem_lowerFrom (before typed : List Char) : 'Σ' ∉ lowerFrom before typed := by
  induction typed generalizing before with
  | nil => exact List.not_mem_nil
  | cons c typed ih =>
      rw [lowerFrom_cons, List.mem_append, not_or]
      exact ⟨sigma_not_mem_smallLetters, ih (c :: before)⟩

/-! ## Names and what they begin with -/

/-- The sigma that a text ends in turns within a name: a letter follows it there. -/
def SigmaTurns (typed name : String) : Prop :=
  EndsInSigma [] typed.toList ∧ meetsCased (name.toList.drop typed.toList.length) = true

section Names

variable {typed name : String}

theorem startsWithIgnoringCase_iff (literal : typed.toList <+: name.toList) :
    startsWithIgnoringCase name typed = true ↔ ¬SigmaTurns typed name := by
  obtain ⟨rest, whole⟩ := literal
  unfold startsWithIgnoringCase lowercase SigmaTurns
  rw [String.toList_ofList, String.toList_ofList, List.isPrefixOf_iff_prefix, ← whole,
    lowerFrom_isPrefix, List.drop_left]

/-- No sigma turns in a text without capitals. -/
theorem not_sigmaTurns_lowercase (literal : typed.toList <+: (lowercase name).toList) :
    ¬SigmaTurns typed (lowercase name) := by
  intro ⟨⟨front, ignored, ends, _⟩, _⟩
  have there : 'Σ' ∈ typed.toList := by
    rw [ends]
    exact List.mem_append_right front List.mem_cons_self
  have kept := literal.subset there
  rw [lowercase, String.toList_ofList] at kept
  exact sigma_not_mem_lowerFrom [] name.toList kept

end Names

end CommandGrammar.Text

namespace CommandGrammar

theorem Element.offers_choice (key : String) (c : Choice) (env : Env) (s : State) :
    ((Element.choice key c).parser.complete env s).offers =
      offersFor (c.provider.names env.source) s.cursor := rfl

theorem Selection.matcher?_plain {p : Selection} (plain : p.regex = false) (typed : String) :
    p.matcher? typed = some fun name => Text.startsWithIgnoringCase name typed := by
  rw [matcher?, plain, if_neg Bool.false_ne_true]

theorem Element.offers_selection {p : Selection} {typed : String} (plain : p.regex = false)
    (key : String) (env : Env) {s : State} (next : s.cursor.peek? = some typed) :
    ((Element.selection key p).parser.complete env s).offers =
      (p.provider.names env.source).filter fun name => Text.startsWithIgnoringCase name typed := by
  change ((p.parser key).complete env s).offers = _
  simp only [Selection.parser, next, Selection.matcher?_plain plain]
  rfl

/-- What a name literally begins with begins it ignoring case, and the name is among the completions
of a choice or of a pattern, among the names that the pattern selects, and among the aliases offered by
a dispatcher that has it, exactly if no capital sigma at the end of the text turns within the name.
None does in an alias in small letters, as dispatchers keep them. -/
theorem literally_begun {typed name : String} (literal : typed.toList <+: name.toList) :
    (Text.startsWithIgnoringCase name typed = true ↔ ¬Text.SigmaTurns typed name) ∧
    (∀ (key : String) (c : Choice) (env : Env) (s : State), s.cursor.peek? = some typed →
      name ∈ c.provider.names env.source →
        (name ∈ ((Element.choice key c).parser.complete env s).offers ↔
          ¬Text.SigmaTurns typed name)) ∧
    (∀ (key : String) (p : Selection) (env : Env) (s : State), p.regex = false →
      s.cursor.peek? = some typed → name ∈ p.provider.names env.source →
        (name ∈ ((Element.selection key p).parser.complete env s).offers ↔
          ¬Text.SigmaTurns typed name)) ∧
    (∀ p : Selection, p.regex = false →
      ∃ selects, p.matcher? typed = some selects ∧
        (selects name = true ↔ ¬Text.SigmaTurns typed name)) ∧
    (∀ (C : Type) (d : Dispatcher C), name ∈ d.table.keys →
      (name ∈ d.keysFor typed ↔ ¬Text.SigmaTurns typed name)) ∧
    ∀ word, name = Text.lowercase word → ¬Text.SigmaTurns typed name := by
  have begun := Text.startsWithIgnoringCase_iff literal
  refine ⟨begun, ?_, ?_, ?_, ?_, ?_⟩
  · intro key c env s next listed
    rw [Element.offers_choice, offersFor, List.mem_filter, next, and_iff_right listed]
    exact begun
  · intro key p env s plain next listed
    rw [Element.offers_selection plain key env next, List.mem_filter, and_iff_right listed]
    exact begun
  · intro p plain
    exact ⟨_, Selection.matcher?_plain plain typed, begun⟩
  · intro C d listed
    rw [Dispatcher.keysFor, List.mem_filter, and_iff_right listed]
    exact begun
  · rintro word rfl
    exact Text.not_sigmaTurns_lowercase literal

/-- A sigma at the end of the first word stays final within the name. -/
theorem literally_begun_word :
    let c : Choice := { provider := .fixed [("ΟΔΟΣ Α", .bool true)], caseSensitive := false }
    let s : State := ⟨.ofTokens "ΟΔΟΣ" [⟨"ΟΔΟΣ", 0, 4⟩], .empty⟩
    "ΟΔΟΣ".toList <+: "ΟΔΟΣ Α".toList ∧ s.cursor.peek? = some "ΟΔΟΣ" ∧
      ∀ env, "ΟΔΟΣ Α" ∈ ((Element.choice "c" c).parser.complete env s).offers := by
  intro c s
  have literal : "ΟΔΟΣ".toList <+: "ΟΔΟΣ Α".toList := ⟨[' ', 'Α'], rfl⟩
  have next : s.cursor.peek? = some "ΟΔΟΣ" := rfl
  have kept : ¬Text.SigmaTurns "ΟΔΟΣ" "ΟΔΟΣ Α" := fun turned =>
    absurd turned.2 (by decide +kernel)
  refine ⟨literal, next, fun env => ?_⟩
  exact ((literally_begun literal).2.1 "c" c env s next List.mem_cons_self).mpr kept

/-- A name whose sigma stands between letters is not begun by itself up to the sigma: its completion
drops out there and comes back with the next letter. -/
theorem sigma_drops_out :
    let c : Choice := { provider := .fixed [("ΑΣΑ", .bool true)], caseSensitive := false }
    let typing (text : String) : State := ⟨.ofTokens text [⟨text, 0, text.length⟩], .empty⟩
    "ΑΣ".toList <+: "ΑΣΑ".toList ∧ Text.startsWithIgnoringCase "ΑΣΑ" "ΑΣ" = false ∧
      ∀ env, ((Element.choice "c" c).parser.complete env (typing "Α")).offers = ["ΑΣΑ"] ∧
        ((Element.choice "c" c).parser.complete env (typing "ΑΣ")).offers = [] ∧
        ((Element.choice "c" c).parser.complete env (typing "ΑΣΑ")).offers = ["ΑΣΑ"] := by
  intro c typing
  have typed : offersFor ["ΑΣΑ"] (typing "Α").cursor = ["ΑΣΑ"] ∧
      offersFor ["ΑΣΑ"] (typing "ΑΣ").cursor = [] ∧
      offersFor ["ΑΣΑ"] (typing "ΑΣΑ").cursor = ["ΑΣΑ"] := by
    decide +kernel
  refine ⟨⟨['Α'], rfl⟩, by decide +kernel, fun env => ?_⟩
  rw [Element.offers_choice, Element.offers_choice, Element.offers_choice]
  exact typed

end CommandGrammar
