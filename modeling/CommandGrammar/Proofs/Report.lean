import CommandGrammar.Report

/-!
# Text of unknown origin

Text of unknown origin is shown with four spaces for a tab and one line feed for every line ending.
Three replacements over the whole text, one after the other, come to what one pass from the left
does, since none of them makes what a later one looks for. What is shown has neither tabs nor
carriage returns, and only a text without them is shown as it is.
-/

namespace CommandGrammar.Report

/-- A text is shown with four spaces for a tab and a line feed for every line ending. -/
inductive Plainly : List Char → List Char → Prop
  | nil : Plainly [] []
  | tab {cs ds} (rest : Plainly cs ds) : Plainly ('\t' :: cs) (' ' :: ' ' :: ' ' :: ' ' :: ds)
  | ending {cs ds} (rest : Plainly cs ds) : Plainly ('\r' :: '\n' :: cs) ('\n' :: ds)
  | feed {cs ds} (alone : cs.head? ≠ some '\n') (rest : Plainly cs ds) :
      Plainly ('\r' :: cs) ('\n' :: ds)
  | other {c cs ds} (tab : c ≠ '\t') (feed : c ≠ '\r') (rest : Plainly cs ds) :
      Plainly (c :: cs) (c :: ds)

theorem Plainly.clean {cs ds : List Char} (h : Plainly cs ds) : '\t' ∉ ds ∧ '\r' ∉ ds := by
  induction h with
  | nil => simp
  | tab _ ih | ending _ ih | feed _ _ ih => simpa using ih
  | other tab feed _ ih => simpa [Ne.symm tab, Ne.symm feed] using ih

/-- A clean text is shown as it is. -/
theorem plainly_of_clean {cs : List Char} (tabs : '\t' ∉ cs) (returns : '\r' ∉ cs) :
    Plainly cs cs := by
  induction cs with
  | nil => exact .nil
  | cons c cs ih =>
      rw [List.mem_cons, not_or] at tabs returns
      exact .other (Ne.symm tabs.1) (Ne.symm returns.1) (ih tabs.2 returns.2)

/-! ## One pass -/

/-- The text read once from the left: a tab becomes four spaces, a carriage return becomes a line
feed, together with the line feed directly behind it if there is one, and any other character is
kept. -/
def onePass : List Char → List Char
  | [] => []
  | '\t' :: rest => ' ' :: ' ' :: ' ' :: ' ' :: onePass rest
  | '\r' :: '\n' :: rest => '\n' :: onePass rest
  | '\r' :: rest => '\n' :: onePass rest
  | c :: rest => c :: onePass rest

theorem onePass_return {cs : List Char} (alone : cs.head? ≠ some '\n') :
    onePass ('\r' :: cs) = '\n' :: onePass cs := by
  rw [onePass]
  rintro rest rfl
  exact alone rfl

theorem onePass_other {c : Char} (tab : c ≠ '\t') (feed : c ≠ '\r') (cs : List Char) :
    onePass (c :: cs) = c :: onePass cs := by
  rw [onePass]
  · exact tab
  · intro rest same
    exact absurd same feed
  · exact feed

/-- What a text is shown as is what the pass makes of it. -/
theorem Plainly.onePass_eq {cs ds : List Char} (h : Plainly cs ds) : onePass cs = ds := by
  induction h with
  | nil => rfl
  | tab _ ih => rw [onePass, ih]
  | ending _ ih => rw [onePass, ih]
  | feed alone _ ih => rw [onePass_return alone, ih]
  | other tab feed _ ih => rw [onePass_other tab feed, ih]

/-- A text is shown in one way. -/
theorem Plainly.unique {cs ds es : List Char} (h : Plainly cs ds) (h' : Plainly cs es) : ds = es :=
  h.onePass_eq.symm.trans h'.onePass_eq

/-! ## Three replacements -/

theorem spaceTabs_cons_of_ne {c : Char} (tab : c ≠ '\t') (cs : List Char) :
    spaceTabs (c :: cs) = c :: spaceTabs cs := by
  simp [spaceTabs, tab]

/-- Spaces for a tab bring no line feed to the front. -/
theorem head?_spaceTabs {cs : List Char} (h : cs.head? ≠ some '\n') :
    (spaceTabs cs).head? ≠ some '\n' := by
  cases cs with
  | nil => simp [spaceTabs]
  | cons c cs =>
      by_cases tab : c = '\t'
      · subst tab
        simp [spaceTabs]
      · rw [spaceTabs_cons_of_ne tab]
        exact h

theorem joinEndings_cons_of_ne {c : Char} (feed : c ≠ '\r') (cs : List Char) :
    joinEndings (c :: cs) = c :: joinEndings cs := by
  rw [joinEndings]
  rintro rest rfl
  exact absurd rfl feed

theorem joinEndings_return {cs : List Char} (alone : cs.head? ≠ some '\n') :
    joinEndings ('\r' :: cs) = '\r' :: joinEndings cs := by
  rw [joinEndings]
  rintro rest - rfl
  exact alone rfl

theorem plainly_of_chars (cs : List Char) :
    Plainly cs (feedReturns (joinEndings (spaceTabs cs))) := by
  induction cs using joinEndings.induct with
  | case1 cs ih => exact .ending ih
  | case2 c cs single ih =>
      by_cases tab : c = '\t'
      · subst tab
        exact .tab ih
      · rw [spaceTabs_cons_of_ne tab]
        by_cases feed : c = '\r'
        · subst feed
          have alone : cs.head? ≠ some '\n' := by
            intro next
            obtain ⟨rest, rfl⟩ := List.head?_eq_some_iff.mp next
            exact single rest rfl rfl
          -- Spaces for tabs put no line feed behind the return, so the second replacement leaves it.
          rw [joinEndings_return (head?_spaceTabs alone)]
          exact .feed alone ih
        · rw [joinEndings_cons_of_ne feed, feedReturns, List.map_cons, if_neg feed]
          exact .other tab feed ih
  | case3 => exact .nil

theorem plainly (text : String) : Plainly text.toList (plain text).toList := by
  rw [plain, String.toList_ofList]
  exact plainly_of_chars text.toList

theorem plain_eq_of_plainly {text shown : String} (h : Plainly text.toList shown.toList) :
    plain text = shown :=
  String.toList_inj.mp ((plainly text).unique h)

/-- A text is shown as it is exactly where it has neither tabs nor carriage returns. -/
theorem plain_eq_self_iff {text : String} :
    plain text = text ↔ '\t' ∉ text.toList ∧ '\r' ∉ text.toList := by
  constructor
  · intro same
    have clean := (plainly text).clean
    rwa [same] at clean
  · rintro ⟨tabs, returns⟩
    exact plain_eq_of_plainly (plainly_of_clean tabs returns)

/-- The three replacements come to one pass from the left. What they give has neither tabs nor
carriage returns, so doing them again changes nothing. -/
theorem plain_in_one_pass (text : String) :
    plain text = String.ofList (onePass text.toList) ∧
      ('\t' ∉ (plain text).toList ∧ '\r' ∉ (plain text).toList) ∧
        plain (plain text) = plain text := by
  have clean := (plainly text).clean
  refine ⟨?_, clean, plain_eq_self_iff.mpr clean⟩
  rw [(plainly text).onePass_eq, String.ofList_toList]

/-- Of several carriage returns only the last belongs to the line feed behind them. -/
example : plain "\r\r\n\t\r" = "\n\n    \n" := by
  decide +kernel

/-! ## Failures -/

/-- How a failure that was not foreseen is told. -/
structure Shows (text line : String) : Prop where
  told : ∃ shown : String, Plainly text.toList shown.toList ∧
    line = "[ERROR] Error occurred while executing command: " ++ shown
  tabs : '\t' ∉ line.toList
  returns : '\r' ∉ line.toList

theorem shows_fault (text : String) : Shows text (fault text) := by
  have same : fault text = "[ERROR] Error occurred while executing command: " ++ plain text := by
    rw [fault, error, ← String.append_assoc]
    rfl
  obtain ⟨tabs, returns⟩ := (plainly text).clean
  refine ⟨⟨plain text, plainly text, same⟩, ?_, ?_⟩
  · rw [same, String.toList_append, List.mem_append, not_or]
    exact ⟨by decide, tabs⟩
  · rw [same, String.toList_append, List.mem_append, not_or]
    exact ⟨by decide, returns⟩

example : fault "a\tb\r\nc" = "[ERROR] Error occurred while executing command: a    b\nc" := by
  decide +kernel

theorem Shows.unique {text line other : String} (h : Shows text line) (h' : Shows text other) :
    line = other := by
  obtain ⟨shown, plain, rfl⟩ := h.told
  obtain ⟨shown', plain', rfl⟩ := h'.told
  rw [String.toList_inj.mp (plain.unique plain')]

end CommandGrammar.Report
