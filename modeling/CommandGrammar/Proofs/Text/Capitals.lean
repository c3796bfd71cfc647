import CommandGrammar.Text.Case

/-!
# Capitals of ASCII text

On ASCII characters the capitals of Unicode are those of ASCII: no other rule of the tables reaches
below 128.
-/

namespace CommandGrammar.Text

variable {c : Char}

theorem lt_of_mem_upperSequences : ∀ p ∈ upperSequences, 127 < p.1 := by
  decide

/-- The first shift moves the small letters of ASCII, the others move characters behind ASCII. -/
theorem upperShifts_eq :
    ∃ rest, upperShifts = ⟨0x61, 0x7a, 1, -32⟩ :: rest ∧ ∀ s ∈ rest, 127 < s.first :=
  ⟨upperShifts.tail, rfl, by decide +kernel⟩

theorem ofNat_toUpper : ∀ n < 0x7b, 0x61 ≤ n → Char.ofNat (n - 32) = (Char.ofNat n).toUpper := by
  decide

theorem applyTable_upperShifts (ascii : c.toNat ≤ 127) :
    Shift.applyTable upperShifts c = c.toUpper := by
  obtain ⟨rest, table, behind⟩ := upperShifts_eq
  have still : rest.find? (·.moves c.toNat) = none := by
    rw [List.find?_eq_none]
    intro s there moved
    have first := behind s there
    simp only [Shift.moves, Bool.and_eq_true, decide_eq_true_eq] at moved
    omega
  rw [Shift.applyTable, table, List.find?_cons, still]
  by_cases small : 0x61 ≤ c.toNat ∧ c.toNat ≤ 0x7a
  · have moved : Shift.moves ⟨0x61, 0x7a, 1, -32⟩ c.toNat = true := by
      simp [Shift.moves, small, Nat.mod_one]
    have shifted := ofNat_toUpper c.toNat (by omega) small.1
    have distance : (c.toNat + (-32 : Int)).toNat = c.toNat - 32 := by omega
    rw [Char.ofNat_toNat] at shifted
    simp only [moved, Shift.apply, distance, shifted]
  · have kept : Shift.moves ⟨0x61, 0x7a, 1, -32⟩ c.toNat = false := by
      simp only [Shift.moves, Bool.and_eq_false_iff, decide_eq_false_iff_not]
      omega
    have same : c.toUpper = c := dif_neg small
    simp only [kept, same]

theorem upperChar_ascii (ascii : c.toNat ≤ 127) : upperChar c = [c.toUpper] := by
  have alone : upperSequences.lookup c.toNat = none := by
    rw [List.lookup_eq_none_iff]
    intro p there
    have far := lt_of_mem_upperSequences p there
    exact bne_iff_ne.mpr (by omega)
  rw [upperChar, alone, applyTable_upperShifts ascii]

/-- A character outside ASCII has no ASCII capital there. -/
theorem ascii_of_toUpper (ascii : c.toUpper.toNat ≤ 127) : c.toNat ≤ 127 := by
  by_cases small : 'a'.val ≤ c.val ∧ c.val ≤ 'z'.val
  · have last : c.toNat ≤ 'z'.toNat := small.2
    exact Nat.le_trans last (by decide)
  · have same : c.toUpper = c := dif_neg small
    rwa [same] at ascii

theorem flatMap_upperChar {cs : List Char} (ascii : ∀ c ∈ cs.map Char.toUpper, c.toNat ≤ 127) :
    cs.flatMap upperChar = cs.map Char.toUpper := by
  induction cs with
  | nil => rfl
  | cons c cs ih =>
      have head := ascii_of_toUpper (ascii c.toUpper List.mem_cons_self)
      rw [List.flatMap_cons, upperChar_ascii head, ih fun d there =>
        ascii d (List.mem_cons_of_mem _ there)]
      rfl

/-- A text whose ASCII capitals are ASCII has these capitals. -/
theorem toList_uppercase {s : String} (ascii : ∀ c ∈ s.toList.map Char.toUpper, c.toNat ≤ 127) :
    (uppercase s).toList = s.toList.map Char.toUpper := by
  rw [uppercase, String.toList_ofList, flatMap_upperChar ascii]

end CommandGrammar.Text
