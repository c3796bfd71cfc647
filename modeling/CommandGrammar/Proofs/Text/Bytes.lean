import Mathlib.Data.String.Basic
import Mathlib.Tactic.SplitIfs

/-!
# The bytes of texts

Texts stand in the order of the numbers of their characters. The same order comes from their bytes in
UTF-8: a character with a greater number never begins with a lesser byte, and where two characters
share their first bytes the first one that differs decides.
-/

namespace CommandGrammar.Text

/-- The bytes of a text. -/
def bytes (s : String) : List UInt8 :=
  s.toUTF8.data.toList

theorem bytes_eq (s : String) : bytes s = s.toList.flatMap String.utf8EncodeChar := by
  rw [bytes, String.toUTF8, ← String.utf8Encode_toList, List.utf8Encode, List.data_toByteArray]

/-! ## One character -/

variable {m n : Nat} {xs ys : List UInt8}

theorem ofNat_cons_lt (hm : m < 256) (hn : n < 256) :
    UInt8.ofNat m :: xs < UInt8.ofNat n :: ys ↔ m < n ∨ m = n ∧ xs < ys := by
  rw [List.cons_lt_cons_iff, UInt8.lt_iff_toNat_lt, ← UInt8.toNat_inj, UInt8.toNat_ofNat',
    UInt8.toNat_ofNat', Nat.mod_eq_of_lt hm, Nat.mod_eq_of_lt hn]

/-- The lesser of two numbers has lesser digits before the last, or the same and a lesser last one. -/
theorem digits_lt (lt : m < n) : m / 64 < n / 64 ∨ m / 64 = n / 64 ∧ m % 64 < n % 64 := by
  omega

theorem utf8EncodeChar_ne_nil (c : Char) : String.utf8EncodeChar c ≠ [] := by
  unfold String.utf8EncodeChar
  dsimp only
  split_ifs <;> exact List.cons_ne_nil _ _

/-- The bytes of a lesser character come first, whatever stands behind them. -/
theorem utf8EncodeChar_lt {c d : Char} (lt : c < d) (xs ys : List UInt8) :
    String.utf8EncodeChar c ++ xs < String.utf8EncodeChar d ++ ys := by
  have order : c.val.toNat < d.val.toNat := lt
  have top : d.val.toNat < 1114112 := by
    have valid := d.valid
    rw [UInt32.isValidChar, Nat.isValidChar] at valid
    omega
  unfold String.utf8EncodeChar
  dsimp only
  generalize c.val.toNat = m at *
  generalize d.val.toNat = n at *
  by_cases four : 65535 < m
  · -- Both have four bytes, whose digits are compared one after the other.
    have thirds : m / 4096 = m / 64 / 64 ∧ n / 4096 = n / 64 / 64 := by omega
    have fourths : m / 262144 = m / 64 / 64 / 64 ∧ n / 262144 = n / 64 / 64 / 64 := by omega
    rw [if_neg (by omega), if_neg (by omega), if_neg (by omega), if_neg (by omega),
      if_neg (by omega), if_neg (by omega)]
    simp (disch := omega) only [List.cons_append, List.nil_append, ofNat_cons_lt]
    rw [thirds.1, thirds.2, fourths.1, fourths.2]
    rcases digits_lt order with high | ⟨high, low⟩
    · rcases digits_lt high with higher | ⟨higher, low⟩
      · rcases digits_lt higher with highest | ⟨highest, low⟩
        · exact .inl (by omega)
        · exact .inr ⟨by omega, .inl (by omega)⟩
      · exact .inr ⟨by omega, .inr ⟨by omega, .inl (by omega)⟩⟩
    · exact .inr ⟨by omega, .inr ⟨by omega, .inr ⟨by omega, .inl (by omega)⟩⟩⟩
  · split_ifs <;>
      simp (disch := omega) only [List.cons_append, List.nil_append, ofNat_cons_lt] <;> omega

/-! ## Texts -/

theorem flatMap_utf8EncodeChar_lt {cs ds : List Char} (lt : cs < ds) :
    cs.flatMap String.utf8EncodeChar < ds.flatMap String.utf8EncodeChar := by
  induction cs generalizing ds with
  | nil =>
      cases ds with
      | nil => exact absurd lt (List.lt_irrefl _)
      | cons d ds =>
          obtain ⟨b, bs, encoded⟩ := List.exists_cons_of_ne_nil (utf8EncodeChar_ne_nil d)
          rw [List.flatMap_cons, encoded]
          exact List.nil_lt_cons _ _
  | cons c cs ih =>
      cases ds with
      | nil => exact absurd lt (List.not_lt_nil _)
      | cons d ds =>
          rw [List.flatMap_cons, List.flatMap_cons]
          rcases List.cons_lt_cons_iff.mp lt with first | ⟨rfl, rest⟩
          · exact utf8EncodeChar_lt first _ _
          · exact List.append_left_lt (ih rest)

theorem bytes_lt_iff {s t : String} : bytes s < bytes t ↔ s < t := by
  rw [bytes_eq, bytes_eq, String.lt_iff_toList_lt]
  constructor
  · intro lt
    by_contra other
    rcases List.le_iff_lt_or_eq.mp (List.not_lt.mp other) with greater | same
    · exact List.lt_asymm lt (flatMap_utf8EncodeChar_lt greater)
    · rw [same] at lt
      exact List.lt_irrefl _ lt
  · exact flatMap_utf8EncodeChar_lt

/-- Texts stand in the order of their bytes. -/
theorem bytes_le_iff {s t : String} : bytes s ≤ bytes t ↔ s ≤ t := by
  rw [← List.not_lt, bytes_lt_iff, String.not_lt]

end CommandGrammar.Text
