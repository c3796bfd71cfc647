import CommandGrammar.Proofs.Calendar
import CommandGrammar.Proofs.Flags.Value
import CommandGrammar.Proofs.Multimap
import CommandGrammar.Proofs.Numerals
import CommandGrammar.Proofs.Reading

/-!
# Typed arguments

What an argument of one token does with the text of that token: it takes the token in any case, and
stores the value of the text or refuses it with a message that names it. An argument for integers
takes exactly the numerals whose value fits its word; one for date-times reads each date-time back from
its text.
-/

namespace CommandGrammar

open Reading

/-! ## Single tokens -/

/-- The value of the next token, or its refusal. -/
theorem Leaf.readNext_token (l : Leaf) (env : Env) {s : State} {text : String} {behind : Cursor}
    (next : s.cursor.next? = some (text, behind)) :
    l.readNext env s =
      match l.readToken env.now.date text with
      | .ok v => .ok v ⟨behind, s.context⟩
      | .error message => .error (behind.error message) ⟨behind, s.context⟩ := by
  rw [Leaf.readNext, bind_of_ok (next_of_some next)]
  cases l.readToken env.now.date text <;> rfl

/-- An argument that reads one token consumes it, and stores its value or refuses it. -/
theorem Leaf.parse_token {l : Leaf} (single : l.readsOne = true) (key : String) (env : Env)
    {s : State} {text : String} {behind : Cursor} (next : s.cursor.next? = some (text, behind)) :
    (l.parser key).parse env s =
      match l.readToken env.now.date text with
      | .ok v => .ok () ⟨behind, s.context.put key v⟩
      | .error message => .error (behind.error message) ⟨behind, s.context⟩ := by
  have taken := l.readNext_token env next
  change (l.readValue env >>= store key) s = _
  rw [l.readValue_of_readsOne single]
  cases read : l.readToken env.now.date text with
  | ok v =>
      rw [read] at taken
      exact bind_of_ok taken _
  | error message =>
      rw [read] at taken
      exact bind_of_error taken _

/-! ## Integers -/

namespace Numeral

/-- The sizes of words that integers are stored in. -/
inductive Word where
  | int
  | long
  deriving DecidableEq, Repr

namespace Word

def bits : Word → Nat
  | int => 32
  | long => 64

/-- The argument that reads integers of this size. -/
def leaf : Word → Leaf
  | int => .integer
  | long => .long

/-- What is told about a text that stands for no integer of this size. -/
def refusal : Word → String → String
  | int, text => "Expected an integer, but input '" ++ text ++ "' was not"
  | long, text => "Expected a long, but input '" ++ text ++ "' was not"

/-- The integer that is held by a value of this size. -/
def number? : Word → Value → Option Int
  | int, .int m => some m.toInt
  | long, .long m => some m.toInt
  | _, _ => none

/-- A number stored in a word of this size. -/
def store : Word → Int → Value
  | int, n => .int (Int32.ofInt n)
  | long, n => .long (Int64.ofInt n)

/-- A text stands for a number in a word of this size: it is a numeral with this value, which is in
the range of the word. -/
def Spells (w : Word) (text : String) (n : Int) : Prop :=
  (∃ m : Written, m.chars = text.toList ∧ m.value = n) ∧
    -2 ^ (w.bits - 1) ≤ n ∧ n < 2 ^ (w.bits - 1)

variable {w : Word} {text : String} {n : Int} {v : Value}

theorem fits_iff : fits w.bits n = true ↔ -2 ^ (w.bits - 1) ≤ n ∧ n < 2 ^ (w.bits - 1) := by
  simp only [fits, Bool.and_eq_true, decide_eq_true_eq]
  rfl

/-- Nothing is lost of a number in the range of the word. -/
theorem number?_store (inRange : fits w.bits n = true) : w.number? (w.store n) = some n := by
  obtain ⟨least, most⟩ := fits_iff.mp inRange
  cases w with
  | int => exact congrArg some (Int32.toInt_ofInt_of_le least most)
  | long => exact congrArg some (Int64.toInt_ofInt_of_le least most)

/-- A value holds a number of its size only if it is that number, which is in the range. -/
theorem eq_store (holds : w.number? v = some n) : v = w.store n ∧ fits w.bits n = true := by
  cases w with
  | int =>
      cases v with
      | int m =>
          obtain rfl := Option.some.inj holds
          exact ⟨congrArg Value.int (Int32.ofInt_toInt m).symm,
            fits_iff.mpr ⟨m.le_toInt, m.toInt_lt⟩⟩
      | _ => cases holds
  | long =>
      cases v with
      | long m =>
          obtain rfl := Option.some.inj holds
          exact ⟨congrArg Value.long (Int64.ofInt_toInt m).symm,
            fits_iff.mpr ⟨m.le_toInt, m.toInt_lt⟩⟩
      | _ => cases holds

/-- A text spells a number exactly if the number is read from it and fits. -/
theorem spells_iff : w.Spells text n ↔ (prefixed text.toList).filter (fits w.bits) = some n := by
  rw [Option.filter_eq_some_iff, prefixed_eq_some_iff, fits_iff]
  rfl

theorem orMessage_map {α β : Type} (make : β → Value) (f : α → β) (message : String)
    (o : Option α) :
    Leaf.orMessage make message (o.map f) = Leaf.orMessage (fun a => make (f a)) message o := by
  cases o <;> rfl

theorem readToken_leaf (w : Word) (today : Date) (text : String) :
    w.leaf.readToken today text =
      Leaf.orMessage w.store (w.refusal text) ((prefixed text.toList).filter (fits w.bits)) := by
  cases w with
  | int => exact orMessage_map .int Int32.ofInt _ _
  | long => exact orMessage_map .long Int64.ofInt _ _

theorem readsOne_leaf (w : Word) : w.leaf.readsOne = true := by
  cases w <;> rfl

/-- The text of a number is a numeral of it, and so are its digits in a radix if it has no sign. -/
theorem exists_written (holds : w.number? v = some n)
    (shown : text = v.text ∨ ∃ (r : Radix) (k : Nat), n = k ∧ text = r.text k) :
    ∃ m : Written, m.chars = text.toList ∧ m.value = n := by
  rcases shown with rfl | ⟨r, k, rfl, rfl⟩
  · have plain : v.text = toString n := by
      obtain ⟨rfl, inRange⟩ := eq_store holds
      cases w with
      | int => exact congrArg toString (Option.some.inj holds)
      | long => exact congrArg toString (Option.some.inj holds)
    rw [plain]
    exact toString_eq_written n
  · exact r.text_eq_written k

end Word

end Numeral

/-- An argument for integers of 32 or 64 bits takes exactly the numerals whose value is in range: it
consumes the token in any case, stores the number that the text spells, and where it spells none,
refuses it with a message that names the text. So every number of the size is read back from its
text, and one that is not negative also from its digits in any radix behind the mark. -/
theorem integers_read (w : Numeral.Word) (key : String) (env : Env) {s : State} {text : String}
    {behind : Cursor} (next : s.cursor.next? = some (text, behind)) :
    let read := (Element.leaf key w.leaf).parser.parse env s
    (∀ n, (∃ v, w.number? v = some n ∧ read = .ok () ⟨behind, s.context.put key v⟩) ↔
      w.Spells text n) ∧
    (read = .error (behind.error (w.refusal text)) ⟨behind, s.context⟩ ↔ ∀ n, ¬w.Spells text n) ∧
    ∀ v n, w.number? v = some n →
      (text = v.text ∨ ∃ (r : Numeral.Radix) (k : Nat), n = k ∧ text = r.text k) →
      read = .ok () ⟨behind, s.context.put key v⟩ := by
  intro read
  have parsed : read = match (Numeral.prefixed text.toList).filter (Numeral.fits w.bits) with
      | some n => .ok () ⟨behind, s.context.put key (w.store n)⟩
      | none => .error (behind.error (w.refusal text)) ⟨behind, s.context⟩ := by
    change (w.leaf.parser key).parse env s = _
    rw [Leaf.parse_token w.readsOne_leaf key env next, w.readToken_leaf]
    cases (Numeral.prefixed text.toList).filter (Numeral.fits w.bits) <;> rfl
  have stores : ∀ n, w.Spells text n → read = .ok () ⟨behind, s.context.put key (w.store n)⟩ := by
    intro n spelled
    rw [parsed, Numeral.Word.spells_iff.mp spelled]
  refine ⟨fun n => ⟨?_, ?_⟩, ⟨?_, ?_⟩, ?_⟩
  · rintro ⟨v, holds, stored⟩
    rw [Numeral.Word.spells_iff]
    rw [parsed] at stored
    cases found : (Numeral.prefixed text.toList).filter (Numeral.fits w.bits) with
    | none =>
        rw [found] at stored
        cases stored
    | some m =>
        rw [found] at stored
        injection stored with _ states
        injection states with _ contexts
        rw [← Multimap.insert_inj (congrArg Context.values contexts)] at holds
        rw [← holds, Numeral.Word.number?_store (Option.filter_eq_some_iff.mp found).2]
  · intro spelled
    exact ⟨w.store n, Numeral.Word.number?_store (Numeral.Word.fits_iff.mpr spelled.2),
      stores n spelled⟩
  · intro refused n spelled
    rw [stores n spelled] at refused
    cases refused
  · intro unspelled
    rw [parsed]
    cases found : (Numeral.prefixed text.toList).filter (Numeral.fits w.bits) with
    | none => rfl
    | some m => exact absurd (Numeral.Word.spells_iff.mpr found) (unspelled m)
  · intro v n holds shown
    obtain ⟨rfl, inRange⟩ := Numeral.Word.eq_store holds
    exact stores n ⟨Numeral.Word.exists_written holds shown, Numeral.Word.fits_iff.mp inRange⟩

/-- The least number of 32 bits, whose sign stands behind the mark. -/
theorem integers_read_of_least :
    let now : DateTime :=
      ⟨{ year := 2001, month := 2, day := 3 }, { hour := 4, minute := 5, second := 6, nano := 0 }⟩
    let env : Env := { source := { name := "ann" }, now }
    let s : State := ⟨.ofTokens "0x-80000000" [⟨"0x-80000000", 0, 11⟩], .empty⟩
    let behind : Cursor := { s.cursor with consumed := 1 }
    s.cursor.next? = some ("0x-80000000", behind) ∧
      Numeral.Word.int.Spells "0x-80000000" (-2147483648) ∧
      ∃ v, Numeral.Word.int.number? v = some (-2147483648) ∧
        (Element.leaf "n" .integer).parser.parse env s = .ok () ⟨behind, s.context.put "n" v⟩ := by
  intro now env s behind
  have next : s.cursor.next? = some ("0x-80000000", behind) := by rfl
  have spelled : Numeral.Word.int.Spells "0x-80000000" (-2147483648) := by
    let m := Numeral.Written.ofNat .hexadecimal (some .minus) 0x80000000
    exact ⟨⟨m, rfl, Numeral.Written.value_ofNat _ _ _⟩, by decide, by decide⟩
  exact ⟨next, spelled, ((integers_read .int "n" env next).1 _).mpr spelled⟩

/-! ## Date-times -/

/-- An argument for date-times reads a date-time back from its text: the date, a `T`, the time and a
fraction that is left out or has three, six or nine digits. The text is read as a full date-time; a
time alone and a date alone would not be read from it. -/
theorem dateTimes_read (orNow : Bool) (key : String) (env : Env) (dt : DateTime) {s : State}
    {behind : Cursor} (next : s.cursor.next? = some ((Value.dateTime dt).text, behind)) :
    (Element.leaf key (.dateTime orNow)).parser.parse env s =
        .ok () ⟨behind, s.context.put key (.dateTime dt)⟩ ∧
      DateTime.readFull (Value.dateTime dt).text.toList = some dt ∧
      DateTime.readClock (Value.dateTime dt).text.toList = none ∧
      DateTime.readDate (Value.dateTime dt).text.toList = none ∧
      ∃ fraction, (Value.dateTime dt).text =
          dt.date.text ++ "T" ++ dt.time.clockText ++ fraction ∧
        (fraction = "" ∨ ∃ ds, fraction.toList = '.' :: ds ∧ ds.length ∈ [3, 6, 9] ∧
          ∀ c ∈ ds, c.isDigit = true) := by
  have read : (Leaf.dateTime orNow).readToken env.now.date (Value.dateTime dt).text =
      .ok (.dateTime dt) :=
    congrArg (Leaf.orMessage Value.dateTime _) (DateTime.ofString?_of_text env.now.date dt)
  have value : (Leaf.dateTime orNow).readNext env s = .ok (.dateTime dt) ⟨behind, s.context⟩ := by
    rw [Leaf.readNext_token _ env next, read]
  have stored : (Element.leaf key (.dateTime orNow)).parser.parse env s =
      .ok () ⟨behind, s.context.put key (.dateTime dt)⟩ := by
    cases orNow with
    | false => exact bind_of_ok value _
    | true => exact bind_of_ok (orElse_of_ok value _) _
  refine ⟨stored, dt.readFull_text, dt.readClock_text, dt.readDate_text,
    TimeOfDay.fractionText dt.time.nano, ?_, DateTime.fractionText_digits dt.time.nano_lt⟩
  exact String.append_assoc.symm

/-- The last microsecond of a leap day, whose fraction has six digits. -/
theorem dateTimes_read_of_leapDay :
    let now : DateTime :=
      ⟨{ year := 2001, month := 2, day := 3 }, { hour := 4, minute := 5, second := 6, nano := 0 }⟩
    let env : Env := { source := { name := "ann" }, now }
    let dt : DateTime :=
      ⟨{ year := 2024, month := 2, day := 29 },
        { hour := 23, minute := 59, second := 59, nano := 999999000 }⟩
    let text := "2024-02-29T23:59:59.999999"
    let s : State := ⟨.ofTokens text [⟨text, 0, 26⟩], .empty⟩
    let behind : Cursor := { s.cursor with consumed := 1 }
    s.cursor.next? = some ((Value.dateTime dt).text, behind) ∧
      (Element.leaf "at" (.dateTime false)).parser.parse env s =
        .ok () ⟨behind, s.context.put "at" (.dateTime dt)⟩ := by
  intro now env dt text s behind
  have written : (Value.dateTime dt).text = text := by decide +kernel
  have next : s.cursor.next? = some ((Value.dateTime dt).text, behind) := by
    rw [written]
    rfl
  exact ⟨next, (dateTimes_read false "at" env dt next).1⟩

end CommandGrammar
