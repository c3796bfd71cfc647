import CommandGrammar.Proofs.Flags.Completion
import CommandGrammar.Proofs.Grammar.Settled
import CommandGrammar.Proofs.Grammar.Unaware

/-!
# Values that may still grow

The value of a flag may read up to the end of the line, where its last word is still being typed.
Its element is then asked for offers at the last token, wherever the value began, and with the values
that were just read; that token is put behind the offers if they lack it. So the offers are those of
the element from where the value begins if this is one token, but a value of several tokens is asked
as if its last token were its first.
-/

namespace CommandGrammar

open Reading

namespace Completion

/-- The completion with an offer put behind the others, if they lack it. -/
def including (v : String) (c : Completion) : Completion :=
  if c.offers.contains v then c else { c with offers := c.offers ++ [v] }

/-- The completion with lines that were sent before. -/
def sentAfter (lines : List String) (c : Completion) : Completion :=
  { c with lines := lines ++ c.lines }

theorem including_offers_ne_nil (v : String) (c : Completion) : (c.including v).offers ≠ [] := by
  unfold including
  split
  · rename_i there
    intro none
    simp [none] at there
  · simp

end Completion

namespace Cursor

/-- A cursor with no token left stands behind all of them. -/
theorem consumed_of_spent {c : Cursor} (within : c.Within) (spent : c.hasNext = false) :
    c.consumed = c.tokens.length := by
  have beyond : ¬ c.consumed < c.tokens.length := by simpa [hasNext] using spent
  exact Nat.le_antisymm within (Nat.le_of_not_lt beyond)

/-- One token back from the end of a line, the last one is left. -/
theorem remaining_previous {c : Cursor} {last : String} (within : c.Within)
    (spent : c.hasNext = false) (there : c.values.getLast? = some last) :
    c.previous.remaining = [last] := by
  obtain ⟨front, split⟩ := List.getLast?_eq_some_iff.mp there
  have length : c.consumed = c.values.length := by
    rw [consumed_of_spent within spent, values, List.length_map]
  show c.values.drop (c.consumed - 1) = _
  simp [length, split]

/-- Where a cursor has come to the end of a line from its start, the line has a last token. -/
theorem exists_getLast?_of_spent {c : Cursor} (within : c.Within) (spent : c.hasNext = false)
    (moved : 0 < c.consumed) : ∃ last, c.values.getLast? = some last := by
  have ended := consumed_of_spent within spent
  have some : c.values ≠ [] := by
    intro none
    have length := congrArg List.length none
    rw [values, List.length_map, List.length_nil] at length
    omega
  exact ⟨_, List.getLast?_eq_some_getLast some⟩

/-- With a token left, the last one left is the last of all. -/
theorem getLast?_remaining {c : Cursor} (left : c.hasNext = true) :
    c.remaining.getLast? = c.values.getLast? := by
  have inside : ¬ c.values.length ≤ c.consumed := by simpa [hasNext, values] using left
  rw [remaining, List.getLast?_drop, if_neg inside, values]

end Cursor

namespace FlagScanner

/-! ## Coming to the value of a flag -/

/-- The completion of a group of letters comes to the value of one of them: the letters before it
are settled. It comes with the number of the declaration, the lines sent, and the state where the
value begins. -/
inductive Comes (f : FlagScanner) (env : Env) :
    (first : Bool) → List Char → List String → State → Nat → List String → State → Prop
  | here {first c rest lines s index} (known : f.table.short? c = some index) :
      Comes f env first (c :: rest) lines s index lines s
  | value {first c rest lines s sent t number index more u} (known : f.table.short? c = some number)
      (settled : settleEmpty s (completeValue (f.value number) env s) = .settled sent t)
      (later : Comes f env false rest (lines ++ sent) t index more u) :
      Comes f env first (c :: rest) lines s index more u
  | unknown {first c rest lines s index more u} (undeclared : f.table.short? c = none)
      (passed : (first && f.table.unknownShort = .acceptValue) = false)
      (later : Comes f env false rest lines s index more u) :
      Comes f env first (c :: rest) lines s index more u

/-- The completion of flags in a line comes to the value of a declared flag, a long one without an
inline value or a letter. -/
inductive Meets (f : FlagScanner) (env : Env) (s : State) : Nat → List String → State → Prop
  | long {lines v word c flag name index}
      (way : Loop.Passes (f.completeTurn env) ([], s) (lines, v))
      (next : Cursor.next? (State.cursor v) = some (word, c))
      (letters : String.toList word = '-' :: '-' :: flag) (cut : splitInline flag = (name, none))
      (known : f.table.long? (Text.lowercase name) = some index) :
      Meets f env s index lines { v with cursor := c }
  | short {lines v word c flag index more u}
      (way : Loop.Passes (f.completeTurn env) ([], s) (lines, v))
      (next : Cursor.next? (State.cursor v) = some (word, c))
      (letters : String.toList word = '-' :: flag) (group : ∀ long, flag ≠ '-' :: long)
      (comes : Comes f env true flag [] { v with cursor := c } index more u) :
      Meets f env s index (lines ++ more) u

variable {f : FlagScanner} {env : Env} {s u : State} {index : Nat} {lines more : List String}

section

variable (values : ∀ index, ((f.value index).parse env).Onward)

include values

theorem Comes.onward {first : Bool} {letters : List Char} (start : s.cursor.Within)
    (h : Comes f env first letters lines s index more u) : s.cursor.Onward u.cursor := by
  induction h with
  | here known => exact .refl start
  | value known settled later ih =>
      have moved := onward_of_settleEmpty values start settled
      exact moved.trans (ih moved.within)
  | unknown undeclared passed later ih => exact ih start

/-- The value of a flag begins behind the word of the flag. -/
theorem Meets.behind (h : Meets f env s index lines u) :
    u.cursor.Within ∧ 0 < u.cursor.consumed := by
  cases h with
  | long way next letters cut known =>
      have moved := Cursor.Onward.of_next? next
      obtain ⟨rfl, -⟩ := Cursor.of_next? next
      exact ⟨moved.within, Nat.succ_pos _⟩
  | short way next letters group comes =>
      have moved := Cursor.Onward.of_next? next
      obtain ⟨rfl, -⟩ := Cursor.of_next? next
      have onward := comes.onward values moved.within
      exact ⟨onward.within, Nat.lt_of_lt_of_le (Nat.succ_pos _) onward.place⟩

end

/-! ## Offers for the value -/

/-- A group offers what the value of a letter does that it comes to. -/
theorem completeShort_of_comes {first : Bool} {letters : List Char} {o : Completion}
    (h : Comes f env first letters lines s index more u)
    (offers : settleEmpty u (completeValue (f.value index) env u) = .offered o) :
    f.completeShort env first letters lines s = .offered (o.sentAfter more) := by
  induction h with
  | here known =>
      simp only [completeShort, known, offers]
      rfl
  | value known settled later ih =>
      simp only [completeShort, known, settled]
      exact ih offers
  | unknown undeclared passed later ih =>
      simp only [completeShort, undeclared, passed]
      exact ih offers

theorem settleEmpty_offered {o : Completion} (some : o.offers ≠ []) :
    settleEmpty s (.offered o) = .offered o := by
  rw [settleEmpty, if_neg]
  simp [some]

theorem completeTurn_offered {v : State} {word : String} {c : Cursor} {flag : List Char}
    {o : Completion} (next : v.cursor.next? = some (word, c)) (letters : word.toList = '-' :: flag)
    (offers : f.completeFlag env flag { v with cursor := c } = .offered o) (lines : List String) :
    f.completeTurn env (lines, v) = .inr (.offered (o.sentAfter lines)) := by
  simp only [completeTurn, next, letters, offers]
  rfl

/-- Flags offer what the value does that they come to, behind the lines sent before. -/
theorem complete_of_meets (values : ∀ index, ((f.value index).parse env).Onward)
    (start : s.cursor.Within) (h : Meets f env s index lines u) (left : u.cursor.hasNext = true)
    {o : Completion} (offers : completeValue (f.value index) env u = .offered o)
    (some : o.offers ≠ []) (body : Parser) : f.complete body env s = o.sentAfter lines := by
  have settled : settleEmpty u (completeValue (f.value index) env u) = .offered o := by
    rw [offers, settleEmpty_offered some]
  have scanned : f.completeScan env (s.cursor.weight + 1) [] s = .offered (o.sentAfter lines) := by
    have ends := ends_completeScan values start []
    cases h with
    | @long lines v word c flag name index way next letters cut known =>
        have long : f.completeFlag env ('-' :: flag) { v with cursor := c } = .offered o := by
          simp only [completeFlag, completeLong, cut, known, left, if_true]
          exact settled
        exact (ends.of_passes way).unique (.stop (completeTurn_offered next letters long lines))
    | @short lines v word c flag index more u way next letters group comes =>
        have short : f.completeFlag env flag { v with cursor := c } =
            .offered (o.sentAfter more) := by
          have letters' := completeShort_of_comes comes settled
          unfold completeFlag
          split
          · rename_i long
            exact absurd rfl (group long)
          · exact letters'
        have turn := completeTurn_offered next letters short lines
        have behind : (o.sentAfter more).sentAfter lines = o.sentAfter (lines ++ more) := by
          simp [Completion.sentAfter]
        rw [behind] at turn
        exact (ends.of_passes way).unique (.stop turn)
  unfold FlagScanner.complete
  rw [scanned]

/-- A value that reads up to the end of the line is asked for offers at the last token, which is one
of them. -/
theorem completeValue_growing {p : Parser} {t : State} {last : String}
    (read : p.parse env u = .ok () t) (moved : t.cursor.mark ≠ u.cursor.mark)
    (spent : t.cursor.hasNext = false) (word : t.cursor.previous.peek? = some last) :
    completeValue p env u =
      .offered ((p.complete env ⟨t.cursor.previous, t.context⟩).including last) := by
  unfold completeValue
  simp only [read, moved, if_false, spent, Bool.false_eq_true, word]
  rfl

end FlagScanner

namespace Element

open FlagScanner

variable {env : Env} {table : FlagTable} {values : List Element} {s u t : State} {index : Nat}
  {lines : List String} {e : Element}

/-! ## Values of several tokens -/

/-- What takes a token wherever it reads is never left out. -/
theorem TakesOne.needed {p : Element} (one : p.TakesOne env) : p.parser.isOptional = false := by
  cases p with
  | optional item default weak =>
      exfalso
      let nothing : State := ⟨.ofTokens "" [], .empty⟩
      have absent : (item.parser.optional default weak).parse env nothing = _ :=
        Parser.parse_optional_of_spent default weak rfl
      obtain ⟨context, stored⟩ := item.parser.storeDefault_eq_ok default nothing
      obtain ⟨v, next⟩ := one nothing _ (absent.trans stored)
      cases next
  | _ => rfl

/-- A sequence that begins with one token asks its first element at the last token of a line. -/
theorem complete_sequence_last {p : Element} {items : List Element} (one : p.TakesOne env)
    {last : String} (left : s.cursor.remaining = [last]) :
    (Element.sequence (p :: items)).parser.complete env s =
      Completion.none.add (p.parser.complete env s) := by
  show Parser.completeAll env (p.parser :: parsers items) s .none = _
  cases read : p.parser.parse env s with
  | error f v => exact Parser.completeAll_cons_failed read
  | ok _ v =>
      obtain ⟨w, next⟩ := one s v read
      have spent : v.cursor.hasNext = false := by
        have rest := Cursor.remaining_of_next? next
        rw [left, List.cons.injEq] at rest
        exact Cursor.hasNext_eq_false_iff.mpr rest.2.symm
      have moved : v.cursor.mark ≠ s.cursor.mark := by
        obtain ⟨place, -⟩ := Cursor.of_next? next
        simp [place, Cursor.mark]
      exact Parser.completeAll_cons_last read moved spent one.needed

/-- An element that has read one token up to the end of the line, and has left the tokens as they
are, is one token behind where it began. -/
theorem previous_of_read (within : u.cursor.Within) (read : e.parser.parse env u = .ok () t)
    (spent : t.cursor.hasNext = false) (same : t.cursor.tokens = u.cursor.tokens) {w : String}
    (one : u.cursor.remaining = [w]) : t.cursor.previous = u.cursor := by
  have raw := raw_of_read read
  have ended := Cursor.consumed_of_spent (e.onward env within read).within spent
  have length : u.cursor.tokens.length - u.cursor.consumed = 1 := by
    have counted := congrArg List.length one
    simpa [Cursor.remaining, Cursor.values] using counted
  have place : t.cursor.consumed - 1 = u.cursor.consumed := by
    rw [same] at ended
    omega
  rw [Cursor.previous, place]
  obtain ⟨⟨_, _, _⟩, _⟩ := t
  obtain ⟨⟨_, _, _⟩, _⟩ := u
  simp_all

/-- Where the value of a flag reads up to the end of the line, the flags offer what its element
offers for the last token, with the values that were read, and that token. If the value has left the
tokens as they are, this is what the element offers from where the value begins if that is one token
and nothing in the element asks how many values there are; a sequence that begins with one token
offers what its first element does. -/
theorem flags_value_growing (start : s.cursor.Within)
    (meets : (table.scanner values).Meets env s index lines u) (value : values[index]? = some e)
    (left : u.cursor.hasNext = true) (read : e.parser.parse env u = .ok () t)
    (spent : t.cursor.hasNext = false) (body : Element) :
    ∃ last, t.cursor.values.getLast? = some last ∧
      (Element.flags table values body).parser.complete env s =
        ((e.parser.complete env ⟨t.cursor.previous, t.context⟩).including last).sentAfter lines ∧
      (t.cursor.tokens = u.cursor.tokens → u.cursor.remaining.getLast? = some last ∧
        (u.cursor.remaining = [last] → e.WithoutOnlyOne →
          (Element.flags table values body).parser.complete env s =
            ((e.parser.complete env u).including last).sentAfter lines) ∧
        ∀ p items, e = .sequence (p :: items) → p.TakesOne env →
          (Element.flags table values body).parser.complete env s =
            ((Completion.none.add (p.parser.complete env ⟨t.cursor.previous, t.context⟩)).including
              last).sentAfter lines) := by
  have onward := onward_value table values env
  obtain ⟨within, behind⟩ := meets.behind onward
  have moved := e.onward env within read
  obtain ⟨last, there⟩ := Cursor.exists_getLast?_of_spent moved.within spent
    (Nat.lt_of_lt_of_le behind moved.place)
  have back := Cursor.remaining_previous moved.within spent there
  have word : t.cursor.previous.peek? = some last := by
    rw [Cursor.peek?_eq_head?, back]
    rfl
  have changed : t.cursor.mark ≠ u.cursor.mark := by
    intro still
    obtain ⟨tokens, place⟩ := Mark.mk.inj still
    rw [Cursor.hasNext, place, tokens] at spent
    cases left.symm.trans spent
  have offers : completeValue ((table.scanner values).value index) env u =
      .offered ((e.parser.complete env ⟨t.cursor.previous, t.context⟩).including last) := by
    rw [FlagTable.scanner_value value]
    exact completeValue_growing read changed spent word
  have whole : (Element.flags table values body).parser.complete env s = _ :=
    complete_of_meets onward start meets left offers (Completion.including_offers_ne_nil _ _)
      body.parser
  refine ⟨last, there, whole, fun same => ⟨?_, ?_, ?_⟩⟩
  · rw [Cursor.getLast?_remaining left, ← there, Cursor.values, Cursor.values, same]
  · intro one free
    have unaware := (free.unaware env).offers u.cursor t.context u.context
    rw [previous_of_read within read spent same one] at whole
    rw [whole, unaware]
  · rintro p items rfl one
    have first : (Element.sequence (p :: items)).parser.complete env
        ⟨t.cursor.previous, t.context⟩ = _ := complete_sequence_last one back
    rw [whole, first]

/-- A name behind its flag, which may still become a longer one. -/
theorem flags_value_growing_name :
    let names (key : String) (ns : List String) : Element :=
      .choice key { provider := .ofList (ns.map fun n => (n, .string n)), caseSensitive := true }
    let e := names "a" ["red", "redder"]
    let flags := ({} : FlagDeclarations).declare ["p"] (some e)
    let now : DateTime :=
      ⟨{ year := 2001, month := 2, day := 3 }, { hour := 4, minute := 5, second := 6, nano := 0 }⟩
    let env : Env := { source := { name := "ann" }, now }
    let s : State := ⟨.ofTokens "-p red" [⟨"-p", 0, 2⟩, ⟨"red", 3, 6⟩], .forCompletion⟩
    let u : State := { s with cursor := { s.cursor with consumed := 1 } }
    let t : State := ⟨{ s.cursor with consumed := 2 }, s.context.put "a" (.string "red")⟩
    ((flags.table.scanner flags.values).Meets env s 0 [] u ∧ s.cursor.Within ∧
      flags.values[0]? = some e ∧ u.cursor.hasNext = true ∧ e.parser.parse env u = .ok () t ∧
      t.cursor.hasNext = false) ∧
      ((Element.flags flags.table flags.values .none).parser.complete env s).offers =
        ["red", "redder"] := by
  intro names e flags now env s u t
  have within : s.cursor.Within := Nat.zero_le _
  have comes : (flags.table.scanner flags.values).Comes env true ['p'] [] u 0 [] u := .here rfl
  have spelled : "-p".toList = '-' :: ['p'] := rfl
  have meets : (flags.table.scanner flags.values).Meets env s 0 [] u :=
    .short (.here _) rfl spelled (by simp) comes
  have read : e.parser.parse env u = .ok () t := rfl
  have free : e.WithoutOnlyOne := .intro rfl (by simp [e, names, parts])
  obtain ⟨last, there, -, kept⟩ := flags_value_growing within meets rfl rfl read rfl .none
  obtain ⟨-, whole, -⟩ := kept rfl
  cases there
  rw [whole rfl free]
  exact ⟨⟨meets, within, rfl, rfl, read, rfl⟩, by decide +kernel⟩

/-- Two names behind a flag, of which the second may be another one. The first is asked again. -/
theorem flags_value_begun_anew :
    ¬ ∀ (env : Env) (table : FlagTable) (values : List Element) (body e : Element) (s u t : State)
      (index : Nat) (lines : List String) (last : String), s.cursor.Within →
      (table.scanner values).Meets env s index lines u → values[index]? = some e →
      u.cursor.hasNext = true → e.parser.parse env u = .ok () t → t.cursor.hasNext = false →
      u.cursor.remaining.getLast? = some last →
      ((Element.flags table values body).parser.complete env s).offers =
        ((e.parser.complete env u).including last).offers := by
  intro claimed
  let names (key : String) (ns : List String) : Element :=
    .choice key { provider := .ofList (ns.map fun n => (n, .string n)), caseSensitive := true }
  let e := Element.sequence [names "a" ["red"], names "b" ["gre", "green"]]
  let flags := ({} : FlagDeclarations).declare ["p"] (some e)
  let now : DateTime :=
    ⟨{ year := 2001, month := 2, day := 3 }, { hour := 4, minute := 5, second := 6, nano := 0 }⟩
  let env : Env := { source := { name := "ann" }, now }
  let s : State :=
    ⟨.ofTokens "-p red gre" [⟨"-p", 0, 2⟩, ⟨"red", 3, 6⟩, ⟨"gre", 7, 10⟩], .forCompletion⟩
  let u : State := { s with cursor := { s.cursor with consumed := 1 } }
  let t : State := ⟨{ s.cursor with consumed := 3 },
    (s.context.put "a" (.string "red")).put "b" (.string "gre")⟩
  have comes : (flags.table.scanner flags.values).Comes env true ['p'] [] u 0 [] u := .here rfl
  have spelled : "-p".toList = '-' :: ['p'] := rfl
  have meets : (flags.table.scanner flags.values).Meets env s 0 [] u :=
    .short (.here _) rfl spelled (by simp) comes
  have read : e.parser.parse env u = .ok () t := rfl
  have same := claimed env flags.table flags.values .none e s u t 0 [] "gre" (Nat.zero_le _) meets
    rfl rfl read rfl rfl
  have offered : ((Element.flags flags.table flags.values .none).parser.complete env s).offers =
      ["gre"] := by
    decide +kernel
  have wanted : ((e.parser.complete env u).including "gre").offers = ["gre", "green"] := by
    decide +kernel
  rw [offered, wanted] at same
  cases same

end Element

end CommandGrammar
