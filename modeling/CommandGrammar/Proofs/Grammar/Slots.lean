import CommandGrammar.Proofs.Grammar.LineEnd

/-!
# Optional slots

A sequence of names, some of which may be left out. The last word of a line may be any of the names up
to the first that cannot be left out, so all of these that it begins are offered, whether it is already
one of them or not.
-/

namespace CommandGrammar

open Reading

/-! ## Lists without repetitions -/

theorem appendNew_append (xs ys zs : List String) :
    appendNew (appendNew xs ys) zs = appendNew xs (ys ++ zs) := by
  simp [appendNew, List.foldl_append]

/-- What a list lacks of another is put behind it, each item where it first stands there. -/
theorem appendNew_eq (xs ys : List String) :
    appendNew xs ys = xs ++ (ys.removeAll xs).eraseDups := by
  induction ys generalizing xs with
  | nil => simp [appendNew, List.removeAll]
  | cons y ys ih =>
      simp only [appendNew, List.foldl_cons] at ih ⊢
      rw [ih]
      by_cases there : y ∈ xs
      · simp [there, List.removeAll]
      · simp [there, List.removeAll, List.eraseDups_cons, Bool.and_comm, List.filter_filter,
          Bool.beq_eq_decide_eq]

/-! ## One slot -/

/-- One name of a set in a sequence, and whether it may be left out, with the value that then stands
for it. -/
structure Slot where
  key : String
  choice : Choice
  optional : Bool
  default : Option Value := none

namespace Slot

def name (k : Slot) : Parser :=
  k.choice.parser k.key

/-- The argument: one that may be left out counts as absent whenever it does not read. -/
def element (k : Slot) : Element :=
  if k.optional then .optional (.choice k.key k.choice) k.default true
  else .choice k.key k.choice

/-- The names of the slot that a text begins, ignoring case. -/
def begun (source : Source) (typed : String) (k : Slot) : List String :=
  (k.choice.provider.names source).filter fun n => Text.startsWithIgnoringCase n typed

/-- The slots that the last word may belong to: up to the first that is needed. -/
def reached : List Slot → List Slot
  | [] => []
  | k :: rest => k :: if k.optional then reached rest else []

variable {env : Env} {s : State} {typed : Option String}

theorem complete_element (k : Slot) (left : s.cursor.remaining = typed.toList) :
    k.element.parser.complete env s = .ofList (k.begun env.source (typed.getD "")) := by
  have peeked : s.cursor.peek?.getD "" = typed.getD "" := by
    rw [Cursor.peek?_eq_head?, left]
    cases typed <;> rfl
  have offers : k.name.complete env s = .ofList (k.begun env.source (typed.getD "")) := by
    change Completion.ofList (offersFor _ s.cursor) = _
    rw [offersFor, peeked]
    rfl
  unfold element
  split <;> exact offers

/-- A name is refused, or it is the last word. -/
theorem parse_name (k : Slot) (env : Env) (left : s.cursor.remaining = typed.toList) :
    (∃ e t, k.name.parse env s = .error e t) ∨
      ∃ t, k.name.parse env s = .ok () t ∧ t.cursor.mark ≠ s.cursor.mark ∧
        t.cursor.hasNext = false := by
  cases next : s.cursor.next? with
  | none => exact .inl ⟨_, _, bind_of_error (next_of_none next) _⟩
  | some pair =>
      obtain ⟨word, c⟩ := pair
      have taken : k.name.parse env s = _ := bind_of_ok (next_of_some next) _
      cases known : k.choice.lookup env.source word with
      | none =>
          rw [known] at taken
          exact .inl ⟨_, _, taken⟩
      | some v =>
          rw [known] at taken
          refine .inr ⟨_, taken, ?_, ?_⟩
          · obtain ⟨rfl, -⟩ := Cursor.of_next? next
            simp [Cursor.mark]
          · have one := Cursor.remaining_of_next? next
            rw [left] at one
            rw [Cursor.hasNext_eq_false_iff]
            cases typed with
            | none => cases one
            | some _ => exact (List.cons.inj one).2.symm

/-- Completing goes on behind a slot that may be left out, wherever the word is the last one, and ends
at any other. What the word is does not matter. -/
theorem completeAll_cons (k : Slot) (env : Env) (left : s.cursor.remaining = typed.toList) (ps : List Parser)
    (done : Completion) :
    ∃ context, Parser.completeAll env (k.element.parser :: ps) s done =
      if k.optional then
        Parser.completeAll env ps { s with context } (done.add (k.element.parser.complete env s))
      else done.add (k.element.parser.complete env s) := by
  have read := k.parse_name env left
  unfold element
  cases optional : k.optional with
  | false =>
      refine ⟨s.context, ?_⟩
      rcases read with ⟨e, t, refused⟩ | ⟨t, taken, moved, spent⟩
      · exact Parser.completeAll_cons_failed refused
      · exact Parser.completeAll_cons_last taken moved spent rfl
  | true =>
      obtain ⟨context, stored⟩ := Parser.storeDefault_eq_ok k.default k.name s
      cases more : s.cursor.hasNext with
      | false =>
          have absent : (k.name.optional k.default true).parse env s = _ :=
            Parser.parse_optional_of_spent k.default true more
          exact ⟨context, Parser.completeAll_cons_still (absent.trans stored) rfl⟩
      | true =>
          rcases read with ⟨e, t, refused⟩ | ⟨t, taken, moved, spent⟩
          · have absent := Parser.parse_optional_of_error k.default true more refused
            exact ⟨context, Parser.completeAll_cons_still (absent.trans stored) rfl⟩
          · have present := Parser.parse_optional_of_ok k.default true more taken
            exact ⟨s.context, Parser.completeAll_cons_absent present moved spent rfl⟩

/-! ## The sequence -/

theorem completeAll_slots (slots : List Slot) (left : s.cursor.remaining = typed.toList)
    (done : Completion) :
    Parser.completeAll env (Element.parsers (slots.map element)) s done =
      { done with
        offers := appendNew done.offers
          ((reached slots).flatMap (begun env.source (typed.getD ""))) } := by
  induction slots generalizing s done with
  | nil => rfl
  | cons k rest ih =>
      obtain ⟨context, further⟩ := k.completeAll_cons env left (Element.parsers (rest.map element)) done
      have here : done.add (k.element.parser.complete env s) =
          { done with offers := appendNew done.offers (k.begun env.source (typed.getD "")) } := by
        rw [k.complete_element left, Completion.add, Completion.ofList, List.append_nil,
          Bool.or_false]
      rw [List.map_cons, Element.parsers, further, here, reached]
      cases k.optional with
      | false => simp
      | true =>
          rw [if_pos rfl, ih (s := { s with context }) left, appendNew_append]
          rfl

/-- Where no word is left or one, a sequence of slots offers the names that the word begins, of all
slots up to the first that is needed, each where it first stands. -/
theorem complete_union (slots : List Slot) (env : Env) (left : s.cursor.remaining = typed.toList) :
    (Element.sequence (slots.map element)).parser.complete env s =
      .ofList ((reached slots).flatMap (begun env.source (typed.getD ""))).eraseDups := by
  change Parser.completeAll env (Element.parsers (slots.map element)) s .none = _
  rw [completeAll_slots slots left, appendNew_eq]
  simp [Completion.none, Completion.ofList, List.removeAll]

/-- Two names that may be left out, one that is needed and one behind it: the word is a name of the
first and of the second slot. -/
theorem complete_union_of_name :
    let names (key : String) (ns : List String) (caseSensitive optional : Bool) : Slot :=
      { key, choice := { provider := .ofList (ns.map fun n => (n, .string n)), caseSensitive }, optional }
    let slots := [names "first" ["arg", "arg1", "test1"] true true,
      names "second" ["ARG2", "arg", "test2"] false true, names "third" ["arg3", "arg4"] true false,
      names "fourth" ["arg5"] true true]
    let now : DateTime :=
      ⟨{ year := 2001, month := 2, day := 3 }, { hour := 4, minute := 5, second := 6, nano := 0 }⟩
    let env : Env := { source := { name := "ann" }, now }
    let s : State := ⟨.ofTokens "arg" [⟨"arg", 0, 3⟩], .forCompletion⟩
    s.cursor.remaining = (some "arg").toList ∧
      (Element.sequence (slots.map element)).parser.complete env s =
        .ofList ["arg", "arg1", "ARG2", "arg3", "arg4"] := by
  intro names slots now env s
  have left : s.cursor.remaining = (some "arg").toList := rfl
  have union := complete_union slots env left
  have offers : ((reached slots).flatMap (begun env.source ((some "arg").getD ""))).eraseDups =
      ["arg", "arg1", "ARG2", "arg3", "arg4"] := by decide +kernel
  rw [offers] at union
  exact ⟨left, union⟩

end Slot

end CommandGrammar
