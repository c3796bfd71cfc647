import CommandGrammar.Proofs.Grammar.LineEnd
import CommandGrammar.Proofs.Grammar.Tree

/-!
# The empty word at the end of a line

An argument is to offer the same where no word is left and where an empty one is. It does where what
is come to in it takes or leaves an empty word, if it could do without one.
-/

namespace CommandGrammar

open Reading

/-! ## Single arguments -/

section Words

variable {env : Env} {s : State}

theorem next_at_end (ended : s.cursor.remaining = []) :
    Reading.next s = .error s.cursor.exhausted s :=
  next_of_none (Cursor.next?_eq_none_iff.mpr ended)

theorem next_at_empty (empty : s.cursor.remaining = [""]) :
    ∃ c, s.cursor.next? = some ("", c) ∧ c.remaining = [] ∧
      Reading.next s = .ok "" { s with cursor := c } := by
  obtain ⟨c, next, ended⟩ := Cursor.next?_of_remaining empty
  exact ⟨c, next, ended, next_of_some next⟩

end Words

/-- A name is needed; an empty one is taken where it is a candidate. -/
def Choice.lineEnd (c : Choice) (source : Source) : LineEnd where
  skips := false
  fate := if (c.lookup source "").isSome then .taken else .refused
  offers := c.provider.names source
  even := true

theorem Choice.endsAs (key : String) (c : Choice) (env : Env) :
    (c.parser key).EndsAs env (c.lineEnd env.source) := by
  have all : ∀ s : State, s.cursor.remaining = [] ∨ s.cursor.remaining = [""] →
      (Completion.ofList (offersFor (c.provider.names env.source) s.cursor)).EndsWith
        (c.provider.names env.source) := by
    intro s either
    have typed : (s.cursor.peek?).getD "" = "" := by
      rw [Cursor.peek?_eq_head?]
      rcases either with ended | empty
      · rw [ended]
        rfl
      · rw [empty]
        rfl
    refine ⟨rfl, ?_⟩
    simp [Completion.ofList, offersFor, typed, Text.startsWithIgnoringCase_empty]
  refine ⟨rfl, fun s ended => ?_, fun s empty => ?_, fun s ended => all s (.inl ended),
    fun _ s empty => all s (.inr empty)⟩
  · exact ⟨_, _, bind_of_error (next_at_end ended) _⟩
  · obtain ⟨d, -, ended, read⟩ := next_at_empty empty
    change Fate.Holds s _ ((Reading.next >>= _) s)
    rw [bind_of_ok read]
    cases known : c.lookup env.source "" with
    | some v =>
        simp only [Choice.lineEnd, known]
        exact ⟨_, rfl, ended⟩
    | none =>
        simp only [Choice.lineEnd, known]
        exact ⟨_, _, rfl⟩

theorem Selection.storeAll_left (key : String) (vs : List Value) (s : State) :
    Fate.left.Holds s (storeAll key vs s) := by
  induction vs generalizing s with
  | nil => exact ⟨s.context, rfl⟩
  | cons v vs ih =>
      rw [storeAll, bind_of_ok (store_apply key v s)]
      exact .of_context (ih _)

/-- A text is needed; an empty one begins every candidate. -/
def Selection.lineEnd (s : Selection) (source : Source) : LineEnd where
  skips := false
  fate :=
    match s.provider.valueIgnoringCase source "" with
    | some _ => .taken
    | none =>
      if ((s.provider.names source).filterMap s.provider.value).isEmpty then .refused else .taken
  offers := s.provider.names source
  even := true

theorem Selection.endsAs (key : String) {s : Selection} (begins : s.regex = false) (env : Env) :
    (s.parser key).EndsAs env (s.lineEnd env.source) := by
  have selects : s.matcher? "" = some fun name => Text.startsWithIgnoringCase name "" := by
    simp [matcher?, begins]
  have every : ∀ names : List String,
      names.filter (fun name => Text.startsWithIgnoringCase name "") = names := by
    intro names
    exact List.filter_eq_self.mpr fun name _ => Text.startsWithIgnoringCase_empty name
  refine ⟨rfl, fun st ended => ?_, fun st empty => ?_, fun st ended => ?_, fun _ st empty => ?_⟩
  · exact ⟨_, _, bind_of_error (next_at_end ended) _⟩
  · obtain ⟨d, -, ended, read⟩ := next_at_empty empty
    change Fate.Holds st _ ((Reading.next >>= _) st)
    rw [bind_of_ok read]
    unfold Selection.lineEnd
    cases known : s.provider.valueIgnoringCase env.source "" with
    | some v => exact ⟨_, rfl, ended⟩
    | none =>
        simp only [selects, every]
        cases listed : (s.provider.names env.source).filterMap s.provider.value with
        | nil => exact ⟨_, _, rfl⟩
        | cons v vs =>
            obtain ⟨context, stored⟩ := storeAll_left key (v :: vs) { st with cursor := d }
            exact ⟨_, stored, ended⟩
  · have nothing : st.cursor.peek? = none := by rw [Cursor.peek?_eq_head?, ended, List.head?_nil]
    simp only [parser, nothing]
    exact .ofList _
  · have first : st.cursor.peek? = some "" := by rw [Cursor.peek?_eq_head?, empty, List.head?_cons]
    simp only [parser, first, selects, every]
    exact .ofList _

/-- Each word of a phrase is needed, and an empty one is not what is expected, unless an empty one
is. Nothing is offered where no word is left. -/
def Phrase.lineEnd (p : Phrase) : LineEnd :=
  match p.words with
  | [] => .nothing
  | expected :: rest =>
    { skips := false
      fate := if Text.sameIgnoringCase "" expected && rest.isEmpty then .taken else .refused
      offers := []
      even := false }

namespace Phrase

variable {s : State} {expected : String} {rest : List String}

theorem readWords_at_end (ended : s.cursor.remaining = []) :
    readWords (expected :: rest) s = .error s.cursor.exhausted s :=
  bind_of_error (next_at_end ended) _

theorem readWords_at_empty (empty : s.cursor.remaining = [""]) :
    (if Text.sameIgnoringCase "" expected && rest.isEmpty then Fate.taken else Fate.refused).Holds s
      (readWords (expected :: rest) s) := by
  obtain ⟨c, -, ended, read⟩ := next_at_empty empty
  cases same : Text.sameIgnoringCase "" expected with
  | false =>
      rw [readWords, bind_of_ok read, same]
      exact ⟨_, _, rfl⟩
  | true =>
      have first : readWords (expected :: rest) s = readWords rest { s with cursor := c } := by
        rw [readWords, bind_of_ok read, same]
        rfl
      rw [first]
      cases rest with
      | nil => exact ⟨_, rfl, ended⟩
      | cons second rest => exact ⟨_, _, readWords_at_end ended⟩

/-- What is stored behind the words does not matter to them. -/
theorem holds_parse (key : Option String) (p : Phrase) (env : Env) {fate : Fate}
    (read : fate.Holds s (readWords p.words s)) : fate.Holds s ((p.parser key).parse env s) := by
  have stored {t : State} (done : readWords p.words s = .ok () t) :
      ∃ context, (p.parser key).parse env s = .ok () { t with context } := by
    change ∃ context, (readWords p.words >>= _) s = _
    rw [bind_of_ok done]
    cases key with
    | none => exact ⟨t.context, rfl⟩
    | some key => exact ⟨t.context.put key p.value, rfl⟩
  cases fate with
  | refused =>
      obtain ⟨e, t, refused⟩ := read
      exact ⟨e, t, bind_of_error refused _⟩
  | left =>
      obtain ⟨_, done⟩ := read
      obtain ⟨context, parsed⟩ := stored done
      exact ⟨context, parsed⟩
  | taken =>
      obtain ⟨t, done, ended⟩ := read
      obtain ⟨_, parsed⟩ := stored done
      exact ⟨_, parsed, ended⟩

theorem endsAs (key : Option String) (p : Phrase) (env : Env) :
    (p.parser key).EndsAs env p.lineEnd := by
  unfold lineEnd
  cases words : p.words with
  | nil =>
      have read (s : State) : Fate.left.Holds s ((p.parser key).parse env s) := by
        apply p.holds_parse key env
        rw [words]
        exact ⟨s.context, rfl⟩
      have silent (s : State) : ((p.parser key).complete env s).EndsWith [] := by
        change (Completion.ofList (offers p.words s.cursor)).EndsWith []
        rw [words]
        exact .none
      exact ⟨rfl, fun s _ => read s, fun s _ => read s, fun s _ => silent s, fun _ s _ => silent s⟩
  | cons expected rest =>
      refine ⟨rfl, fun s ended => ?_, fun s empty => ?_, fun s ended => ?_, fun even => ?_⟩
      · apply p.holds_parse key env
        rw [words]
        exact ⟨_, _, readWords_at_end ended⟩
      · apply p.holds_parse key env
        rw [words]
        exact readWords_at_empty empty
      · change (Completion.ofList (offers p.words s.cursor)).EndsWith []
        rw [words, offers, Cursor.next?_eq_none_iff.mpr ended]
        exact .none
      · cases even

end Phrase

/-! ## Whole grammars -/

namespace Element

mutual

/-- What an element does at the end of a line, from what its parts do. -/
def lineEnd (source : Source) : Element → LineEnd
  | .sequence items => .sequence (lineEnds source items)
  | .firstOf items => .firstOf (lineEnds source items)
  | .optional item _ _ => (item.lineEnd source).weak
  | .repeated item n => (item.lineEnd source).times n
  | .allOf item => (item.lineEnd source).untilEnd
  | .choice _ c => c.lineEnd source
  | .selection _ s => s.lineEnd source
  | .phrase _ p => p.lineEnd
  | _ => .nothing

def lineEnds (source : Source) : List Element → List LineEnd
  | [] => []
  | e :: rest => e.lineEnd source :: lineEnds source rest

end

theorem lineEnds_eq_map (source : Source) (es : List Element) :
    lineEnds source es = es.map (lineEnd source) := by
  induction es with
  | nil => rfl
  | cons e es ih => rw [lineEnds, ih, List.map_cons]

/-- The element itself is a choice, a phrase or a selection by how names begin, or combines others:
one after the other, the first that reads, weakly optional, or repeated. -/
def Basic : Element → Prop
  | .sequence _ | .firstOf _ | .repeated _ _ | .allOf _ | .choice _ _ | .phrase _ _ => True
  | .optional _ _ weak => weak = true
  | .selection _ s => s.regex = false
  | _ => False

theorem endsAs_parsers {env : Env} {es : List Element}
    (h : ∀ e ∈ es, e.parser.EndsAs env (e.lineEnd env.source)) :
    List.Forall₂ (Parser.EndsAs env) (parsers es) (lineEnds env.source es) := by
  rw [parsers_eq_map, lineEnds_eq_map, List.forall₂_map_left_iff, List.forall₂_map_right_iff,
    List.forall₂_same]
  exact h

theorem endsAs_lineEnd {e : Element} (env : Env) (basic : e.Every Basic) :
    e.parser.EndsAs env (e.lineEnd env.source) := by
  induction basic with
  | @intro e here _ ih =>
      cases e with
      | sequence items => exact .sequence (endsAs_parsers ih)
      | firstOf items => exact .firstOf (endsAs_parsers ih)
      | optional item default weak =>
          obtain rfl : weak = true := here
          exact (ih item List.mem_cons_self).weak default
      | repeated item times => exact (ih item List.mem_cons_self).times times
      | allOf item => exact (ih item List.mem_cons_self).untilEnd
      | choice key c => exact c.endsAs key env
      | selection key s => exact s.endsAs key here env
      | phrase key p => exact p.endsAs key env
      | onlyOne _ | leaf _ _ | flags _ _ _ | suggesting _ _ _ | constrained _ _ | child _ =>
          exact here.elim

/-- Where no word is left, the search ends with the offers that are computed. It ends with the same
where an empty word is left if the element is computed to be even: what is come to in it takes or
leaves the empty word where it could do without one, and takes it where it is asked until the words
run out. -/
theorem complete_empty_word {e : Element} (env : Env) (basic : e.Every Basic)
    (even : (e.lineEnd env.source).even = true) {s t : State} (ended : s.cursor.remaining = [])
    (empty : t.cursor.remaining = [""]) :
    (e.parser.complete env s).EndsWith (e.lineEnd env.source).offers ∧
      (e.parser.complete env t).EndsWith (e.parser.complete env s).offers := by
  have ends := endsAs_lineEnd env basic
  have here := ends.offers s ended
  refine ⟨here, ?_⟩
  rw [here.offered]
  exact ends.even even t empty

/-- A name that may be absent, two selections and a phrase that is not come to, or selections until
the words run out. -/
theorem complete_empty_word_of_sequence :
    let e : Element := .firstOf [
      .sequence [
        .optional (.choices "a" [("red", .bool true)]) .none true,
        .repeated (.enumeration "b" ["Plum"]) 2,
        .phrase .none ⟨["go"], .bool true⟩],
      .allOf (.enumeration "c" ["Lime"])]
    let now : DateTime :=
      ⟨{ year := 2001, month := 2, day := 3 }, { hour := 4, minute := 5, second := 6, nano := 0 }⟩
    let env : Env := { source := { name := "ann" }, now }
    let s : State := ⟨.ofTokens "" [], .forCompletion⟩
    let t : State := ⟨.ofTokens " " [⟨"", 1, 1⟩], .forCompletion⟩
    e.Every Basic ∧ (e.lineEnd env.source).even = true ∧ s.cursor.remaining = [] ∧
      t.cursor.remaining = [""] ∧ (e.parser.complete env s).EndsWith ["red", "plum"] ∧
      (e.parser.complete env t).EndsWith ["red", "plum"] := by
  intro e now env s t
  have alone : ∀ d : Element, d.Basic → d.parts = [] → d.Every Basic := by
    intro d basic leaf
    refine ⟨basic, fun a ha => ?_⟩
    rw [leaf] at ha
    exact absurd ha List.not_mem_nil
  have around : ∀ d a : Element, d.Basic → d.parts = [a] → a.Basic → a.parts = [] →
      d.Every Basic := by
    intro d a basic one inner leaf
    refine ⟨basic, fun b hb => ?_⟩
    rw [one] at hb
    rw [List.mem_singleton.mp hb]
    exact alone a inner leaf
  have basic : e.Every Basic := by
    refine ⟨trivial, fun d hd => ?_⟩
    rcases List.mem_pair.mp hd with rfl | rfl
    · refine ⟨trivial, fun d hd => ?_⟩
      obtain rfl | rfl | rfl : d = .optional (.choices "a" [("red", .bool true)]) .none true ∨
          d = .repeated (.enumeration "b" ["Plum"]) 2 ∨
          d = .phrase .none ⟨["go"], .bool true⟩ := by
        simpa [parts] using hd
      · exact around _ _ rfl rfl trivial rfl
      · exact around _ _ trivial rfl rfl rfl
      · exact alone _ trivial rfl
    · exact around _ _ trivial rfl rfl rfl
  have even : (e.lineEnd env.source).even = true := by decide +kernel
  have computed : (e.lineEnd env.source).offers = ["red", "plum"] := by decide +kernel
  obtain ⟨here, same⟩ := complete_empty_word (s := s) (t := t) env basic even rfl rfl
  rw [here.offered, computed] at same
  rw [computed] at here
  exact ⟨basic, even, rfl, rfl, here, same⟩

/-- Different offers where no word is left and where an empty one is: for names behind a sequence
that takes the empty word but could do without, for a phrase, for a repetition of what needs a name,
and for one selection. -/
theorem complete_empty_word_uneven :
    let plum : Element := .choices "c" [("plum", .bool true)]
    let red : Element := .enumeration "p" ["Red"]
    let inner : Element := .sequence [.sequence [.optional red .none true], plum]
    let phrase : Element := .phrase .none ⟨["go"], .bool true⟩
    let now : DateTime :=
      ⟨{ year := 2001, month := 2, day := 3 }, { hour := 4, minute := 5, second := 6, nano := 0 }⟩
    let env : Env := { source := { name := "ann" }, now }
    let s : State := ⟨.ofTokens "" [], .forCompletion⟩
    let t : State := ⟨.ofTokens " " [⟨"", 1, 1⟩], .forCompletion⟩
    let offers (e : Element) : Completion × Completion :=
      (e.parser.complete env s, e.parser.complete env t)
    offers inner = (.ofList ["red", "plum"], .ofList ["red"]) ∧
      offers phrase = (.none, .ofList ["go"]) ∧ offers (.allOf plum) = (.none, .ofList ["plum"]) ∧
      offers (.repeated red 1) = (.ofList ["red"], .none) := by
  intro plum red inner phrase now env s t offers
  have spent : (Element.allOf plum).parser.complete env s = .none :=
    Parser.complete_allOf_of_ends (.stop rfl)
  have refused : (Element.allOf plum).parser.complete env t = .ofList ["plum"] :=
    Parser.complete_allOf_of_ends (.stop rfl)
  refine ⟨by decide +kernel, by decide +kernel, ?_, by decide +kernel⟩
  rw [← spent, ← refused]

end Element

end CommandGrammar
