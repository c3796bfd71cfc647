import CommandGrammar.Proofs.Flags.Placement
import CommandGrammar.Proofs.Grammar.Offsets
import CommandGrammar.Proofs.Grammar.Termination

/-!
# Values in the word of a flag

A long flag is given its value in its own word, behind an equals sign, or in the words after it. In
its own word the value is put in as a token, so that from there on both lines hold the same tokens
behind different ones, and a grammar that does not ask for the text of its line reads them alike.
-/

namespace CommandGrammar

open Reading

/-! ## Behind different words -/

namespace Cursor

/-- A cursor before words of which only the values matter. -/
def ofValues (vs : List String) : Cursor :=
  .ofTokens "" (vs.map fun v => ⟨v, 0, 0⟩)

variable {front after : List String} {c d : Cursor} {low : Nat}

@[simp] theorem values_ofValues (vs : List String) : (ofValues vs).values = vs := by
  simp [ofValues, ofTokens, values, Function.comp_def]

@[simp] theorem remaining_ofValues (vs : List String) : (ofValues vs).remaining = vs := by
  simp [remaining, ofValues, ofTokens, values, Function.comp_def]

theorem insert_ofValues (v : String) (vs : List String) :
    (ofValues vs).insert v = ofValues (v :: vs) := rfl

theorem restated_ofValues (values : c.values = front ++ after)
    (consumed : c.consumed = front.length) : (ofValues after).Restated front 0 c :=
  ⟨by simp [values], by simp [consumed, ofValues, ofTokens], Nat.zero_le _, Nat.zero_le _⟩

/-- A word that is read is one more in front. -/
theorem Restated.next? {v : String} (h : (ofValues (v :: after)).Restated front 0 c) :
    ∃ d, c.next? = some (v, d) ∧ (ofValues after).Restated (front ++ [v]) 0 d := by
  obtain ⟨d, next, -⟩ := next?_of_remaining (h.remaining.trans (remaining_ofValues (v :: after)))
  have consumed : c.consumed = front.length := by simp [h.consumed, ofValues, ofTokens]
  obtain ⟨rfl, -⟩ := of_next? next
  refine ⟨_, next, restated_ofValues ?_ (by simp [consumed])⟩
  show c.values = front ++ [v] ++ after
  rw [h.values, values_ofValues, List.append_assoc]
  rfl

/-- Cursors of the same tokens go back to the same place. -/
theorem Restated.rewind_to (h : c.Restated [] low d) {m m' : Mark}
    (place : m'.consumed = m.consumed) (passed : m.consumed ≤ low) : (c.rewind m).Restated [] m.consumed (d.rewind m') := by
  have least := h.least
  have within := h.within
  have length := h.length
  simp only [Within, List.length_nil, Nat.add_zero] at within length
  simp only [Cursor.rewind, place, length]
  exact h.move (by omega) (by omega)

/-- What a flag leaves behind it and in front of it is all that there is without it. -/
theorem Restated.values_remove {w : String} (h : c.Restated (front ++ [w]) low d) {m : Mark}
    (place : m.consumed = front.length + 1) :
    (d.remove m d.mark).values = front ++ c.remaining ∧
      (d.remove m d.mark).consumed = front.length := by
  have consumed := h.consumed
  have within := h.within_other
  simp only [Within, List.length_append, List.length_singleton] at consumed within
  have before : (d.tokens.take front.length).map (·.value) = front := by
    have both := h.values
    unfold Cursor.values at both
    rw [List.map_take, both, List.append_assoc, List.take_left]
  have behind : (d.tokens.drop d.consumed).map (·.value) = c.remaining := by
    rw [List.map_drop, ← h.remaining]
    rfl
  rw [remove_eq place rfl (by omega) (by omega)]
  refine ⟨?_, rfl⟩
  rw [Cursor.values, List.map_append, before, behind]

/-- Behind different flags that are taken out, the lines go on alike if the same is left. -/
theorem Restated.takeOut {w w' : String} {low' : Nat} {a b : Cursor}
    (here : a.Restated (front ++ [w]) low c) (there : b.Restated (front ++ [w']) low' d)
    (same : b.remaining = a.remaining) {m m' : Mark} (place : m.consumed = front.length + 1)
    (place' : m'.consumed = front.length + 1) :
    (c.remove m c.mark).Restated [] front.length (d.remove m' d.mark) := by
  obtain ⟨values, consumed⟩ := here.values_remove place
  obtain ⟨values', consumed'⟩ := there.values_remove place'
  have length := congrArg List.length values
  simp only [Cursor.values, List.length_map, List.length_append] at length
  refine ⟨?_, ?_, ?_, Nat.le_of_eq consumed.symm⟩
  · rw [values, values', same]
    rfl
  · rw [consumed, consumed']
    rfl
  · rw [Within, consumed, length]
    exact Nat.le_add_right _ _

end Cursor

theorem ParseError.Alike.of_both {e e₁ e₂ : ParseError} (h₁ : e.Alike e₁) (h₂ : e.Alike e₂) :
    e₁.Alike e₂ :=
  ⟨h₂.bare.trans h₁.bare.symm, h₂.usage.trans h₁.usage.symm⟩

/-- Readings of two lines that end with the same values and leave cursors that are related, or fail
and tell the same. -/
inductive EndAlike {α : Type} (R : α → Cursor → Cursor → Prop) :
    EStateM.Result ParseError State α → EStateM.Result ParseError State α → Prop
  | ok {a s t} (cursors : R a s.cursor t.cursor) (context : t.context = s.context) :
      EndAlike R (.ok a s) (.ok a t)
  | error {e e' s t} (alike : e.Alike e') : EndAlike R (.error e s) (.error e' t)

theorem EndAlike.both {α : Type} {R : α → Cursor → Cursor → Prop}
    {x y : EStateM.Result ParseError State α} (h : EndAlike R x y) :
    (∃ a s t, x = .ok a s ∧ y = .ok a t ∧ R a s.cursor t.cursor ∧ t.context = s.context) ∨
      ∃ e e' s t, x = .error e s ∧ y = .error e' t ∧ e.Alike e' := by
  cases h with
  | ok cursors context => exact .inl ⟨_, _, _, rfl, rfl, cursors, context⟩
  | error alike => exact .inr ⟨_, _, _, _, rfl, rfl, alike⟩

section Alike

variable {front front' : List String} {low : Nat} {b : Cursor} {s t : State}

/-- Behind different words, a reading does the same. -/
theorem endAlike_behind {α : Type} {r : Reading α}
    (faithful : ∀ front, (Pairing.behind front).Faithful r) (here : b.Restated front low s.cursor)
    (there : b.Restated front' low t.cursor) (same : t.context = s.context) :
    EndAlike (fun _ c d => ∃ b : Cursor, b.Restated front 0 c ∧ b.Restated front' 0 d)
      (r s) (r t) := by
  -- Both are compared with what is read where only the common words are.
  have first := (faithful front low ⟨b, s.context⟩ s ⟨here, rfl, trivial⟩).both
  have second := (faithful front' low ⟨b, s.context⟩ t ⟨there, same, trivial⟩).both
  rcases first with ⟨a, u, w, alone, read, agree⟩ | ⟨e, e', u, w, alone, read, alike, -⟩
  · rcases second with ⟨a', u', w', alone', read', agree'⟩ | ⟨_, _, _, _, alone', -⟩
    · cases alone.symm.trans alone'
      have lower := agree.weaken (Nat.zero_le _)
      have lower' := agree'.weaken (Nat.zero_le _)
      rw [read, read']
      exact .ok ⟨u.cursor, lower.cursor, lower'.cursor⟩ (agree'.context.trans agree.context.symm)
    · cases alone.symm.trans alone'
  · rcases second with ⟨_, _, _, alone', -⟩ | ⟨_, e'', u', w', alone', read', alike', -⟩
    · cases alone.symm.trans alone'
    · cases alone.symm.trans alone'
      rw [read, read']
      exact .error (alike.of_both alike')

end Alike

/-! ## A flag with its value -/

namespace FlagScanner

variable {f : FlagScanner} {env : Env} {front after : List String} {name v : String} {s t : State}

theorem splitInline_of_plain (plain : '=' ∉ name.toList) :
    splitInline name.toList = (name, none) := by
  simp [splitInline, Text.splitOnce_eq_none_iff.mpr plain]

theorem splitInline_of_inline (plain : '=' ∉ name.toList) (v : String) :
    splitInline (name.toList ++ '=' :: v.toList) = (name, some v) := by
  simp [splitInline, Text.splitOnce_eq_some_iff.mpr ⟨rfl, plain⟩]

/-- A long flag reads its inline value as it reads a word behind it, and leaves the same. -/
theorem endAlike_readLong {front' : List String}
    (faithful : ∀ index front, (Pairing.behind front).Faithful ((f.value index).parse env))
    (plain : '=' ∉ name.toList)
    (taken : (f.table.long? (Text.lowercase name)).isSome ∨ f.table.unknownLong = .acceptValue)
    (here : (Cursor.ofValues after).Restated front 0 s.cursor)
    (there : (Cursor.ofValues (v :: after)).Restated front' 0 t.cursor)
    (same : t.context = s.context) :
    EndAlike
      (fun taken c d => taken = true ∧ ∃ a b : Cursor, a.Restated front 0 c ∧
        b.Restated front' 0 d ∧ b.remaining = a.remaining)
      (f.readLong env (name.toList ++ '=' :: v.toList) s) (f.readLong env name.toList t) := by
  unfold readLong
  simp only [splitInline_of_plain plain, splitInline_of_inline plain]
  cases known : f.table.long? (Text.lowercase name) with
  | some index =>
      have put := here.insert v
      rw [Cursor.insert_ofValues] at put
      have read := endAlike_behind (faithful index) put
        (s := { s with cursor := s.cursor.insert v }) there same
      dsimp only
      rw [bind_of_ok (moveCursor_apply _ _), bind_apply, bind_apply]
      generalize (f.value index).parse env { s with cursor := s.cursor.insert v } = x at read ⊢
      generalize (f.value index).parse env t = y at read ⊢
      cases read with
      | ok cursors context =>
          obtain ⟨b, one, other⟩ := cursors
          exact .ok ⟨rfl, b, b, one, other, rfl⟩ context
      | error alike => exact .error alike
  | none =>
      have accepted : f.table.unknownLong = .acceptValue := by simpa [known] using taken
      obtain ⟨b, first, behind⟩ :=
        Cursor.next?_of_remaining (Cursor.remaining_ofValues (v :: after))
      obtain ⟨d, next, -⟩ := Cursor.next?_of_remaining
        (there.remaining.trans (Cursor.remaining_ofValues (v :: after)))
      have stepped := (Pairing.behind front').weaken (there.step first next) (Nat.zero_le _)
      rw [← Cursor.remaining_ofValues after] at behind
      simp only [accepted]
      rw [bind_of_ok (next_of_some next)]
      refine .ok ⟨rfl, Cursor.ofValues after, b, here, stepped, behind⟩ ?_
      simp only [same]

/-- A scan goes past words that are no flags. -/
theorem passes_words (env : Env) (unanchored : f.table.anchored = false) {words : List String}
    (positionals : ∀ w ∈ words, positional w = true) {c : Cursor}
    (start : (Cursor.ofValues (words ++ after)).Restated front 0 c) (context : Context) :
    ∃ d : Cursor, Loop.Passes (f.scanTurn env) ⟨c, context⟩ ⟨d, context⟩ ∧
      (Cursor.ofValues after).Restated (front ++ words) 0 d := by
  induction words generalizing front c with
  | nil => exact ⟨c, .here _, by simpa using start⟩
  | cons w words ih =>
      obtain ⟨b, next, behind⟩ := start.next?
      have turn : f.scanTurn env ⟨c, context⟩ = .inl ⟨b, context⟩ := by
        rw [scanTurn_of_word next (positionals w List.mem_cons_self), unanchored]
        rfl
      obtain ⟨d, way, left⟩ := ih (fun u hu => positionals u (List.mem_cons_of_mem w hu)) behind
      rw [List.append_assoc] at left
      exact ⟨d, .go turn way, left⟩

/-- Where one scan comes to a flag with an inline value and another to the flag and the value, both
take them out, and the lines are then the same; or both are refused. -/
theorem scanTurn_inline
    (faithful : ∀ index front, (Pairing.behind front).Faithful ((f.value index).parse env))
    (plain : '=' ∉ name.toList)
    (taken : (f.table.long? (Text.lowercase name)).isSome ∨ f.table.unknownLong = .acceptValue)
    (inline : (Cursor.ofValues (("--" ++ name ++ "=" ++ v) :: after)).Restated front 0 s.cursor)
    (apart : (Cursor.ofValues (("--" ++ name) :: v :: after)).Restated front 0 t.cursor)
    (same : t.context = s.context) :
    (∃ u w, f.scanTurn env s = .inl u ∧ f.scanTurn env t = .inl w ∧
      Pairing.restated.Agree front.length u w) ∨
    ∃ e e' u w, f.scanTurn env s = .inr (.error e u) ∧ f.scanTurn env t = .inr (.error e' w) ∧
      e.Alike e' := by
  have place {c d : Cursor} {w : String} {rest : List String} (next : c.next? = some (w, d))
      (behind : (Cursor.ofValues rest).Restated (front ++ [w]) 0 d) :
      d.mark.consumed = front.length + 1 := by
    simp [Cursor.mark, behind.consumed, Cursor.ofValues, Cursor.ofTokens]
  have letters : ("--" ++ name ++ "=" ++ v).toList =
      '-' :: '-' :: (name.toList ++ '=' :: v.toList) := by
    simp [String.toList_append]
  have letters' : ("--" ++ name).toList = '-' :: '-' :: name.toList := by
    simp [String.toList_append]
  obtain ⟨c, next, first⟩ := inline.next?
  obtain ⟨d, next', second⟩ := apart.next?
  have read := endAlike_readLong faithful plain taken (s := { s with cursor := c })
    (t := { t with cursor := d }) first second same
  rcases read.both with
    ⟨_, u, w, long, long', ⟨rfl, a, b, here, there, left⟩, context⟩ |
    ⟨e, e', u, w, long, long', alike⟩
  · have turn := scanTurn_of_flag next letters long
    have turn' := scanTurn_of_flag next' letters' long'
    refine .inl ⟨_, _, turn, turn', ?_, context, trivial⟩
    exact here.takeOut there left (place next first) (place next' second)
  · have turn := scanTurn_of_refused next letters long
    have turn' := scanTurn_of_refused next' letters' long'
    exact .inr ⟨e, e', u, w, turn, turn', alike⟩

/-- Scans that meet a flag with an inline value, and the flag and the value, end in the same
tokens. -/
theorem endAlike_scan
    (faithful : ∀ index front, (Pairing.behind front).Faithful ((f.value index).parse env))
    (onward : ∀ index, ((f.value index).parse env).Onward) (unanchored : f.table.anchored = false)
    (plain : '=' ∉ name.toList)
    (taken : (f.table.long? (Text.lowercase name)).isSome ∨ f.table.unknownLong = .acceptValue)
    {words : List String} (positionals : ∀ w ∈ words, positional w = true)
    (inline :
      (Cursor.ofValues (words ++ ("--" ++ name ++ "=" ++ v) :: after)).Restated front 0 s.cursor)
    (apart : (Cursor.ofValues (words ++ ("--" ++ name) :: v :: after)).Restated front 0 t.cursor)
    (same : t.context = s.context) :
    EndAlike (fun _ c d => c.Restated [] (front ++ words).length d)
      (f.scan env (s.cursor.weight + 1) s) (f.scan env (t.cursor.weight + 1) t) := by
  obtain ⟨c, way, left⟩ := passes_words env unanchored positionals inline s.context
  obtain ⟨d, way', left'⟩ := passes_words env unanchored positionals apart t.context
  have ends := (ends_scan onward inline.within_other).of_passes way
  have ends' := (ends_scan onward apart.within_other).of_passes way'
  rcases scanTurn_inline (s := ⟨c, s.context⟩) (t := ⟨d, t.context⟩) faithful plain taken left left'
    same with
    ⟨u, w, turn, turn', agree⟩ | ⟨e, e', u, w, turn, turn', alike⟩
  · have within := Pairing.restated.within agree.cursor
    have rest := (ends_scan onward within.1).unique (ends.of_passes (.go turn (.here u)))
    have rest' := (ends_scan onward within.2).unique (ends'.of_passes (.go turn' (.here w)))
    have scan := faithful_scan (P := .restated) (fun index => faithful index [])
      (u.cursor.weight + 1) _ u w agree
    rw [← rest, ← rest', Pairing.weight agree.cursor]
    rcases scan.both with ⟨_, u', w', read, read', agree'⟩ | ⟨e, e', u', w', read, read', alike, -⟩
    · rw [read, read']
      exact .ok agree'.cursor agree'.context
    · rw [read, read']
      exact .error alike
  · rw [ends.unique (.stop turn), ends'.unique (.stop turn')]
    exact .error alike

end FlagScanner

/-- A value in the word of a long flag is read as the word behind the flag is. -/
theorem flags_inline {table : FlagTable} {values : List Element} {body : Element} (env : Env)
    (unanchored : table.anchored = false)
    (textless : (Element.flags table values body).Every fun d => ¬ d.ReadsText) (context : Context)
    {name : String} (plain : '=' ∉ name.toList)
    (taken : (table.long? (Text.lowercase name)).isSome ∨ table.unknownLong = .acceptValue)
    (v : String) {read words after : List String} (positionals : ∀ w ∈ words, positional w = true)
    {c d : Cursor} (inline : c.values = read ++ words ++ ("--" ++ name ++ "=" ++ v) :: after)
    (apart : d.values = read ++ words ++ ("--" ++ name) :: v :: after)
    (here : c.consumed = read.length) (there : d.consumed = read.length) :
    let e : Element := .flags table values body
    (∃ s t, e.parser.parse env ⟨c, context⟩ = .ok () s ∧
      e.parser.parse env ⟨d, context⟩ = .ok () t ∧
      t.context = s.context ∧ t.cursor.values = s.cursor.values ∧
      t.cursor.consumed = s.cursor.consumed) ∨
    (∃ f g s t, e.parser.parse env ⟨c, context⟩ = .error f s ∧
      e.parser.parse env ⟨d, context⟩ = .error g t ∧ g.bare = f.bare ∧ g.usage = f.usage) := by
  intro e
  have faithful : ∀ front, ∀ d ∈ e.parts, (Pairing.behind front).Faithful (d.parser.parse env) := by
    intro front d hd
    cases textless with
    | intro _ below => exact d.faithful env ((below d hd).imp fun d free text => absurd text free)
  have value : ∀ index front,
      (Pairing.behind front).Faithful (((table.scanner values).value index).parse env) := by
    intro index front
    exact table.forall_value (P := fun p => (Pairing.behind front).Faithful (p.parse env))
      (fun _ => .pure ()) (fun d hd => faithful front d (List.mem_cons_of_mem body hd)) index
  rw [List.append_assoc] at inline apart
  have scanned := FlagScanner.endAlike_scan (s := ⟨c, context⟩) (t := ⟨d, context⟩) value
    (Element.onward_value table values env) unanchored plain taken positionals
    (Cursor.restated_ofValues inline here) (Cursor.restated_ofValues apart there) rfl
  change (∃ s t, (table.scanner values).read body.parser env _ = _ ∧
      (table.scanner values).read body.parser env _ = _ ∧ _) ∨
    ∃ f g s t, (table.scanner values).read body.parser env _ = _ ∧
      (table.scanner values).read body.parser env _ = _ ∧ _
  unfold FlagScanner.read
  simp only [bind_of_ok (get_apply _)]
  rcases scanned.both with ⟨_, s, t, scan, scan', cursors, same⟩ | ⟨f, g, s, t, scan, scan', alike⟩
  · simp only [bind_of_ok scan, bind_of_ok scan', bind_of_ok (moveCursor_apply _ _)]
    have back : (s.cursor.rewind c.mark).Restated [] c.mark.consumed (t.cursor.rewind d.mark) :=
      cursors.rewind_to (there.trans here.symm) (by simp [Cursor.mark, here])
    have start : Pairing.restated.Agree c.mark.consumed
        { s with cursor := s.cursor.rewind c.mark } { t with cursor := t.cursor.rewind d.mark } :=
      ⟨back, same, trivial⟩
    rcases (faithful [] body List.mem_cons_self _ _ _ start).both with
      ⟨_, s, t, first, second, agree⟩ | ⟨f, g, s, t, first, second, alike, -⟩
    · exact .inl ⟨s, t, first, second, agree.context, agree.cursor.values, agree.cursor.consumed⟩
    · exact .inr ⟨f, g, s, t, first, second, alike.bare, alike.usage⟩
  · rw [bind_of_error scan, bind_of_error scan']
    exact .inr ⟨f, g, s, t, rfl, rfl, alike.bare, alike.usage⟩

/-- A negative number in the word of a flag and behind it, after another word. -/
theorem flags_inline_of_negative :
    let flags := ({} : Element.FlagDeclarations).declare ["-n"] (some (.leaf "n" .integer))
    let e : Element := .flags flags.table flags.values (.leaf "k" .string)
    let now : DateTime :=
      ⟨{ year := 2001, month := 2, day := 3 }, { hour := 4, minute := 5, second := 6, nano := 0 }⟩
    let env : Env := { source := { name := "ann" }, now }
    let c : Cursor := .ofTokens "a --N=-5 x" [⟨"a", 0, 1⟩, ⟨"--N=-5", 2, 8⟩, ⟨"x", 9, 10⟩]
    let d : Cursor :=
      .ofTokens "a --N -5 x" [⟨"a", 0, 1⟩, ⟨"--N", 2, 5⟩, ⟨"-5", 6, 8⟩, ⟨"x", 9, 10⟩]
    flags.table.anchored = false ∧ e.Every (fun d => ¬ d.ReadsText) ∧ '=' ∉ "N".toList ∧
      (flags.table.long? (Text.lowercase "N")).isSome ∧ positional "a" = true ∧
      ∃ s t, e.parser.parse env ⟨c, .empty⟩ = .ok () s ∧ e.parser.parse env ⟨d, .empty⟩ = .ok () t ∧
        t.context = s.context ∧ t.cursor.values = s.cursor.values ∧
        t.cursor.consumed = s.cursor.consumed := by
  intro flags e now env c d
  have textless : e.Every fun d => ¬ d.ReadsText := by
    refine ⟨not_false, fun d hd => ?_⟩
    rcases List.mem_cons.mp hd with rfl | hd
    · exact ⟨not_false, fun _ h => nomatch h⟩
    · rw [List.mem_singleton.mp hd]
      exact ⟨not_false, fun _ h => nomatch h⟩
  have plain : '=' ∉ "N".toList := by decide
  have known : (flags.table.long? (Text.lowercase "N")).isSome := by decide +kernel
  have word : positional "a" = true := by decide
  have words : ∀ w ∈ ["a"], positional w = true := by simpa using word
  have taken : (e.parser.parse env).end? ⟨c, .empty⟩ =
      some ⟨"a --N=-5 x", [⟨"a", 0, 1⟩, ⟨"x", 9, 10⟩], 1⟩ := by
    decide +kernel
  obtain ⟨_, u, read, -⟩ := of_end? taken
  refine ⟨rfl, textless, plain, known, word, ?_⟩
  have inline : c.values = [] ++ ["a"] ++ ("--" ++ "N" ++ "=" ++ "-5") :: ["x"] := rfl
  have apart : d.values = [] ++ ["a"] ++ ("--" ++ "N") :: "-5" :: ["x"] := rfl
  rcases flags_inline env rfl textless .empty plain (.inl known) "-5" words inline apart rfl rfl
    with ⟨s, t, alike⟩ | ⟨f, g, s, t, first, _⟩
  · exact ⟨s, t, alike⟩
  · cases read.symm.trans first

end CommandGrammar
