import CommandGrammar.Proofs.Flags.Value
import CommandGrammar.Proofs.Grammar.Rollback
import CommandGrammar.Proofs.Grammar.Termination

/-!
# Completing behind flags

Completing flags walks a line as reading them does, except that it stores no marks of the switches it
passes. Where the last token is left to the arguments, these are completed in the tokens that reading
would hand to them, with the values of the other flags.
-/

namespace CommandGrammar

open Reading

/-! ## Marks -/

/-- One context holds what another does but for marks under some keys. -/
inductive Context.Lacks (keys : List String) : Context → Context → Prop
  | same (c : Context) : Lacks keys c c
  | put {lean rich : Context} (key : String) (v : Value) (h : Lacks keys lean rich) :
      Lacks keys (lean.put key v) (rich.put key v)
  | mark {lean rich : Context} {key : String} (listed : key ∈ keys) (h : Lacks keys lean rich) :
      Lacks keys lean (rich.put key (.bool true))

theorem Context.Lacks.putAll {keys : List String} {lean rich : Context} (h : Lacks keys lean rich)
    (pairs : List (String × Value)) : Lacks keys (lean.putAll pairs) (rich.putAll pairs) := by
  induction pairs generalizing lean rich with
  | nil => exact h
  | cons p pairs ih => exact ih (.put p.1 p.2 h)

/-- Two states at one place, the first without some marks. -/
structure State.Lacks (keys : List String) (lean rich : State) : Prop where
  cursor : lean.cursor = rich.cursor
  context : lean.context.Lacks keys rich.context

namespace Element

/-- The key that a switch marks. -/
def mark? : Element → Option String
  | .leaf key .markTrue => some key
  | _ => .none

def marks (values : List Element) : List String :=
  values.filterMap mark?

/-- A switch that stores nothing, in place of one that does. -/
def muted (e : Element) : Element :=
  if e.isSwitch then .sequence [] else e

/-- The element takes exactly one token, wherever it reads. -/
def TakesOne (env : Env) (e : Element) : Prop :=
  ∀ s t : State, e.parser.parse env s = .ok () t → ∃ v, s.cursor.next? = some (v, t.cursor)

/-- Where the element reads, it reads the same without marks under some keys. -/
def Steady (keys : List String) (env : Env) (e : Element) : Prop :=
  ∀ (c : Cursor) (lean rich : Context) (t : State), lean.Lacks keys rich →
    e.parser.parse env ⟨c, rich⟩ = .ok () t →
    ∃ pairs, t.context = rich.putAll pairs ∧
      e.parser.parse env ⟨c, lean⟩ = .ok () ⟨t.cursor, lean.putAll pairs⟩

/-- An element in which nothing asks how many values there are reads the same with every context. -/
theorem WithoutOnlyOne.steady {e : Element} (h : e.WithoutOnlyOne) (keys : List String) (env : Env) :
    e.Steady keys env := by
  intro c lean rich t _ read
  have kept : e.Kept env := h.kept
  obtain ⟨⟨result, d, pairs⟩, keeps⟩ := kept c
  have trace := keeps.leaves
  cases result with
  | error f => cases read.symm.trans (trace rich)
  | ok _ =>
      cases read.symm.trans (trace rich)
      exact ⟨pairs, rfl, trace lean⟩

theorem takesOne_of_readsOne {e : Element} (h : e.readsOne = true) (env : Env) : e.TakesOne env := by
  intro s t read
  cases e with
  | leaf key l =>
      change (l.readValue env >>= store key) s = _ at read
      rw [l.readValue_of_readsOne h] at read
      obtain ⟨v, u, first, stored⟩ := bind_eq_ok.mp read
      cases stored
      obtain ⟨text, u', taken, value⟩ := bind_eq_ok.mp first
      obtain ⟨c, there, rfl⟩ := next_eq_ok.mp taken
      cases told : l.readToken env.now.date text with
      | error message => simp [told] at value
      | ok v =>
          simp only [told] at value
          cases value
          exact ⟨text, there⟩
  | choice key choice =>
      obtain ⟨name, u, taken, value⟩ := bind_eq_ok.mp read
      obtain ⟨c, there, rfl⟩ := next_eq_ok.mp taken
      cases found : choice.lookup env.source name with
      | none => simp [found] at value
      | some v =>
          simp only [found] at value
          cases value
          exact ⟨name, there⟩
  | _ => cases h

theorem parse_of_onlyOne {p : Parser} {env : Env} {s t : State}
    (h : p.onlyOne.parse env s = .ok () t) : p.parse env s = .ok () t := by
  obtain ⟨⟨⟩, u, read, check⟩ := bind_eq_ok.mp h
  cases key : p.key with
  | none =>
      simp only [key] at check
      cases check
      exact read
  | some k =>
      simp only [key] at check
      rw [bind_of_ok (get_apply u)] at check
      by_cases many : 1 < (u.context.all k).length
      · rw [if_pos many] at check
        cases check
      · rw [if_neg many] at check
        cases check
        exact read

theorem eq_leaf_of_isSwitch {e : Element} (h : e.isSwitch = true) : ∃ key, e = .leaf key .markTrue := by
  cases e with
  | leaf key l =>
      cases l with
      | markTrue => exact ⟨key, rfl⟩
      | _ => cases h
  | _ => cases h

end Element

namespace FlagScanner

open Element

variable {table : FlagTable} {values : List Element} {env : Env}

/-- Where the next word is a flag, a token is left behind all that it reads, and an inline value is
one of a flag that has values. -/
structure Fits (table : FlagTable) (values : List Element) (env : Env) (s : State) : Prop where
  left : ∀ word c flag taken t, s.cursor.next? = some (word, c) → word.toList = '-' :: flag →
    (table.scanner values).readFlag env flag { s with cursor := c } = .ok taken t →
    t.cursor.hasNext = true
  valued : ∀ word c flag name v index, s.cursor.next? = some (word, c) →
    word.toList = '-' :: '-' :: flag → splitInline flag = (name, some v) →
    table.long? (Text.lowercase name) = some index →
    ∃ e, values[index]? = some e ∧ e.isSwitch = false

theorem fits_of_none {s : State} (there : s.cursor.next? = .none) : Fits table values env s where
  left _ _ _ _ _ next := by cases there.symm.trans next
  valued _ _ _ _ _ _ next := by cases there.symm.trans next

theorem fits_of_word {s : State} {word : String} {c : Cursor}
    (there : s.cursor.next? = some (word, c)) (other : word.toList.head? ≠ some '-') :
    Fits table values env s where
  left _ _ _ _ _ next letters := by
    cases there.symm.trans next
    simp [letters] at other
  valued _ _ _ _ _ _ next letters := by
    cases there.symm.trans next
    simp [letters] at other

theorem fits_of_letters {s t : State} {word : String} {c : Cursor} {flag : List Char} {taken : Bool}
    (there : s.cursor.next? = some (word, c)) (letters : word.toList = '-' :: flag)
    (short : flag.head? ≠ some '-')
    (read : (table.scanner values).readFlag env flag { s with cursor := c } = .ok taken t)
    (more : t.cursor.hasNext = true) : Fits table values env s where
  left _ _ _ _ _ next letters' read' := by
    cases there.symm.trans next
    cases letters.symm.trans letters'
    cases read.symm.trans read'
    exact more
  valued _ _ _ _ _ _ next letters' := by
    cases there.symm.trans next
    cases letters.symm.trans letters'
    simp at short

/-- A word of a scan leaves the tokens as they are, or it leaves a token behind it. -/
theorem tokens_of_scanTurn {s t : State} (fits : Fits table values env s)
    (next : (table.scanner values).scanTurn env s = .inl t) :
    t.cursor.tokens = s.cursor.tokens ∨ t.cursor.hasNext = true := by
  unfold scanTurn at next
  cases there : s.cursor.next? with
  | none => simp [there] at next
  | some pair =>
      obtain ⟨word, c⟩ := pair
      have start := (Cursor.Onward.of_next? there).within
      have same : c.tokens = s.cursor.tokens := by
        obtain ⟨rfl, -⟩ := Cursor.of_next? there
        rfl
      simp only [there] at next
      obtain ⟨flag, letters⟩ | other := flag_or_other word
      · simp only [letters] at next
        cases read : (table.scanner values).readFlag env flag { s with cursor := c } with
        | error e u => simp [read] at next
        | ok taken u =>
            simp only [read, Sum.inl.injEq] at next
            subst next
            cases taken with
            | true =>
                have beyond := beyond_readFlag (onward_value table values env) flag start read
                have more := fits.left word c flag true u there letters read
                exact .inr ((Cursor.hasNext_of_remaining (beyond.takeOut_remaining there)).trans more)
            | false =>
                obtain rfl := still_readFlag flag read
                exact .inl same
      · simp only at next
        split at next
        · cases next
        · cases next
          exact .inl same

/-! ## Values of flags -/

/-- A value of one token that reads settles its flag with a token left behind it, and lacks no more
marks than before. -/
theorem settled_of_takesOne {e : Element} (one : e.TakesOne env) {keys : List String}
    (steady : e.Steady keys env) {lean rich after : State} (lacks : lean.Lacks keys rich)
    (read : e.parser.parse env rich = .ok () after) (more : after.cursor.hasNext = true) :
    ∃ after', e.parser.parse env lean = .ok () after' ∧ after'.Lacks keys after ∧
      completeValue e.parser env lean = .settled [] after' := by
  obtain ⟨c, context⟩ := rich
  obtain ⟨d, lean⟩ := lean
  obtain ⟨rfl, lacks⟩ : d = c ∧ _ := ⟨lacks.cursor, lacks.context⟩
  obtain ⟨v, next⟩ := one _ _ read
  obtain ⟨pairs, stored, again⟩ := steady d lean context after lacks read
  have moved : after.cursor.mark ≠ d.mark := by
    obtain ⟨place, -⟩ := Cursor.of_next? next
    simp [place, Cursor.mark]
  refine ⟨_, again, ⟨rfl, ?_⟩, ?_⟩
  -- What the value stores is the same in both, so that no more marks are lacking than before.
  · rw [stored]
    exact lacks.putAll pairs
  · unfold completeValue
    simp only [again]
    rw [if_neg moved, if_pos more]

theorem settled_of_still {p : Parser} {s t : State} (read : p.parse env s = .ok () t)
    (still : t.cursor = s.cursor) (nothing : p.complete env t = .none) :
    settleEmpty s (completeValue p env s) = .settled [] s := by
  unfold completeValue
  simp only [read, still, nothing, if_true]
  rfl

/-- The flags that some elements are the values of: switches, and values of one token that read the
same without the marks of these. -/
def Plain (env : Env) (values : List Element) : Prop :=
  ∀ e ∈ values, e.isSwitch = true ∨ e.TakesOne env ∧ e.Steady (marks values) env

section

variable (plain : Plain env values) {lean rich after : State}
  (lacks : lean.Lacks (marks values) rich)

include plain lacks

/-- A value that reads with a token left behind it settles its flag, and what it stores but for the
marks of switches is there. -/
theorem settled_of_value {index : Nat}
    (read : ((table.scanner values).value index).parse env rich = .ok () after)
    (more : after.cursor.hasNext = true) :
    ∃ after', ((table.scanner (values.map muted)).value index).parse env lean = .ok () after' ∧
      after'.Lacks (marks values) after ∧
      settleEmpty lean (completeValue ((table.scanner values).value index) env lean) =
        .settled [] after' := by
  have silent : (values.map muted)[index]? = values[index]?.map muted := List.getElem?_map
  cases there : values[index]? with
  | none =>
      rw [there] at silent
      rw [FlagTable.scanner_value_none there] at read ⊢
      rw [FlagTable.scanner_value_none silent]
      cases read
      exact ⟨lean, rfl, lacks, settled_of_still rfl rfl rfl⟩
  | some e =>
      rw [there, Option.map_some, muted] at silent
      rw [FlagTable.scanner_value there] at read ⊢
      rw [FlagTable.scanner_value silent]
      cases switch : e.isSwitch with
      | true =>
          -- Completion goes back to where the switch began, and so its mark is not stored.
          obtain ⟨key, rfl⟩ := eq_leaf_of_isSwitch switch
          have listed : key ∈ marks values :=
            List.mem_filterMap.mpr ⟨_, List.mem_of_getElem? there, rfl⟩
          cases read
          exact ⟨lean, rfl, ⟨lacks.cursor, .mark listed lacks.context⟩,
            settled_of_still rfl rfl rfl⟩
      | false =>
          have value := (plain e (List.mem_of_getElem? there)).resolve_left (by simp [switch])
          obtain ⟨after', again, lacks', settled⟩ :=
            settled_of_takesOne value.1 value.2 lacks read more
          rw [settled]
          exact ⟨after', again, lacks', rfl⟩

/-! ## Flags -/

theorem settled_of_readShort (strict : table.unknownShort = .error) (start : rich.cursor.Within)
    {first : Bool} {letters : List Char} {taken : Bool} (lines : List String)
    (read : (table.scanner values).readShort env first letters rich = .ok taken after)
    (more : after.cursor.hasNext = true) :
    ∃ after', (table.scanner (values.map muted)).readShort env first letters lean =
        .ok true after' ∧
      after'.Lacks (marks values) after ∧ taken = true ∧
      (table.scanner values).completeShort env first letters lines lean = .settled lines after' := by
  induction letters generalizing first lean rich with
  | nil =>
      cases read
      exact ⟨lean, rfl, lacks, rfl, rfl⟩
  | cons c letters ih =>
      unfold readShort at read ⊢
      unfold completeShort
      simp only [FlagTable.scanner_table] at read ⊢
      cases known : table.short? c with
      | none =>
          simp only [known, strict] at read
          cases read
      | some index =>
          simp only [known] at read ⊢
          obtain ⟨⟨⟩, mid, value, rest⟩ := bind_eq_ok.mp read
          have first := onward_value table values env index start value
          have second := onward_readShort (onward_value table values env) _ _ first.within rest
          obtain ⟨mid', value', lacks', settled⟩ :=
            settled_of_value plain lacks value (second.hasNext more)
          obtain ⟨after', rest', lacks'', done, letters'⟩ := ih lacks' first.within rest
          rw [bind_of_ok value', settled]
          simp only [List.append_nil]
          exact ⟨after', rest', lacks'', done, letters'⟩

theorem settled_of_readLong (strict : table.unknownLong = .error) (start : rich.cursor.Within)
    {flag : List Char} {taken : Bool}
    (valued : ∀ name v index, splitInline flag = (name, some v) →
      table.long? (Text.lowercase name) = some index →
      ∃ e, values[index]? = some e ∧ e.isSwitch = false)
    (read : (table.scanner values).readLong env flag rich = .ok taken after)
    (more : after.cursor.hasNext = true) :
    ∃ after', (table.scanner (values.map muted)).readLong env flag lean = .ok true after' ∧
      after'.Lacks (marks values) after ∧ taken = true ∧
      (table.scanner values).completeLong env flag lean = .settled [] after' := by
  unfold readLong at read ⊢
  unfold completeLong
  cases cut : splitInline flag with
  | mk name inline =>
      simp only [cut, FlagTable.scanner_table] at read ⊢
      cases known : table.long? (Text.lowercase name) with
      | none =>
          simp only [known, strict] at read
          cases read
      | some index =>
          simp only [known] at read ⊢
          cases inline with
          | none =>
              simp only at read ⊢
              obtain ⟨⟨⟩, mid, value, rest⟩ := bind_eq_ok.mp read
              cases rest
              have first := onward_value table values env index start value
              have ahead := first.hasNext more
              rw [← lacks.cursor] at ahead
              obtain ⟨after', value', lacks', settled⟩ := settled_of_value plain lacks value more
              rw [bind_of_ok value', settled, if_pos ahead]
              exact ⟨after', rfl, lacks', rfl, rfl⟩
          | some v =>
              -- The inline value is put into both lines, and its flag takes it there.
              obtain ⟨e, there, holds⟩ := valued name v index cut known
              have silent : (values.map muted)[index]? = some e := by
                simp [there, muted, holds]
              have value := (plain e (List.mem_of_getElem? there)).resolve_left (by simp [holds])
              have put : ({ lean with cursor := lean.cursor.insert v } : State).Lacks (marks values)
                  { rich with cursor := rich.cursor.insert v } :=
                ⟨congrArg (·.insert v) lacks.cursor, lacks.context⟩
              simp only [FlagTable.scanner_value there, FlagTable.scanner_value silent] at read ⊢
              rw [bind_of_ok (moveCursor_apply _ _)] at read
              obtain ⟨⟨⟩, mid, first, rest⟩ := bind_eq_ok.mp read
              cases rest
              obtain ⟨after', again, lacks', settled⟩ :=
                settled_of_takesOne value.1 value.2 put first more
              rw [bind_of_ok (moveCursor_apply _ _), bind_of_ok again, settled]
              exact ⟨after', rfl, lacks', rfl, rfl⟩

/-- A flag that is read is settled, with a token left behind it. -/
theorem settled_of_readFlag (short : table.unknownShort = .error) (long : table.unknownLong = .error)
    (start : rich.cursor.Within) {flag : List Char} {taken : Bool}
    (valued : ∀ rest name v index, flag = '-' :: rest → splitInline rest = (name, some v) →
      table.long? (Text.lowercase name) = some index →
      ∃ e, values[index]? = some e ∧ e.isSwitch = false)
    (read : (table.scanner values).readFlag env flag rich = .ok taken after)
    (more : after.cursor.hasNext = true) :
    ∃ after', (table.scanner (values.map muted)).readFlag env flag lean = .ok true after' ∧
      after'.Lacks (marks values) after ∧ taken = true ∧
      (table.scanner values).completeFlag env flag lean = .settled [] after' := by
  unfold readFlag at read ⊢
  unfold completeFlag
  split at read
  · rename_i rest
    exact settled_of_readLong plain lacks long start
      (fun name v index => valued rest name v index rfl) read more
  · exact settled_of_readShort plain lacks short start [] read more

/-! ## Scans -/

theorem settled_of_scanTurn (short : table.unknownShort = .error) (long : table.unknownLong = .error)
    (fits : Fits table values env rich) (lines : List String)
    (next : (table.scanner values).scanTurn env rich = .inl after) :
    ∃ after', (table.scanner (values.map muted)).scanTurn env lean = .inl after' ∧
      after'.Lacks (marks values) after ∧
      (table.scanner values).completeTurn env (lines, lean) = .inl (lines, after') := by
  unfold scanTurn at next ⊢
  unfold completeTurn
  cases there : rich.cursor.next? with
  | none => simp [there] at next
  | some pair =>
      obtain ⟨word, c⟩ := pair
      have behind : ({ lean with cursor := c } : State).Lacks (marks values) { rich with cursor := c } :=
        ⟨rfl, lacks.context⟩
      have start := (Cursor.Onward.of_next? there).within
      simp only [lacks.cursor, there] at next ⊢
      obtain ⟨flag, letters⟩ | other := flag_or_other word
      · simp only [letters] at next ⊢
        cases read : (table.scanner values).readFlag env flag { rich with cursor := c } with
        | error e t => simp [read] at next
        | ok taken t =>
            have valued : ∀ rest name v index, flag = '-' :: rest →
                splitInline rest = (name, some v) →
                table.long? (Text.lowercase name) = some index →
                ∃ e, values[index]? = some e ∧ e.isSwitch = false := by
              rintro rest name v index rfl
              exact fits.valued word c rest name v index there letters
            obtain ⟨t', read', lacks', rfl, settled⟩ := settled_of_readFlag plain behind short long
              start valued read (fits.left word c flag taken t there letters read)
            simp only [read, if_true, Sum.inl.injEq] at next
            subst next
            simp only [read', settled, if_true, List.append_nil, lacks'.cursor]
            exact ⟨_, rfl, ⟨rfl, lacks'.context⟩, rfl⟩
      · simp only at next ⊢
        split at next
        · cases next
        · rename_i loose
          have quiet : ¬ (table.scanner (values.map muted)).table.anchored = true := loose
          cases next
          rw [if_neg quiet, if_neg loose]
          exact ⟨_, rfl, behind, rfl⟩

omit plain in
theorem settled_of_scanTurn_last (lines : List String)
    (last : (table.scanner values).scanTurn env rich = .inr (.ok () after)) :
    ∃ after', (table.scanner (values.map muted)).scanTurn env lean = .inr (.ok () after') ∧
      after'.Lacks (marks values) after ∧
      (table.scanner values).completeTurn env (lines, lean) = .inr (.settled lines after') ∧
      after.cursor.tokens = rich.cursor.tokens := by
  unfold scanTurn at last ⊢
  unfold completeTurn
  cases there : rich.cursor.next? with
  | none =>
      simp only [lacks.cursor, there] at last ⊢
      cases last
      exact ⟨lean, rfl, lacks, rfl, rfl⟩
  | some pair =>
      obtain ⟨word, c⟩ := pair
      simp only [lacks.cursor, there] at last ⊢
      obtain ⟨flag, letters⟩ | other := flag_or_other word
      · simp only [letters] at last
        split at last <;> cases last
      · simp only at last ⊢
        split at last
        · rename_i anchored
          have quiet : (table.scanner (values.map muted)).table.anchored = true := anchored
          cases last
          rw [if_pos quiet, if_pos anchored]
          obtain ⟨rfl, -⟩ := Cursor.of_next? there
          exact ⟨_, rfl, ⟨rfl, lacks.context⟩, rfl, rfl⟩
        · cases last

/-- A scan that ends does so without the marks too, and so does the one for completion; a token is
left behind every place that it began before. -/
theorem settled_of_ends (short : table.unknownShort = .error) (long : table.unknownLong = .error)
    (fits : ∀ s, Loop.Passes ((table.scanner values).scanTurn env) rich s → Fits table values env s)
    {n : Nat} (passed : n ≤ rich.cursor.consumed) (left : n < rich.cursor.tokens.length)
    (lines : List String)
    (ends : Loop.Ends ((table.scanner values).scanTurn env) rich (.ok () after)) :
    ∃ after', Loop.Ends ((table.scanner (values.map muted)).scanTurn env) lean (.ok () after') ∧
      after'.Lacks (marks values) after ∧
      Loop.Ends ((table.scanner values).completeTurn env) (lines, lean) (.settled lines after') ∧
      n < after.cursor.tokens.length := by
  generalize outcome : EStateM.Result.ok () after = r at ends
  -- Induction on the turns of the scan, with the other two going along.
  induction ends generalizing lean with
  | stop last =>
      subst outcome
      obtain ⟨after', quiet, lacks', completed, same⟩ := settled_of_scanTurn_last lacks lines last
      rw [same]
      exact ⟨after', .stop quiet, lacks', .stop completed, left⟩
  | @go rich mid r next _ ih =>
      have here := fits rich (.here rich)
      have onward := (onward_scanTurn (onward_value table values env) next).1
      obtain ⟨mid', quiet, lacks', completed⟩ :=
        settled_of_scanTurn plain lacks short long here lines next
      have inside : n < mid.cursor.tokens.length := by
        rcases tokens_of_scanTurn here next with same | more
        · rw [same]
          exact left
        · have place := onward.place
          have ahead : mid.cursor.consumed < mid.cursor.tokens.length := of_decide_eq_true more
          omega
      obtain ⟨after', quiet', lacks'', completed', left'⟩ :=
        ih lacks' (fun s rest => fits s (.go next rest)) (Nat.le_trans passed onward.place) inside
          outcome
      exact ⟨after', .go quiet quiet', lacks'', .go completed completed', left'⟩

end

end FlagScanner

/-! ## Arguments behind flags -/

namespace Element

variable {table : FlagTable} {values : List Element}

/-- Where the flags of a line are all declared, each a switch or one with a value of one token that
reads the same without the marks of the switches, where no switch has an inline value and the last
token is left to the arguments, completing the line is completing the arguments where reading it
would read them: in the same tokens and at the same place, with what the flags store but for the
marks. -/
theorem complete_flags (short : table.unknownShort = .error) (long : table.unknownLong = .error)
    {env : Env} (plain : FlagScanner.Plain env values) (body : Element) {s t : State}
    (start : s.cursor.Within) (more : s.cursor.hasNext = true)
    (fits : ∀ u, Loop.Passes ((table.scanner values).scanTurn env) s u →
      FlagScanner.Fits table values env u)
    (scan : (table.scanner values).scan env (s.cursor.weight + 1) s = .ok () t) :
    ∃ lean, (table.scanner (values.map muted)).scan env (s.cursor.weight + 1) s =
        .ok () ⟨t.cursor, lean⟩ ∧
      lean.Lacks (marks values) t.context ∧
      (Element.flags table values body).parser.parse env s =
        body.parser.parse env ⟨t.cursor.rewind s.cursor.mark, t.context⟩ ∧
      (Element.flags table values body).parser.complete env s =
        body.parser.complete env ⟨t.cursor.rewind s.cursor.mark, lean⟩ := by
  have left : s.cursor.consumed < s.cursor.tokens.length := of_decide_eq_true more
  have ends := FlagScanner.ends_scan (onward_value table values env) start
  rw [scan] at ends
  obtain ⟨⟨d, lean⟩, quiet, ⟨rfl, lacks⟩, completed, inside⟩ :=
    FlagScanner.settled_of_ends plain ⟨rfl, .same _⟩ short long fits (Nat.le_refl _) left [] ends
  have silent := FlagScanner.ends_scan (onward_value table (values.map muted) env) start
  have offers := FlagScanner.ends_completeScan (onward_value table values env) start []
  refine ⟨lean, silent.unique quiet, lacks, ?_, ?_⟩
  · change (table.scanner values).read body.parser env s = _
    unfold FlagScanner.read
    rw [bind_of_ok (get_apply _), bind_of_ok scan, bind_of_ok (moveCursor_apply _ _)]
  · change (table.scanner values).complete body.parser env s = _
    unfold FlagScanner.complete
    rw [offers.unique completed]
    have ahead : (t.cursor.rewind s.cursor.mark).hasNext = true := by
      refine decide_eq_true ?_
      simp only [Cursor.rewind, Cursor.mark]
      omega
    simp [ahead]

theorem fits_group (env : Env) (value : Element) (context : Context) {after : Context}
    (read : value.parser.parse env ⟨⟨"-kv 5 pl", [⟨"-kv", 0, 3⟩, ⟨"5", 4, 5⟩, ⟨"pl", 6, 8⟩], 1⟩,
        context.put "k" (.bool true)⟩ =
      .ok () ⟨⟨"-kv 5 pl", [⟨"-kv", 0, 3⟩, ⟨"5", 4, 5⟩, ⟨"pl", 6, 8⟩], 2⟩, after⟩) :
    let flags := (({} : FlagDeclarations).declare ["k"] .none).declare ["v"] (some value)
    let s : State := ⟨.ofTokens "-kv 5 pl" [⟨"-kv", 0, 3⟩, ⟨"5", 4, 5⟩, ⟨"pl", 6, 8⟩], context⟩
    (∀ u, Loop.Passes ((flags.table.scanner flags.values).scanTurn env) s u →
      FlagScanner.Fits flags.table flags.values env u) ∧
    (flags.table.scanner flags.values).scan env (s.cursor.weight + 1) s =
      .ok () ⟨⟨"-kv 5 pl", [⟨"pl", 6, 8⟩], 1⟩, after⟩ := by
  intro flags s
  let f := flags.table.scanner flags.values
  let word : State := ⟨⟨"-kv 5 pl", [⟨"pl", 6, 8⟩], 0⟩, after⟩
  let ended : State := ⟨⟨"-kv 5 pl", [⟨"pl", 6, 8⟩], 1⟩, after⟩
  have letters : f.readFlag env ['k', 'v'] { s with cursor := { s.cursor with consumed := 1 } } =
      .ok true ⟨⟨"-kv 5 pl", [⟨"-kv", 0, 3⟩, ⟨"5", 4, 5⟩, ⟨"pl", 6, 8⟩], 2⟩, after⟩ :=
    bind_of_ok read fun _ => pure true
  have spelled : "-kv".toList = '-' :: ['k', 'v'] := rfl
  have first : f.scanTurn env s = .inl word := FlagScanner.scanTurn_of_flag rfl spelled letters
  have second : f.scanTurn env word = .inl ended := rfl
  have last : f.scanTurn env ended = .inr (.ok () ended) := rfl
  constructor
  · intro u passed
    rcases passed.eq_or_next first with rfl | passed
    · exact FlagScanner.fits_of_letters rfl spelled (by simp) letters rfl
    · rcases passed.eq_or_next second with rfl | passed
      · exact FlagScanner.fits_of_word rfl (by decide)
      · obtain rfl := passed.eq_of_last last
        exact FlagScanner.fits_of_none rfl
  · have ends := FlagScanner.ends_scan (onward_value flags.table flags.values env)
      (s := s) (Nat.zero_le _)
    exact ends.unique (.go first (.go second (.stop last)))

/-- A switch and a number in one group of letters. -/
theorem complete_flags_of_group :
    let flags := (({} : FlagDeclarations).declare ["k"] .none).declare ["v"] (some (.leaf "n" .integer))
    let body : Element := .choice "c" { provider := .ofList [("plum", .string "plum")], caseSensitive := true }
    let now : DateTime :=
      ⟨{ year := 2001, month := 2, day := 3 }, { hour := 4, minute := 5, second := 6, nano := 0 }⟩
    let env : Env := { source := { name := "ann" }, now }
    let s : State :=
      ⟨.ofTokens "-kv 5 pl" [⟨"-kv", 0, 3⟩, ⟨"5", 4, 5⟩, ⟨"pl", 6, 8⟩], .forCompletion⟩
    FlagScanner.Plain env flags.values ∧ s.cursor.Within ∧ s.cursor.hasNext = true ∧
      (∀ u, Loop.Passes ((flags.table.scanner flags.values).scanTurn env) s u →
        FlagScanner.Fits flags.table flags.values env u) ∧
      ∃ t lean, (flags.table.scanner flags.values).scan env (s.cursor.weight + 1) s = .ok () t ∧
        (flags.table.scanner (flags.values.map muted)).scan env (s.cursor.weight + 1) s =
          .ok () ⟨t.cursor, lean⟩ ∧
        (Element.flags flags.table flags.values body).parser.complete env s =
          body.parser.complete env ⟨t.cursor.rewind s.cursor.mark, lean⟩ := by
  intro flags body now env s
  have plain : FlagScanner.Plain env flags.values := by
    intro e he
    have listed : flags.values = [.leaf "k" .markTrue, .leaf "n" .integer] := rfl
    rw [listed] at he
    obtain rfl | rfl : e = .leaf "k" .markTrue ∨ e = .leaf "n" .integer := by simpa using he
    · exact .inl rfl
    · have free : WithoutOnlyOne (.leaf "n" .integer) := .intro rfl (by simp [parts])
      exact .inr ⟨takesOne_of_readsOne rfl env, free.steady _ env⟩
  obtain ⟨fits, scan⟩ := fits_group env (.leaf "n" .integer) .forCompletion rfl
  obtain ⟨lean, silent, -, -, offers⟩ :=
    complete_flags rfl rfl plain body (Nat.zero_le _) rfl fits scan
  exact ⟨plain, Nat.zero_le _, rfl, fits, _, lean, scan, silent, offers⟩

/-- A value that counts the marks of a switch does not read without them, and the arguments are
completed in other tokens. -/
theorem complete_flags_of_counting :
    let value : Element := .sequence [
      .firstOf [.sequence [.onlyOne (.leaf "k" .markTrue), .leaf "j" .markTrue], .sequence []],
      .onlyOne (.leaf "j" .integer)]
    let flags := (({} : FlagDeclarations).declare ["k"] .none).declare ["v"] (some value)
    let body : Element := .choice "c" { provider := .ofList [("plum", .string "plum")], caseSensitive := true }
    let now : DateTime :=
      ⟨{ year := 2001, month := 2, day := 3 }, { hour := 4, minute := 5, second := 6, nano := 0 }⟩
    let env : Env := { source := { name := "ann" }, now }
    let s : State :=
      ⟨.ofTokens "-kv 5 pl" [⟨"-kv", 0, 3⟩, ⟨"5", 4, 5⟩, ⟨"pl", 6, 8⟩], .forCompletion⟩
    flags.table.unknownShort = .error ∧ flags.table.unknownLong = .error ∧
      (∀ e ∈ flags.values, e.isSwitch = true ∨ e.TakesOne env) ∧
      (∀ u, Loop.Passes ((flags.table.scanner flags.values).scanTurn env) s u →
        FlagScanner.Fits flags.table flags.values env u) ∧
      ∃ t, (flags.table.scanner flags.values).scan env (s.cursor.weight + 1) s = .ok () t ∧
        ∀ context, (Element.flags flags.table flags.values body).parser.complete env s ≠
          body.parser.complete env ⟨t.cursor.rewind s.cursor.mark, context⟩ := by
  intro value flags body now env s
  -- Behind the mark of the switch a second one is refused, and `j` is stored once. Without it a
  -- first one is stored and `j` twice, which is refused in turn.
  let counting : Element := .sequence [.onlyOne (.leaf "k" .markTrue), .leaf "j" .markTrue]
  have counted : ∀ s t, counting.parser.parse env s = .ok () t → t.cursor = s.cursor := by
    intro s t read
    obtain ⟨⟨⟩, u, first, read⟩ := bind_eq_ok.mp read
    obtain ⟨⟨⟩, w, second, last⟩ := bind_eq_ok.mp read
    cases last
    cases second
    cases parse_of_onlyOne first
    rfl
  have chosen : ∀ s t, (Element.firstOf [counting, .sequence []]).parser.parse env s = .ok () t →
      t.cursor = s.cursor := by
    intro s t read
    have unfolded : (Element.firstOf [counting, .sequence []]).parser.parse env s =
        (counting.parser.parse env).orElse
          (fun s _ _ => Parser.readFirst env [(Element.sequence []).parser] s) s := rfl
    rw [unfolded] at read
    cases counts : counting.parser.parse env s with
    | ok _ u =>
        rw [orElse_of_ok counts] at read
        cases read
        exact counted s t counts
    | error e u =>
        rw [orElse_of_error counts] at read
        cases read
        rfl
  have one : value.TakesOne env := by
    intro s t read
    obtain ⟨⟨⟩, u, first, read⟩ := bind_eq_ok.mp read
    obtain ⟨⟨⟩, w, second, last⟩ := bind_eq_ok.mp read
    cases last
    rw [← chosen s u first]
    exact takesOne_of_readsOne (e := .leaf "j" .integer) rfl env u t (parse_of_onlyOne second)
  obtain ⟨fits, scan⟩ := fits_group env value .forCompletion rfl
  refine ⟨rfl, rfl, ?_, fits, _, scan, ?_⟩
  · intro e he
    have listed : flags.values = [.leaf "k" .markTrue, value] := rfl
    rw [listed] at he
    obtain rfl | rfl : e = .leaf "k" .markTrue ∨ e = value := by simpa using he
    · exact .inl rfl
    · exact .inr one
  · intro context same
    have completed : (Element.flags flags.table flags.values body).parser.complete env s = .none := by
      decide +kernel
    have offered : body.parser.complete env ⟨⟨"-kv 5 pl", [⟨"pl", 6, 8⟩], 0⟩, .empty⟩ =
        .ofList ["plum"] := by
      decide +kernel
    have blind : ∀ c, body.parser.complete env ⟨c, context⟩ = body.parser.complete env ⟨c, .empty⟩ :=
      fun _ => rfl
    rw [completed, blind] at same
    cases same.trans offered

end Element

end CommandGrammar
