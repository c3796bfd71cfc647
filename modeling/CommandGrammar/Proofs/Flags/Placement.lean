import CommandGrammar.Proofs.Flags.Value
import CommandGrammar.Proofs.Grammar.Loops

/-!
# Where flags may stand

The scan of flags edits the tokens it walks. Whatever way blocks of flags are mixed with the other
words, it leaves these words in their order and has put the values of the flags in theirs.
-/

namespace CommandGrammar

open Reading

/-! ## Blocks of flags -/

def FlagTable.element? (table : FlagTable) (values : List Element) : FlagName → Option Element
  | .short c => (table.short? c).bind fun index => values[index]?
  | .long name => (table.long? (Text.lowercase name)).bind fun index => values[index]?

/-- A flag as it is used, with the text of its value if one follows. -/
abbrev FlagUse := FlagName × Option String

namespace FlagUse

/-- The flag is declared, and a value follows just where it takes one. -/
def Declared (table : FlagTable) (values : List Element) (u : FlagUse) : Prop :=
  ∃ e, table.element? values u.1 = some e ∧ u.2.isSome = e.readsOne

/-- What some flags put, one after the other, unless the value of one is refused. -/
def effects (table : FlagTable) (values : List Element) (env : Env) :
    List FlagUse → Option (List (String × Value))
  | [] => some []
  | u :: us =>
    both ((table.element? values u.1).bind fun e => e.effect env u.2) (effects table values env us)

theorem effects_append {table : FlagTable} {values : List Element} {env : Env}
    (us vs : List FlagUse) :
    effects table values env (us ++ vs) =
      both (effects table values env us) (effects table values env vs) := by
  induction us with
  | nil => simp [effects]
  | cons u us ih => rw [List.cons_append, effects, effects, ih, both_assoc]

end FlagUse

/-- Words that belong together: a long flag and its value, or a group of short flags and the values
of those that take one. -/
inductive FlagBlock where
  | long (name : String) (value : Option String)
  | short (letters : List (Char × Option String))

namespace FlagBlock

/-- What stands behind the first hyphen of a block. -/
def flag : FlagBlock → List Char
  | long name _ => '-' :: name.toList
  | short letters => letters.map (·.1)

def texts : FlagBlock → List String
  | long _ value => value.toList
  | short letters => letters.filterMap (·.2)

def words (b : FlagBlock) : List String :=
  String.ofList ('-' :: b.flag) :: b.texts

def uses : FlagBlock → List FlagUse
  | long name value => [(.long name, value)]
  | short letters => letters.map fun l => (.short l.1, l.2)

/-- The block can be told from other words: no name has an equals sign, and no letter is a hyphen. -/
def Plain : FlagBlock → Prop
  | long name _ => '=' ∉ name.toList
  | short letters => ∀ l ∈ letters, l.1 ≠ '-'

/-- Some letters, each in a group of its own. -/
def apart (letters : List (Char × Option String)) : List FlagBlock :=
  letters.map fun l => short [l]

structure Proper (table : FlagTable) (values : List Element) (b : FlagBlock) : Prop where
  plain : b.Plain
  declared : ∀ u ∈ b.uses, u.Declared table values

theorem uses_apart (letters : List (Char × Option String)) :
    (apart letters).flatMap uses = (short letters).uses := by
  induction letters with
  | nil => rfl
  | cons l letters ih => simpa [apart, uses] using ih

theorem Proper.apart {table : FlagTable} {values : List Element}
    {letters : List (Char × Option String)} (h : (short letters).Proper table values) :
    ∀ b ∈ FlagBlock.apart letters, b.Proper table values := by
  intro b mem
  obtain ⟨l, inside, rfl⟩ := List.mem_map.1 mem
  refine ⟨?_, ?_⟩
  · intro l' mem'
    obtain rfl := List.mem_singleton.1 mem'
    exact h.plain l' inside
  · intro u mem'
    refine h.declared u ?_
    obtain rfl : u = (.short l.1, l.2) := by simpa [uses] using mem'
    exact List.mem_map.2 ⟨l, inside, rfl⟩

end FlagBlock

/-- The word is not taken for a flag. -/
def positional (word : String) : Bool :=
  word.toList.head? != some '-'

theorem positional_of_toList {word : String} {flag : List Char} (letters : word.toList = '-' :: flag) :
    positional word = false := by
  simp [positional, letters]

theorem toList_of_positional {word : String} (flag : positional word = false) :
    ∃ letters, word.toList = '-' :: letters := by
  unfold positional at flag
  simp only [bne_eq_false_iff_eq] at flag
  obtain ⟨letters, spelled⟩ := List.head?_eq_some_iff.mp flag
  exact ⟨letters, spelled⟩

/-- A scan goes past a word that is no flag, or ends with it. -/
theorem FlagScanner.scanTurn_of_word {f : FlagScanner} {env : Env} {s : State} {word : String}
    {c : Cursor} (next : s.cursor.next? = some (word, c)) (other : positional word = true) :
    f.scanTurn env s =
      if f.table.anchored then .inr (.ok () { s with cursor := c }) else .inl { s with cursor := c } := by
  unfold scanTurn
  simp only [next]
  split
  · rename_i flag letters
    simp [positional_of_toList letters] at other
  · rfl

/-- A stream mixes blocks of flags with other words. The words of a block stay together, unless the
letters of a group are written apart; the blocks are in order, and so are the words. -/
inductive Mixes : List FlagBlock → List String → List String → Prop
  | done : Mixes [] [] []
  | word {blocks words stream} (word : String) (h : positional word = true)
      (rest : Mixes blocks words stream) : Mixes blocks (word :: words) (word :: stream)
  | block {blocks words stream} (b : FlagBlock) (rest : Mixes blocks words stream) :
      Mixes (b :: blocks) words (b.words ++ stream)
  | apart {blocks words stream} (letters : List (Char × Option String))
      (rest : Mixes (FlagBlock.apart letters ++ blocks) words stream) :
      Mixes (.short letters :: blocks) words stream

/-! ## Reading a block -/

section Scan

variable {table : FlagTable} {values : List Element} {env : Env} {raw : String}

/-- The value of every flag is that of a switch or of one token. -/
def OneToken (values : List Element) : Prop :=
  ∀ e ∈ values, e.isSwitch = true ∨ e.readsOne = true

variable (simple : OneToken values)

include simple

theorem FlagUse.yields_value {index : Nat} {e : Element} (found : values[index]? = some e)
    {value : Option String} (fits : value.isSome = e.readsOne) {before taken after : List Token}
    (texts : taken.map (·.value) = value.toList) :
    (((table.scanner values).value index).parse env).Yields (.between raw before (taken ++ after)) ()
      (.between raw (before ++ taken) after) (e.effect env value) := by
  rw [FlagTable.scanner_value found]
  exact Element.yields_effect (simple e (List.mem_of_getElem? found)) fits texts

/-- A group of letters consumes the values of its letters in their order. -/
theorem yields_readShort {letters : List (Char × Option String)}
    (declared : ∀ u ∈ (FlagBlock.short letters).uses, u.Declared table values) (first : Bool)
    (before : List Token) {taken after : List Token}
    (texts : taken.map (·.value) = letters.filterMap (·.2)) :
    ((table.scanner values).readShort env first (letters.map (·.1))).Yields
      (.between raw before (taken ++ after)) true (.between raw (before ++ taken) after)
      (FlagUse.effects table values env (FlagBlock.short letters).uses) := by
  induction letters generalizing first before taken with
  | nil =>
      obtain rfl : taken = [] := by simpa using texts
      rw [List.nil_append, List.append_nil]
      exact yields_pure true _
  | cons l letters ih =>
      obtain ⟨c, value⟩ := l
      have split : taken.map (·.value) = value.toList ++ letters.filterMap (·.2) := by
        cases value <;> simpa using texts
      obtain ⟨own, more, rfl, own_texts, more_texts⟩ := List.map_eq_append_iff.1 split
      obtain ⟨e, known, fits⟩ := declared (.short c, value) (by simp [FlagBlock.uses])
      obtain ⟨index, number, found⟩ := Option.bind_eq_some_iff.1 known
      have value_read : (((table.scanner values).value index).parse env).Yields
          (.between raw before (own ++ (more ++ after))) ()
          (.between raw (before ++ own) (more ++ after)) (e.effect env value) :=
        FlagUse.yields_value simple found fits own_texts
      have rest_read := ih (fun u m => declared u (List.mem_cons_of_mem _ m)) false (before ++ own)
        more_texts
      have both_read := value_read.bind (f := fun _ => _) rest_read
      simpa [FlagScanner.readShort, FlagTable.scanner, number, FlagBlock.uses, FlagUse.effects,
        known] using both_read

theorem yields_readLong {name : String} (plain : '=' ∉ name.toList) {value : Option String}
    (declared : FlagUse.Declared table values (.long name, value)) {before taken after : List Token}
    (texts : taken.map (·.value) = value.toList) :
    ((table.scanner values).readLong env name.toList).Yields
      (.between raw before (taken ++ after)) true (.between raw (before ++ taken) after)
      (FlagUse.effects table values env [(.long name, value)]) := by
  obtain ⟨e, known, fits⟩ := declared
  obtain ⟨index, number, found⟩ := Option.bind_eq_some_iff.1 known
  have value_read : (((table.scanner values).value index).parse env).Yields
      (.between raw before (taken ++ after)) () (.between raw (before ++ taken) after)
      (e.effect env value) := FlagUse.yields_value simple found fits texts
  have name_alone : FlagScanner.splitInline name.toList = (name, none) := by
    simp [FlagScanner.splitInline, Text.splitOnce_eq_none_iff.2 plain]
  have both_read := value_read.bind (f := fun _ => _) (yields_pure true _)
  simpa [FlagScanner.readLong, name_alone, FlagTable.scanner, number, FlagUse.effects, known]
    using both_read

/-- The word of a declared block being read, the values of the block are consumed. -/
theorem yields_readFlag {b : FlagBlock} (proper : b.Proper table values)
    {before taken after : List Token}
    (texts : taken.map (·.value) = b.texts) :
    ((table.scanner values).readFlag env b.flag).Yields
      (.between raw before (taken ++ after)) true (.between raw (before ++ taken) after)
      (FlagUse.effects table values env b.uses) := by
  cases b with
  | long name value =>
      exact yields_readLong simple proper.plain (proper.declared _ (by simp [FlagBlock.uses])) texts
  | short letters =>
      have letters_read : ((table.scanner values).readShort env true (letters.map (·.1))).Yields
          (.between raw before (taken ++ after)) true (.between raw (before ++ taken) after) _ :=
        yields_readShort simple proper.declared true before texts
      cases letters with
      | nil => exact letters_read
      | cons l letters =>
          have no_hyphen : l.1 ≠ '-' := proper.plain l (by simp)
          simpa [FlagScanner.readFlag, FlagBlock.flag, no_hyphen] using letters_read

end Scan

/-! ## Scanning a stream -/

variable {table : FlagTable} {values : List Element} {env : Env} {raw : String}

theorem scan_nil (f : FlagScanner) (steps : Nat) {before : List Token} :
    (f.scan env steps).Yields (.between raw before []) () (.between raw before []) (some []) := by
  cases steps with
  | zero => exact yields_pure () _
  | succ steps =>
      refine Yields.bind_leaves (leaves_hasNext _) ?_
      simpa using yields_pure () _

theorem scan_word {f : FlagScanner} (unanchored : f.table.anchored = false) {steps : Nat}
    {t : Token} (h : positional t.value = true) {before after : List Token} {d : Cursor}
    {ps : Option (List (String × Value))}
    (rest : (f.scan env steps).Yields (.between raw (before ++ [t]) after) () d ps) :
    (f.scan env (steps + 1)).Yields (.between raw before (t :: after)) () d ps := by
  refine Yields.bind_leaves (leaves_hasNext _) ?_
  simp only [Cursor.hasNext_between, List.isEmpty_cons, Bool.not_false, if_true]
  refine Yields.bind_leaves (leaves_next_between t) ?_
  split
  · rename_i flag word
    simp [positional, word] at h
  · simpa [unanchored] using rest

/-- The scan takes a block of declared flags out of the tokens, and its values are put. -/
theorem scan_block (simple : OneToken values) {b : FlagBlock}
    (proper : b.Proper table values) {steps : Nat}
    {before taken after : List Token} (texts : taken.map (·.value) = b.words) {d : Cursor}
    {ps : Option (List (String × Value))}
    (rest : ((table.scanner values).scan env steps).Yields (.between raw before after) () d ps) :
    ((table.scanner values).scan env (steps + 1)).Yields (.between raw before (taken ++ after)) () d
      (both (FlagUse.effects table values env b.uses) ps) := by
  obtain ⟨t, own, rfl, word, own_texts⟩ := List.map_eq_cons_iff.1 texts
  refine Yields.bind_leaves (leaves_hasNext _) ?_
  simp only [List.cons_append, Cursor.hasNext_between, List.isEmpty_cons, Bool.not_false, if_true]
  refine Yields.bind_leaves (leaves_next_between t) ?_
  simp only [word, String.toList_ofList]
  refine Yields.get_bind (k := fun cursor => do
    if ← (table.scanner values).readFlag env b.flag then
      Reading.moveCursor fun c => c.remove cursor.mark c.mark
    (table.scanner values).scan env steps) ?_
  have flag_read : ((table.scanner values).readFlag env b.flag).Yields
      (.between raw (before ++ [t]) (own ++ after)) true (.between raw (before ++ [t] ++ own) after) _ :=
    yields_readFlag simple proper own_texts
  refine flag_read.bind ?_
  have taken_out : (Cursor.between raw (before ++ [t] ++ own) after).remove
      (Cursor.between raw (before ++ [t]) (own ++ after)).mark
      (Cursor.between raw (before ++ [t] ++ own) after).mark = .between raw before after := by
    rw [List.append_assoc]
    exact Cursor.remove_between (List.cons_ne_nil _ _) (by simp [Cursor.mark]) (by simp [Cursor.mark])
  refine Yields.bind_leaves (leaves_moveCursor _ _) ?_
  rw [taken_out]
  exact rest

/-- Whatever stream the blocks and the other words are mixed to, the scan leaves these words in
their order and puts what the blocks put in theirs. -/
theorem Mixes.scan {blocks : List FlagBlock} {words stream : List String}
    (mixed : Mixes blocks words stream) (unanchored : table.anchored = false)
    (simple : OneToken values) (proper : ∀ b ∈ blocks, b.Proper table values) {steps : Nat}
    (before : List Token) {after : List Token} (texts : after.map (·.value) = stream)
    (enough : after.length < steps) :
    ∃ left, left.Sublist after ∧ left.map (·.value) = words ∧
      ((table.scanner values).scan env steps).Yields (.between raw before after) ()
        (.between raw (before ++ left) [])
        (FlagUse.effects table values env (blocks.flatMap (·.uses))) := by
  -- Induction on the way the stream is mixed; each step of the scan takes one case of it.
  induction mixed generalizing steps before after with
  | done =>
      obtain rfl : after = [] := by simpa using texts
      exact ⟨[], .slnil, rfl, by simpa [FlagUse.effects] using scan_nil _ _⟩
  | word w h rest ih =>
      obtain ⟨t, after, rfl, rfl, more_texts⟩ := List.map_eq_cons_iff.1 texts
      obtain ⟨steps, rfl⟩ : ∃ n, steps = n + 1 := ⟨steps - 1, by omega⟩
      have shorter : after.length < steps := by simpa using enough
      obtain ⟨left, sub, left_words, rest_scan⟩ := ih proper (before ++ [t]) more_texts shorter
      refine ⟨t :: left, sub.cons_cons t, by simp [left_words], scan_word unanchored h ?_⟩
      simpa using rest_scan
  | block b rest ih =>
      obtain ⟨taken, after, rfl, taken_texts, texts⟩ := List.map_eq_append_iff.1 texts
      obtain ⟨steps, rfl⟩ : ∃ n, steps = n + 1 := ⟨steps - 1, by omega⟩
      have shorter : after.length < steps := by
        have := congrArg List.length taken_texts
        simp only [List.length_map, FlagBlock.words, List.length_cons, List.length_append]
          at this enough
        omega
      obtain ⟨left, sub, left_words, rest_scan⟩ :=
        ih (fun b' mem => proper b' (List.mem_cons_of_mem b mem)) before texts shorter
      refine ⟨left, sub.trans (List.sublist_append_right taken after), left_words, ?_⟩
      rw [List.flatMap_cons, FlagUse.effects_append]
      exact scan_block simple (proper b List.mem_cons_self) taken_texts rest_scan
  | @apart blocks _ _ letters rest ih =>
      have parts : ∀ b ∈ FlagBlock.apart letters ++ blocks, b.Proper table values := by
        intro b mem
        cases List.mem_append.1 mem with
        | inl mem => exact (proper _ List.mem_cons_self).apart b mem
        | inr mem => exact proper b (List.mem_cons_of_mem _ mem)
      simpa [FlagBlock.uses_apart] using ih parts before texts enough

/-- The arguments are read from where the flags began, in the tokens that the scan left. -/
theorem Element.parse_flags_of_some {before after left : List Token}
    {pairs : List (String × Value)}
    (scan : ((table.scanner values).scan env ((Cursor.between raw before after).weight + 1)).Leaves
      (.between raw before after) ⟨.ok (), .between raw (before ++ left) [], pairs⟩)
    (body : Element) (context : Context) :
    (Element.flags table values body).parser.parse env ⟨.between raw before after, context⟩ =
      body.parser.parse env ⟨.between raw before left, context.putAll pairs⟩ := by
  have back : (Cursor.between raw (before ++ left) []).rewind (Cursor.between raw before after).mark =
      .between raw before (left ++ []) := Cursor.rewind_between rfl
  change (table.scanner values).read body.parser env _ = _
  unfold FlagScanner.read
  rw [bind_of_ok (get_apply _), bind_of_ok (scan context), bind_of_ok (moveCursor_apply _ _), back,
    List.append_nil]

theorem Element.parse_flags_of_none {before after : List Token} {e : ParseError} {d : Cursor}
    {pairs : List (String × Value)}
    (scan : ((table.scanner values).scan env ((Cursor.between raw before after).weight + 1)).Leaves
      (.between raw before after) ⟨.error e, d, pairs⟩)
    (body : Element) (context : Context) :
    (Element.flags table values body).parser.parse env ⟨.between raw before after, context⟩ =
      .error e ⟨d, context.putAll pairs⟩ := by
  change (table.scanner values).read body.parser env _ = _
  unfold FlagScanner.read
  rw [bind_of_ok (get_apply _), bind_of_error (scan context)]

/-- Flags may stand anywhere. What blocks of declared flags do is settled by the blocks: either each
stream that they are mixed to with some other words is refused before any argument is read, or from
each stream the arguments are read where the flags began, off exactly these words in their order,
with the same pairs put behind the context. -/
theorem flags_stand_anywhere {table : FlagTable} {values : List Element}
    (unanchored : table.anchored = false) (simple : OneToken values) {blocks : List FlagBlock}
    (proper : ∀ b ∈ blocks, b.Proper table values) (words : List String) (env : Env) :
    (FlagUse.effects table values env (blocks.flatMap (·.uses)) = none ∧
      ∀ raw before after, Mixes blocks words (after.map (·.value)) →
        ∃ e d pairs, ∀ body context,
          (Element.flags table values body).parser.parse env ⟨.between raw before after, context⟩ =
            .error e ⟨d, context.putAll pairs⟩) ∨
    (∃ pairs, FlagUse.effects table values env (blocks.flatMap (·.uses)) = some pairs ∧
      ∀ raw before after, Mixes blocks words (after.map (·.value)) →
        ∃ left, left.Sublist after ∧ left.map (·.value) = words ∧ ∀ body context,
          (Element.flags table values body).parser.parse env ⟨.between raw before after, context⟩ =
            body.parser.parse env ⟨.between raw before left, context.putAll pairs⟩) := by
  have scanned : ∀ raw before after, Mixes blocks words (after.map (·.value)) →
      ∃ left, left.Sublist after ∧ left.map (·.value) = words ∧
        ((table.scanner values).scan env ((Cursor.between raw before after).weight + 1)).Yields
          (.between raw before after) () (.between raw (before ++ left) [])
          (FlagUse.effects table values env (blocks.flatMap (·.uses))) := by
    intro raw before after mixed
    exact mixed.scan unanchored simple proper before rfl
      (Nat.lt_succ_of_le Cursor.length_le_weight_between)
  cases outcome : FlagUse.effects table values env (blocks.flatMap (·.uses)) with
  | none =>
      refine Or.inl ⟨rfl, fun raw before after mixed => ?_⟩
      obtain ⟨left, -, -, scan⟩ := scanned raw before after mixed
      rw [outcome] at scan
      obtain ⟨e, d, pairs, scan⟩ := scan
      exact ⟨e, d, pairs, Element.parse_flags_of_none scan⟩
  | some pairs =>
      refine Or.inr ⟨pairs, rfl, fun raw before after mixed => ?_⟩
      obtain ⟨left, sub, left_words, scan⟩ := scanned raw before after mixed
      rw [outcome] at scan
      exact ⟨left, sub, left_words, Element.parse_flags_of_some scan⟩

/-- A group of two letters written apart around another word. -/
theorem flags_stand_anywhere_apart :
    let flags := (({} : Element.FlagDeclarations).declare ["a"] none).declare ["q"]
      (some (.leaf "count" .integer))
    let blocks := [FlagBlock.short [('a', none), ('q', some "42")]]
    let now : DateTime :=
      ⟨{ year := 2001, month := 2, day := 3 }, { hour := 4, minute := 5, second := 6, nano := 0 }⟩
    let env : Env := { source := { name := "ann" }, now }
    let after : List Token := [⟨"-a", 0, 2⟩, ⟨"x", 3, 4⟩, ⟨"-q", 5, 7⟩, ⟨"42", 8, 10⟩]
    flags.table.anchored = false ∧ OneToken flags.values ∧
      (∀ b ∈ blocks, b.Proper flags.table flags.values) ∧
      Mixes blocks ["x"] (after.map (·.value)) ∧
      ∃ left, left.Sublist after ∧ left.map (·.value) = ["x"] ∧ ∀ body context,
        (Element.flags flags.table flags.values body).parser.parse env
            ⟨.between "-a x -q 42" [] after, context⟩ =
          body.parser.parse env ⟨.between "-a x -q 42" [] left,
            (context.put "a" (.bool true)).put "count" (.int 42)⟩ := by
  intro flags blocks now env after
  have simple : OneToken flags.values := by unfold OneToken; decide
  have proper : ∀ b ∈ blocks, b.Proper flags.table flags.values := by
    intro b mem
    obtain rfl := List.mem_singleton.1 mem
    refine ⟨by simp [FlagBlock.Plain], ?_⟩
    intro u mem
    obtain rfl | rfl : u = (.short 'a', none) ∨ u = (.short 'q', some "42") := by
      simpa [FlagBlock.uses] using mem
    · exact ⟨.leaf "a" .markTrue, rfl, rfl⟩
    · exact ⟨.leaf "count" .integer, rfl, rfl⟩
  have mixed : Mixes blocks ["x"] (after.map (·.value)) :=
    .apart _ (.block (.short [('a', none)]) (.word "x" (by decide)
      (.block (.short [('q', some "42")]) .done)))
  have outcome : FlagUse.effects flags.table flags.values env (blocks.flatMap (·.uses)) =
      some [("a", .bool true), ("count", .int 42)] := rfl
  have unanchored : flags.table.anchored = false := rfl
  refine ⟨unanchored, simple, proper, mixed, ?_⟩
  cases flags_stand_anywhere unanchored simple proper ["x"] env with
  | inl refused =>
      rw [outcome] at refused
      cases refused.1
  | inr read =>
      obtain ⟨pairs, same, read⟩ := read
      obtain rfl := Option.some.inj (outcome.symm.trans same)
      exact read "-a x -q 42" [] after mixed

end CommandGrammar
