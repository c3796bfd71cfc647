import CommandGrammar.Proofs.Flags.Placement
import CommandGrammar.Proofs.Grammar.Termination

/-!
# Flags that nobody declared

Where flags that are not declared are left to the arguments, flags around them should not be seen in
a line that names no declared one. Reading leaves every word but a bare hyphen: that is a group
without letters, which is read to its end at once and taken out. Completing does not ask what is to
be left. It takes every group of letters out, and the first long flag ends it with the names that
begin so.
-/

namespace CommandGrammar

open Reading

/-! ## What a scan comes to -/

/-- What stands behind the hyphens of a long flag. -/
def longFlag? (word : String) : Option (List Char) :=
  match word.toList with
  | '-' :: '-' :: flag => some flag
  | _ => none

namespace FlagTable

/-- Whether a word names a flag that is declared. -/
def names (table : FlagTable) (word : String) : Bool :=
  match word.toList with
  | '-' :: '-' :: flag => (table.long? (Text.lowercase (FlagScanner.splitInline flag).1)).isSome
  | '-' :: letters => letters.any fun c => (table.short? c).isSome
  | _ => false

/-- The tokens that a scan comes to: all, or the flags before the first other word. -/
def reached (table : FlagTable) (ts : List Token) : List Token :=
  if table.anchored then ts.takeWhile fun t => !positional t.value else ts

/-- The tokens behind those. -/
def unreached (table : FlagTable) (ts : List Token) : List Token :=
  if table.anchored then ts.dropWhile fun t => !positional t.value else []

/-- The tokens where a scan keeps, of the words that it comes to, those that satisfy a predicate. -/
def sift (table : FlagTable) (keep : String → Bool) (ts : List Token) : List Token :=
  (table.reached ts).filter (fun t => keep t.value) ++ table.unreached ts

/-- What stands behind the hyphens of the first long flag that a scan comes to. -/
def firstLong? (table : FlagTable) (ts : List Token) : Option (List Char) :=
  (table.reached ts).findSome? fun t => longFlag? t.value

/-- The long flags whose names begin as a flag does. -/
def longLike (table : FlagTable) (flag : List Char) : List String :=
  (table.longNames.filter fun n =>
    Text.startsWithIgnoringCase n (FlagScanner.splitInline flag).1).map fun n => "--" ++ n

variable {table : FlagTable} {keep : String → Bool} {t : Token} {ts : List Token}

theorem reached_append_unreached (table : FlagTable) (ts : List Token) :
    table.reached ts ++ table.unreached ts = ts := by
  unfold reached unreached
  split
  · exact List.takeWhile_append_dropWhile
  · exact List.append_nil ts

/-- A scan that keeps all that it comes to keeps all tokens. -/
theorem sift_eq_self (h : ∀ t ∈ table.reached ts, keep t.value = true) :
    table.sift keep ts = ts := by
  rw [sift, List.filter_eq_self.mpr h, reached_append_unreached]

theorem reached_flag (flag : positional t.value = false) :
    table.reached (t :: ts) = t :: table.reached ts := by
  unfold reached
  split
  · rw [List.takeWhile_cons_of_pos (by simp [flag])]
  · rfl

theorem unreached_flag (flag : positional t.value = false) :
    table.unreached (t :: ts) = table.unreached ts := by
  unfold unreached
  split
  · rw [List.dropWhile_cons_of_pos (by simp [flag])]
  · rfl

theorem reached_word (word : positional t.value = true) :
    table.reached (t :: ts) = if table.anchored then [] else t :: table.reached ts := by
  unfold reached
  split
  · rw [List.takeWhile_cons_of_neg (by simp [word])]
  · rfl

theorem unreached_word (word : positional t.value = true) :
    table.unreached (t :: ts) = if table.anchored then t :: ts else table.unreached ts := by
  unfold unreached
  split
  · rw [List.dropWhile_cons_of_neg (by simp [word])]
  · rfl

theorem sift_flag (keep : String → Bool) (flag : positional t.value = false) :
    table.sift keep (t :: ts) =
      if keep t.value then t :: table.sift keep ts else table.sift keep ts := by
  rw [sift, reached_flag flag, unreached_flag flag, List.filter_cons]
  split <;> rfl

theorem sift_word (keep : String → Bool) (word : positional t.value = true)
    (kept : keep t.value = true) :
    table.sift keep (t :: ts) = t :: if table.anchored then ts else table.sift keep ts := by
  rw [sift, reached_word word, unreached_word word]
  split
  · rfl
  · rw [List.filter_cons_of_pos (p := fun t : Token => keep t.value) kept]
    rfl

section Unnamed

variable {word : String} {flag : List Char} (unnamed : table.names word = false)

include unnamed

theorem long_of_unnamed (spelled : word.toList = '-' :: '-' :: flag) :
    table.long? (Text.lowercase (FlagScanner.splitInline flag).1) = none := by
  simpa [names, spelled] using unnamed

theorem letters_of_unnamed (spelled : word.toList = '-' :: flag)
    (group : ∀ rest, flag ≠ '-' :: rest) : ∀ c ∈ flag, table.short? c = none := by
  unfold names at unnamed
  rw [spelled] at unnamed
  split at unnamed
  · rename_i rest same
    exact absurd (List.cons.inj same).2 (group rest)
  · rename_i same
    cases same
    simpa using unnamed
  · rename_i other
    exact (other flag rfl).elim

/-- A flag other than a bare hyphen is left where it names no declared one. -/
theorem leavesFlag_of_unnamed (short : table.unknownShort = .ignore)
    (long : table.unknownLong = .ignore) (spelled : word.toList = '-' :: flag) (more : flag ≠ []) :
    table.leavesFlag flag = true := by
  cases flag with
  | nil => exact absurd rfl more
  | cons c rest =>
      by_cases hyphen : c = '-'
      · subst hyphen
        simp [leavesFlag, long_of_unnamed unnamed spelled, long]
      · have group : ∀ long, c :: rest ≠ '-' :: long := by simp [hyphen]
        have unknown := letters_of_unnamed unnamed spelled group c List.mem_cons_self
        simp [leavesFlag, unknown, short]

end Unnamed

end FlagTable

namespace FlagScanner

variable {f : FlagScanner} {env : Env} {raw : String} {before after : List Token} {t : Token}
  {context : Context}

/-! ## Reading past undeclared flags -/

theorem scanTurn_left {flag : List Char} (spelled : t.value.toList = '-' :: flag)
    (leaves : f.table.leavesFlag flag = true) :
    f.scanTurn env ⟨.between raw before (t :: after), context⟩ =
      .inl ⟨.between raw (before ++ [t]) after, context⟩ := by
  unfold scanTurn
  simp only [Cursor.next?_between_cons, spelled, readFlag_of_leaves leaves]
  rfl

/-- A bare hyphen has no letter that could be unknown, so it is taken out under every policy. -/
theorem scanTurn_bare (bare : t.value = "-") :
    f.scanTurn env ⟨.between raw before (t :: after), context⟩ =
      .inl ⟨.between raw before after, context⟩ := by
  have spelled : t.value.toList = ['-'] := by rw [bare]; rfl
  have read : f.readFlag env [] ⟨.between raw (before ++ [t]) after, context⟩ =
      .ok true ⟨.between raw (before ++ [t]) after, context⟩ := rfl
  rw [scanTurn_of_flag Cursor.next?_between_cons spelled read]
  dsimp only
  rw [Cursor.remove_between (List.cons_ne_nil _ _) (by simp [Cursor.mark]) (by simp [Cursor.mark])]

/-- Reading flags in a line that names none goes to the end of what it comes to, and takes nothing
out but bare hyphens. -/
theorem ends_scanTurn_unnamed (short : f.table.unknownShort = .ignore)
    (long : f.table.unknownLong = .ignore) (before : List Token)
    (unnamed : ∀ t ∈ after, f.table.names t.value = false) :
    ∃ read rest, read ++ rest = f.table.sift (· != "-") after ∧
      Loop.Ends (f.scanTurn env) ⟨.between raw before after, context⟩
        (.ok () ⟨.between raw (before ++ read) rest, context⟩) := by
  induction after generalizing before with
  | nil =>
      have nothing : f.table.sift (· != "-") [] = [] := by
        simp [FlagTable.sift, FlagTable.reached, FlagTable.unreached]
      refine ⟨[], [], nothing.symm, .stop ?_⟩
      simp [scanTurn]
  | cons t after ih =>
      have later := fun u hu => unnamed u (List.mem_cons_of_mem t hu)
      cases word : positional t.value with
      | true =>
          have kept : (t.value != "-") = true := by
            refine bne_iff_ne.mpr fun bare => ?_
            rw [bare] at word
            exact absurd word (by decide)
          have turn : f.scanTurn env ⟨.between raw before (t :: after), context⟩ = _ :=
            scanTurn_of_word Cursor.next?_between_cons word
          rw [FlagTable.sift_word (· != "-") word kept]
          by_cases anchored : f.table.anchored = true
          · rw [if_pos anchored] at turn ⊢
            exact ⟨[t], after, rfl, .stop turn⟩
          · rw [if_neg anchored] at turn ⊢
            obtain ⟨read, rest, left, ends⟩ := ih (before ++ [t]) later
            rw [List.append_assoc] at ends
            exact ⟨t :: read, rest, congrArg (t :: ·) left, .go turn ends⟩
      | false =>
          by_cases bare : t.value = "-"
          -- A bare hyphen is gone behind the turn, so the tokens in front stay as they were.
          · obtain ⟨read, rest, left, ends⟩ := ih before later
            refine ⟨read, rest, ?_, .go (scanTurn_bare bare) ends⟩
            rw [FlagTable.sift_flag _ word, if_neg (by simp [bare]), left]
          · obtain ⟨flag, spelled⟩ := toList_of_positional word
            have more : flag ≠ [] := by
              rintro rfl
              exact bare (String.toList_injective spelled)
            have leaves : f.table.leavesFlag flag = true :=
              FlagTable.leavesFlag_of_unnamed (unnamed t List.mem_cons_self) short long spelled more
            obtain ⟨read, rest, left, ends⟩ := ih (before ++ [t]) later
            rw [List.append_assoc] at ends
            refine ⟨t :: read, rest, ?_, .go (scanTurn_left spelled leaves) ends⟩
            rw [FlagTable.sift_flag _ word, if_pos (by simp [bare]), List.cons_append, left]

/-! ## Completing past undeclared flags -/

theorem completeShort_unnamed (short : f.table.unknownShort = .ignore) {letters : List Char}
    (unnamed : ∀ c ∈ letters, f.table.short? c = none) (first : Bool) (lines : List String)
    (s : State) : f.completeShort env first letters lines s = .settled lines s := by
  induction letters generalizing first with
  | nil => rfl
  | cons c letters ih =>
      have unknown := unnamed c List.mem_cons_self
      have later := ih (fun d hd => unnamed d (List.mem_cons_of_mem c hd)) false
      simp [completeShort, unknown, short, later]

/-- A long flag that is not declared ends the scan for completion with names. -/
theorem completeTurn_long {flag : List Char} (word : longFlag? t.value = some flag)
    (unnamed : f.table.names t.value = false) :
    f.completeTurn env ([], ⟨.between raw before (t :: after), context⟩) =
      .inr (.offered (.ofList (f.table.longLike flag))) := by
  have spelled : t.value.toList = '-' :: '-' :: flag := by
    unfold longFlag? at word
    split at word
    · rename_i letters
      cases word
      exact letters
    · cases word
  have unknown := FlagTable.long_of_unnamed unnamed spelled
  unfold completeTurn
  simp only [Cursor.next?_between_cons, spelled, completeFlag, completeLong, unknown]
  rfl

/-- A group of letters that are not declared is taken out, whatever is to be left. -/
theorem completeTurn_letters (short : f.table.unknownShort = .ignore)
    (flag : positional t.value = false) (word : longFlag? t.value = none)
    (unnamed : f.table.names t.value = false) :
    f.completeTurn env ([], ⟨.between raw before (t :: after), context⟩) =
      .inl ([], ⟨.between raw before after, context⟩) := by
  obtain ⟨letters, spelled⟩ := toList_of_positional flag
  have notLong : ∀ rest, letters ≠ '-' :: rest := by
    rintro rest rfl
    simp [longFlag?, spelled] at word
  have unknown := FlagTable.letters_of_unnamed unnamed spelled notLong
  have settled : ∀ s, f.completeFlag env letters s = .settled [] s := by
    intro s
    unfold completeFlag
    split
    · rename_i rest
      exact absurd rfl (notLong rest)
    · exact completeShort_unnamed short unknown true [] s
  unfold completeTurn
  simp only [Cursor.next?_between_cons, spelled, settled]
  rw [Cursor.remove_between (List.cons_ne_nil _ _) (by simp [Cursor.mark]) (by simp [Cursor.mark])]
  rfl

theorem completeTurn_word (word : positional t.value = true) :
    f.completeTurn env ([], ⟨.between raw before (t :: after), context⟩) =
      if f.table.anchored then .inr (.settled [] ⟨.between raw (before ++ [t]) after, context⟩)
      else .inl ([], ⟨.between raw (before ++ [t]) after, context⟩) := by
  unfold completeTurn
  simp only [Cursor.next?_between_cons]
  split
  · rename_i flag letters
    simp [positional_of_toList letters] at word
  · rfl

theorem longFlag?_of_positional {word : String} (h : positional word = true) :
    longFlag? word = none := by
  unfold longFlag?
  split
  · rename_i flag letters
    simp [positional_of_toList letters] at h
  · rfl

/-- Completing flags in a line that names none ends at the first long flag, or goes to the end of
what it comes to and takes out all that begins with a hyphen. -/
theorem ends_completeTurn_unnamed (short : f.table.unknownShort = .ignore) (before : List Token)
    (unnamed : ∀ t ∈ after, f.table.names t.value = false) :
    (∃ flag, f.table.firstLong? after = some flag ∧
      Loop.Ends (f.completeTurn env) ([], ⟨.between raw before after, context⟩)
        (.offered (.ofList (f.table.longLike flag)))) ∨
    (f.table.firstLong? after = none ∧ ∃ read rest, read ++ rest = f.table.sift positional after ∧
      Loop.Ends (f.completeTurn env) ([], ⟨.between raw before after, context⟩)
        (.settled [] ⟨.between raw (before ++ read) rest, context⟩)) := by
  unfold FlagTable.firstLong?
  induction after generalizing before with
  | nil =>
      have none : f.table.reached [] = [] := by simp [FlagTable.reached]
      have nothing : f.table.sift positional [] = [] := by
        simp [FlagTable.sift, none, FlagTable.unreached]
      rw [none]
      refine .inr ⟨rfl, [], [], nothing.symm, .stop ?_⟩
      simp [completeTurn]
  | cons t after ih =>
      have later := fun u hu => unnamed u (List.mem_cons_of_mem t hu)
      have here := unnamed t List.mem_cons_self
      cases word : positional t.value with
      | true =>
          have turn : f.completeTurn env ([], ⟨.between raw before (t :: after), context⟩) = _ :=
            completeTurn_word word
          rw [FlagTable.reached_word word, FlagTable.sift_word positional word word]
          by_cases anchored : f.table.anchored = true
          · simp only [if_pos anchored] at turn ⊢
            exact .inr ⟨rfl, [t], after, rfl, .stop turn⟩
          · simp only [if_neg anchored, List.findSome?_cons, longFlag?_of_positional word] at turn ⊢
            rcases ih (before ++ [t]) later with
              ⟨flag, found, ends⟩ | ⟨none, read, rest, left, ends⟩
            · exact .inl ⟨flag, found, .go turn ends⟩
            · rw [List.append_assoc] at ends
              exact .inr ⟨none, t :: read, rest, congrArg (t :: ·) left, .go turn ends⟩
      | false =>
          rw [FlagTable.reached_flag word, FlagTable.sift_flag _ word, List.findSome?_cons]
          cases long : longFlag? t.value with
          | some flag => exact .inl ⟨flag, rfl, .stop (completeTurn_long long here)⟩
          | none =>
              have turn :
                  f.completeTurn env ([], ⟨.between raw before (t :: after), context⟩) = _ :=
                completeTurn_letters short word long here
              simp only [word, Bool.false_eq_true, if_false]
              rcases ih before later with
                ⟨flag, found, ends⟩ | ⟨none, read, rest, left, ends⟩
              · exact .inl ⟨flag, found, .go turn ends⟩
              · exact .inr ⟨none, read, rest, left, .go turn ends⟩

end FlagScanner

/-! ## Arguments behind undeclared flags -/

section Arguments

variable {table : FlagTable} (values : List Element) (short : table.unknownShort = .ignore)
  (body : Element) (env : Env) (raw : String) (before : List Token) {after : List Token}
  (unnamed : ∀ t ∈ after, table.names t.value = false) (context : Context)

include short unnamed

theorem Element.parse_flags_unnamed (long : table.unknownLong = .ignore) :
    (Element.flags table values body).parser.parse env ⟨.between raw before after, context⟩ =
      body.parser.parse env ⟨.between raw before (table.sift (· != "-") after), context⟩ := by
  have within : (Cursor.between raw before after).Within := by simp [Cursor.Within, Cursor.between]
  obtain ⟨read, rest, left, ends⟩ :=
    FlagScanner.ends_scanTurn_unnamed (f := table.scanner values) short long before unnamed
  have scan := (FlagScanner.ends_scan (Element.onward_value table values env) within).unique ends
  change (table.scanner values).read body.parser env _ = _
  unfold FlagScanner.read
  rw [bind_of_ok (get_apply _), bind_of_ok scan, bind_of_ok (moveCursor_apply _ _)]
  dsimp only
  rw [Cursor.rewind_between rfl, left]
  rfl

theorem Element.complete_flags_unnamed :
    (∃ flag, table.firstLong? after = some flag ∧
      (Element.flags table values body).parser.complete env ⟨.between raw before after, context⟩ =
        .ofList (table.longLike flag)) ∨
    (table.firstLong? after = .none ∧
      (Element.flags table values body).parser.complete env ⟨.between raw before after, context⟩ =
        if (table.sift positional after).isEmpty && FlagScanner.typing raw then .none
        else
          body.parser.complete env
            ⟨.between raw before (table.sift positional after), context⟩) := by
  have within : (Cursor.between raw before after).Within := by simp [Cursor.Within, Cursor.between]
  have scan := FlagScanner.ends_completeScan (s := ⟨.between raw before after, context⟩)
    (Element.onward_value table values env) within []
  rcases FlagScanner.ends_completeTurn_unnamed (f := table.scanner values) short before
      unnamed with ⟨flag, found, ends⟩ | ⟨missing, read, rest, left, ends⟩
  · refine .inl ⟨flag, found, ?_⟩
    change (table.scanner values).complete body.parser env _ = _
    unfold FlagScanner.complete
    rw [scan.unique ends]
    rfl
  · refine .inr ⟨missing, ?_⟩
    change (table.scanner values).complete body.parser env _ = _
    unfold FlagScanner.complete
    rw [scan.unique ends]
    dsimp only
    rw [Cursor.rewind_between rfl, left, Cursor.hasNext_between, Bool.not_not]
    rfl

end Arguments

/-- A line that names no declared flag, where such flags are to be left. Its arguments are read from
the tokens without the bare hyphens that the scan comes to, so from all of them where there are
none. They are completed in the tokens without all that begins with a hyphen, unless a long flag is
among these, or no token is left of a line that is still being typed: so in all tokens where the
scan comes to no hyphen and a token is left. -/
theorem flags_ignored {table : FlagTable} (values : List Element)
    (short : table.unknownShort = .ignore) (long : table.unknownLong = .ignore) (body : Element)
    (env : Env) (raw : String) (before : List Token) {after : List Token}
    (unnamed : ∀ t ∈ after, table.names t.value = false) (context : Context) :
    let e : Element := .flags table values body
    let start (left : List Token) : State := ⟨.between raw before left, context⟩
    (e.parser.parse env (start after) =
        body.parser.parse env (start (table.sift (· != "-") after)) ∧
      e.parser.complete env (start after) =
        match table.firstLong? after with
        | some flag => .ofList (table.longLike flag)
        | none =>
          if (table.sift positional after).isEmpty && FlagScanner.typing raw then .none
          else body.parser.complete env (start (table.sift positional after))) ∧
    ((∀ t ∈ table.reached after, t.value ≠ "-") →
      e.parser.parse env (start after) = body.parser.parse env (start after)) ∧
    (after ≠ [] → (∀ t ∈ table.reached after, positional t.value = true) →
      e.parser.complete env (start after) = body.parser.complete env (start after)) := by
  intro e start
  have read := Element.parse_flags_unnamed values short body env raw before unnamed context long
  have completed :=
    Element.complete_flags_unnamed values short body env raw before unnamed context
  refine ⟨⟨read, ?_⟩, fun bare => ?_, fun more words => ?_⟩
  · rcases completed with ⟨flag, found, offered⟩ | ⟨missing, offered⟩
    · rw [found]
      exact offered
    · rw [missing]
      exact offered
  · have all : table.sift (· != "-") after = after :=
      FlagTable.sift_eq_self fun t ht => bne_iff_ne.mpr (bare t ht)
    rw [all] at read
    exact read
  · have missing : table.firstLong? after = none := by
      refine List.findSome?_eq_none_iff.mpr fun t ht => ?_
      exact FlagScanner.longFlag?_of_positional (words t ht)
    have filled : after.isEmpty = false := List.isEmpty_eq_false_iff.mpr more
    rcases completed with ⟨flag, found, -⟩ | ⟨-, offered⟩
    · cases missing.symm.trans found
    · rw [FlagTable.sift_eq_self words, filled] at offered
      exact offered

/-- An undeclared letter before a word. Both are read by the arguments; the word is completed as the
first of them. -/
theorem flags_ignored_before_word :
    let flags := ({} : Element.FlagDeclarations).declare ["-v"] none
    let table := { flags.table with unknownShort := .ignore, unknownLong := .ignore }
    let body : Element := .sequence [.leaf "a" .string, .leaf "b" .string]
    let after : List Token := [⟨"-x", 0, 2⟩, ⟨"pl", 3, 5⟩]
    let e : Element := .flags table flags.values body
    table.unknownShort = .ignore ∧ table.unknownLong = .ignore ∧
      (∀ t ∈ after, table.names t.value = false) ∧
      ∀ env context,
        e.parser.parse env ⟨.between "-x pl" [] after, context⟩ =
          body.parser.parse env ⟨.between "-x pl" [] after, context⟩ ∧
        e.parser.complete env ⟨.between "-x pl" [] after, context⟩ =
          body.parser.complete env ⟨.between "-x pl" [] [⟨"pl", 3, 5⟩], context⟩ := by
  intro flags table body after e
  have unnamed : ∀ t ∈ after, table.names t.value = false := by decide +kernel
  refine ⟨rfl, rfl, unnamed, fun env context => ?_⟩
  have bare : ∀ t ∈ table.reached after, t.value ≠ "-" := by decide
  obtain ⟨⟨-, completed⟩, read, -⟩ :=
    flags_ignored flags.values rfl rfl body env "-x pl" [] unnamed context
  exact ⟨read bare, completed⟩

/-- A bare hyphen is kept from the arguments, though it names no flag. So is an undeclared letter
from the arguments that are completed, and no word behind an undeclared long flag is completed. -/
theorem flags_kept_from_arguments :
    let flags := ({} : Element.FlagDeclarations).declare ["-v"] none
    let table := { flags.table with unknownShort := .ignore, unknownLong := .ignore }
    let now : DateTime :=
      ⟨{ year := 2001, month := 2, day := 3 }, { hour := 4, minute := 5, second := 6, nano := 0 }⟩
    let env : Env := { source := { name := "ann" }, now }
    let words : Element := .leaf "c" (.remaining false)
    let pair : Element :=
      .sequence [.leaf "a" .string, Element.choices "c" [("plum", .string "plum")]]
    let hyphen : State := ⟨.ofTokens "a - b" [⟨"a", 0, 1⟩, ⟨"-", 2, 3⟩, ⟨"b", 4, 5⟩], .empty⟩
    let letter : State := ⟨.ofTokens "-x pl" [⟨"-x", 0, 2⟩, ⟨"pl", 3, 5⟩], .empty⟩
    let long : State := ⟨.ofTokens "--x pl" [⟨"--x", 0, 3⟩, ⟨"pl", 4, 6⟩], .empty⟩
    table.unknownShort = .ignore ∧ table.unknownLong = .ignore ∧
      (∀ t ∈ hyphen.cursor.tokens ++ letter.cursor.tokens ++ long.cursor.tokens,
        table.names t.value = false) ∧
      ((Element.flags table flags.values words).parser.parse env).end? hyphen ≠
        (words.parser.parse env).end? hyphen ∧
      (Element.flags table flags.values pair).parser.complete env letter ≠
        pair.parser.complete env letter ∧
      (Element.flags table flags.values pair).parser.complete env long ≠
        pair.parser.complete env long := by
  intro flags table now env words pair hyphen letter long
  exact ⟨rfl, rfl, by decide +kernel, by decide +kernel, by decide +kernel, by decide +kernel⟩

end CommandGrammar
