import CommandGrammar.Proofs.Grammar.Behaviour
import CommandGrammar.Proofs.Grammar.Trace

/-!
# Traces of parsers

What the combinators leave, by what their parts leave. Reading fills the context and never asks what
is in it, unless a key may hold one value only; where a combinator goes back, it goes back in the
cursor and in the context at once.
-/

namespace CommandGrammar

open Reading

namespace Parser

variable {p : Parser} {ps : List Parser}

/-! ## Combinators -/

theorem leaves_readAll_ok {env : Env} {c d : Cursor} {pairs : List (String × Value)} {t : Trace Unit}
    (first : (p.parse env).Leaves c ⟨.ok (), d, pairs⟩) (rest : (readAll env ps).Leaves d t) :
    (readAll env (p :: ps)).Leaves c ⟨t.result, t.cursor, pairs ++ t.pairs⟩ :=
  first.bind_ok rest

theorem leaves_readAll_error {env : Env} {c d : Cursor} {e : ParseError}
    {pairs : List (String × Value)} (first : (p.parse env).Leaves c ⟨.error e, d, pairs⟩) :
    (readAll env (p :: ps)).Leaves c ⟨.error e, d, pairs⟩ :=
  first.bind_error _

theorem leaves_readFirst_ok {env : Env} {c d : Cursor} {pairs : List (String × Value)}
    (h : (p.parse env).Leaves c ⟨.ok (), d, pairs⟩) (rest : List Parser) :
    (readFirst env (p :: rest)).Leaves c ⟨.ok (), d, pairs⟩ :=
  h.orElse_ok _

theorem leaves_readFirst_last {env : Env} {c d : Cursor} {e : ParseError}
    {pairs : List (String × Value)} (h : (p.parse env).Leaves c ⟨.error e, d, pairs⟩) :
    (readFirst env [p]).Leaves c ⟨.error e, c, []⟩ :=
  h.orElse_error fun _ => rfl

theorem leaves_readFirst_next {env : Env} {c d : Cursor} {e : ParseError}
    {pairs : List (String × Value)} {t : Trace Unit} {q : Parser} {rest : List Parser}
    (h : (p.parse env).Leaves c ⟨.error e, d, pairs⟩)
    (later : (readFirst env (q :: rest)).Leaves c t) :
    (readFirst env (p :: q :: rest)).Leaves c t :=
  h.orElse_error later

/-- Alternatives that fail leave everything to those behind them. -/
theorem leaves_readFirst_append {env : Env} {c : Cursor} {t : Trace Unit} {rest : List Parser}
    (failed : ∀ q ∈ ps, ∃ e d pairs, (q.parse env).Leaves c ⟨.error e, d, pairs⟩)
    (nonempty : rest ≠ []) (h : (readFirst env rest).Leaves c t) :
    (readFirst env (ps ++ rest)).Leaves c t := by
  induction ps with
  | nil => exact h
  | cons q ps ih =>
      obtain ⟨e, d, pairs, hq⟩ := failed q List.mem_cons_self
      have later := ih fun q hq => failed q (List.mem_cons_of_mem _ hq)
      cases hs : ps ++ rest with
      | nil => exact absurd (List.append_eq_nil_iff.mp hs).2 nonempty
      | cons q' rest' =>
          rw [hs] at later
          rw [List.cons_append, hs]
          exact leaves_readFirst_next hq later

/-- The pair that stands for an absent part. -/
def defaultPairs (p : Parser) (default : Option Value) : List (String × Value) :=
  match p.key, default with
  | some key, some v => [(key, v)]
  | _, _ => []

theorem leaves_storeDefault (p : Parser) (default : Option Value) (c : Cursor) :
    (p.storeDefault default).Leaves c ⟨.ok (), c, p.defaultPairs default⟩ := by
  unfold storeDefault defaultPairs
  cases p.key with
  | none => exact leaves_pure () c
  | some key =>
      cases default with
      | none => exact leaves_pure () c
      | some v => exact leaves_store key v c

section Optional

variable {default : Option Value} {weak : Bool} {env : Env} {c d : Cursor} {e : ParseError}
  {pairs : List (String × Value)}

theorem leaves_optional_absent (h : c.hasNext = false) :
    ((p.optional default weak).parse env).Leaves c ⟨.ok (), c, p.defaultPairs default⟩ := by
  refine (leaves_hasNext c).bind_ok (t := ⟨.ok (), c, p.defaultPairs default⟩) ?_
  simp only [h, Bool.false_eq_true, if_false]
  exact leaves_storeDefault p default c

theorem leaves_optional_read (hasNext : c.hasNext = true)
    (h : (p.parse env).Leaves c ⟨.ok (), d, pairs⟩) :
    ((p.optional default weak).parse env).Leaves c ⟨.ok (), d, pairs⟩ := by
  refine (leaves_hasNext c).bind_ok (t := ⟨.ok (), d, pairs⟩) ?_
  simp only [hasNext, if_true]
  exact h.orElse_ok _

theorem leaves_optional_rolledBack (hasNext : c.hasNext = true)
    (h : (p.parse env).Leaves c ⟨.error e, d, pairs⟩) (absent : weak = true ∨ d.hasNext = true) :
    ((p.optional default weak).parse env).Leaves c ⟨.ok (), c, p.defaultPairs default⟩ := by
  refine (leaves_hasNext c).bind_ok (t := ⟨.ok (), c, p.defaultPairs default⟩) ?_
  simp only [hasNext, if_true]
  refine h.orElse_error fun context => ?_
  simp only [Bool.or_eq_true, absent, if_true]
  exact leaves_storeDefault p default c context

theorem leaves_optional_failed (hasNext : c.hasNext = true)
    (h : (p.parse env).Leaves c ⟨.error e, d, pairs⟩) (strict : weak = false)
    (last : d.hasNext = false) :
    ((p.optional default weak).parse env).Leaves c ⟨.error e, d, pairs⟩ := by
  refine (leaves_hasNext c).bind_ok (t := ⟨.error e, d, pairs⟩) ?_
  simp only [hasNext, if_true]
  refine h.orElse_error fun context => ?_
  simp only [strict, last, Bool.or_false, Bool.false_eq_true, if_false]
  rfl

end Optional

section Repeated

variable {env : Env} {c d : Cursor} {pairs : List (String × Value)}

theorem leaves_readTimes_ok {n : Nat} {t : Trace Unit}
    (first : (p.parse env).Leaves c ⟨.ok (), d, pairs⟩) (rest : (p.readTimes env n).Leaves d t) :
    (p.readTimes env (n + 1)).Leaves c ⟨t.result, t.cursor, pairs ++ t.pairs⟩ :=
  first.bind_ok rest

theorem leaves_readTimes_error {n : Nat} {e : ParseError}
    (first : (p.parse env).Leaves c ⟨.error e, d, pairs⟩) :
    (p.readTimes env (n + 1)).Leaves c ⟨.error e, d, pairs⟩ :=
  first.bind_error _

/-- Reading until the tokens run out begins by looking whether they have. -/
theorem leaves_readWhile {steps : Nat} {t : Trace Unit}
    (h : (if c.hasNext then do
        p.parse env
        let after ← get
        if after.cursor.mark = c.mark then pure () else p.readWhile env steps
      else pure () : Reading Unit).Leaves c t) : (p.readWhile env (steps + 1)).Leaves c t :=
  Leaves.get_bind (k := fun before =>
    if before.hasNext then do
      p.parse env
      let after ← get
      if after.cursor.mark = before.mark then pure () else p.readWhile env steps
    else pure ()) h

theorem leaves_readWhile_over {steps : Nat} (spent : c.hasNext = false) :
    (p.readWhile env (steps + 1)).Leaves c ⟨.ok (), c, []⟩ := by
  refine leaves_readWhile ?_
  rw [spent]
  exact leaves_pure () c

theorem leaves_readWhile_error {steps : Nat} {e : ParseError} (more : c.hasNext = true)
    (first : (p.parse env).Leaves c ⟨.error e, d, pairs⟩) :
    (p.readWhile env (steps + 1)).Leaves c ⟨.error e, d, pairs⟩ := by
  refine leaves_readWhile ?_
  rw [more]
  exact first.bind_error _

theorem leaves_readWhile_still {steps : Nat} (more : c.hasNext = true)
    (first : (p.parse env).Leaves c ⟨.ok (), d, pairs⟩) (still : d.mark = c.mark) :
    (p.readWhile env (steps + 1)).Leaves c ⟨.ok (), d, pairs ++ []⟩ := by
  refine leaves_readWhile ?_
  rw [more]
  refine first.bind_ok (t := ⟨.ok (), d, []⟩) (Leaves.get_bind (k := fun after =>
    if after.mark = c.mark then pure () else p.readWhile env steps) ?_)
  rw [if_pos still]
  exact leaves_pure () d

theorem leaves_readWhile_moved {steps : Nat} {t : Trace Unit} (more : c.hasNext = true)
    (first : (p.parse env).Leaves c ⟨.ok (), d, pairs⟩) (moved : d.mark ≠ c.mark)
    (rest : (p.readWhile env steps).Leaves d t) :
    (p.readWhile env (steps + 1)).Leaves c ⟨t.result, t.cursor, pairs ++ t.pairs⟩ := by
  refine leaves_readWhile ?_
  rw [more]
  refine first.bind_ok (Leaves.get_bind (k := fun after =>
    if after.mark = c.mark then pure () else p.readWhile env steps) ?_)
  rw [if_neg moved]
  exact rest

end Repeated

end Parser

/-! ## Single arguments -/

namespace Leaf

theorem writeOnly_readNext (l : Leaf) (env : Env) : (l.readNext env).WriteOnly := by
  refine free.bind free.next fun text => ?_
  split
  · exact free.pure _
  · exact free.reject _

theorem writeOnly_readRemaining (raw : Bool) (env : Env) :
    ((Leaf.remaining raw).readValue env).WriteOnly := by
  refine free.bind free.next fun first => Puts.get_bind (k := fun cursor => do
    Reading.moveCursor Cursor.toEnd
    if raw then pure (Value.string cursor.rawFromCurrent)
    else pure (Value.string (String.intercalate " " (first :: cursor.remaining)))) fun cursor => ?_
  refine free.bind (free.moveCursor _) fun _ => ?_
  split
  · exact free.pure _
  · exact free.pure _

/-- A time that cannot be read leaves its token and stands for the current time. -/
theorem writeOnly_readTimeOrNow (env : Env) :
    ((Leaf.dateTime true).readValue env).WriteOnly := by
  intro c
  obtain ⟨⟨result, d, pairs⟩, h, -⟩ := writeOnly_readNext (.dateTime true) env c
  cases result with
  | ok v => exact ⟨_, h.orElse_ok _, trivial⟩
  | error e =>
      exact ⟨⟨.ok (.dateTime (now env)), c, []⟩, h.orElse_error fun _ => rfl, trivial⟩

theorem writeOnly_readValue (l : Leaf) (env : Env) : (l.readValue env).WriteOnly := by
  unfold readValue
  split
  · exact free.pure _
  · exact writeOnly_readRemaining _ env
  · exact writeOnly_readTimeOrNow env
  · exact writeOnly_readNext l env

theorem writeOnly_parse (key : String) (l : Leaf) (env : Env) :
    ((l.parser key).parse env).WriteOnly :=
  free.bind (writeOnly_readValue l env) fun _ => puts_store trivial

end Leaf

theorem Choice.writeOnly_parse (key : String) (c : Choice) (env : Env) :
    ((c.parser key).parse env).WriteOnly := by
  refine free.bind free.next fun name => ?_
  split
  · exact puts_store trivial
  · exact free.reject _

theorem Selection.writeOnly_storeAll (key : String) (vs : List Value) :
    (storeAll key vs).WriteOnly := by
  induction vs with
  | nil => exact free.pure ()
  | cons v vs ih => exact free.bind (puts_store trivial) fun _ => ih

theorem Selection.writeOnly_parse (key : String) (s : Selection) (env : Env) :
    ((s.parser key).parse env).WriteOnly := by
  refine free.bind free.next fun text => ?_
  split
  · exact puts_store trivial
  · split
    · exact free.reject _
    · split
      · exact free.reject _
      · exact writeOnly_storeAll key _

theorem Phrase.writeOnly_readWords (words : List String) : (readWords words).WriteOnly := by
  induction words with
  | nil => exact free.pure ()
  | cons expected words ih =>
      refine free.bind free.next fun word => ?_
      split
      · exact ih
      · exact free.reject _

theorem Phrase.writeOnly_parse (key : Option String) (p : Phrase) (env : Env) :
    ((p.parser key).parse env).WriteOnly := by
  refine free.bind (writeOnly_readWords p.words) fun _ => ?_
  split
  · exact puts_store trivial
  · exact free.pure ()

/-! ## Flags -/

namespace FlagScanner

variable {f : FlagScanner} {env : Env} {P : List (String × Value) → Prop} (additive : Additive P)
  (values : ∀ index, ((f.value index).parse env).Puts P)
  (long : ∀ name v, f.table.long? name = none → P [(name, v)])
  (short : ∀ c v, f.table.short? c = none → P [(String.singleton c, v)])

include additive values long in
theorem puts_readLong (flag : List Char) : (f.readLong env flag).Puts P := by
  unfold readLong
  generalize splitInline flag = split
  obtain ⟨name, inline⟩ := split
  dsimp only
  split
  · rename_i index _
    cases inline with
    | none => exact additive.bind (values index) fun _ => additive.pure true
    | some v =>
        exact additive.bind (additive.moveCursor _) fun _ =>
          additive.bind (values index) fun _ => additive.pure true
  · rename_i unknown
    have stored : ∀ v, (do store (Text.lowercase name) v; pure true : Reading Bool).Puts P :=
      fun v => additive.bind (puts_store (long _ v unknown)) fun _ => additive.pure true
    split
    · exact additive.reject _
    · exact additive.pure false
    · exact stored _
    · cases inline with
      | some v => exact stored _
      | none => exact additive.bind additive.next fun v => stored _

include additive values short in
theorem puts_readShort (first : Bool) (letters : List Char) :
    (f.readShort env first letters).Puts P := by
  induction letters generalizing first with
  | nil => exact additive.pure true
  | cons c letters ih =>
      unfold readShort
      split
      · rename_i index _
        exact additive.bind (values index) fun _ => ih false
      · rename_i unknown
        have stored : ∀ v, (do store (String.singleton c) v; f.readShort env false letters).Puts P :=
          fun v => additive.bind (puts_store (short c v unknown)) fun _ => ih false
        dsimp only
        split
        · exact additive.reject _
        · split
          · exact additive.pure false
          · exact additive.reject _
        · exact stored _
        · exact additive.bind additive.next fun v => stored _

include additive values long short

/-- The scan puts what the values of flags put, and pairs for flags that are not declared. -/
theorem puts_scan (steps : Nat) : (f.scan env steps).Puts P := by
  have flag_read : ∀ flag, (f.readFlag env flag).Puts P := by
    intro flag
    unfold readFlag
    split
    · exact puts_readLong additive values long _
    · exact puts_readShort additive values short true _
  induction steps with
  | zero => exact additive.pure ()
  | succ steps ih =>
      refine additive.bind additive.hasNext fun more => ?_
      split
      · refine additive.bind additive.next fun word => ?_
        split
        · rename_i flag _
          refine Puts.get_bind (k := fun cursor => do
            if ← f.readFlag env flag then
              Reading.moveCursor fun c => c.remove cursor.mark c.mark
            f.scan env steps) fun cursor => ?_
          refine additive.bind (flag_read flag) fun taken => ?_
          split
          · exact additive.bind (additive.moveCursor _) fun _ => ih
          · exact ih
        · split
          · exact additive.pure ()
          · exact ih
      · exact additive.pure ()

omit additive values long short

theorem leaves_read_ok {body : Parser} {c d : Cursor} {pairs : List (String × Value)}
    {t : Trace Unit} (scanned : (f.scan env (c.weight + 1)).Leaves c ⟨.ok (), d, pairs⟩)
    (rest : (body.parse env).Leaves (d.rewind c.mark) t) :
    ((Parser.flagged f body).parse env).Leaves c ⟨t.result, t.cursor, pairs ++ t.pairs⟩ :=
  Leaves.get_bind (k := fun entry => do
    f.scan env (entry.weight + 1)
    Reading.moveCursor fun c => c.rewind entry.mark
    body.parse env) (scanned.bind_ok ((leaves_moveCursor _ d).bind_ok rest))

theorem leaves_read_error {body : Parser} {c d : Cursor} {pairs : List (String × Value)}
    {e : ParseError} (scanned : (f.scan env (c.weight + 1)).Leaves c ⟨.error e, d, pairs⟩) :
    ((Parser.flagged f body).parse env).Leaves c ⟨.error e, d, pairs⟩ :=
  Leaves.get_bind (k := fun entry => do
    f.scan env (entry.weight + 1)
    Reading.moveCursor fun c => c.rewind entry.mark
    body.parse env) (scanned.bind_error _)

end FlagScanner

/-! ## Subcommands -/

namespace Specified

variable {s : Specified} {env : Env} {c d : Cursor} {pairs : List (String × Value)}

theorem leaves_populate_ok (h : (s.grammar.parse env).Leaves c ⟨.ok (), d, pairs⟩)
    (all : d.hasNext = false) : (s.populate env).Leaves c ⟨.ok (), d, pairs ++ []⟩ := by
  refine h.bind_ok (t := ⟨.ok (), d, []⟩) ((leaves_hasNext d).bind_ok (t := ⟨.ok (), d, []⟩) ?_)
  rw [all]
  exact leaves_pure () d

/-- Tokens that are left over are a failure. -/
theorem leaves_populate_more (h : (s.grammar.parse env).Leaves c ⟨.ok (), d, pairs⟩)
    (more : d.hasNext = true) : ∃ e u ps, (s.populate env).Leaves c ⟨.error e, u, ps⟩ := by
  obtain ⟨v, u, there⟩ := Cursor.next?_of_hasNext more
  have refused : (do
      if ← hasNext then
        let _ ← next
        reject "Too many arguments!" : Reading Unit).Leaves d
      ⟨.error (u.error "Too many arguments!"), u, []⟩ := by
    intro context
    rw [bind_of_ok (hasNext_apply _), if_pos more]
    exact bind_of_ok (next_of_some there) _
  have read := h.bind_ok (f := fun _ => _) refused
  exact ⟨_, _, _, read⟩

theorem leaves_populate_error {e : ParseError}
    (h : (s.grammar.parse env).Leaves c ⟨.error e, d, pairs⟩) :
    (s.populate env).Leaves c ⟨.error e, d, pairs⟩ :=
  h.bind_error _

end Specified

namespace Node

variable {n : Node} {env : Env} {c d : Cursor} {typed : String} {m : Mapping Command}

/-- The rest of a line can always be read, and puts nothing. -/
theorem leaves_restOfLine (c : Cursor) : ∃ text d, restOfLine.Leaves c ⟨.ok text, d, []⟩ := by
  cases there : c.next? with
  | none =>
      have spent := Cursor.hasNext_of_next?_none there
      refine ⟨"", c, (leaves_hasNext c).bind_ok (t := ⟨.ok "", c, []⟩) ?_⟩
      rw [spent]
      exact leaves_pure "" c
  | some p =>
      have more := Cursor.hasNext_of_next?_some there
      refine ⟨p.2.rawFromCurrent, p.2.toEnd, fun context => ?_⟩
      unfold restOfLine
      rw [bind_of_ok (hasNext_apply _), if_pos more, bind_of_ok (next_of_some there)]
      rfl

theorem leaves_readNamed_exhausted (h : c.next? = none) :
    (n.readNamed env).Leaves c ⟨.error c.exhausted, c, []⟩ := by
  intro context
  simp only [readNamed, h]
  rfl

section Unknown

variable (next : c.next? = some (typed, d)) (unknown : n.commands.get? (some env.source) typed = none)

include next unknown

theorem leaves_readNamed_own {p : Parser} {t : Trace Unit} (action : n.action.isSome = true)
    (own : n.fallback = some p) (h : (p.parse env).Leaves c t) : (n.readNamed env).Leaves c t := by
  intro context
  obtain ⟨a, ha⟩ := Option.isSome_iff_exists.mp action
  simp only [readNamed, next, unknown, ha, own]
  exact h context

theorem leaves_readNamed_unknown (none : n.action = none ∨ n.fallback = none) :
    (n.readNamed env).Leaves c
      ⟨.error (d.error ("Input command " ++ typed ++ " was not a valid subcommand!")), d, []⟩ := by
  intro context
  simp only [readNamed, next, unknown]
  split
  · rename_i ha hf
    simp [ha, hf] at none
  · rfl

end Unknown

section Named

variable (next : c.next? = some (typed, d)) (named : n.commands.get? (some env.source) typed = some m)

include next named

theorem leaves_readNamed_named {u : Cursor} {pairs : List (String × Value)}
    (h : (n.populate m.callable env).Leaves d ⟨.ok (), u, pairs⟩) :
    (n.readNamed env).Leaves c ⟨.ok (), u, pairs ++ [(n.key, n.handle m)]⟩ := by
  intro context
  simp only [readNamed, next, named, h context, Trace.onto, Context.putAll_append]
  rfl

theorem leaves_readNamed_fellBack {u : Cursor} {e : ParseError} {pairs : List (String × Value)}
    {p : Parser} {t : Trace Unit} (h : (n.populate m.callable env).Leaves d ⟨.error e, u, pairs⟩)
    (onFail : n.fallbackOnFail = true) (own : n.fallback = some p)
    (back : (p.parse env).Leaves c t) : (n.readNamed env).Leaves c t := by
  intro context
  simp only [readNamed, next, named, h context, Trace.onto, recover, onFail, own]
  exact back context

theorem leaves_readNamed_failed {u : Cursor} {e : ParseError} {pairs : List (String × Value)}
    (h : (n.populate m.callable env).Leaves d ⟨.error e, u, pairs⟩)
    (none : n.fallbackOnFail = false ∨ n.fallback = none) :
    (n.readNamed env).Leaves c ⟨.error (failureUsage env.source typed m.callable e), c, []⟩ := by
  intro context
  simp only [readNamed, next, named, h context, Trace.onto, recover]
  split
  · rename_i hb hf
    simp [hb, hf] at none
  · rfl

end Named

section Over

variable (action : n.action.isSome = true) (spent : c.hasNext = false)

include action spent

theorem leaves_read_own {p : Parser} {t : Trace Unit} (own : n.fallback = some p)
    (h : (p.parse env).Leaves c t) : (n.read env).Leaves c t := by
  refine (leaves_hasNext c).bind_ok (t := t) ?_
  simp only [action, spent, own, Bool.not_false, Bool.and_self, if_true]
  exact h

theorem leaves_read_none (none : n.fallback = none) : (n.read env).Leaves c ⟨.ok (), c, []⟩ := by
  refine (leaves_hasNext c).bind_ok (t := ⟨.ok (), c, []⟩) ?_
  simp only [action, spent, none, Bool.not_false, Bool.and_self, if_true]
  exact leaves_pure () c

end Over

theorem leaves_read_readNamed {t : Trace Unit} (more : n.action = none ∨ c.hasNext = true)
    (h : (n.readNamed env).Leaves c t) : (n.read env).Leaves c t := by
  refine (leaves_hasNext c).bind_ok (t := t) ?_
  have named : ¬ (n.action.isSome && !c.hasNext) = true := by
    rcases more with none | more
    · simp [none]
    · simp [more]
  rw [if_neg named]
  exact h

end Node

end CommandGrammar
