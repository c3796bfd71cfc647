import CommandGrammar.Proofs.Grammar.Leaves

/-!
# What abandoned branches leave

Every element in whose tree no key is held to one value leaves a trace from every cursor, whatever
the context. The trace is put together from those of the branches that were kept: alternatives,
optional parts and nodes of subcommands go back where a branch fails, and keep nothing of it.
-/

namespace CommandGrammar

open Reading

namespace Element

/-- The element holds its key to one value. -/
def isOnlyOne : Element → Bool
  | .onlyOne _ => true
  | _ => false

/-- No element of the tree, the grammars of subcommands included, holds its key to one value. -/
abbrev WithoutOnlyOne (e : Element) : Prop :=
  e.Every fun d => d.isOnlyOne = false

/-- The element reads by itself. -/
def isSingle : Element → Bool
  | .choice _ _ => true
  | .selection _ _ => true
  | .phrase _ _ => true
  | .leaf _ _ => true
  | _ => false

/-- From a cursor the element leaves a trace, whatever the context. -/
abbrev Leaves (e : Element) (env : Env) (c : Cursor) (t : Trace Unit) : Prop :=
  (e.parser.parse env).Leaves c t

/-- From a cursor the element fails, whatever the context. -/
def FailsAt (e : Element) (env : Env) (c : Cursor) : Prop :=
  ∃ error d pairs, e.Leaves env c ⟨.error error, d, pairs⟩

end Element

/-- An element read for a flag: where, and what it left. -/
structure FlagRead where
  element : Element
  cursor : Cursor
  trace : Trace Unit

/-- The pairs of some readings in their order, with pairs for flags that are not declared among
them. -/
inductive Gathered (table : FlagTable) : List FlagRead → List (String × Value) → Prop
  | none : Gathered table [] []
  | read {reads pairs} (r : FlagRead) (rest : Gathered table reads pairs) :
      Gathered table (r :: reads) (r.trace.pairs ++ pairs)
  | long {reads pairs} (name : String) (v : Value) (unknown : table.long? name = .none)
      (rest : Gathered table reads pairs) : Gathered table reads ((name, v) :: pairs)
  | short {reads pairs} (c : Char) (v : Value) (unknown : table.short? c = .none)
      (rest : Gathered table reads pairs) :
      Gathered table reads ((String.singleton c, v) :: pairs)

theorem Gathered.append {table : FlagTable} {reads later : List FlagRead}
    {ps qs : List (String × Value)} (h : Gathered table reads ps) (g : Gathered table later qs) :
    Gathered table (reads ++ later) (ps ++ qs) := by
  induction h with
  | none => exact g
  | read r _ ih =>
      rw [List.append_assoc]
      exact .read r ih
  | long name v unknown _ ih => exact .long name v unknown ih
  | short k v unknown _ ih => exact .short k v unknown ih

/-- How the trace of an element from a cursor is made of the traces of the parts that were kept. -/
inductive Element.Keeps (env : Env) : Cursor → Element → Trace Unit → Prop
  | single {c e t} (h : Element.isSingle e = true) (alone : Element.Leaves e env c t) : Keeps env c e t
  | sequence_nil {c} : Keeps env c (.sequence []) ⟨.ok (), c, []⟩
  | sequence_cons {c d e es pairs t} (first : Keeps env c e ⟨.ok (), d, pairs⟩)
      (rest : Keeps env d (.sequence es) t) :
      Keeps env c (.sequence (e :: es)) ⟨t.result, t.cursor, pairs ++ t.pairs⟩
  | sequence_failed {c d e es error pairs} (first : Keeps env c e ⟨.error error, d, pairs⟩) :
      Keeps env c (.sequence (e :: es)) ⟨.error error, d, pairs⟩
  | firstOf_nil {c} : Keeps env c (.firstOf []) ⟨.ok (), c, []⟩
  /-- The first alternative that reads is kept as if it were alone. -/
  | firstOf_kept {c d before kept after pairs} (failed : ∀ e ∈ before, Element.FailsAt e env c)
      (alone : Keeps env c kept ⟨.ok (), d, pairs⟩) :
      Keeps env c (.firstOf (before ++ kept :: after)) ⟨.ok (), d, pairs⟩
  /-- When all fail, nothing has happened but the error of the last. -/
  | firstOf_failed {c d before last error pairs} (failed : ∀ e ∈ before, Element.FailsAt e env c)
      (alone : Keeps env c last ⟨.error error, d, pairs⟩) :
      Keeps env c (.firstOf (before ++ [last])) ⟨.error error, c, []⟩
  | optional_absent {c item default weak} (spent : Cursor.hasNext c = false) :
      Keeps env c (.optional item default weak)
        ⟨.ok (), c, (Element.parser item).defaultPairs default⟩
  | optional_read {c d item default weak pairs} (more : Cursor.hasNext c = true)
      (alone : Keeps env c item ⟨.ok (), d, pairs⟩) :
      Keeps env c (.optional item default weak) ⟨.ok (), d, pairs⟩
  /-- A part that is gone back from contributes at most its default. -/
  | optional_rolledBack {c d item default weak error pairs} (more : Cursor.hasNext c = true)
      (alone : Keeps env c item ⟨.error error, d, pairs⟩)
      (absent : weak = true ∨ d.hasNext = true) :
      Keeps env c (.optional item default weak)
        ⟨.ok (), c, (Element.parser item).defaultPairs default⟩
  | optional_failed {c d item default error pairs} (more : Cursor.hasNext c = true)
      (alone : Keeps env c item ⟨.error error, d, pairs⟩) (last : d.hasNext = false) :
      Keeps env c (.optional item default false) ⟨.error error, d, pairs⟩
  | repeated_zero {c item} : Keeps env c (.repeated item 0) ⟨.ok (), c, []⟩
  | repeated_succ {c d item n pairs t} (first : Keeps env c item ⟨.ok (), d, pairs⟩)
      (rest : Keeps env d (.repeated item n) t) :
      Keeps env c (.repeated item (n + 1)) ⟨t.result, t.cursor, pairs ++ t.pairs⟩
  | repeated_failed {c d item n error pairs} (first : Keeps env c item ⟨.error error, d, pairs⟩) :
      Keeps env c (.repeated item (n + 1)) ⟨.error error, d, pairs⟩
  /-- An element until the tokens run out is that element some number of times. -/
  | allOf {c item n t} (times : Keeps env c (.repeated item n) t)
      (all : Element.Leaves (.allOf item) env c t) : Keeps env c (.allOf item) t
  | suggesting {c item suggestions requireBegin t} (h : Keeps env c item t) :
      Keeps env c (.suggesting item suggestions requireBegin) t
  | constrained {c item keep t} (h : Keeps env c item t) : Keeps env c (.constrained item keep) t
  | flags {c d table values body reads pairs t} (declared : ∀ r ∈ reads, r.element ∈ values)
      (kept : ∀ r ∈ reads, Keeps env r.cursor r.element r.trace)
      (gathered : Gathered table reads pairs)
      (scanned : ((FlagTable.scanner table values).scan env (c.weight + 1)).Leaves c
        ⟨.ok (), d, pairs⟩)
      (rest : Keeps env (d.rewind c.mark) body t) :
      Keeps env c (.flags table values body) ⟨t.result, t.cursor, pairs ++ t.pairs⟩
  | flags_failed {c d table values body reads error pairs}
      (declared : ∀ r ∈ reads, r.element ∈ values)
      (kept : ∀ r ∈ reads, Keeps env r.cursor r.element r.trace)
      (gathered : Gathered table reads pairs)
      (scanned : ((FlagTable.scanner table values).scan env (c.weight + 1)).Leaves c
        ⟨.error error, d, pairs⟩) :
      Keeps env c (.flags table values body) ⟨.error error, d, pairs⟩
  | child_spent_own {c n own t} (action : (Subcommands.action n).isSome = true)
      (spent : Cursor.hasNext c = false) (fallback : Subcommands.fallback n = some own)
      (alone : Keeps env c own t) : Keeps env c (.child n) t
  | child_spent_none {c n} (action : (Subcommands.action n).isSome = true)
      (spent : Cursor.hasNext c = false) (fallback : Subcommands.fallback n = .none) :
      Keeps env c (.child n) ⟨.ok (), c, []⟩
  | child_exhausted {c n} (action : Subcommands.action n = .none)
      (spent : Cursor.next? c = .none) : Keeps env c (.child n) ⟨.error c.exhausted, c, []⟩
  | child_unknown_own {c d n typed own t} (next : Cursor.next? c = some (typed, d))
      (unknown : (Subcommands.commands n).get? (some env.source) typed = .none)
      (action : (Subcommands.action n).isSome = true)
      (fallback : Subcommands.fallback n = some own) (alone : Keeps env c own t) :
      Keeps env c (.child n) t
  | child_unknown {c d n typed} (next : Cursor.next? c = some (typed, d))
      (unknown : (Subcommands.commands n).get? (some env.source) typed = .none)
      (missing : Subcommands.action n = .none ∨ Subcommands.fallback n = .none) :
      Keeps env c (.child n)
        ⟨.error (d.error ("Input command " ++ typed ++ " was not a valid subcommand!")), d, []⟩
  /-- A specified subcommand reads all that is left, and then it is stored which one it was. -/
  | child_named {c d u n typed m s pairs} (next : Cursor.next? c = some (typed, d))
      (named : (Subcommands.commands n).get? (some env.source) typed = some m)
      (specified : m.callable = .spec s)
      (below : Keeps env d s.grammar ⟨.ok (), u, pairs⟩) (all : u.hasNext = false) :
      Keeps env c (.child n) ⟨.ok (), u, pairs ++ [(n.key, .any (.command n.key m.name))]⟩
  | child_text {c d u n typed m text} (next : Cursor.next? c = some (typed, d))
      (named : (Subcommands.commands n).get? (some env.source) typed = some m)
      (unspecified : ∀ s, m.callable ≠ .spec s)
      (below : Node.restOfLine.Leaves d ⟨.ok text, u, []⟩) :
      Keeps env c (.child n)
        ⟨.ok (), u, [(n.key ++ "_args", .string text), (n.key, .any (.command n.key m.name))]⟩
  /-- A node that falls back contributes nothing of the subcommand that failed. -/
  | child_fellBack {c d u n typed m error pairs own t} (next : Cursor.next? c = some (typed, d))
      (named : (Subcommands.commands n).get? (some env.source) typed = some m)
      (below : ((Subcommands.toNode n).populate m.callable.command env).Leaves d
        ⟨.error error, u, pairs⟩)
      (onFail : (Subcommands.toNode n).fallbackOnFail = true)
      (fallback : Subcommands.fallback n = some own) (alone : Keeps env c own t) :
      Keeps env c (.child n) t
  | child_failed {c d u n typed m error pairs} (next : Cursor.next? c = some (typed, d))
      (named : (Subcommands.commands n).get? (some env.source) typed = some m)
      (below : ((Subcommands.toNode n).populate m.callable.command env).Leaves d
        ⟨.error error, u, pairs⟩)
      (missing : (Subcommands.toNode n).fallbackOnFail = false ∨ Subcommands.fallback n = .none) :
      Keeps env c (.child n)
        ⟨.error (Node.failureUsage env.source typed m.callable.command error), c, []⟩

/-! ## What is kept is left -/

namespace Subcommands

variable {n : Subcommands} {env : Env} {c d u : Cursor} {typed : String} {m : Mapping Callable}
  {pairs : List (String × Value)}

theorem leaves_read_of_next {t : Trace Unit} (next : c.next? = some (typed, d))
    (h : (n.toNode.readNamed env).Leaves c t) : (Element.child n).Leaves env c t :=
  Node.leaves_read_readNamed (.inr (Cursor.hasNext_of_next?_some next)) h

/-- The word that named a subcommand is stored behind what its arguments put. -/
theorem leaves_readNamed (next : c.next? = some (typed, d))
    (named : n.commands.get? (some env.source) typed = some m)
    (h : (n.toNode.populate m.callable.command env).Leaves d ⟨.ok (), u, pairs⟩) :
    (n.toNode.readNamed env).Leaves c
      ⟨.ok (), u, pairs ++ [(n.key, .any (.command n.key m.name))]⟩ := by
  have trace := Node.leaves_readNamed_named next (toNode_get?_some named) h
  rw [Node.handle, toNode_key] at trace
  exact trace

theorem leaves_populate_spec {k : Callable} {s : Spec} (specified : k = .spec s)
    (h : s.grammar.Leaves env d ⟨.ok (), u, pairs⟩) (all : u.hasNext = false) :
    (n.toNode.populate k.command env).Leaves d ⟨.ok (), u, pairs⟩ := by
  subst specified
  rw [Element.Leaves, ← Spec.behaviour_grammar] at h
  have read := Specified.leaves_populate_ok h all
  rw [List.append_nil] at read
  exact read

theorem leaves_populate_text {k : Callable} {text : String} (unspecified : ∀ s, k ≠ .spec s)
    (h : Node.restOfLine.Leaves d ⟨.ok text, u, []⟩) :
    (n.toNode.populate k.command env).Leaves d
      ⟨.ok (), u, [(n.key ++ "_args", .string text)]⟩ := by
  rw [← toNode_argumentsKey]
  have stored := h.bind_ok (f := fun rest => store n.toNode.argumentsKey (.string rest))
    (leaves_store _ _ u)
  cases k with
  | spec s => exact absurd rfl (unspecified s)
  | dispatcher d | raw r => exact stored

end Subcommands

namespace Element

variable {env : Env} {c d : Cursor} {t : Trace Unit}

theorem leaves_firstOf {before items : List Element} (failed : ∀ e ∈ before, e.FailsAt env c)
    (nonempty : items ≠ []) (h : (Element.firstOf items).Leaves env c t) :
    (Element.firstOf (before ++ items)).Leaves env c t := by
  have kept : (Parser.readFirst env (parsers items)).Leaves c t := h
  change (Parser.readFirst env (parsers (before ++ items))).Leaves c t
  rw [parsers_eq_map] at kept ⊢
  rw [List.map_append]
  refine Parser.leaves_readFirst_append ?_ (by simpa using nonempty) kept
  intro q mem
  obtain ⟨e, inside, rfl⟩ := List.mem_map.1 mem
  exact failed e inside

/-- The trace that is put together is the one that reading leaves. -/
theorem Keeps.leaves {e : Element} (h : Keeps env c e t) : e.Leaves env c t := by
  induction h with
  | single _ alone => exact alone
  | sequence_nil => exact leaves_pure () _
  | sequence_cons _ _ first rest => exact Parser.leaves_readAll_ok first rest
  | sequence_failed _ first => exact Parser.leaves_readAll_error first
  | firstOf_nil => exact leaves_pure () _
  | firstOf_kept failed _ alone =>
      exact leaves_firstOf failed (List.cons_ne_nil _ _) (Parser.leaves_readFirst_ok alone _)
  | firstOf_failed failed _ alone =>
      exact leaves_firstOf failed (List.cons_ne_nil _ _) (Parser.leaves_readFirst_last alone)
  | optional_absent spent => exact Parser.leaves_optional_absent spent
  | optional_read more _ alone => exact Parser.leaves_optional_read more alone
  | optional_rolledBack more _ absent alone =>
      exact Parser.leaves_optional_rolledBack more alone absent
  | optional_failed more _ last alone => exact Parser.leaves_optional_failed more alone rfl last
  | repeated_zero => exact leaves_pure () _
  | repeated_succ _ _ first rest => exact Parser.leaves_readTimes_ok first rest
  | repeated_failed _ first => exact Parser.leaves_readTimes_error first
  | allOf _ all => exact all
  | suggesting _ ih => exact ih
  | constrained _ ih => exact ih
  | flags _ _ _ scanned _ _ rest => exact FlagScanner.leaves_read_ok scanned rest
  | flags_failed _ _ _ scanned => exact FlagScanner.leaves_read_error scanned
  | child_spent_own action spent fallback _ alone =>
      exact Node.leaves_read_own (by simpa using action) spent
        (Subcommands.toNode_fallback_some fallback) alone
  | child_spent_none action spent fallback =>
      exact Node.leaves_read_none (by simpa using action) spent
        (Subcommands.toNode_fallback_none fallback)
  | child_exhausted action spent =>
      exact Node.leaves_read_readNamed (.inl (by simpa using action))
        (Node.leaves_readNamed_exhausted spent)
  | child_unknown_own next unknown action fallback _ alone =>
      exact Subcommands.leaves_read_of_next next (Node.leaves_readNamed_own next
        (Subcommands.toNode_get?_none unknown) (by simpa using action)
        (Subcommands.toNode_fallback_some fallback) alone)
  | child_unknown next unknown missing =>
      exact Subcommands.leaves_read_of_next next (Node.leaves_readNamed_unknown next
        (Subcommands.toNode_get?_none unknown) (missing.imp (by simp) Subcommands.toNode_fallback_none))
  | child_named next named specified _ all below =>
      exact Subcommands.leaves_read_of_next next (Subcommands.leaves_readNamed next named
        (Subcommands.leaves_populate_spec specified below all))
  | child_text next named unspecified below =>
      exact Subcommands.leaves_read_of_next next (Subcommands.leaves_readNamed next named
        (Subcommands.leaves_populate_text unspecified below))
  | child_fellBack next named below onFail fallback _ alone =>
      exact Subcommands.leaves_read_of_next next (Node.leaves_readNamed_fellBack next
        (Subcommands.toNode_get?_some named) below onFail
        (Subcommands.toNode_fallback_some fallback) alone)
  | child_failed next named below missing =>
      exact Subcommands.leaves_read_of_next next (Node.leaves_readNamed_failed next
        (Subcommands.toNode_get?_some named) below
        (missing.imp_right Subcommands.toNode_fallback_none))

/-! ## Every element keeps something -/

/-- From every cursor some trace of the element is put together. -/
def Kept (e : Element) (env : Env) : Prop :=
  ∀ c, ∃ t, Keeps env c e t

theorem Keeps.firstOf_cons {e : Element} {items : List Element} (failed : e.FailsAt env c)
    (nonempty : items ≠ []) (h : Keeps env c (.firstOf items) t) :
    Keeps env c (.firstOf (e :: items)) t := by
  have all : ∀ {before : List Element}, (∀ d ∈ before, d.FailsAt env c) →
      ∀ d ∈ e :: before, d.FailsAt env c := by
    intro before hb d hd
    rcases List.mem_cons.mp hd with rfl | hd
    · exact failed
    · exact hb d hd
  cases h with
  | single one _ => cases one
  | firstOf_nil => exact absurd rfl nonempty
  | firstOf_kept before alone => exact .firstOf_kept (all before) alone
  | firstOf_failed before alone => exact .firstOf_failed (all before) alone

theorem kept_single {e : Element} (one : e.isSingle = true) (h : (e.parser.parse env).WriteOnly) :
    e.Kept env := by
  intro c
  obtain ⟨t, ht, -⟩ := h c
  exact ⟨t, .single one ht⟩

theorem kept_sequence {items : List Element} (h : ∀ e ∈ items, e.Kept env) :
    (Element.sequence items).Kept env := by
  induction items with
  | nil => exact fun c => ⟨_, .sequence_nil⟩
  | cons e items ih =>
      intro c
      obtain ⟨⟨result, d, pairs⟩, first⟩ := h e List.mem_cons_self c
      cases result with
      | error error => exact ⟨_, .sequence_failed first⟩
      | ok a =>
          obtain ⟨t, rest⟩ := ih (fun e he => h e (List.mem_cons_of_mem _ he)) d
          exact ⟨_, .sequence_cons first rest⟩

theorem kept_firstOf {items : List Element} (h : ∀ e ∈ items, e.Kept env) :
    (Element.firstOf items).Kept env := by
  intro c
  have nothing : ∀ e ∈ ([] : List Element), e.FailsAt env c := by simp
  induction items with
  | nil => exact ⟨_, .firstOf_nil⟩
  | cons e items ih =>
      obtain ⟨⟨result, d, pairs⟩, alone⟩ := h e List.mem_cons_self c
      cases result with
      | ok a => exact ⟨_, .firstOf_kept nothing alone⟩
      | error error =>
          cases items with
          | nil => exact ⟨_, .firstOf_failed nothing alone⟩
          | cons e' rest =>
              obtain ⟨t, later⟩ := ih fun d hd => h d (List.mem_cons_of_mem e hd)
              have failed : e.FailsAt env c := ⟨error, d, pairs, alone.leaves⟩
              exact ⟨t, later.firstOf_cons failed (List.cons_ne_nil _ _)⟩

theorem kept_optional {item : Element} (h : item.Kept env) (default : Option Value) (weak : Bool) :
    (Element.optional item default weak).Kept env := by
  intro c
  cases more : c.hasNext with
  | false => exact ⟨_, .optional_absent more⟩
  | true =>
      obtain ⟨⟨result, d, pairs⟩, alone⟩ := h c
      cases result with
      | ok a => exact ⟨_, .optional_read more alone⟩
      | error error =>
          by_cases absent : weak = true ∨ d.hasNext = true
          · exact ⟨_, .optional_rolledBack more alone absent⟩
          · simp only [not_or, Bool.not_eq_true] at absent
            obtain ⟨rfl, last⟩ := absent
            exact ⟨_, .optional_failed more alone last⟩

theorem kept_repeated {item : Element} (h : item.Kept env) (n : Nat) :
    (Element.repeated item n).Kept env := by
  induction n with
  | zero => exact fun c => ⟨_, .repeated_zero⟩
  | succ n ih =>
      intro c
      obtain ⟨⟨result, d, pairs⟩, first⟩ := h c
      cases result with
      | error error => exact ⟨_, .repeated_failed first⟩
      | ok a =>
          obtain ⟨t, rest⟩ := ih d
          exact ⟨_, .repeated_succ first rest⟩

/-- Reading until the tokens run out is reading some number of times. -/
theorem keeps_readWhile {item : Element} (h : item.Kept env) (steps : Nat) (c : Cursor) :
    ∃ n t, Keeps env c (.repeated item n) t ∧ (item.parser.readWhile env steps).Leaves c t := by
  induction steps generalizing c with
  | zero => exact ⟨0, _, .repeated_zero, leaves_pure () c⟩
  | succ steps ih =>
      cases more : c.hasNext with
      | false => exact ⟨0, _, .repeated_zero, Parser.leaves_readWhile_over more⟩
      | true =>
          obtain ⟨⟨result, d, pairs⟩, first⟩ := h c
          cases result with
          | error error =>
              exact ⟨1, _, .repeated_failed first, Parser.leaves_readWhile_error more first.leaves⟩
          | ok a =>
              by_cases still : d.mark = c.mark
              · exact ⟨1, _, .repeated_succ first .repeated_zero,
                  Parser.leaves_readWhile_still more first.leaves still⟩
              · obtain ⟨n, t, times, rest⟩ := ih d
                exact ⟨n + 1, _, .repeated_succ first times,
                  Parser.leaves_readWhile_moved more first.leaves still rest⟩

theorem kept_allOf {item : Element} (h : item.Kept env) : (Element.allOf item).Kept env := by
  intro c
  obtain ⟨n, t, times, all⟩ := keeps_readWhile h (c.weight + 1) c
  exact ⟨t, .allOf times all⟩

/-! ## Flags -/

/-- The pairs are those of readings of declared flags, and of flags that are not declared. -/
def FromFlags (table : FlagTable) (values : List Element) (env : Env)
    (pairs : List (String × Value)) : Prop :=
  ∃ reads, (∀ r ∈ reads, r.element ∈ values ∧ Keeps env r.cursor r.element r.trace) ∧
    Gathered table reads pairs

variable {table : FlagTable} {values : List Element}

theorem FromFlags.of_gathered {pairs : List (String × Value)} (h : Gathered table [] pairs) :
    FromFlags table values env pairs :=
  ⟨[], by simp, h⟩

theorem FromFlags.additive : Additive (FromFlags table values env) where
  nil := .of_gathered .none
  append := by
    rintro ps qs ⟨reads, declared, first⟩ ⟨later, declaredLater, second⟩
    refine ⟨reads ++ later, fun r hr => ?_, first.append second⟩
    rcases List.mem_append.mp hr with hr | hr
    · exact declared r hr
    · exact declaredLater r hr

theorem FromFlags.value (h : ∀ e ∈ values, e.Kept env) (index : Nat) :
    (((table.scanner values).value index).parse env).Puts (FromFlags table values env) := by
  intro c
  cases there : values[index]? with
  | none =>
      rw [FlagTable.scanner_value_none there]
      exact ⟨_, leaves_pure () c, .of_gathered .none⟩
  | some e =>
      have declared := List.mem_of_getElem? there
      obtain ⟨t, keeps⟩ := h e declared c
      have gathered := Gathered.read ⟨e, c, t⟩ (.none : Gathered table [] [])
      rw [FlagTable.scanner_value there]
      rw [List.append_nil] at gathered
      exact ⟨t, keeps.leaves, [⟨e, c, t⟩], by simp [declared, keeps], gathered⟩

theorem kept_flags {body : Element} (h : ∀ e ∈ values, e.Kept env) (rest : body.Kept env) :
    (Element.flags table values body).Kept env := by
  intro c
  obtain ⟨⟨result, d, pairs⟩, scanned, reads, declared, gathered⟩ :=
    FlagScanner.puts_scan FromFlags.additive (FromFlags.value h)
      (fun name v unknown => .of_gathered (.long name v unknown .none))
      (fun k v unknown => .of_gathered (.short k v unknown .none)) (c.weight + 1) c
  have member := fun r hr => (declared r hr).1
  have kept := fun r hr => (declared r hr).2
  cases result with
  | error error => exact ⟨_, .flags_failed member kept gathered scanned⟩
  | ok a =>
      obtain ⟨t, keeps⟩ := rest (d.rewind c.mark)
      exact ⟨_, .flags member kept gathered scanned keeps⟩

/-! ## Subcommands -/

theorem kept_grammar {s : Spec} (h : ∀ e ∈ s.parts, e.Kept env) : s.grammar.Kept env := by
  cases s with
  | mk own body description extended permission tokenizer =>
      cases own with
      | none =>
          cases body with
          | action a => exact kept_sequence (by simp)
          | subcommands n => exact h (.child n) (by simp [Spec.parts, Spec.body])
      | some e =>
          cases body with
          | action a => exact h e (by simp [Spec.parts, Spec.own])
          | subcommands n => exact kept_sequence h

end Element

namespace Subcommands

variable {n : Subcommands} {env : Env} {c d : Cursor} {typed : String} {m : Mapping Callable}

/-- A subcommand that fails leaves all to the arguments of its node, or to nothing. -/
theorem keeps_failed (own : ∀ e, n.fallback = some e → e.Kept env)
    (next : c.next? = some (typed, d))
    (named : n.commands.get? (some env.source) typed = some m)
    (below : ∃ e u ps, (n.toNode.populate m.callable.command env).Leaves d ⟨.error e, u, ps⟩) :
    ∃ t, Element.Keeps env c (.child n) t := by
  obtain ⟨e, u, ps, below⟩ := below
  cases onFail : n.toNode.fallbackOnFail with
  | false => exact ⟨_, .child_failed next named below (.inl onFail)⟩
  | true =>
      cases fallback : n.fallback with
      | none => exact ⟨_, .child_failed next named below (.inr fallback)⟩
      | some e =>
          obtain ⟨t, alone⟩ := own e fallback c
          exact ⟨t, .child_fellBack next named below onFail fallback alone⟩

theorem keeps_named (own : ∀ e, n.fallback = some e → e.Kept env)
    (commands : ∀ k ∈ n.commands.callables, ∀ e ∈ k.parts, e.Kept env)
    (next : c.next? = some (typed, d))
    (named : n.commands.get? (some env.source) typed = some m) :
    ∃ t, Element.Keeps env c (.child n) t := by
  have parts := commands m.callable (Dispatcher.mem_callables_of_get? named)
  have text (unspecified : ∀ s, m.callable ≠ .spec s) : ∃ t, Element.Keeps env c (.child n) t := by
    obtain ⟨text, u, below⟩ := Node.leaves_restOfLine d
    exact ⟨_, .child_text next named unspecified below⟩
  cases there : m.callable with
  | dispatcher k => exact text (by simp [there])
  | raw r => exact text (by simp [there])
  | spec s =>
      rw [there] at parts
      obtain ⟨⟨result, u, pairs⟩, below⟩ := Element.kept_grammar parts d
      have read := below.leaves
      rw [Element.Leaves, ← Spec.behaviour_grammar] at read
      cases result with
      | error e =>
          refine keeps_failed own next named ?_
          rw [there]
          exact ⟨e, u, pairs, Specified.leaves_populate_error read⟩
      | ok a =>
          cases all : u.hasNext with
          | false => exact ⟨_, .child_named next named there below all⟩
          | true =>
              refine keeps_failed own next named ?_
              rw [there]
              exact Specified.leaves_populate_more read all

theorem kept (own : ∀ e, n.fallback = some e → e.Kept env)
    (commands : ∀ k ∈ n.commands.callables, ∀ e ∈ k.parts, e.Kept env) :
    (Element.child n).Kept env := by
  intro c
  cases next : c.next? with
  | none =>
      have spent := Cursor.hasNext_of_next?_none next
      cases action : n.action with
      | none => exact ⟨_, .child_exhausted action next⟩
      | some a =>
          have acts : n.action.isSome = true := by simp [action]
          cases fallback : n.fallback with
          | none => exact ⟨_, .child_spent_none acts spent fallback⟩
          | some e =>
              obtain ⟨t, alone⟩ := own e fallback c
              exact ⟨t, .child_spent_own acts spent fallback alone⟩
  | some p =>
      obtain ⟨typed, d⟩ := p
      cases named : n.commands.get? (some env.source) typed with
      | some m => exact keeps_named own commands next named
      | none =>
          cases action : n.action with
          | none => exact ⟨_, .child_unknown next named (.inl action)⟩
          | some a =>
              cases fallback : n.fallback with
              | none => exact ⟨_, .child_unknown next named (.inr fallback)⟩
              | some e =>
                  obtain ⟨t, alone⟩ := own e fallback c
                  exact ⟨t, .child_unknown_own next named (by simp [action]) fallback alone⟩

end Subcommands

namespace Element

variable {env : Env}

/-- One level of a tree: something is kept of an element when something is of its parts. -/
theorem kept_of_parts {e : Element} (here : e.isOnlyOne = false) (below : ∀ d ∈ e.parts, d.Kept env) :
    e.Kept env := by
  cases e with
  | sequence items => exact kept_sequence below
  | firstOf items => exact kept_firstOf below
  | optional item default weak => exact kept_optional (below item List.mem_cons_self) default weak
  | repeated item times => exact kept_repeated (below item List.mem_cons_self) times
  | allOf item => exact kept_allOf (below item List.mem_cons_self)
  | onlyOne item => cases here
  | choice key k => exact kept_single rfl (k.writeOnly_parse key env)
  | selection key s => exact kept_single rfl (s.writeOnly_parse key env)
  | phrase key p => exact kept_single rfl (p.writeOnly_parse key env)
  | leaf key l => exact kept_single rfl (l.writeOnly_parse key env)
  | flags table values body =>
      exact kept_flags (fun d hd => below d (List.mem_cons_of_mem body hd))
        (below body List.mem_cons_self)
  | suggesting item suggestions requireBegin =>
      intro c
      obtain ⟨t, h⟩ := below item List.mem_cons_self c
      exact ⟨t, .suggesting h⟩
  | constrained item keep =>
      intro c
      obtain ⟨t, h⟩ := below item List.mem_cons_self c
      exact ⟨t, .constrained h⟩
  | child n =>
      refine Subcommands.kept (fun e he => below e ?_) fun k hk e he => below e ?_
      · exact List.mem_append_left _ (by simp [he])
      · exact List.mem_append_right _ (List.mem_flatMap.mpr ⟨k, hk, he⟩)

theorem WithoutOnlyOne.kept {e : Element} (h : e.WithoutOnlyOne) : e.Kept env := by
  induction h with
  | intro here _ ih => exact kept_of_parts here ih

/-- From a cursor, one trace tells what reading does with every context: the same end, the same
cursor and the same pairs put, those of the branches that were kept. -/
theorem parse_write_only {e : Element} (h : e.WithoutOnlyOne) (env : Env) (c : Cursor) :
    ∃ t, e.Leaves env c t ∧ Keeps env c e t := by
  obtain ⟨t, keeps⟩ := h.kept c
  exact ⟨t, keeps.leaves, keeps⟩

/-- A first alternative that stores a value before it fails, and a second that goes back to its
default. -/
theorem parse_write_only_of_default :
    let first : Element := .sequence [.leaf "name" .string, .leaf "count" .integer]
    let e : Element := .firstOf [first, .optional (.leaf "level" .integer) (some (.int 7)) true]
    let now : DateTime :=
      ⟨{ year := 2001, month := 2, day := 3 }, { hour := 4, minute := 5, second := 6, nano := 0 }⟩
    let env : Env := { source := { name := "ann" }, now }
    let c := Cursor.ofTokens "x y" [⟨"x", 0, 1⟩, ⟨"y", 2, 3⟩]
    e.WithoutOnlyOne ∧ ∃ t, e.Leaves env c t ∧ Keeps env c e t := by
  intro first e now env c
  have leaf : ∀ key l, (Element.leaf key l).WithoutOnlyOne := fun key l =>
    .intro rfl (by simp [parts])
  have first_ok : first.WithoutOnlyOne := .intro rfl (by simp [first, parts, leaf])
  have second_ok : (Element.optional (.leaf "level" .integer) (some (.int 7)) true).WithoutOnlyOne :=
    .intro rfl (by simp [parts, leaf])
  have ok : e.WithoutOnlyOne := .intro rfl (by simp [e, parts, first_ok, second_ok])
  exact ⟨ok, parse_write_only ok env c⟩

end Element

end CommandGrammar
