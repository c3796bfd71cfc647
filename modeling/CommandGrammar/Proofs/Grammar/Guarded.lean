import CommandGrammar.Proofs.Grammar.Behaviour
import CommandGrammar.Proofs.Grammar.Guard

/-!
# Guarded grammars

Every grammar reads within a guard that allows the keys it stores under. Most of those are declared;
the others are the names of unknown long flags, which come from the words of the line.
-/

namespace CommandGrammar

open Reading Guard

/-! ## The keys of a grammar -/

/-- Whether a flag that is not declared stores a value. -/
def UnknownFlag.stores : UnknownFlag → Bool
  | .acceptNonValue | .acceptValue => true
  | .error | .ignore => false

/-- Flags that are not declared store under a key, where words of a kind are read. -/
def FlagTable.StoresUnder (table : FlagTable) (word : String → Prop) (key : String) : Prop :=
  (table.unknownShort.stores = true ∧ ∃ c, key = String.singleton c) ∨
    (table.unknownLong.stores = true ∧ ∃ w flag, word w ∧ String.toList w = '-' :: '-' :: flag ∧
      key = Text.lowercase (FlagScanner.splitInline flag).1)

/-- The element itself stores under a key, where words of a kind are read. -/
def Element.StoresUnder (word : String → Prop) (key : String) : Element → Prop
  | .optional item default _ => default.isSome = true ∧ item.parser.key = some key
  | .choice k _ | .selection k _ | .leaf k _ => key = k
  | .phrase k _ => k = some key
  | .flags table _ _ => table.StoresUnder word key
  | .child n => key = n.key ∨ key = n.key ++ "_args"
  | .sequence _ | .firstOf _ | .repeated _ _ | .allOf _ | .onlyOne _ | .suggesting _ _ _
  | .constrained _ _ => False

/-- The element itself edits the tokens that it reads. -/
def Element.edits : Element → Bool
  | .flags _ _ _ => true
  | _ => false

/-- A guard allows all keys that an element and its parts store under, and edits if one of them
edits. -/
def Guard.Covers (G : Guard) (e : Element) : Prop :=
  e.Every fun d => (∀ key, d.StoresUnder G.Word key → G.Key key) ∧ (d.edits = true → G.Edits)

variable {G : Guard}

/-! ## Combinators -/

namespace Parser

variable {p : Parser} {ps : List Parser} {env : Env}

theorem guarded_readAll (h : ∀ p ∈ ps, G.Keeps (p.parse env)) : G.Keeps (readAll env ps) := by
  induction ps with
  | nil => exact keeps_pure ()
  | cons p ps ih =>
      exact keeps_bind (h p List.mem_cons_self) fun _ => ih fun q hq => h q (List.mem_cons_of_mem p hq)

theorem guarded_readFirst (h : ∀ p ∈ ps, G.Keeps (p.parse env)) : G.Keeps (readFirst env ps) := by
  induction ps with
  | nil => exact keeps_pure ()
  | cons p ps ih =>
      have later := ih fun q hq => h q (List.mem_cons_of_mem p hq)
      refine keeps_orElse (h p List.mem_cons_self) fun s e t safe _ tells => ?_
      cases ps with
      | nil => exact ⟨safe, tells⟩
      | cons q ps => exact later s safe

theorem guarded_storeDefault {default : Option Value}
    (allowed : ∀ key, default.isSome = true → p.key = some key → G.Key key) :
    G.Keeps (p.storeDefault default) := by
  unfold storeDefault
  split
  · rename_i key v there
    exact keeps_store (allowed key rfl there) v
  · exact keeps_pure ()

theorem guarded_optional {default : Option Value} (h : G.Keeps (p.parse env))
    (allowed : ∀ key, default.isSome = true → p.key = some key → G.Key key) (weak : Bool) :
    G.Keeps ((p.optional default weak).parse env) := by
  have absent := guarded_storeDefault allowed
  refine keeps_bind keeps_hasNext fun more => ?_
  split
  · refine keeps_orElse h fun s e t safe safe' tells => ?_
    split
    · exact absent s safe
    · exact ⟨safe', tells⟩
  · exact absent

theorem guarded_readTimes (h : G.Keeps (p.parse env)) (n : Nat) : G.Keeps (p.readTimes env n) := by
  induction n with
  | zero => exact keeps_pure ()
  | succ n ih => exact keeps_bind h fun _ => ih

theorem guarded_readWhile (h : G.Keeps (p.parse env)) (steps : Nat) :
    G.Keeps (p.readWhile env steps) := by
  rw [readWhile_eq_run]
  refine keeps_run (fun s safe => ?_) steps
  unfold readTurn
  split
  · cases read : p.parse env s with
    | ok _ t =>
        have safe' := h.ok safe read
        dsimp only
        split
        · exact safe'
        · exact safe'
    | error e t => exact h.error safe read
  · exact safe

theorem guarded_allOf (h : G.Keeps (p.parse env)) : G.Keeps (p.allOf.parse env) :=
  fun s safe => guarded_readWhile h (s.cursor.weight + 1) s safe

theorem guarded_onlyOne (h : G.Keeps (p.parse env)) : G.Keeps (p.onlyOne.parse env) := by
  refine keeps_bind h fun _ => ?_
  split
  · refine keeps_get fun s _ => ?_
    split
    · exact keeps_reject _
    · exact keeps_pure ()
  · exact keeps_pure ()

end Parser

/-! ## Single arguments -/

theorem Leaf.guarded_readNext (leaf : Leaf) (env : Env) : G.Keeps (leaf.readNext env) := by
  refine keeps_next fun text _ => ?_
  split
  · exact keeps_pure _
  · exact keeps_reject _

theorem Leaf.guarded_readValue (leaf : Leaf) (env : Env) : G.Keeps (leaf.readValue env) := by
  unfold readValue
  split
  · exact keeps_pure _
  · refine keeps_next fun first _ => keeps_get fun s _ => ?_
    refine keeps_bind (keeps_moveCursor fun _ => G.toEnd) fun _ => ?_
    split
    · exact keeps_pure _
    · exact keeps_pure _
  · exact keeps_orElse (guarded_readNext _ env) fun s e t safe _ _ => safe
  · exact guarded_readNext leaf env

theorem Leaf.guarded_parse {key : String} (allowed : G.Key key) (leaf : Leaf) (env : Env) :
    G.Keeps ((leaf.parser key).parse env) :=
  keeps_bind (guarded_readValue leaf env) fun v => keeps_store allowed v

theorem Choice.guarded_parse {key : String} (allowed : G.Key key) (c : Choice) (env : Env) :
    G.Keeps ((c.parser key).parse env) := by
  refine keeps_next fun name _ => ?_
  split
  · exact keeps_store allowed _
  · exact keeps_reject _

theorem Selection.guarded_storeAll {key : String} (allowed : G.Key key) (vs : List Value) :
    G.Keeps (storeAll key vs) := by
  induction vs with
  | nil => exact keeps_pure ()
  | cons v vs ih => exact keeps_bind (keeps_store allowed v) fun _ => ih

theorem Selection.guarded_parse {key : String} (allowed : G.Key key) (s : Selection) (env : Env) :
    G.Keeps ((s.parser key).parse env) := by
  refine keeps_next fun text _ => ?_
  split
  · exact keeps_store allowed _
  · split
    · exact keeps_reject _
    · split
      · exact keeps_reject _
      · exact guarded_storeAll allowed _

theorem Phrase.guarded_readWords (words : List String) : G.Keeps (readWords words) := by
  induction words with
  | nil => exact keeps_pure ()
  | cons expected words ih =>
      refine keeps_next fun word _ => ?_
      split
      · exact ih
      · exact keeps_reject _

theorem Phrase.guarded_parse {key : Option String} (allowed : ∀ k, key = some k → G.Key k)
    (p : Phrase) (env : Env) : G.Keeps ((p.parser key).parse env) := by
  refine keeps_bind (guarded_readWords p.words) fun _ => ?_
  split
  · exact keeps_store (allowed _ rfl) _
  · exact keeps_pure ()

/-! ## Flags -/

namespace FlagScanner

variable {f : FlagScanner} {env : Env} (edits : G.Edits)
  (values : ∀ index, G.Keeps ((f.value index).parse env))
  (allowed : ∀ key, f.table.StoresUnder G.Word key → G.Key key)

include values allowed

theorem guarded_readShort (first : Bool) (letters : List Char) :
    G.Keeps (f.readShort env first letters) := by
  induction letters generalizing first with
  | nil => exact keeps_pure true
  | cons c letters ih =>
      have named : f.table.unknownShort.stores = true → G.Key (String.singleton c) := by
        intro stores
        exact allowed _ (.inl ⟨stores, c, rfl⟩)
      unfold readShort
      split
      · exact keeps_bind (values _) fun _ => ih false
      · dsimp only
        split
        · exact keeps_reject _
        · split
          · exact keeps_pure false
          · exact keeps_reject _
        · rename_i unknown
          have stores : f.table.unknownShort.stores = true := by rw [unknown]; rfl
          exact keeps_bind (keeps_store (named stores) _) fun _ => ih false
        · rename_i unknown
          have stores : f.table.unknownShort.stores = true := by rw [unknown]; rfl
          exact keeps_next fun v _ => keeps_bind (keeps_store (named stores) _) fun _ => ih false

include edits

theorem guarded_readLong {w : String} {flag : List Char} (word : G.Word w)
    (letters : w.toList = '-' :: '-' :: flag) : G.Keeps (f.readLong env flag) := by
  unfold readLong
  cases cut : splitInline flag with
  | mk name inline =>
      have named : f.table.unknownLong.stores = true → G.Key (Text.lowercase name) := by
        intro stores
        exact allowed _ (.inr ⟨stores, w, flag, word, letters, by rw [cut]⟩)
      have stored : f.table.unknownLong.stores = true → ∀ v,
          G.Keeps (do store (Text.lowercase name) v; pure true : Reading Bool) := by
        intro stores v
        exact keeps_bind (keeps_store (named stores) v) fun _ => keeps_pure true
      dsimp only
      split
      · rename_i index _
        have read : G.Keeps (do (f.value index).parse env; pure true : Reading Bool) :=
          keeps_bind (values index) fun _ => keeps_pure true
        cases inline with
        | none => exact read
        | some v =>
            refine keeps_bind (keeps_moveCursor fun s safe => ?_) fun _ => read
            exact G.insert edits safe (G.inline word letters cut)
      · split
        · exact keeps_reject _
        · exact keeps_pure false
        · rename_i unknown
          exact stored (by rw [unknown]; rfl) _
        · rename_i unknown
          have stores : f.table.unknownLong.stores = true := by rw [unknown]; rfl
          cases inline with
          | some v => exact stored stores _
          | none => exact keeps_next fun v _ => stored stores _

theorem guarded_readFlag {w : String} {flag : List Char} (word : G.Word w)
    (letters : w.toList = '-' :: flag) : G.Keeps (f.readFlag env flag) := by
  unfold readFlag
  split
  · exact guarded_readLong edits values allowed word letters
  · exact guarded_readShort values allowed true _

theorem guarded_scan (steps : Nat) : G.Keeps (f.scan env steps) := by
  rw [scan_eq_run]
  refine keeps_run (fun s safe => ?_) steps
  unfold scanTurn
  cases there : s.cursor.next? with
  | none => exact safe
  | some pair =>
      obtain ⟨w, c⟩ := pair
      obtain ⟨safe', word⟩ := G.next safe there
      dsimp only
      split
      · rename_i flag letters
        have flagged := guarded_readFlag edits values allowed word letters
        cases read : f.readFlag env flag { s with cursor := c } with
        | error e t => exact flagged.error safe' read
        | ok taken t =>
            have after := flagged.ok safe' read
            cases taken with
            | true => exact G.remove edits safe there after
            | false => exact after
      · split
        · exact safe'
        · exact safe'

theorem guarded_read {body : Parser} (rest : G.Keeps (body.parse env)) :
    G.Keeps ((Parser.flagged f body).parse env) := by
  refine keeps_get fun entry safe => ?_
  refine keeps_bind (guarded_scan edits values allowed _) fun _ => ?_
  exact keeps_bind (keeps_moveCursor fun _ safe' => G.rewind safe safe') fun _ => rest

end FlagScanner

/-! ## Subcommands -/

theorem Specified.guarded_populate {s : Specified} {env : Env} (h : G.Keeps (s.grammar.parse env)) :
    G.Keeps (s.populate env) := by
  refine keeps_bind h fun _ => keeps_bind keeps_hasNext fun more => ?_
  split
  · exact keeps_next fun _ _ => keeps_reject _
  · exact keeps_pure ()

namespace Node

variable {n : Node} {env : Env}

theorem guarded_restOfLine : G.Keeps restOfLine := by
  refine keeps_bind keeps_hasNext fun more => ?_
  split
  · refine keeps_next fun _ _ => keeps_get fun s _ => ?_
    exact keeps_bind (keeps_moveCursor fun _ => G.toEnd) fun _ => keeps_pure _
  · exact keeps_pure ""

theorem guarded_populate {c : Command}
    (program : ∀ p, c.program = some p → G.Keeps (p.populate env))
    (text : c.program = none → G.Key n.argumentsKey) : G.Keeps (n.populate c env) := by
  unfold populate
  split
  · rename_i p there
    exact program p there
  · rename_i missing
    exact keeps_bind guarded_restOfLine fun _ => keeps_store (text missing) _

theorem allows_recover (own : ∀ p, n.fallback = some p → G.Keeps (p.parse env)) (typed : String)
    (c : Command) {s : State} (safe : G.Safe s) {e : ParseError} (tells : G.Tells e) :
    G.Allows (n.recover env typed c s e) := by
  unfold recover
  split
  · rename_i p _ there
    exact own p there s safe
  · exact ⟨safe, G.withUsage _ tells⟩

variable (own : ∀ p, n.fallback = some p → G.Keeps (p.parse env))
  (commands : ∀ typed m, n.commands.get? (some env.source) typed = some m →
    ∀ p, m.callable.program = some p → G.Keeps (p.populate env))
  (handle : G.Key n.key) (text : G.Key n.argumentsKey)

include own commands handle text

theorem guarded_readNamed : G.Keeps (n.readNamed env) := by
  intro s safe
  unfold readNamed
  cases there : s.cursor.next? with
  | none => exact ⟨safe, G.error _ safe⟩
  | some pair =>
      obtain ⟨typed, c⟩ := pair
      obtain ⟨safe', -⟩ := G.next safe there
      dsimp only
      cases named : n.commands.get? (some env.source) typed with
      | none =>
          dsimp only
          split
          · rename_i p _ there
            exact own p there s safe
          · exact keeps_reject _ _ safe'
      | some m =>
          have below := guarded_populate (n := n) (commands typed m named) fun _ => text
          dsimp only
          cases arguments : n.populate m.callable env { s with cursor := c } with
          | ok _ u => exact G.store (below.ok safe' arguments) handle
          | error e u =>
              exact allows_recover own typed m.callable safe (below.error safe' arguments).2

theorem guarded_read : G.Keeps (n.read env) := by
  refine keeps_bind keeps_hasNext fun more => ?_
  split
  · split
    · rename_i p there
      exact own p there
    · exact keeps_pure ()
  · exact guarded_readNamed own commands handle text

end Node

/-! ## Whole grammars -/

namespace Element

variable {env : Env}

theorem guarded_grammar {s : Spec} (h : ∀ e ∈ s.parts, G.Keeps (e.parser.parse env)) :
    G.Keeps (s.behaviour.grammar.parse env) :=
  Spec.forall_grammar (P := fun p => G.Keeps (p.parse env)) (fun _ => Parser.guarded_readAll) h

theorem guarded_child {n : Subcommands} (handle : G.Key n.key) (text : G.Key (n.key ++ "_args"))
    (h : ∀ e ∈ (Element.child n).parts, G.Keeps (e.parser.parse env)) :
    G.Keeps ((Element.child n).parser.parse env) := by
  refine Node.guarded_read ?_ ?_ ?_ ?_
  · exact Subcommands.forall_fallback (P := fun p => G.Keeps (p.parse env)) h
  · intro typed m named p program
    obtain ⟨s, rfl, -, inNode⟩ := Subcommands.program_of_get? named program
    exact Specified.guarded_populate (guarded_grammar fun e he => h e (inNode e he))
  · rw [Subcommands.toNode_key]
    exact handle
  · rw [Subcommands.toNode_argumentsKey]
    exact text

/-- An element reads within a guard that covers it. -/
theorem guarded {e : Element} (env : Env) (h : G.Covers e) : G.Keeps (e.parser.parse env) := by
  induction h with
  | @intro e here below ih =>
      have all : ∀ {es : List Element}, (∀ e ∈ es, G.Keeps (e.parser.parse env)) →
          ∀ p ∈ Element.parsers es, G.Keeps (p.parse env) :=
        forall_parsers (P := fun p => G.Keeps (p.parse env))
      cases e with
      | sequence items => exact Parser.guarded_readAll (all ih)
      | firstOf items => exact Parser.guarded_readFirst (all ih)
      | optional item default weak =>
          refine Parser.guarded_optional (ih item List.mem_cons_self) ?_ weak
          exact fun key stored keyed => here.1 key ⟨stored, keyed⟩
      | repeated item times => exact Parser.guarded_readTimes (ih item List.mem_cons_self) times
      | allOf item => exact Parser.guarded_allOf (ih item List.mem_cons_self)
      | onlyOne item => exact Parser.guarded_onlyOne (ih item List.mem_cons_self)
      | choice key c => exact c.guarded_parse (here.1 key rfl) env
      | selection key s => exact s.guarded_parse (here.1 key rfl) env
      | phrase key p => exact p.guarded_parse here.1 env
      | leaf key leaf => exact leaf.guarded_parse (here.1 key rfl) env
      | flags table values body =>
          have own := table.forall_value (P := fun p => G.Keeps (p.parse env)) (keeps_pure ())
            fun e he => ih e (List.mem_cons_of_mem body he)
          exact FlagScanner.guarded_read (here.2 rfl) own here.1 (ih body List.mem_cons_self)
      | suggesting item _ _ | constrained item _ => exact ih item List.mem_cons_self
      | child n => exact guarded_child (here.1 _ (.inl rfl)) (here.1 _ (.inr rfl)) ih

end Element

/-- A command reads within a guard that covers its parts. -/
theorem Spec.guarded_populate {s : Spec} (env : Env) (h : ∀ e ∈ s.parts, G.Covers e) :
    G.Keeps (s.behaviour.populate env) :=
  Specified.guarded_populate (Element.guarded_grammar fun e he => Element.guarded env (h e he))

end CommandGrammar
