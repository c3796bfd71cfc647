import CommandGrammar.Proofs.Grammar.Behaviour
import CommandGrammar.Proofs.Grammar.Trace

/-!
# Values of flags

The elements that a flag's value may be read by, as far as they take no token or exactly one: what
they put, and where they leave the cursor.
-/

namespace CommandGrammar

open Reading

/-- The argument reads exactly one token, which it takes or refuses. -/
def Leaf.readsOne : Leaf → Bool
  | .markTrue => false
  | .remaining _ => false
  | .dateTime true => false
  | _ => true

namespace Element

def isSwitch : Element → Bool
  | .leaf _ .markTrue => true
  | _ => false

/-- The element of a flag with a value of one token. -/
def readsOne : Element → Bool
  | .leaf _ l => l.readsOne
  | .choice _ _ => true
  | _ => false

/-- What a flag with or without a value token puts, unless the token is refused. -/
def effect (env : Env) : Element → Option String → Option (List (String × Value))
  | .leaf key .markTrue, .none => some [(key, .bool true)]
  | .leaf key l, some text =>
    match l.readToken env.now.date text with
    | .ok v => some [(key, v)]
    | .error _ => .none
  | .choice key c, some text => (c.lookup env.source text).map fun v => [(key, v)]
  | _, _ => .none

end Element

theorem Leaf.readValue_of_readsOne (l : Leaf) (h : l.readsOne = true) (env : Env) :
    l.readValue env = l.readNext env := by
  cases l with
  | markTrue | remaining => cases h
  | dateTime orNow =>
      cases orNow with
      | true => cases h
      | false => rfl
  | _ => rfl

theorem Reading.leaves_next_between {raw : String} {before after : List Token} (t : Token) :
    next.Leaves (.between raw before (t :: after))
      ⟨.ok t.value, .between raw (before ++ [t]) after, []⟩ :=
  leaves_next_some Cursor.next?_between_cons

namespace Element

theorem effect_leaf (env : Env) (key : String) (l : Leaf) (text : String) :
    effect env (.leaf key l) (some text) =
      match l.readToken env.now.date text with
      | .ok v => some [(key, v)]
      | .error _ => .none := by
  cases l <;> rfl

variable {raw key : String} {before after : List Token} {env : Env}

theorem yields_switch {e : Element} (h : e.isSwitch = true) :
    (e.parser.parse env).Yields (.between raw before after) () (.between raw before after)
      (e.effect env .none) := by
  cases e with
  | leaf key l =>
      cases l with
      | markTrue => exact leaves_store key (.bool true) _
      | _ => simp [isSwitch] at h
  | _ => simp [isSwitch] at h

theorem yields_readNext (l : Leaf) (t : Token) :
    (l.readNext env >>= store key).Yields (.between raw before (t :: after)) ()
      (.between raw (before ++ [t]) after)
      (match l.readToken env.now.date t.value with
        | .ok v => some [(key, v)]
        | .error _ => .none) := by
  unfold Leaf.readNext
  rw [bind_assoc]
  refine Yields.bind_leaves (leaves_next_between t) ?_
  cases h : l.readToken env.now.date t.value with
  | ok v => simpa using yields_store key v _
  | error message => exact ⟨_, _, _, (leaves_reject message _).bind_error _⟩

theorem yields_readsOne {e : Element} (h : e.readsOne = true) (t : Token) :
    (e.parser.parse env).Yields (.between raw before (t :: after)) ()
      (.between raw (before ++ [t]) after) (e.effect env (some t.value)) := by
  cases e with
  | leaf key l =>
      rw [effect_leaf]
      change (l.readValue env >>= store key).Yields _ _ _ _
      rw [l.readValue_of_readsOne h]
      exact yields_readNext l t
  | choice key c =>
      refine Yields.bind_leaves (leaves_next_between t) ?_
      cases found : c.lookup env.source t.value with
      | none => simpa [effect, found] using yields_reject _ _ _ _
      | some v => simpa [effect, found] using yields_store key v _
  | _ => simp [readsOne] at h

/-- A flag's element consumes the token of its value, if it has one, and nothing else. -/
theorem yields_effect {e : Element} (simple : e.isSwitch = true ∨ e.readsOne = true)
    {value : Option String} (fits : value.isSome = e.readsOne) {taken : List Token}
    (texts : taken.map (·.value) = value.toList) :
    (e.parser.parse env).Yields (.between raw before (taken ++ after)) ()
      (.between raw (before ++ taken) after) (e.effect env value) := by
  cases value with
  | none =>
      obtain rfl : taken = [] := by simpa using texts
      have switch : e.isSwitch = true := by simpa [← fits] using simple
      simpa using yields_switch switch
  | some text =>
      obtain ⟨t, rfl, rfl⟩ : ∃ t, taken = [t] ∧ t.value = text := by
        simpa [List.map_eq_singleton_iff] using texts
      exact yields_readsOne fits.symm t

end Element

end CommandGrammar
