import CommandGrammar.Proofs.Execution
import CommandGrammar.Proofs.Grammar.Trace

/-!
# Values under other keys

What a command runs depends on the values under its own keys. Where two contexts differ under other
keys only, the same is selected with either, and an action that does not look there does the same.
-/

namespace CommandGrammar

namespace Context

/-- Two contexts hold the same under all keys but some. -/
def AgreeOff (hidden : List String) (c d : Context) : Prop :=
  ∀ key, key ∉ hidden → d.values.get? key = c.values.get? key

variable {hidden : List String} {c d : Context} {key : String} {pairs : List (String × Value)}

theorem AgreeOff.one? (h : c.AgreeOff hidden d) (off : key ∉ hidden) : d.one? key = c.one? key := by
  simp only [Context.one?, h key off]

theorem get?_putAll_off (ok : c.values.WellFormed) (off : key ∉ pairs.map (·.1)) :
    (c.putAll pairs).values.get? key = c.values.get? key := by
  induction pairs generalizing c with
  | nil => rfl
  | cons p pairs ih =>
      simp only [List.map_cons, List.mem_cons, not_or] at off
      have later := ih (c := c.put p.1 p.2) (ok.insert _ _) off.2
      have first : (c.put p.1 p.2).values.get? key = c.values.get? key := by
        rw [put, Multimap.get?_insert ok, if_neg off.1]
      exact later.trans first

theorem one?_putAll (ok : c.values.WellFormed) (distinct : (pairs.map (·.1)).Nodup) {v : Value}
    (there : (key, v) ∈ pairs) (unused : c.values.get? key = none) :
    (c.putAll pairs).one? key = some v := by
  induction pairs generalizing c with
  | nil => cases there
  | cons p pairs ih =>
      obtain ⟨fresh, others⟩ := List.nodup_cons.mp distinct
      rcases List.mem_cons.mp there with rfl | later
      · have stored : (c.put key v).values.get? key = some [v] := by
          rw [put, Multimap.get?_insert ok, if_pos rfl, Multimap.values, unused]
          rfl
        have kept := get?_putAll_off (c := c.put key v) (ok.insert _ _) fresh
        simp only [one?, putAll, List.foldl_cons] at kept ⊢
        rw [kept, stored]
      · have other : key ≠ p.1 := by
          rintro rfl
          exact fresh (List.mem_map.mpr ⟨_, later, rfl⟩)
        have still : (c.put p.1 p.2).values.get? key = none := by
          rw [put, Multimap.get?_insert ok, if_neg other, unused]
        exact ih (ok.insert _ _) others later still

end Context

/-- An action does the same with contexts that hold the same but under some keys. -/
def Action.Blind (hidden : List String) (env : Env) (a : Action) : Prop :=
  ∀ c d, c.AgreeOff hidden d → a env d = a env c

/-- Two plans are the same but for what an action finds under some keys. -/
inductive Plan.AgreeOff (hidden : List String) : Plan → Plan → Prop
  | refuse (e : Error) : AgreeOff hidden (.refuse e) (.refuse e)
  | act {a c d nested} (agree : Context.AgreeOff hidden c d) :
      AgreeOff hidden (.run (.act a c) nested) (.run (.act a d) nested)
  | hand {run text nested} : AgreeOff hidden (.run (.hand run text) nested) (.run (.hand run text) nested)

namespace Plan.AgreeOff

variable {hidden : List String} {p q : Plan}

theorem refl (p : Plan) : p.AgreeOff hidden p := by
  cases p with
  | refuse e => exact .refuse e
  | run job nested =>
      cases job with
      | act a context => exact .act fun _ _ => rfl
      | hand run text => exact .hand

theorem carryOut {env : Env} (h : p.AgreeOff hidden q)
    (blind : ∀ a context nested, p = .run (.act a context) nested → a.Blind hidden env) :
    q.carryOut env = p.carryOut env := by
  cases h with
  | refuse e => rfl
  | act agree =>
      have same := blind _ _ _ rfl _ _ agree
      simp only [Plan.carryOut, Job.run, same]
  | hand => rfl

end Plan.AgreeOff

/-! ## What is selected -/

/-- No node that decides what a command runs stores under some keys. -/
def Callable.Apart (hidden : List String) (c : Callable) : Prop :=
  ∀ s n, c.Holds (.spec s) → s.body = .subcommands n → n.key ∉ hidden ∧ n.key ++ "_args" ∉ hidden

theorem Callable.Apart.below {hidden : List String} {b c : Callable} (h : c.Apart hidden)
    (registered : b ∈ c.registered) : b.Apart hidden :=
  fun s n holds => h s n (.inside registered holds)

theorem Subcommands.select_agreeOff {hidden : List String} {n : Subcommands} {env : Env}
    {c d : Context} (key : n.key ∉ hidden) (arguments : n.key ++ "_args" ∉ hidden)
    (agree : c.AgreeOff hidden d)
    (below : ∀ s, .spec s ∈ n.commands.callables →
      (s.body.core.select env c).AgreeOff hidden (s.body.core.select env d)) :
    (n.toNode.select env c).AgreeOff hidden (n.toNode.select env d) := by
  have named : n.toNode.selected? d = n.toNode.selected? c := by
    simp only [Node.selected?, toNode_key, agree.one? key]
  have handed : d.one? n.toNode.argumentsKey = c.one? n.toNode.argumentsKey := by
    rw [toNode_argumentsKey, agree.one? arguments]
  unfold Node.select
  rw [named, handed, toNode_selected?]
  cases selected : n.selected? c with
  | none =>
      simp only [Option.map_none]
      split
      · exact .act agree
      · exact .refuse _
  | some m =>
      have registered := mem_of_selected? selected
      cases callable : m.callable with
      | spec s =>
          rw [callable] at registered
          have lower := below s registered
          rw [← Spec.behaviour_core] at lower
          simp only [Option.map_some, Mapping.map_callable, callable]
          change (if s.behaviour.permits env.source then s.behaviour.core.select env c
            else .refuse .denied).AgreeOff hidden (if s.behaviour.permits env.source then
              s.behaviour.core.select env d else .refuse .denied)
          split
          · exact lower
          · exact .refuse _
      | dispatcher k | raw r =>
          simp only [Option.map_some, Mapping.map_callable, callable]
          exact .refl _

/-- What a command runs depends on the values under its own keys only. -/
theorem Spec.select_agreeOff (s : Spec) (env : Env) {hidden : List String} {c d : Context}
    (agree : c.AgreeOff hidden d) (apart : (Callable.spec s).Apart hidden) :
    (s.body.core.select env c).AgreeOff hidden (s.body.core.select env d) := by
  have all : ∀ b : Callable, b.Apart hidden → ∀ s, b = .spec s →
      (s.body.core.select env c).AgreeOff hidden (s.body.core.select env d) := by
    intro b
    induction b using Callable.induction_registered with
    | step b ih =>
        rintro apart s rfl
        cases body : s.body with
        | action a => exact .act agree
        | subcommands n =>
            obtain ⟨key, arguments⟩ := apart s n (.self _) body
            refine Subcommands.select_agreeOff key arguments agree fun k listed => ?_
            have registered : Callable.spec k ∈ (Callable.spec s).registered := by
              simpa [Callable.registered, body] using listed
            exact ih _ registered (apart.below registered) k rfl
  exact all _ apart s rfl

end CommandGrammar
