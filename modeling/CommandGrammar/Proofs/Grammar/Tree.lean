import CommandGrammar.Grammar.Build

/-!
# Trees of elements and of commands

Grammars and commands contain each other. The parts of an element are what it may read in place,
down to the grammars of its specified subcommands; in a command others may be registered. Either
relation goes to something smaller, which gives each its induction.
-/

namespace CommandGrammar

/-! ## What stands in a table -/

theorem Multimap.mem_allValues {V : Type} {m : Multimap V} {v : V} :
    v ∈ m.allValues ↔ ∃ e ∈ m.entries, v ∈ e.2 := by
  simp [allValues]

theorem Multimap.sizeOf_lt_of_mem {V : Type} [SizeOf V] {m : Multimap V} {v : V}
    (h : v ∈ m.allValues) : sizeOf v < sizeOf m := by
  obtain ⟨⟨key, vs⟩, he, hv⟩ := Multimap.mem_allValues.mp h
  have inEntry := List.sizeOf_lt_of_mem hv
  have inTable := List.sizeOf_lt_of_mem he
  cases m
  simp only [mk.sizeOf_spec, Prod.mk.sizeOf_spec] at *
  omega

namespace Dispatcher

variable {C : Type}

/-- The commands of a dispatcher, one for each alias of each. -/
def callables (d : Dispatcher C) : List C :=
  d.table.allValues.map (·.callable)

theorem sizeOf_lt_of_mem [SizeOf C] {d : Dispatcher C} {c : C} (h : c ∈ d.callables) :
    sizeOf c < sizeOf d := by
  obtain ⟨m, hm, rfl⟩ := List.mem_map.mp h
  have inTable := Multimap.sizeOf_lt_of_mem hm
  cases d
  cases m
  simp only [mk.sizeOf_spec, Mapping.mk.sizeOf_spec] at *
  omega

end Dispatcher

/-! ## Parts of an element -/

/-- What a specified command may read in place. -/
def Spec.parts (s : Spec) : List Element :=
  s.own.toList ++
    match s.body with
    | .action _ => []
    | .subcommands n => [.child n]

/-- What a subcommand may read in place; one without a grammar reads nothing so. -/
def Callable.parts : Callable → List Element
  | .spec s => s.parts
  | .dispatcher _ => []
  | .raw _ => []

namespace Element

/-- What an element may read in place. -/
def parts : Element → List Element
  | .sequence items => items
  | .firstOf items => items
  | .optional item _ _ => [item]
  | .repeated item _ => [item]
  | .allOf item => [item]
  | .onlyOne item => [item]
  | .choice _ _ => []
  | .selection _ _ => []
  | .phrase _ _ => []
  | .leaf _ _ => []
  | .flags _ values body => body :: values
  | .suggesting item _ _ => [item]
  | .constrained item _ => [item]
  | .child n => n.fallback.toList ++ n.commands.callables.flatMap Callable.parts

theorem sizeOf_lt_of_mem_specParts {s : Spec} {e : Element} (h : e ∈ s.parts) :
    sizeOf e < sizeOf s := by
  cases s with
  | mk own body description extended permission tokenizer =>
      simp only [Spec.parts, Spec.own, Spec.body, List.mem_append, Option.mem_toList] at h
      simp only [Spec.mk.sizeOf_spec]
      rcases h with rfl | h
      · simp only [Option.some.sizeOf_spec]
        omega
      · cases body with
        | action a => simp at h
        | subcommands n =>
            simp only [List.mem_singleton] at h
            subst h
            simp only [child.sizeOf_spec, Body.subcommands.sizeOf_spec]
            omega

theorem sizeOf_lt_of_mem_callableParts {c : Callable} {e : Element} (h : e ∈ c.parts) :
    sizeOf e < sizeOf c := by
  cases c with
  | spec s =>
      have := sizeOf_lt_of_mem_specParts h
      simp only [Callable.spec.sizeOf_spec]
      omega
  | dispatcher d => simp [Callable.parts] at h
  | raw r => simp [Callable.parts] at h

theorem sizeOf_lt_of_mem_parts {e d : Element} (h : d ∈ e.parts) : sizeOf d < sizeOf e := by
  cases e with
  | sequence items | firstOf items =>
      have inItems : d ∈ items := h
      have := List.sizeOf_lt_of_mem inItems
      simp only [sequence.sizeOf_spec, firstOf.sizeOf_spec]
      omega
  | optional item _ _ | repeated item _ | allOf item | onlyOne item | suggesting item _ _
  | constrained item _ =>
      rw [List.mem_singleton.mp h]
      simp only [optional.sizeOf_spec, repeated.sizeOf_spec, allOf.sizeOf_spec,
        onlyOne.sizeOf_spec, suggesting.sizeOf_spec, constrained.sizeOf_spec]
      omega
  | choice _ _ | selection _ _ | phrase _ _ | leaf _ _ => simp [parts] at h
  | flags table values body =>
      simp only [flags.sizeOf_spec]
      rcases List.mem_cons.mp h with rfl | h
      · omega
      · have := List.sizeOf_lt_of_mem h
        omega
  | child n =>
      cases n with
      | mk key action fallback commands onFail =>
          simp only [child.sizeOf_spec, Subcommands.mk.sizeOf_spec]
          rcases List.mem_append.mp h with h | h
          · rw [Subcommands.fallback, Option.mem_toList] at h
            subst h
            simp only [Option.some.sizeOf_spec]
            omega
          · obtain ⟨c, hc, hd⟩ := List.mem_flatMap.mp h
            have inTable := Dispatcher.sizeOf_lt_of_mem hc
            have inCommand := sizeOf_lt_of_mem_callableParts hd
            simp only [Subcommands.commands] at inTable
            omega

/-- What passes from the parts of an element to the element is true of all elements. -/
theorem induction_parts {motive : Element → Prop}
    (step : ∀ e, (∀ d ∈ e.parts, motive d) → motive e) (e : Element) : motive e :=
  step e fun d h =>
    have := sizeOf_lt_of_mem_parts h
    induction_parts step d
termination_by sizeOf e

/-- A property of an element, of its parts, and so on down. -/
inductive Every (p : Element → Prop) : Element → Prop
  | intro {e : Element} (here : p e) (below : ∀ d ∈ e.parts, Every p d) : Every p e

theorem Every.of_forall {p : Element → Prop} (h : ∀ e, p e) (e : Element) : Every p e :=
  induction_parts (fun e ih => ⟨h e, ih⟩) e

theorem Every.imp {p q : Element → Prop} {e : Element} (h : ∀ d, p d → q d) (every : e.Every p) :
    e.Every q := by
  induction every with
  | intro here _ ih => exact ⟨h _ here, ih⟩

end Element

/-! ## Commands registered in a command -/

namespace Callable

/-- The commands registered in a command: those of a dispatcher, or those of the node that decides
what a specified command runs. -/
def registered : Callable → List Callable
  | .spec s =>
    match s.body with
    | .action _ => []
    | .subcommands n => n.commands.callables
  | .dispatcher d => d.callables
  | .raw _ => []

theorem sizeOf_lt_of_mem_registered {c b : Callable} (h : b ∈ c.registered) : sizeOf b < sizeOf c := by
  cases c with
  | spec s =>
      cases s with
      | mk own body description extended permission tokenizer =>
          cases body with
          | action a => simp [registered, Spec.body] at h
          | subcommands n =>
              cases n with
              | mk key action fallback commands onFail =>
                  have := Dispatcher.sizeOf_lt_of_mem h
                  simp only [Subcommands.commands] at this
                  simp only [spec.sizeOf_spec, Spec.mk.sizeOf_spec, Body.subcommands.sizeOf_spec,
                    Subcommands.mk.sizeOf_spec]
                  omega
  | dispatcher d =>
      have := Dispatcher.sizeOf_lt_of_mem h
      simp only [dispatcher.sizeOf_spec]
      omega
  | raw r => simp [registered] at h

/-- What passes from the commands registered in a command to the command is true of all commands. -/
theorem induction_registered {motive : Callable → Prop}
    (step : ∀ c, (∀ b ∈ c.registered, motive b) → motive c) (c : Callable) : motive c :=
  step c fun b h =>
    have := sizeOf_lt_of_mem_registered h
    induction_registered step b
termination_by sizeOf c

end Callable

end CommandGrammar
