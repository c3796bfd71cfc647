import CommandGrammar.Proofs.Manager.Namespaces
import Mathlib.Data.List.Induction

/-!
# What an owner holds twice

A registration is refused for an alias that its owner holds already, but only the alias by itself is
looked up, not the alias behind the owner's name. An owner comes to hold two commands under a key
exactly in this way.
-/

namespace CommandGrammar.Manager

/-- An owner holds a command that is under a key. -/
def Has (m : Manager) (owner key : String) (c : Mapping Callable) : Prop :=
  c ∈ m.dispatcher.table.values key ∧ c.name ∈ m.ownedBy owner

/-- An owner holds two commands under one key. -/
def HoldsTwice (m : Manager) (owner key : String) : Prop :=
  ∃ b ∈ m.dispatcher.table.values key, ∃ c ∈ m.dispatcher.table.values key,
    b.name ∈ m.ownedBy owner ∧ c.name ∈ m.ownedBy owner ∧ b.name.id ≠ c.name.id

instance (m : Manager) (owner key : String) : Decidable (m.HoldsTwice owner key) :=
  inferInstanceAs (Decidable (∃ b ∈ m.dispatcher.table.values key,
    ∃ c ∈ m.dispatcher.table.values key,
      b.name ∈ m.ownedBy owner ∧ c.name ∈ m.ownedBy owner ∧ b.name.id ≠ c.name.id))

variable {m : Manager} {e : Edit} {owner key : String} {b c : Mapping Callable}

namespace Consistent

variable (ok : m.Consistent)

include ok

theorem has_iff :
    m.Has owner key c ↔ (key, c) ∈ m.dispatcher.table.toList ∧ Holds m.holdings owner c.name := by
  rw [Has, Multimap.mem_values ok.table, ok.mem_ownedBy]

theorem has_below (has : m.Has owner key c) : c.name.id < m.dispatcher.nextId :=
  ok.below key c (ok.has_iff.mp has).1

/-- What is under some key and was held by an owner is held by it still. -/
theorem holds_edit (held : Holds m.holdings owner c.name)
    (inTable : (key, c) ∈ (m.edit e).dispatcher.table.toList) :
    Holds (m.edit e).holdings owner c.name := by
  obtain ⟨h, hh, inCommands⟩ :=
    List.mem_flatMap.mp (((ok.edit e).agree c.name).mpr ⟨key, c, inTable, rfl⟩)
  obtain ⟨g, hg, named, inOld⟩ := held
  refine ⟨h, hh, ?_, inCommands⟩
  rcases m.edit_cases e with shrunk |
    ⟨who, callable, aliases, rewrite, claimed, name, d, -, -, added, after⟩
  · obtain ⟨k, hk, same, listed⟩ := shrunk.holders h.owner.id c.name ⟨h, hh, rfl, inCommands⟩
    rw [← same, ok.holder_unique hk hg listed inOld rfl, named]
  · rw [after] at hh
    rcases holds_addHolding.mp ⟨h, hh, rfl, inCommands⟩ with ⟨-, fresh⟩ | ⟨k, hk, same, listed⟩
    · obtain ⟨k, c', there, same⟩ := (ok.agree c.name).mp (List.mem_flatMap.mpr ⟨g, hg, inOld⟩)
      have below := ok.below k c' there
      rw [same, fresh, (Dispatcher.registerWith_some added).1] at below
      exact absurd below (Nat.lt_irrefl _)
    · rw [← same, ok.holder_unique hk hg listed inOld rfl, named]

/-- An alias that its owner may register is by itself under no key where the owner holds a command. -/
theorem apart_of_free {a : String} (free : m.taken owner (normalAlias a) = false)
    (has : m.Has owner key c) : key ≠ Text.lowercase (normalAlias a) := by
  rintro rfl
  obtain ⟨inTable, h, hh, named, inCommands⟩ := ok.has_iff.mp has
  have listed : c ∈ m.dispatcher.all (normalAlias a) := (Dispatcher.mem_all ok.table).mpr inTable
  have holds : m.holds owner c.name.id = true := by
    refine List.any_eq_true.mpr ⟨h, hh, ?_⟩
    simp only [named, beq_self_eq_true, Bool.true_and]
    exact List.any_eq_true.mpr ⟨c.name, inCommands, beq_self_eq_true _⟩
  have taken : m.taken owner (normalAlias a) = true := List.any_eq_true.mpr ⟨c, listed, holds⟩
  rw [free] at taken
  cases taken

end Consistent

/-- A change registers a command for an owner under a key. -/
def Edit.Adds (m : Manager) (owner key : String) (c : Mapping Callable) (e : Edit) : Prop :=
  ∃ who aliases, e = .register who c.callable aliases id ∧ who.id = owner ∧ e.Names owner key ∧
    m.register who c.callable aliases = .ok (some c.name, m.edit e)

/-- What a change removes is not there afterwards. -/
theorem kept_of_mem_edit (inTable : (key, c) ∈ (m.edit e).dispatcher.table.toList) :
    ¬ e.Removes key c.name.id := by
  cases e with
  | register who callable aliases rewrite => exact not_false
  | removeId id =>
      intro same
      simp only [edit, dispatcher_removeId] at inTable
      exact (Dispatcher.mem_removeId.mp inTable).2 same.symm
  | remove typed =>
      intro same
      exact (Dispatcher.mem_remove.mp inTable).2 same.symm
  | removeAll typed =>
      rintro ⟨t, listed, same⟩
      exact ((Dispatcher.mem_removeAll typed).mp inTable).2 t listed same.symm

theorem Edit.Adds.number (added : e.Adds m owner key c) : c.name.id = m.dispatcher.nextId := by
  obtain ⟨who, aliases, -, -, -, done⟩ := added
  obtain ⟨claimed, d, -, entered, -⟩ := register_some done
  exact (Dispatcher.registerWith_some entered).1

namespace Consistent

/-- An owner holds a command under a key after a change if it held it and it was left there, or if
it is the one that was registered. -/
theorem has_edit (ok : m.Consistent) (plain : e.Plain) :
    (m.edit e).Has owner key c ↔
      (m.Has owner key c ∧ ¬ e.Removes key c.name.id) ∨ e.Adds m owner key c := by
  constructor
  · intro has
    obtain ⟨inTable, holds⟩ := (ok.edit e).has_iff.mp has
    rcases m.edit_cases e with shrunk |
      ⟨who, callable, aliases, rewrite, claimed, name, d, rfl, free, added, after⟩
    · refine .inl ⟨ok.has_iff.mpr ⟨shrunk.entries.subset inTable, ?_⟩, kept_of_mem_edit inTable⟩
      exact shrunk.holders owner c.name holds
    · obtain rfl : rewrite = id := plain
      obtain ⟨number, -, -, rfl⟩ := Dispatcher.registerWith_some added
      have fresh : ∀ k c', (k, c') ∈ m.dispatcher.table.toList → c'.name ≠ name := by
        intro k c' old same
        have below := ok.below k c' old
        rw [same, number] at below
        exact Nat.lt_irrefl _ below
      rw [after] at inTable holds
      rcases (Dispatcher.mem_insertAll _).mp inTable with ⟨rfl, x, listed, named⟩ | old
      · have owns : owner = who.id := by
          rcases holds_addHolding.mp holds with ⟨same, -⟩ | ⟨h, hh, -, inCommands⟩
          · exact same
          · obtain ⟨k, c', inOld, same⟩ :=
              (ok.agree name).mp (List.mem_flatMap.mpr ⟨h, hh, inCommands⟩)
            exact absurd same (fresh k c' inOld)
        subst owns
        refine .inr ⟨who, aliases, rfl, rfl, (claimed_iff_names free).mp ⟨x, listed, named⟩, ?_⟩
        rw [after]
        exact registerWith_of_claimed free added
      · rcases holds_addHolding.mp holds with ⟨-, same⟩ | before
        · exact absurd same (fresh key c old)
        · exact .inl ⟨ok.has_iff.mpr ⟨old, before⟩, not_false⟩
  · rintro (⟨has, kept⟩ | ⟨who, aliases, rfl, rfl, names, added⟩)
    · obtain ⟨inTable, holds⟩ := ok.has_iff.mp has
      have still := edit_keeps inTable kept
      exact (ok.edit e).has_iff.mpr ⟨still, ok.holds_edit holds still⟩
    · obtain ⟨claimed, d, free, entered, after⟩ := register_some added
      obtain ⟨-, -, -, rfl⟩ := Dispatcher.registerWith_some entered
      refine (ok.edit _).has_iff.mpr ?_
      rw [after]
      have named := (claimed_iff_names free).mpr names
      exact ⟨(Dispatcher.mem_insertAll _).mpr (.inl ⟨rfl, named⟩),
        holds_addHolding.mpr (.inl ⟨rfl, rfl⟩)⟩

/-- A command that joins another of its owner's under a key was registered with an alias that is
that key behind the owner's name. -/
theorem behind_name (ok : m.Consistent) (has : m.Has owner key b) (added : e.Adds m owner key c) :
    ∃ who aliases, e = .register who c.callable aliases id ∧ who.id = owner ∧
      (∃ a ∈ aliases, key = ownKey owner a) ∧
      m.register who c.callable aliases = .ok (some c.name, m.edit e) := by
  obtain ⟨who, aliases, rfl, rfl, ⟨-, a, ha, named⟩, done⟩ := added
  refine ⟨who, aliases, rfl, rfl, ⟨a, ha, ?_⟩, done⟩
  rcases named with bare | behind
  · obtain ⟨claimed, d, free, -, -⟩ := register_some done
    have unheld := claimAliases_free free ha List.not_mem_nil
    exact absurd bare (ok.apart_of_free unheld has)
  · exact behind

theorem has_run (ok : m.Consistent) {edits : List Edit} (plain : ∀ e ∈ edits, e.Plain)
    (has : m.Has owner key c) (kept : ∀ e ∈ edits, ¬ e.Removes key c.name.id) :
    (m.run edits).Has owner key c := by
  induction edits generalizing m with
  | nil => exact has
  | cons e edits ih =>
      have now := (ok.has_edit (plain e List.mem_cons_self)).mpr (.inl ⟨has, kept e List.mem_cons_self⟩)
      exact ih (ok.edit e) (fun e' he' => plain e' (List.mem_cons_of_mem _ he')) now
        fun e' he' => kept e' (List.mem_cons_of_mem _ he')

end Consistent

/-! ## Whole runs -/

/-- Among some changes an owner registers a command with an alias that is a key behind the owner's
name, while it holds another command under that key, and neither is removed there later. -/
def Joined (policy : Policy) (edits : List Edit) (owner key : String) (old new : Nat) : Prop :=
  ∃ before who callable aliases after,
    edits = before ++ .register who callable aliases id :: after ∧ who.id = owner ∧
      (∃ a ∈ aliases, key = ownKey owner a) ∧
      (∃ b, ((Manager.empty policy).run before).Has owner key b ∧ b.name.id = old) ∧
      (∃ name m', ((Manager.empty policy).run before).register who callable aliases =
        .ok (some name, m') ∧ name.id = new) ∧
      ∀ e ∈ after, ¬ e.Removes key old ∧ ¬ e.Removes key new

variable {policy : Policy} {edits : List Edit}

theorem Joined.append {old new : Nat} (h : Joined policy edits owner key old new)
    (kept : ¬ e.Removes key old ∧ ¬ e.Removes key new) :
    Joined policy (edits ++ [e]) owner key old new := by
  obtain ⟨before, who, callable, aliases, after, rfl, named, behind, held, done, rest⟩ := h
  refine ⟨before, who, callable, aliases, after ++ [e], by simp, named, behind, held, done, ?_⟩
  intro e' he'
  rcases List.mem_append.mp he' with listed | last
  · exact rest e' listed
  · rw [List.mem_singleton.mp last]
    exact kept

theorem run_append_singleton (m : Manager) (edits : List Edit) (e : Edit) :
    m.run (edits ++ [e]) = (m.run edits).edit e := by
  simp [run]

/-- A later command that is under a key with an earlier one of its owner's came to join it there. -/
theorem joined_of_has (plain : ∀ e ∈ edits, e.Plain)
    (former : ((Manager.empty policy).run edits).Has owner key b)
    (later : ((Manager.empty policy).run edits).Has owner key c) (lt : b.name.id < c.name.id) :
    Joined policy edits owner key b.name.id c.name.id := by
  -- Induction on the run from its end: the last change left both, or brought the later one.
  induction edits using List.reverseRec with
  | nil =>
      have inTable := ((Consistent.empty policy).has_iff.mp former).1
      simp [Manager.empty, Dispatcher.empty] at inTable
  | append_singleton edits e ih =>
      have ok := (Consistent.empty policy).run edits
      have before : ∀ e ∈ edits, e.Plain := fun e' he' => plain e' (List.mem_append_left _ he')
      have last : e.Plain := plain e (List.mem_append_right _ List.mem_cons_self)
      rw [run_append_singleton] at former later
      rcases (ok.has_edit last).mp former with ⟨formerHas, formerKept⟩ | formerNew
      · rcases (ok.has_edit last).mp later with ⟨laterHas, laterKept⟩ | laterNew
        · exact (ih before formerHas laterHas).append ⟨formerKept, laterKept⟩
        · obtain ⟨who, aliases, rfl, named, behind, done⟩ := ok.behind_name formerHas laterNew
          exact ⟨edits, who, c.callable, aliases, [], rfl, named, behind, ⟨b, formerHas, rfl⟩,
            ⟨c.name, _, done, rfl⟩, by simp⟩
      -- What comes in has the largest number, so the earlier one was there before.
      · exfalso
        have number := formerNew.number
        rcases (ok.has_edit last).mp later with ⟨laterHas, -⟩ | laterNew
        · have below := ok.has_below laterHas
          omega
        · have number' := laterNew.number
          omega

/-- An owner holds two commands under one key exactly where a registration went in by an alias that
is the key only behind the owner's name, while the owner held another command under the key. -/
theorem holdsTwice_iff (policy : Policy) {edits : List Edit} (plain : ∀ e ∈ edits, e.Plain)
    (owner key : String) :
    ((Manager.empty policy).run edits).HoldsTwice owner key ↔
      ∃ old new, Joined policy edits owner key old new := by
  constructor
  · rintro ⟨b, hb, c, hc, ownedB, ownedC, apart⟩
    rcases Nat.lt_or_gt_of_ne apart with lt | gt
    · exact ⟨_, _, joined_of_has plain ⟨hb, ownedB⟩ ⟨hc, ownedC⟩ lt⟩
    · exact ⟨_, _, joined_of_has plain ⟨hc, ownedC⟩ ⟨hb, ownedB⟩ gt⟩
  · rintro ⟨old, new, before, who, callable, aliases, after, rfl, rfl, ⟨a, ha, rfl⟩, ⟨b, has, rfl⟩,
      ⟨name, m', done, rfl⟩, kept⟩
    have ok := (Consistent.empty policy).run before
    let change : Edit := .register who callable aliases id
    let new : Mapping Callable := ⟨name, callable⟩
    have changed : ((Manager.empty policy).run before).edit change = m' := by
      simp only [change, edit]
      rw [← register, done]
    have added : change.Adds ((Manager.empty policy).run before) who.id (ownKey who.id a) new :=
      ⟨who, aliases, rfl, rfl, ⟨rfl, a, ha, .inr rfl⟩, by rw [changed]; exact done⟩
    have later : ∀ e ∈ after, e.Plain := fun e he =>
      plain e (List.mem_append_right _ (List.mem_cons_of_mem _ he))
    have first := (ok.has_edit (e := change) rfl).mpr (.inl ⟨has, not_false⟩)
    have second := (ok.has_edit (e := change) rfl).mpr (.inr added)
    have below := ok.has_below has
    have number := added.number
    rw [run, List.foldl_append, List.foldl_cons]
    have former := (ok.edit change).has_run later first fun e he => (kept e he).1
    have latter := (ok.edit change).has_run later second fun e he => (kept e he).2
    refine ⟨b, former.1, new, latter.1, former.2, latter.2, ?_⟩
    rw [number]
    exact Nat.ne_of_lt below

/-- An alias that is removed by itself stays behind its owner's name, where the next registration
of it joins it. -/
theorem holdsTwice_after_remove :
    let greeting : Callable := .raw { run := fun _ _ => .ok .empty, suggestions := fun _ _ => .ok [] }
    let owner : Owner := ⟨"o", none, none, none, none, []⟩
    let register : Edit := .register owner greeting ["a"] id
    let edits := [register, .remove "a", register]
    (∀ e ∈ edits, e.Plain) ∧ ((Manager.empty Policy.last).run edits).HoldsTwice "o" "o:a" ∧
      ∃ old new, Joined Policy.last edits "o" "o:a" old new := by
  intro greeting owner register edits
  have plain : ∀ e ∈ edits, e.Plain := by simp [edits, register, Edit.Plain]
  have twice : ((Manager.empty Policy.last).run edits).HoldsTwice "o" "o:a" := by decide +kernel
  exact ⟨plain, twice, (holdsTwice_iff Policy.last plain "o" "o:a").mp twice⟩

/-- Of an owner that first registers an alias with its own name in front and then the alias alone,
both commands stand under the key; the other way about the second is refused. -/
theorem holdsTwice_of_bare :
    let greeting : Callable := .raw { run := fun _ _ => .ok .empty, suggestions := fun _ _ => .ok [] }
    let owner : Owner := ⟨"o", none, none, none, none, []⟩
    let both := [Edit.register owner greeting ["o:a"] id, .register owner greeting ["a"] id]
    let other := [Edit.register owner greeting ["a"] id, .register owner greeting ["o:a"] id]
    (∀ e ∈ both, e.Plain) ∧ (Manager.empty.run both).HoldsTwice "o" "o:a" ∧
      ((Manager.empty.run other).ownedBy "o").map (·.id) = [0] := by
  intro greeting owner both other
  have plain : ∀ e ∈ both, e.Plain := by simp [both, Edit.Plain]
  refine ⟨plain, ?_⟩
  decide +kernel

end CommandGrammar.Manager
