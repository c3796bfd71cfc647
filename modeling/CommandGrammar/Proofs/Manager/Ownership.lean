import CommandGrammar.Proofs.Manager.Edits
import CommandGrammar.Proofs.Manager.Holdings
import Mathlib.Data.List.Nodup
import Mathlib.Data.List.Pairwise

/-!
# Who owns what is registered

A manager keeps its alias table and the holdings of its owners apart. After any changes the two
agree: what is under some alias is held by one owner and once, and nothing else is held.
-/

namespace CommandGrammar.Manager

/-! ## What a manager keeps -/

/-- The alias table and the holdings agree. -/
structure Consistent (m : Manager) : Prop where
  table : m.dispatcher.table.WellFormed
  below : ∀ k c, (k, c) ∈ m.dispatcher.table.toList → c.name.id < m.dispatcher.nextId
  ordered : m.holdings.Pairwise fun g h => g.owner.id < h.owner.id
  filled : ∀ h ∈ m.holdings, h.commands ≠ []
  distinct : ((held m.holdings).map (·.id)).Nodup
  agree : ∀ name, name ∈ held m.holdings ↔ ∃ k c, (k, c) ∈ m.dispatcher.table.toList ∧ c.name = name

namespace Consistent

variable {m : Manager}

theorem empty (policy : Policy) : (Manager.empty policy).Consistent where
  table := .empty
  below := by simp [Manager.empty, Dispatcher.empty]
  ordered := List.Pairwise.nil
  filled := by simp [Manager.empty]
  distinct := List.nodup_nil
  agree := by simp [Manager.empty, Dispatcher.empty, held]

/-- A command is known by its number. -/
theorem eq_of_id (ok : m.Consistent) {a b : CommandName} (ha : a ∈ held m.holdings)
    (hb : b ∈ held m.holdings) (same : a.id = b.id) : a = b :=
  List.inj_on_of_nodup_map ok.distinct ha hb same

theorem add (ok : m.Consistent) {owner : Owner} {callable : Callable} {aliases : List String}
    {rewrite : List String → List String} {name : CommandName} {d : Dispatcher Callable}
    (h : m.dispatcher.registerWith callable aliases rewrite = (some name, d)) :
    (Manager.mk d (addHolding owner name m.holdings)).Consistent := by
  obtain ⟨number, -, nonempty, rfl⟩ := Dispatcher.registerWith_some h
  obtain ⟨first, more, kept⟩ := List.exists_cons_of_ne_nil nonempty
  have fresh : ∀ c ∈ held m.holdings, c.id < m.dispatcher.nextId := by
    intro c hc
    obtain ⟨k, e, inTable, rfl⟩ := (ok.agree c).mp hc
    exact ok.below k e inTable
  have perm := held_addHolding owner name m.holdings
  constructor
  · exact Dispatcher.wellFormed_insertAll ok.table _ _
  · exact Dispatcher.below_insertAll ok.below number _
  · exact ordered_addHolding ok.ordered
  · intro g hg
    rcases mem_addHolding hg with ⟨-, filled⟩ | old
    · exact filled
    · exact ok.filled g old
  · rw [(perm.map _).nodup_iff, List.map_cons, List.nodup_cons]
    refine ⟨?_, ok.distinct⟩
    intro listed
    obtain ⟨c, hc, same⟩ := List.mem_map.mp listed
    have lt := fresh c hc
    omega
  · intro other
    rw [perm.mem_iff, List.mem_cons, ok.agree]
    simp only [Dispatcher.mem_insertAll]
    constructor
    · rintro (rfl | ⟨k, c, old, same⟩)
      · refine ⟨Text.lowercase first, ⟨other, callable⟩, .inl ⟨rfl, first, ?_, rfl⟩, rfl⟩
        rw [kept]
        exact List.mem_cons_self
      · exact ⟨k, c, .inr old, same⟩
    · rintro ⟨k, c, ⟨rfl, -⟩ | old, same⟩
      · exact .inl same.symm
      · exact .inr ⟨k, c, old, same⟩

/-- Entries are taken out of the table, and the commands of these that are under no other alias are
forgotten. -/
theorem shrink (ok : m.Consistent) {d : Dispatcher Callable} {removed : List Nat}
    (table : d.table.WellFormed) (nextId : d.nextId = m.dispatcher.nextId)
    (fewer : ∀ k c, (k, c) ∈ d.table.toList → (k, c) ∈ m.dispatcher.table.toList)
    (gone : ∀ k c, (k, c) ∈ m.dispatcher.table.toList →
      (k, c) ∈ d.table.toList ∨ c.name.id ∈ removed) :
    (Manager.mk d (forgetUnreachable d m.holdings removed)).Consistent := by
  constructor
  · exact table
  · intro k c inTable
    rw [nextId]
    exact ok.below k c (fewer k c inTable)
  · exact ordered_forgetUnreachable ok.ordered d removed
  · exact commands_forgetUnreachable ok.filled d removed
  · rw [held_forgetUnreachable]
    exact ok.distinct.sublist (List.filter_sublist.map _)
  · intro name
    rw [held_forgetUnreachable, List.mem_filter]
    constructor
    · rintro ⟨listed, kept⟩
      obtain ⟨k, c, inTable, rfl⟩ := (ok.agree name).mp listed
      -- One that lost this entry is kept only where another alias still reaches it.
      rcases gone k c inTable with still | taken
      · exact ⟨k, c, still, rfl⟩
      · have reached : d.containsId c.name.id = true := by simpa [taken] using kept
        obtain ⟨k', c', inRest, same⟩ := Dispatcher.containsId_iff.mp reached
        have listed' := (ok.agree c'.name).mpr ⟨k', c', fewer k' c' inRest, rfl⟩
        exact ⟨k', c', inRest, ok.eq_of_id listed' listed same⟩
    · rintro ⟨k, c, inTable, rfl⟩
      have reached : d.containsId c.name.id = true :=
        Dispatcher.containsId_iff.mpr ⟨k, c, inTable, rfl⟩
      exact ⟨(ok.agree c.name).mpr ⟨k, c, fewer k c inTable, rfl⟩, by simp [reached]⟩

end Consistent

/-! ## Runs -/

variable {m : Manager}

namespace Consistent

theorem removeId (ok : m.Consistent) (id : Nat) : (m.removeId id).2.Consistent := by
  rcases m.removeId_cases id with same | taken
  · rw [same]
    exact ok
  · rw [taken]
    let d : Dispatcher Callable := { m.dispatcher with
      table := m.dispatcher.table.filter fun _ c => c.name.id != id }
    have rest : ∀ k c, (k, c) ∈ d.table.toList ↔
        (k, c) ∈ m.dispatcher.table.toList ∧ c.name.id ≠ id := by
      intro k c
      simp [d, Multimap.toList_filter]
    have unreached : d.containsId id = false := by
      rw [Bool.eq_false_iff, Ne, Dispatcher.containsId_iff]
      rintro ⟨k, c, inTable, same⟩
      exact ((rest k c).mp inTable).2 same
    have forgotten : forget m.holdings id = forgetUnreachable d m.holdings [id] := by
      simp [forgetUnreachable, unreached]
    rw [forgotten]
    refine ok.shrink (ok.table.filter _) rfl (fun k c h => ((rest k c).mp h).1) ?_
    intro k c inTable
    by_cases same : c.name.id = id
    · exact .inr (by simp [same])
    · exact .inl ((rest k c).mpr ⟨inTable, same⟩)

theorem remove (ok : m.Consistent) (key : String) : (m.remove key).2.Consistent := by
  refine ok.shrink (ok.table.erase _) rfl (fun k c h => (Dispatcher.mem_remove.mp h).1) ?_
  intro k c inTable
  by_cases here : k = Text.lowercase key
  · subst here
    have taken : c ∈ (m.dispatcher.remove key).1 := (Dispatcher.mem_all ok.table).mpr inTable
    exact .inr (List.mem_map_of_mem (List.mem_map_of_mem taken))
  · exact .inl (Dispatcher.mem_remove.mpr ⟨inTable, here⟩)

theorem removeAll (ok : m.Consistent) (keys : List String) : (m.removeAll keys).2.Consistent := by
  refine ok.shrink (Dispatcher.wellFormed_removeAll ok.table keys)
    (m.dispatcher.removeAll_rest keys).2 (fun k c h => ((Dispatcher.mem_removeAll keys).mp h).1) ?_
  intro k c inTable
  by_cases here : ∃ key ∈ keys, k = Text.lowercase key
  · obtain ⟨key, listed, rfl⟩ := here
    have taken : c ∈ keys.flatMap m.dispatcher.all :=
      List.mem_flatMap.mpr ⟨key, listed, (Dispatcher.mem_all ok.table).mpr inTable⟩
    exact .inr (List.mem_map_of_mem taken)
  · simp only [not_exists, not_and] at here
    exact .inl ((Dispatcher.mem_removeAll keys).mpr ⟨inTable, here⟩)

theorem edit (ok : m.Consistent) (e : Edit) : (m.edit e).Consistent := by
  cases e with
  | register owner callable aliases rewrite =>
      rcases m.edit_register owner callable aliases rewrite with
        same | ⟨claimed, name, d, -, added, changed⟩
      · rw [same]
        exact ok
      · rw [changed]
        exact ok.add added
  | removeId id => exact ok.removeId id
  | remove key => exact ok.remove key
  | removeAll keys => exact ok.removeAll keys

/-- Every run of changes keeps table and holdings in agreement. -/
theorem run (ok : m.Consistent) (edits : List Edit) : (m.run edits).Consistent := by
  induction edits generalizing m with
  | nil => exact ok
  | cons e edits ih => exact ih (ok.edit e)

end Consistent

/-! ## Accounts -/

/-- A command is under some alias. -/
def Registered (m : Manager) (id : Nat) : Prop :=
  ∃ key, ∃ c ∈ m.dispatcher.table.values key, c.name.id = id

/-- How often an owner is said to hold a command. -/
def listings (m : Manager) (owner : String) (id : Nat) : Nat :=
  ((m.ownedBy owner).map (·.id)).count id

/-- Who owns what, as it can be asked for, is what is registered. -/
structure Accounts (m : Manager) : Prop where
  listed : ∀ id, m.Registered id →
    ∃ owner, m.listings owner id = 1 ∧ ∀ other, other ≠ owner → m.listings other id = 0
  unlisted : ∀ id, ¬ m.Registered id → ∀ owner, m.listings owner id = 0
  known : ∀ owner, ∀ name ∈ m.ownedBy owner,
    ∃ key, ∃ c ∈ m.dispatcher.table.values key, c.name = name
  ownerOf : ∀ id owner, m.ownerOf? id = some owner ↔
    owner ∈ m.owners ∧ ∃ name ∈ m.ownedBy owner.id, name.id = id
  owners : ∀ id, m.ownedBy id ≠ [] ↔ ∃ owner ∈ m.owners, owner.id = id
  distinct : (m.owners.map (·.id)).Nodup
  filled : ∀ h ∈ m.holdings, h.commands ≠ []
  refused : ∀ owner callable aliases rewrite e,
    m.registerWith owner callable aliases rewrite = .error e →
      (∃ a ∈ aliases, m.taken owner.id (normalAlias a) = true ∧
        e = .duplicateAlias owner.id (normalAlias a)) ∧
      m.edit (.register owner callable aliases rewrite) = m

namespace Consistent

variable (ok : m.Consistent)

include ok

theorem owners_apart : m.holdings.Pairwise fun g h => g.owner.id ≠ h.owner.id := by
  refine ok.ordered.imp ?_
  intro g h lt same
  rw [same] at lt
  exact String.lt_irrefl _ lt

theorem owner_inj {g h : Holding} (hg : g ∈ m.holdings) (hh : h ∈ m.holdings)
    (same : g.owner.id = h.owner.id) : g = h := by
  have symmetric : Std.Symm fun g h : Holding => g.owner.id ≠ h.owner.id := ⟨fun _ _ => Ne.symm⟩
  by_contra other
  exact ok.owners_apart.forall hg hh other same

theorem mem_ownedBy {owner : String} {name : CommandName} :
    name ∈ m.ownedBy owner ↔ Holds m.holdings owner name := by
  unfold ownedBy
  cases found : m.holdings.find? fun h => h.owner.id == owner with
  | none =>
      simp only [Option.map_none, Option.getD_none, List.not_mem_nil, false_iff]
      rintro ⟨h, hh, same, -⟩
      exact List.find?_eq_none.mp found h hh (by simp [same])
  | some g =>
      have inHoldings := List.mem_of_find?_eq_some found
      have named : g.owner.id = owner := by simpa using List.find?_some found
      simp only [Option.map_some, Option.getD_some]
      constructor
      · intro listed
        exact ⟨g, inHoldings, named, listed⟩
      · rintro ⟨h, hh, same, listed⟩
        obtain rfl := ok.owner_inj inHoldings hh (named.trans same.symm)
        exact listed

theorem ownedBy_eq {h : Holding} (hh : h ∈ m.holdings) : m.ownedBy h.owner.id = h.commands := by
  unfold ownedBy
  cases found : m.holdings.find? fun g => g.owner.id == h.owner.id with
  | none =>
      have lacks := List.find?_eq_none.mp found h hh
      simp at lacks
  | some g =>
      have named : g.owner.id = h.owner.id := by simpa using List.find?_some found
      obtain rfl := ok.owner_inj (List.mem_of_find?_eq_some found) hh named
      rfl

/-- The numbers of one owner's commands differ from each other and from those of another's. -/
theorem numbers_apart :
    (∀ h ∈ m.holdings, (h.commands.map (·.id)).Nodup) ∧
      m.holdings.Pairwise fun g h => List.Disjoint (g.commands.map (·.id)) (h.commands.map (·.id)) := by
  have distinct := ok.distinct
  rw [held, List.map_flatMap, List.nodup_flatMap] at distinct
  exact distinct

theorem holder_unique {g h : Holding} {a b : CommandName} (hg : g ∈ m.holdings)
    (hh : h ∈ m.holdings) (ha : a ∈ g.commands) (hb : b ∈ h.commands) (same : a.id = b.id) :
    g = h := by
  have symmetric : Std.Symm fun g h : Holding =>
      List.Disjoint (g.commands.map (·.id)) (h.commands.map (·.id)) :=
    ⟨fun _ _ disjoint _ inLater inFormer => disjoint inFormer inLater⟩
  by_contra other
  have apart := ok.numbers_apart.2.forall hg hh other
  exact apart (List.mem_map_of_mem ha) (same ▸ List.mem_map_of_mem hb)

theorem registered_iff {id : Nat} : m.Registered id ↔ ∃ name ∈ held m.holdings, name.id = id := by
  simp only [Registered, Multimap.mem_values ok.table, ok.agree]
  constructor
  · rintro ⟨key, c, inTable, same⟩
    exact ⟨c.name, ⟨key, c, inTable, rfl⟩, same⟩
  · rintro ⟨name, ⟨key, c, inTable, rfl⟩, same⟩
    exact ⟨key, c, inTable, same⟩

theorem listings_eq_zero {owner : String} {id : Nat}
    (absent : ∀ h ∈ m.holdings, h.owner.id = owner → ∀ name ∈ h.commands, name.id ≠ id) :
    m.listings owner id = 0 := by
  refine List.count_eq_zero_of_not_mem ?_
  intro listed
  obtain ⟨name, inOwned, same⟩ := List.mem_map.mp listed
  obtain ⟨h, hh, named, inCommands⟩ := ok.mem_ownedBy.mp inOwned
  exact absent h hh named name inCommands same

theorem ownerOf_iff {id : Nat} {owner : Owner} :
    m.ownerOf? id = some owner ↔
      ∃ h ∈ m.holdings, h.owner = owner ∧ ∃ name ∈ h.commands, name.id = id := by
  unfold ownerOf?
  cases found : m.holdings.find? fun h => h.commands.any fun c => c.id == id with
  | none =>
      simp only [Option.map_none, reduceCtorEq, false_iff]
      rintro ⟨h, hh, -, name, inCommands, same⟩
      have lacks := List.find?_eq_none.mp found h hh
      exact lacks (List.any_eq_true.mpr ⟨name, inCommands, by simp [same]⟩)
  | some g =>
      have inHoldings := List.mem_of_find?_eq_some found
      have holds : ∃ name ∈ g.commands, name.id = id := by
        simpa using List.find?_some found
      simp only [Option.map_some, Option.some.injEq]
      constructor
      · rintro rfl
        exact ⟨g, inHoldings, rfl, holds⟩
      · rintro ⟨h, hh, rfl, name, inCommands, same⟩
        obtain ⟨other, inOther, same'⟩ := holds
        rw [ok.holder_unique inHoldings hh inOther inCommands (same'.trans same.symm)]

theorem accounts : m.Accounts where
  listed := by
    intro id registered
    obtain ⟨name, inHeld, rfl⟩ := ok.registered_iff.mp registered
    obtain ⟨h, hh, inCommands⟩ := List.mem_flatMap.mp inHeld
    refine ⟨h.owner.id, ?_, ?_⟩
    · unfold listings
      rw [ok.ownedBy_eq hh]
      exact List.count_eq_one_of_mem (ok.numbers_apart.1 h hh) (List.mem_map_of_mem inCommands)
    · intro other differs
      refine ok.listings_eq_zero fun g hg named b inOther same => differs ?_
      rw [← named, ok.holder_unique hg hh inOther inCommands same]
  unlisted := by
    intro id unregistered owner
    refine ok.listings_eq_zero fun h hh _ name inCommands same => unregistered ?_
    exact ok.registered_iff.mpr ⟨name, List.mem_flatMap.mpr ⟨h, hh, inCommands⟩, same⟩
  known := by
    intro owner name listed
    obtain ⟨h, hh, -, inCommands⟩ := ok.mem_ownedBy.mp listed
    obtain ⟨k, c, inTable, same⟩ := (ok.agree name).mp (List.mem_flatMap.mpr ⟨h, hh, inCommands⟩)
    exact ⟨k, c, (Multimap.mem_values ok.table).mpr inTable, same⟩
  ownerOf := by
    intro id owner
    rw [ok.ownerOf_iff]
    simp only [Manager.owners, List.mem_map]
    constructor
    · rintro ⟨h, hh, rfl, name, inCommands, same⟩
      exact ⟨⟨h, hh, rfl⟩, name, ok.mem_ownedBy.mpr ⟨h, hh, rfl, inCommands⟩, same⟩
    · rintro ⟨⟨h, hh, rfl⟩, name, listed, same⟩
      rw [ok.ownedBy_eq hh] at listed
      exact ⟨h, hh, rfl, name, listed, same⟩
  owners := by
    intro id
    simp only [Manager.owners, List.mem_map]
    constructor
    · intro some
      obtain ⟨name, listed⟩ := List.exists_mem_of_ne_nil _ some
      obtain ⟨h, hh, named, -⟩ := ok.mem_ownedBy.mp listed
      exact ⟨h.owner, ⟨h, hh, rfl⟩, named⟩
    · rintro ⟨owner, ⟨h, hh, rfl⟩, rfl⟩
      rw [ok.ownedBy_eq hh]
      exact ok.filled h hh
  distinct := by
    rw [Manager.owners, List.map_map]
    exact List.pairwise_map.mpr ok.owners_apart
  filled := ok.filled
  refused := by
    intro owner callable aliases rewrite e failed
    refine ⟨registerWith_error failed, ?_⟩
    simp only [Manager.edit, failed]

end Consistent

/-- In every run the owners account for what is registered: each command that is under some alias is
held by one owner and once, no other command is held, and a registration that is refused for an
alias leaves the manager as it was. -/
theorem run_accounts (policy : Policy) (edits : List Edit) :
    ((Manager.empty policy).run edits).Accounts :=
  ((Consistent.empty policy).run edits).accounts

end CommandGrammar.Manager
