import CommandGrammar.Proofs.Dispatcher.Log
import Mathlib.Data.List.Induction

/-!
# Commands listed twice

A command comes under a key once for each of its aliases that is the key in small letters. It is
listed there twice exactly if it was registered by two such aliases, and a policy is then asked to
pick although there may be nothing to pick from.
-/

namespace CommandGrammar

open Dispatcher

variable {C : Type}

/-- How often a registration puts its command under a key. -/
def Dispatcher.Edit.puts (e : Edit C) (key : String) : Nat :=
  match e with
  | .register _ aliases rewrite => (rewrite aliases).countP fun typed => Text.lowercase typed == key
  | _ => 0

namespace Log

variable {l : Log C} {key : String} {id : Nat}

/-- How often the command with a number stands under a key. -/
def copies (l : Log C) (key : String) (id : Nat) : Nat :=
  (l.under key).countP fun c => c.name.id == id

theorem nodup_iff_copies : ((l.under key).map (·.name.id)).Nodup ↔ ∀ id, l.copies key id < 2 := by
  simp only [List.nodup_iff_count, List.count, List.countP_map, Nat.lt_succ_iff]
  rfl

theorem copies_next (below : ∀ e ∈ l.entries, e.2.name.id < l.count) : l.copies key l.count = 0 := by
  rw [copies, List.countP_eq_zero]
  intro c there
  have lt := below _ (mem_under.mp there)
  simpa using Nat.ne_of_lt lt

theorem copies_without (l : Log C) (e : Edit C) (key : String) (id : Nat) :
    (l.without e).copies key id = if e.names key id then 0 else l.copies key id := by
  unfold copies
  rw [under_without, List.countP_filter]
  split
  · rename_i named
    rw [List.countP_eq_zero]
    intro c _ both
    simp only [Bool.and_eq_true, beq_iff_eq, Bool.not_eq_true'] at both
    simp [both.1, named] at both
  · rename_i spared
    refine List.countP_congr fun c _ => ?_
    simp only [Bool.and_eq_true, beq_iff_eq, Bool.not_eq_true', and_iff_left_iff_imp]
    rintro rfl
    simpa using spared

/-- A change takes away all copies that it names, and puts in those of the command that comes. -/
theorem copies_edit (l : Log C) (e : Edit C) (key : String) (id : Nat) :
    (l.edit e).2.copies key id = if e.names key id then 0 else
      l.copies key id + if id = l.count then e.puts key else 0 := by
  cases e with
  | register callable aliases rewrite =>
      simp only [Edit.names, Edit.puts, Bool.false_eq_true, if_false, edit]
      cases rewrite aliases with
      | nil => simp
      | cons primary others =>
          simp only [copies, under, List.filter_append, List.map_append, List.countP_append]
          congr 1
          rw [List.filter_map, List.map_map, List.countP_map, List.countP_filter]
          split
          · rename_i number
            refine List.countP_congr fun typed _ => ?_
            simp [number]
          · rename_i other
            rw [List.countP_eq_zero]
            intro typed _
            simp [Ne.symm other]
  | remove _ => exact (l.copies_without _ key id).trans (by simp [Edit.puts])
  | removeAll _ => exact (l.copies_without _ key id).trans (by simp [Edit.puts])
  | removeId _ => exact (l.copies_without _ key id).trans (by simp [Edit.puts])
  | removeIds _ => exact (l.copies_without _ key id).trans (by simp [Edit.puts])

theorem count_edit (l : Log C) (e : Edit C) : l.count ≤ (l.edit e).2.count := by
  cases e with
  | register callable aliases rewrite =>
      simp only [edit]
      split
      · exact Nat.le_refl _
      · exact Nat.le_succ _
  | _ => exact Nat.le_refl _

theorem run_append (l : Log C) (former later : List (Edit C)) :
    (l.run (former ++ later)).2 = ((l.run former).2.run later).2 := by
  induction former generalizing l with
  | nil => rfl
  | cons e rest ih => exact ih (l.edit e).2

/-- What stands under a key twice stays there twice as long as no removal names it. -/
theorem copies_kept {edits : List (Edit C)} (old : id < l.count) (twice : 2 ≤ l.copies key id)
    (spared : ∀ e ∈ edits, e.names key id = false) : 2 ≤ (l.run edits).2.copies key id := by
  induction edits generalizing l with
  | nil => exact twice
  | cons e rest ih =>
      obtain ⟨here, later⟩ := List.forall_mem_cons.mp spared
      have still : 2 ≤ (l.edit e).2.copies key id := by
        rw [copies_edit, here, if_neg Bool.false_ne_true]
        exact Nat.le_add_right_of_le twice
      exact ih (Nat.lt_of_lt_of_le old (l.count_edit e)) still later

/-- Whatever puts in copies is a registration, and counted as one. -/
theorem came {e : Edit C} (l : Log C) (id : Nat) (put : 0 < e.puts key) :
    e.names key id = false ∧ (l.edit e).2.count = l.count + 1 := by
  cases e with
  | register callable aliases rewrite =>
      refine ⟨rfl, ?_⟩
      simp only [edit]
      split
      · rename_i none
        simp [Edit.puts, none] at put
      · rfl
  | _ => cases put

/-- A number is under a key twice exactly if its command came by two aliases that are the key, and
no removal named it since. -/
theorem twice_iff {edits : List (Edit C)} :
    2 ≤ ((Log.empty : Log C).run edits).2.copies key id ↔
      ∃ former e later, edits = former ++ e :: later ∧ id = ((Log.empty : Log C).run former).2.count ∧
        2 ≤ e.puts key ∧ ∀ x ∈ later, x.names key id = false := by
  have below (former : List (Edit C)) := ((Backs.empty Policy.first).run former).2.below
  constructor
  · intro twice
    -- Induction on the run from its end: the last change brought the copies, or left them.
    induction edits using List.reverseRec with
    | nil => simp [run, copies, under, Log.empty] at twice
    | append_singleton edits e ih =>
        rw [run_append] at twice
        simp only [run, copies_edit] at twice
        split at twice
        · simp at twice
        · rename_i spared
          split at twice
          · rename_i number
            rw [number, copies_next (below edits), Nat.zero_add] at twice
            exact ⟨edits, e, [], rfl, number, twice, by simp⟩
          · obtain ⟨former, reg, later, rfl, number, put, kept⟩ := ih twice
            refine ⟨former, reg, later ++ [e], by simp, number, put, fun x hx => ?_⟩
            rcases List.mem_append.mp hx with before | last
            · exact kept x before
            · rw [List.mem_singleton.mp last]
              simpa using spared
  · rintro ⟨former, e, later, rfl, rfl, put, kept⟩
    let l := ((Log.empty : Log C).run former).2
    obtain ⟨spared, counted⟩ := came l l.count (Nat.lt_of_lt_of_le Nat.zero_lt_two put)
    have twice : 2 ≤ (l.edit e).2.copies key l.count := by
      rw [copies_edit, spared, if_neg Bool.false_ne_true, if_pos rfl]
      exact Nat.le_add_left_of_le put
    have old : l.count < (l.edit e).2.count := Nat.lt_of_lt_of_eq (Nat.lt_succ_self _) counted.symm
    have after := copies_kept old twice kept
    rw [run_append]
    exact after

end Log

namespace Dispatcher

/-- In a run a command came by two aliases that are a key in small letters, and no removal named it
under the key since. -/
def Doubled (policy : Policy) (edits : List (Edit C)) (key : String) : Prop :=
  ∃ former callable aliases rewrite later name,
    edits = former ++ .register callable aliases rewrite :: later ∧
    (((Dispatcher.empty policy).run former).2.registerWith callable aliases rewrite).1 = some name ∧
    2 ≤ (rewrite aliases).countP (fun typed => Text.lowercase typed == key) ∧
    ∀ e ∈ later, e.names key name.id = false

theorem doubled_iff {policy : Policy} {edits : List (Edit C)} {key : String} :
    Doubled policy edits key ↔ ∃ id, 2 ≤ ((Log.empty : Log C).run edits).2.copies key id := by
  have next (former : List (Edit C)) := ((Log.Backs.empty policy).run former).2.next
  simp only [Log.twice_iff]
  constructor
  · rintro ⟨former, callable, aliases, rewrite, later, name, rfl, added, put, kept⟩
    have number := (registerWith_some (Prod.ext added rfl)).1
    exact ⟨name.id, former, _, later, rfl, number.trans (next former), put, kept⟩
  · rintro ⟨id, former, e, later, rfl, number, put, kept⟩
    cases e with
    | register callable aliases rewrite =>
        cases there : rewrite aliases with
        | nil => simp [Edit.puts, there] at put
        | cons primary others =>
            let d := ((Dispatcher.empty policy : Dispatcher C).run former).2
            refine ⟨former, callable, aliases, rewrite, later,
              ⟨d.nextId, primary, Names.ofList (primary :: others)⟩, rfl, ?_, put, fun x hx => ?_⟩
            · simp only [registerWith, there, d]
            · rw [← number.trans (next former).symm]
              exact kept x hx
    | _ => cases put

/-- A command alone under an alias is found, and nothing else is by a policy that never picks. -/
theorem get?_alone {d : Dispatcher C} {source : Option Source} {key : String} {c : Mapping C}
    (alone : d.all key = [c]) : d.get? source key = some c := by
  rw [get?, alone]

theorem alone_of_never {d : Dispatcher C} {source : Option Source} {key : String} {c : Mapping C}
    (strict : d.policy = Policy.never) (found : d.get? source key = some c) : d.all key = [c] := by
  unfold get? at found
  split at found
  · cases found
  · rename_i alone
    rw [alone, Option.some.inj found]
  · simp [strict, Policy.never] at found

/-- Under an alias a command is listed twice exactly if it came by two aliases that are the same in
small letters. What is found under the alias whatever the policy is a command that is the only one
there, unless it came so. -/
theorem listedTwice_iff (policy : Policy) (edits : List (Edit C)) (key : String) :
    (¬((((Dispatcher.empty policy).run edits).2.all key).map (·.name.id)).Nodup ↔
      Doubled policy edits (Text.lowercase key)) ∧
    ∀ c, (∀ choose source, ((Dispatcher.empty choose).run edits).2.get? source key = some c) ↔
      (∀ b, b ∈ ((Dispatcher.empty policy).run edits).2.all key ↔ b = c) ∧
        ¬Doubled policy edits (Text.lowercase key) := by
  let ms := ((Log.empty : Log C).run edits).2.under (Text.lowercase key)
  have listed (choose : Policy) : ((Dispatcher.empty choose).run edits).2.all key = ms :=
    ((Log.Backs.empty choose).run edits).2.reads.all key
  have once : (ms.map (·.name.id)).Nodup ↔ ¬Doubled policy edits (Text.lowercase key) := by
    rw [Log.nodup_iff_copies, doubled_iff]
    simp only [not_exists, Nat.not_le]
  rw [listed]
  refine ⟨by rw [once, not_not], fun c => ?_⟩
  rw [← once]
  constructor
  · intro found
    have alone := alone_of_never (run_policy _ edits) (found Policy.never none)
    rw [listed] at alone
    simp [alone]
  · rintro ⟨only, nodup⟩ choose source
    refine get?_alone ((listed choose).trans ?_)
    match ms, only, nodup with
    | [], only, _ => exact absurd ((only c).mpr rfl) List.not_mem_nil
    | [b], only, _ => rw [(only b).mp (.head _)]
    | a :: b :: _, only, nodup =>
        rw [(only a).mp (.head _), (only b).mp (.tail _ (.head _))] at nodup
        simp at nodup

/-- Two spellings of one name make a command its own rival, whom a policy may not want to pick. -/
theorem listedTwice_of_spelling :
    let register : Edit Unit := .register () ["Foo", "foo"] id
    let d := ((Dispatcher.empty Policy.never).run [register]).2
    (d.all "foo").map (·.name.id) = [0, 0] ∧ (d.get? none "foo").isNone ∧
      d.commands.map (·.name.primary) = ["Foo"] := by
  decide +kernel

end Dispatcher

end CommandGrammar
