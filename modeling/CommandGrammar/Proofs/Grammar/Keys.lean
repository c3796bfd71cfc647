import CommandGrammar.Proofs.Grammar.Guarded
import CommandGrammar.Proofs.Multimap

/-!
# Keys that are left alone

Values under a key stay as they are while grammars read that do not store under it. Unknown flags
store under names that are written in the line, so this depends on the words that are left in it.
-/

namespace CommandGrammar

open Reading

/-! ## Words of a line -/

/-- A word that may be read from a cursor: one that is left, or the value written in a long flag. -/
inductive Cursor.Spoken (c : Cursor) : String → Prop
  | left {w} (there : w ∈ Cursor.remaining c) : Spoken c w
  | inline {w flag name v} (spoken : Spoken c w) (letters : String.toList w = '-' :: '-' :: flag)
      (cut : FlagScanner.splitInline flag = (name, some v)) : Spoken c v

/-- The value that is written in a word of a kind, as in a long flag, is a word of the kind. -/
def FlagScanner.Inlines (word : String → Prop) : Prop :=
  ∀ w flag name v, word w → String.toList w = '-' :: '-' :: flag →
    splitInline flag = (name, some v) → word v

theorem Cursor.inlines_spoken (c : Cursor) : FlagScanner.Inlines c.Spoken :=
  fun _ _ _ _ => .inline

namespace Cursor

variable {low : Nat} {c d : Cursor} {v w : String}

/-- The words from a place on are of a kind, and the cursor is not before that place. -/
structure Utters (low : Nat) (word : String → Prop) (c : Cursor) : Prop where
  place : low ≤ c.consumed
  within : low ≤ c.tokens.length
  words : ∀ t ∈ c.tokens.drop low, word t.value

namespace Utters

variable {word : String → Prop}

theorem start (c : Cursor) : c.Utters (min c.consumed c.tokens.length) c.Spoken := by
  refine ⟨Nat.min_le_left _ _, Nat.min_le_right _ _, fun t there => .left ?_⟩
  rw [remaining, values, ← List.map_drop]
  refine List.mem_map_of_mem ?_
  rcases Nat.le_total c.consumed c.tokens.length with within | beyond
  · rw [Nat.min_eq_left within] at there
    exact there
  · rw [Nat.min_eq_right beyond, List.drop_length] at there
    cases there

theorem moved (h : c.Utters low word) {n : Nat} (place : low ≤ n) :
    { c with consumed := n }.Utters low word :=
  ⟨place, h.within, h.words⟩

theorem next (h : c.Utters low word) (read : c.next? = some (v, d)) :
    d.Utters low word ∧ word v := by
  have place := h.place
  obtain ⟨u, peeked, same⟩ := Option.map_eq_some_iff.mp read
  obtain rfl := (Prod.mk.inj same).1
  obtain ⟨t, there, rfl⟩ := Option.map_eq_some_iff.mp peeked
  have behind : (c.tokens.drop low)[c.consumed - low]? = some t := by
    rw [List.getElem?_drop, Nat.add_sub_cancel' place, there]
  obtain ⟨rfl, -⟩ := of_next? read
  exact ⟨h.moved (Nat.le_succ_of_le place), h.words t (List.mem_of_getElem? behind)⟩

theorem toEnd (h : c.Utters low word) : c.toEnd.Utters low word :=
  h.moved (Nat.le_trans h.place (Nat.le_max_left _ _))

theorem insert (h : c.Utters low word) (spoken : word v) : (c.insert v).Utters low word := by
  have place := h.place
  have within := h.within
  refine ⟨place, ?_, fun t there => ?_⟩
  · simp only [Cursor.insert, List.length_append, List.length_take, List.length_cons]
    omega
  · have taken : low ≤ (c.tokens.take c.consumed).length := by
      rw [List.length_take]
      omega
    simp only [Cursor.insert] at there
    rw [List.drop_append_of_le_length taken, List.drop_take] at there
    rcases List.mem_append.mp there with before | behind
    · exact h.words t (List.mem_of_mem_take before)
    · rcases List.mem_cons.mp behind with rfl | behind
      · exact spoken
      · refine h.words t ?_
        rw [← Nat.add_sub_cancel' place, ← List.drop_drop] at behind
        exact List.mem_of_mem_drop behind

theorem rewind (h : c.Utters low word) (h' : d.Utters low word) :
    (d.rewind c.mark).Utters low word :=
  h'.moved (Nat.le_min.mpr ⟨h.place, h'.within⟩)

/-- What was read from behind the place is taken out. -/
theorem remove (h : c.Utters low word) {start e : Cursor} (read : c.next? = some (v, start))
    (h' : e.Utters low word) : (e.remove start.mark e.mark).Utters low word := by
  obtain ⟨rfl, -⟩ := of_next? read
  have place := h.place
  have place' := h'.place
  have within' := h'.within
  unfold Cursor.remove
  split
  · exact h'
  · simp only [mark, Nat.add_sub_cancel]
    split
    · rename_i passed
      have taken : low ≤ (e.tokens.take c.consumed).length := by
        rw [List.length_take]
        omega
      refine ⟨?_, ?_, fun t there => ?_⟩
      · simp only [List.length_append]
        split
        · omega
        · split
          · omega
          · omega
      · rw [List.length_append]
        omega
      · rw [List.drop_append_of_le_length taken, List.drop_take] at there
        rcases List.mem_append.mp there with before | behind
        · exact h'.words t (List.mem_of_mem_take before)
        · refine h'.words t ?_
          rw [← Nat.add_sub_cancel' place', ← List.drop_drop] at behind
          exact List.mem_of_mem_drop behind
    · refine h'.moved ?_
      split
      · omega
      · split
        · omega
        · omega

end Utters

end Cursor

/-! ## Values under keys -/

theorem Context.all_put {c : Context} (ok : c.values.WellFormed) (key k : String) (v : Value) :
    (c.put key v).all k = if k = key then c.all k ++ [v] else c.all k :=
  Multimap.values_insert ok key k v

theorem Context.one?_eq (c : Context) (key : String) :
    c.one? key = match c.all key with
      | [v] => some v
      | _ => none := by
  unfold one? all Multimap.values
  match c.values.get? key with
  | none | some [] | some [_] | some (_ :: _ :: _) => rfl

/-- The values under some keys are as given, values are in order, and words of a kind are left. -/
structure State.Untouched (low : Nat) (word held : String → Prop) (values : String → List Value)
    (s : State) : Prop where
  cursor : s.cursor.Utters low word
  ordered : s.context.values.WellFormed
  kept : ∀ key, held key → s.context.all key = values key

theorem State.Untouched.store {low : Nat} {word held : String → Prop} {values : String → List Value}
    {s : State} (h : s.Untouched low word held values) {key : String} (free : ¬ held key) (v : Value) :
    { s with context := s.context.put key v }.Untouched low word held values := by
  refine ⟨h.cursor, h.ordered.insert _ _, fun k there => ?_⟩
  have other : k ≠ key := by
    rintro rfl
    exact free there
  rw [Context.all_put h.ordered, if_neg other]
  exact h.kept k there

/-- An element and its parts store under none of the keys that are held, where words of a kind are
read. -/
def Element.Spares (word held : String → Prop) (e : Element) : Prop :=
  e.Every fun d => ∀ key, d.StoresUnder word key → ¬ held key

/-- Nothing is stored under the keys that are held. -/
def Guard.keys (low : Nat) {word : String → Prop} (inline : FlagScanner.Inlines word)
    (held : String → Prop) (values : String → List Value) : Guard where
  Safe := State.Untouched low word held values
  Word := word
  Key key := ¬ held key
  Tells _ := True
  Edits := True
  next safe read := ⟨⟨(safe.cursor.next read).1, safe.ordered, safe.kept⟩, (safe.cursor.next read).2⟩
  toEnd safe := ⟨safe.cursor.toEnd, safe.ordered, safe.kept⟩
  insert _ safe spoken := ⟨safe.cursor.insert spoken, safe.ordered, safe.kept⟩
  rewind safe safe' := ⟨safe.cursor.rewind safe'.cursor, safe'.ordered, safe'.kept⟩
  remove _ safe read safe' := ⟨safe.cursor.remove read safe'.cursor, safe'.ordered, safe'.kept⟩
  store safe free := safe.store free _
  error _ _ := trivial
  withUsage _ _ := trivial
  inline := inline _ _ _ _

end CommandGrammar
