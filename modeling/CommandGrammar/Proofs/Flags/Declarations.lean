import CommandGrammar.Proofs.Flags.Placement

/-!
# Declared flags

Flags are declared one after the other. A declaration without names is left out; each other one gets
the next number, which its names lead to from then on, whatever they led to before. So a name leads to
the last declaration of it, and no number leads beyond the elements there are: reading, completing and
showing how flags are used come out the same whatever stands behind these.
-/

namespace CommandGrammar

/-! ## Declarations -/

/-- A name as it is looked up: a long one in small letters. -/
def FlagName.folded : FlagName → FlagName
  | short c => short c
  | long name => long (Text.lowercase name)

/-- The number of the declaration that a name leads to. -/
def FlagTable.number? (t : FlagTable) : FlagName → Option Nat
  | .short c => t.short? c
  | .long name => t.long? (Text.lowercase name)

/-- A declaration: the words that give its names, and an element for its value if it takes one. -/
structure FlagDeclaration where
  words : List String
  value : Option Element

namespace FlagDeclaration

def names (d : FlagDeclaration) : List FlagName :=
  d.words.flatMap FlagName.ofWord

/-- The element of a declaration with names: its own, or one that stores under its first name that
the flag was there. -/
def element? (d : FlagDeclaration) : Option Element :=
  d.names.head?.map fun first => d.value.getD (.leaf first.key .markTrue)

/-- Whether a flag is among the names, small and capital letters of a long one being the same. -/
def gives (d : FlagDeclaration) (n : FlagName) : Bool :=
  d.names.any fun m => m.folded == n.folded

/-- The last declaration of a name. -/
def last? (ds : List FlagDeclaration) (n : FlagName) : Option FlagDeclaration :=
  ds.reverse.find? (·.gives n)

/-- The flags of some declarations, in order. -/
def flags (ds : List FlagDeclaration) : Element.FlagDeclarations :=
  ds.foldl (fun f d => f.declare d.words d.value) {}

end FlagDeclaration

/-! ## Names in a table -/

namespace FlagTable

variable {t : FlagTable} {names : List FlagName} {count index : Nat}

theorem lookup_cons {K : Type} [DecidableEq K] (k l : K) (i : Nat) (rest : List (K × Nat)) :
    ((k, i) :: rest).lookup l = if k = l then some i else rest.lookup l := by
  by_cases same : l = k
  · rw [same, List.lookup_cons_self, if_pos rfl]
  · rw [List.lookup_cons, beq_eq_false_iff_ne.mpr same, if_neg (Ne.symm same)]

theorem number?_addName (t : FlagTable) (index : Nat) (m n : FlagName) :
    (t.addName index m).number? n = if m.folded = n.folded then some index else t.number? n := by
  cases m with
  | short c =>
      cases n with
      | short d =>
          simp only [addName, number?, short?, FlagName.folded, lookup_cons, FlagName.short.injEq]
      | long name => simp [addName, number?, long?, FlagName.folded]
  | long name =>
      cases n with
      | short d => simp [addName, number?, short?, FlagName.folded]
      | long other =>
          simp only [addName, number?, long?, FlagName.folded, lookup_cons, FlagName.long.injEq]

theorem number?_addNames (t : FlagTable) (index : Nat) (names : List FlagName) (n : FlagName) :
    (names.foldl (fun t m => t.addName index m) t).number? n =
      if names.any (fun m => m.folded == n.folded) then some index else t.number? n := by
  induction names generalizing t with
  | nil => rfl
  | cons m names ih =>
      rw [List.foldl_cons, ih, number?_addName, List.any_cons]
      by_cases here : m.folded = n.folded
      · simp [here]
      · simp [here]

theorem declared_addNames (t : FlagTable) (index : Nat) (names : List FlagName) :
    (names.foldl (fun t m => t.addName index m) t).declared = t.declared := by
  induction names generalizing t with
  | nil => rfl
  | cons m names ih =>
      rw [List.foldl_cons, ih]
      cases m <;> rfl

/-- A declaration with names gets the number of those before it. -/
theorem number?_declare (filled : names ≠ []) (n : FlagName) :
    (t.declare names).number? n =
      if names.any (fun m => m.folded == n.folded) then some t.declared.length else t.number? n := by
  obtain ⟨first, more, rfl⟩ := List.exists_cons_of_ne_nil filled
  have named := number?_addNames t t.declared.length (first :: more) n
  cases n with
  | short c => exact named
  | long name => exact named

theorem declared_declare (filled : names ≠ []) :
    (t.declare names).declared = t.declared ++ [names] := by
  obtain ⟨first, more, rfl⟩ := List.exists_cons_of_ne_nil filled
  have same := declared_addNames t t.declared.length (first :: more)
  simp only [declare, same]

/-- All numbers that are stored are below a bound. -/
structure Below (t : FlagTable) (count : Nat) : Prop where
  short : ∀ p ∈ t.short, p.2 < count
  long : ∀ p ∈ t.long, p.2 < count

theorem Below.addName (below : t.Below count) (within : index < count) (n : FlagName) :
    (t.addName index n).Below count := by
  cases n with
  | short c =>
      refine ⟨fun p there => ?_, below.long⟩
      rcases List.mem_cons.mp there with rfl | old
      · exact within
      · exact below.short p old
  | long name =>
      refine ⟨below.short, fun p there => ?_⟩
      rcases List.mem_cons.mp there with rfl | old
      · exact within
      · exact below.long p old

theorem Below.addNames (below : t.Below count) (within : index < count) (names : List FlagName) :
    (names.foldl (fun t m => t.addName index m) t).Below count := by
  induction names generalizing t with
  | nil => exact below
  | cons m names ih => exact ih (below.addName within m)

theorem Below.declare (below : t.Below t.declared.length) (filled : names ≠ []) :
    (t.declare names).Below (t.declare names).declared.length := by
  rw [declared_declare filled, List.length_append, List.length_singleton]
  obtain ⟨first, more, rfl⟩ := List.exists_cons_of_ne_nil filled
  have wider : t.Below (t.declared.length + 1) :=
    ⟨fun p there => Nat.lt_succ_of_lt (below.short p there),
      fun p there => Nat.lt_succ_of_lt (below.long p there)⟩
  have named := wider.addNames (Nat.lt_succ_self _) (first :: more)
  exact ⟨named.short, named.long⟩

theorem Below.number?_lt (below : t.Below count) {n : FlagName}
    (leads : t.number? n = some index) : index < count := by
  cases n with
  | short c =>
      obtain ⟨_, _, entries, -⟩ := List.lookup_eq_some_iff.mp leads
      exact below.short (c, index) (by rw [entries]; simp)
  | long name =>
      obtain ⟨_, _, entries, -⟩ := List.lookup_eq_some_iff.mp leads
      exact below.long (Text.lowercase name, index) (by rw [entries]; simp)

theorem element?_eq (t : FlagTable) (values : List Element) (n : FlagName) :
    t.element? values n = (t.number? n).bind fun index => values[index]? := by
  cases n <;> rfl

end FlagTable

/-! ## One declaration, and all of them -/

namespace FlagDeclaration

variable {f : Element.FlagDeclarations} {ds : List FlagDeclaration} {d : FlagDeclaration}

theorem declare_unnamed (unnamed : d.names = []) : f.declare d.words d.value = f := by
  unfold Element.FlagDeclarations.declare
  rw [show d.words.flatMap FlagName.ofWord = [] from unnamed]

theorem declare_named {first : FlagName} {more : List FlagName} (named : d.names = first :: more) :
    f.declare d.words d.value =
      { table := f.table.declare d.names
        values := f.values ++ [d.value.getD (.leaf first.key .markTrue)] } := by
  unfold Element.FlagDeclarations.declare
  rw [named, show d.words.flatMap FlagName.ofWord = first :: more from named]

theorem last?_append (ds : List FlagDeclaration) (d : FlagDeclaration) (n : FlagName) :
    last? (ds ++ [d]) n = if d.gives n then some d else last? ds n := by
  rw [last?, List.reverse_append, List.reverse_singleton, List.singleton_append, List.find?_cons]
  cases d.gives n <;> rfl

/-- What is known of flags behind some declarations. -/
structure Follows (f : Element.FlagDeclarations) (ds : List FlagDeclaration) : Prop where
  values : f.values = ds.filterMap element?
  declared : f.table.declared = (ds.map names).filter fun ns => !ns.isEmpty
  numbered : f.table.declared.length = f.values.length
  below : f.table.Below f.values.length
  last : ∀ n, f.table.element? f.values n = (last? ds n).bind element?

theorem follows_nil : Follows {} [] where
  values := rfl
  declared := rfl
  numbered := rfl
  below := ⟨nofun, nofun⟩
  last n := by cases n <;> rfl

theorem Follows.declare (before : Follows f ds) (d : FlagDeclaration) :
    Follows (f.declare d.words d.value) (ds ++ [d]) := by
  cases names : d.names with
  | nil =>
      have none : d.element? = none := by rw [element?, names]; rfl
      have silent : ∀ n, d.gives n = false := fun n => by rw [gives, names]; rfl
      rw [declare_unnamed names]
      refine ⟨?_, ?_, before.numbered, before.below, fun n => ?_⟩
      · rw [before.values, List.filterMap_append]
        simp [none]
      · rw [before.declared, List.map_append, List.filter_append]
        simp [names]
      · rw [before.last, last?_append, silent]
        rfl
  | cons first more =>
      have filled : d.names ≠ [] := by rw [names]; exact List.cons_ne_nil _ _
      have own : d.element? = some (d.value.getD (.leaf first.key .markTrue)) := by
        rw [element?, names]
        rfl
      rw [declare_named names]
      refine ⟨?_, ?_, ?_, ?_, fun n => ?_⟩
      · rw [before.values, List.filterMap_append]
        simp [own]
      · rw [FlagTable.declared_declare filled, before.declared, List.map_append, List.filter_append]
        simp [names]
      · simp only [FlagTable.declared_declare filled, List.length_append, before.numbered]
        rfl
      · have below : f.table.Below f.table.declared.length := by
          rw [before.numbered]
          exact before.below
        have more := below.declare filled
        rw [FlagTable.declared_declare filled, List.length_append, before.numbered] at more
        rw [List.length_append]
        exact more
      · rw [FlagTable.element?_eq, FlagTable.number?_declare filled, last?_append]
        cases given : d.gives n with
        | true =>
            rw [gives] at given
            rw [given, if_pos rfl, if_pos rfl, Option.bind_some, Option.bind_some, own,
              before.numbered, List.getElem?_append_right (Nat.le_refl _), Nat.sub_self]
            rfl
        | false =>
            rw [gives] at given
            rw [given, if_neg Bool.false_ne_true, if_neg Bool.false_ne_true, ← before.last,
              FlagTable.element?_eq]
            cases leads : f.table.number? n with
            | none => rfl
            | some index =>
                exact List.getElem?_append_left (before.below.number?_lt leads)

theorem follows (ds : List FlagDeclaration) : Follows (flags ds) ds := by
  have all : ∀ (f : Element.FlagDeclarations) (before : List FlagDeclaration), Follows f before →
      Follows (ds.foldl (fun f d => f.declare d.words d.value) f) (before ++ ds) := by
    induction ds with
    | nil =>
        intro f before known
        rwa [List.append_nil]
    | cons d ds ih =>
        intro f before known
        have step := ih _ _ (known.declare d)
        rwa [List.append_assoc, List.singleton_append] at step
  exact all {} [] follows_nil

end FlagDeclaration

/-! ## Elements in range -/

namespace FlagScanner

/-- Two scanners with one table have the same parser at every number that a name leads to and for
every declaration. -/
structure Alike (f g : FlagScanner) : Prop where
  table : g.table = f.table
  named : ∀ n index, f.table.number? n = some index → g.value index = f.value index
  declared : ∀ index < f.table.declared.length, g.value index = f.value index

variable {f g : FlagScanner} (alike : f.Alike g) (env : Env)

include alike

theorem Alike.readLong (flag : List Char) : g.readLong env flag = f.readLong env flag := by
  unfold FlagScanner.readLong
  rw [alike.table]
  cases splitInline flag with
  | mk name inline =>
      dsimp only
      cases known : f.table.long? (Text.lowercase name) with
      | none => rfl
      | some index => simp only [alike.named (.long name) index known]

theorem Alike.readShort (first : Bool) (letters : List Char) :
    g.readShort env first letters = f.readShort env first letters := by
  induction letters generalizing first with
  | nil => rfl
  | cons c letters ih =>
      unfold FlagScanner.readShort
      rw [alike.table]
      cases known : f.table.short? c with
      | none => simp only [ih]
      | some index => simp only [ih, alike.named (.short c) index known]

theorem Alike.readFlag (flag : List Char) : g.readFlag env flag = f.readFlag env flag := by
  unfold FlagScanner.readFlag
  split
  · exact alike.readLong env _
  · exact alike.readShort env true _

theorem Alike.scan (steps : Nat) : g.scan env steps = f.scan env steps := by
  induction steps with
  | zero => rfl
  | succ steps ih =>
      unfold FlagScanner.scan
      simp only [ih, alike.table, alike.readFlag env]

theorem Alike.read (body : Parser) : g.read body env = f.read body env := by
  unfold FlagScanner.read
  simp only [alike.scan env]

theorem Alike.completeLong (flag : List Char) (s : State) :
    g.completeLong env flag s = f.completeLong env flag s := by
  unfold FlagScanner.completeLong
  rw [alike.table]
  cases splitInline flag with
  | mk name inline =>
      dsimp only
      cases known : f.table.long? (Text.lowercase name) with
      | none => rfl
      | some index => simp only [alike.named (.long name) index known]

theorem Alike.completeShort (first : Bool) (letters : List Char) (lines : List String) (s : State) :
    g.completeShort env first letters lines s = f.completeShort env first letters lines s := by
  induction letters generalizing first lines s with
  | nil => rfl
  | cons c letters ih =>
      unfold FlagScanner.completeShort
      rw [alike.table]
      cases known : f.table.short? c with
      | none => simp only [ih]
      | some index => simp only [ih, alike.named (.short c) index known]

theorem Alike.completeFlag (flag : List Char) (s : State) :
    g.completeFlag env flag s = f.completeFlag env flag s := by
  unfold FlagScanner.completeFlag
  split
  · exact alike.completeLong env _ s
  · exact alike.completeShort env true _ [] s

theorem Alike.completeScan (steps : Nat) (lines : List String) (s : State) :
    g.completeScan env steps lines s = f.completeScan env steps lines s := by
  induction steps generalizing lines s with
  | zero => rfl
  | succ steps ih =>
      unfold FlagScanner.completeScan
      simp only [ih, alike.table, alike.completeFlag env]

theorem Alike.complete (body : Parser) (s : State) :
    g.complete body env s = f.complete body env s := by
  unfold FlagScanner.complete
  simp only [alike.completeScan env]

theorem Alike.usage (body : Parser) (source : Source) : g.usage body source = f.usage body source := by
  have flags : (g.table.declared.mapIdx fun index names => usageOf source names (g.value index)) =
      f.table.declared.mapIdx fun index names => usageOf source names (f.value index) := by
    rw [alike.table]
    refine List.ext_getElem ?_ fun index inG inF => ?_
    · simp
    · have within : index < f.table.declared.length := by simpa using inF
      simp only [List.getElem_mapIdx, alike.declared index within]
  unfold FlagScanner.usage
  rw [flags]

/-- Scanners that are alike make the same parser around the same arguments. -/
theorem Alike.flagged (body : Parser) : Parser.flagged g body = Parser.flagged f body := by
  unfold Parser.flagged
  congr 1
  · funext env
    exact alike.read env body
  · funext env s
    exact alike.complete env body s
  · funext source
    exact alike.usage body source

end FlagScanner

/-- Elements behind those of the declarations are never come to. -/
theorem FlagDeclaration.Follows.alike {f : Element.FlagDeclarations} {ds : List FlagDeclaration}
    (known : Follows f ds) (unknownShort unknownLong : UnknownFlag) (anchored : Bool)
    (extra : List Element) :
    FlagScanner.Alike ⟨{ f.table with unknownShort, unknownLong, anchored }, Element.parsers f.values⟩
      ⟨{ f.table with unknownShort, unknownLong, anchored }, Element.parsers (f.values ++ extra)⟩ := by
  have same : ∀ index < f.values.length,
      (Element.parsers (f.values ++ extra)).getD index (.sequence []) =
        (Element.parsers f.values).getD index (.sequence []) := by
    intro index within
    rw [Element.parsers_eq_map, Element.parsers_eq_map, List.map_append, List.getD_eq_getElem?_getD,
      List.getD_eq_getElem?_getD, List.getElem?_append_left (by rwa [List.length_map])]
  refine ⟨rfl, fun n index leads => ?_, fun index within => ?_⟩
  · have leads' : f.table.number? n = some index := by
      rw [← leads]
      cases n <;> rfl
    exact same index (known.below.number?_lt leads')
  · exact same index (known.numbered ▸ within)

theorem FlagDeclaration.exists_names_of_last? {ds : List FlagDeclaration} {n : FlagName}
    {d : FlagDeclaration} (last : last? ds n = some d) : ∃ first more, d.names = first :: more := by
  unfold last? at last
  have given := List.find?_some last
  rw [gives] at given
  obtain ⟨m, there, -⟩ := List.any_eq_true.mp given
  exact List.exists_cons_of_ne_nil (List.ne_nil_of_mem there)

/-! ## Any declarations -/

/-- Whatever flags are declared, in any order and with any words: each number that is stored for a
letter, a long name or a declaration is that of an element, which are those of the declarations with
names, in order; what stands behind the elements is never come to when flags are read, completed or
shown. A name leads to the element of the last declaration of it, if there is one: to the element it
was given, or to one that stores that the flag was there, under the first name of that declaration.
-/
theorem declared_names (ds : List FlagDeclaration) :
    let f := FlagDeclaration.flags ds
    (∀ p ∈ f.table.short, p.2 < f.values.length) ∧
    (∀ p ∈ f.table.long, p.2 < f.values.length) ∧
    f.table.declared.length = f.values.length ∧
    f.table.declared = ((ds.map FlagDeclaration.names).filter fun ns => !ns.isEmpty) ∧
    f.values = ds.filterMap FlagDeclaration.element? ∧
    (∀ unknownShort unknownLong anchored body extra,
      (Element.flags { f.table with unknownShort, unknownLong, anchored } (f.values ++ extra)
          body).parser =
        (Element.flags { f.table with unknownShort, unknownLong, anchored } f.values body).parser) ∧
    (∀ n, f.table.element? f.values n =
      (FlagDeclaration.last? ds n).bind FlagDeclaration.element?) ∧
    ∀ n d, FlagDeclaration.last? ds n = some d → ∃ first more, d.names = first :: more ∧
      (∀ e, d.value = some e → f.table.element? f.values n = some e) ∧
      (d.value = none → ∃ e, f.table.element? f.values n = some e ∧ ∀ env s,
        e.parser.parse env s = .ok () { s with context := s.context.put first.key (.bool true) }) := by
  intro f
  have known := FlagDeclaration.follows ds
  refine ⟨known.below.short, known.below.long, known.numbered, known.declared, known.values, ?_,
    known.last, ?_⟩
  · intro unknownShort unknownLong anchored body extra
    exact (known.alike unknownShort unknownLong anchored extra).flagged body.parser
  · intro n d last
    obtain ⟨first, more, names⟩ := FlagDeclaration.exists_names_of_last? last
    have leads : f.table.element? f.values n = some (d.value.getD (.leaf first.key .markTrue)) := by
      rw [known.last, last, Option.bind_some, FlagDeclaration.element?, names]
      rfl
    refine ⟨first, more, names, fun e given => ?_, fun switch => ?_⟩
    · rw [leads, given]
      rfl
    · rw [switch] at leads
      exact ⟨_, leads, fun env s => rfl⟩

/-- A letter declared twice, the second time among others, with declarations without names. -/
theorem declared_names_of_repeated :
    let ds : List FlagDeclaration :=
      [⟨["h", "-help"], none⟩, ⟨["-HELP", "n"], some (.leaf "n" .integer)⟩, ⟨[], none⟩,
        ⟨["", "xh"], none⟩, ⟨[""], some (.leaf "n" .integer)⟩]
    let f := FlagDeclaration.flags ds
    FlagDeclaration.last? ds (.short 'h') = some ⟨["", "xh"], none⟩ ∧
    FlagDeclaration.last? ds (.long "Help") = some ⟨["-HELP", "n"], some (.leaf "n" .integer)⟩ ∧
    f.table.element? f.values (.long "Help") = some (.leaf "n" .integer) ∧
    ∃ e, f.table.element? f.values (.short 'h') = some e ∧ ∀ env s,
      e.parser.parse env s = .ok () { s with context := s.context.put "x" (.bool true) } := by
  intro ds f
  have letter : FlagDeclaration.last? ds (.short 'h') = some ⟨["", "xh"], none⟩ := by rfl
  have word : FlagDeclaration.last? ds (.long "Help") =
      some ⟨["-HELP", "n"], some (.leaf "n" .integer)⟩ := by rfl
  have resolved := (declared_names ds).2.2.2.2.2.2.2
  obtain ⟨_, _, _, own, -⟩ := resolved _ _ word
  obtain ⟨first, more, names, -, switch⟩ := resolved _ _ letter
  cases names
  exact ⟨letter, word, own _ rfl, switch rfl⟩

end CommandGrammar
