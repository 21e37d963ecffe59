/-
  File:      QuakeProgs/Proofs/Image/Lookups.lean
  Subject:   WHAT THE INDICES OF A PROGRAM FIND, said by going through its tables.

  A program looks names and offsets up in five indices, each made by one pass over a table. The first entry with
  a key stays; what a table may not be asked for is passed over: function zero, definitions without a name, and
  places of type void.

  * `getElem?_firstIndex` -- an index finds the first entry with the key;
  * `Program.firstNamed?`, `Program.firstPlaced?` -- the first definition with a name, and at an offset;
  * `Program.Named`, `Program.EntryUpTo` -- the functions that may be found, by name and by statement;
  * `Program.Earliest` -- of equal entries, the search for a statement keeps the one it has seen first;
  * `Image.lookups_scan` -- every look-up is a scan of its table, and what it finds can be read;
  * `Image.lookups_scan_repeated` -- a program in which every key occurs twice.
-/
import Mathlib.Order.Bounds.Basic
import QuakeProgs.Proofs.Diagnostics.Listings
import QuakeProgs.Proofs.Store.Allocation
import QuakeProgs.Proofs.Strings.Regions

namespace QuakeProgs

/-! ## 1. Indices. -/

section Index

variable {α κ : Type} [BEq κ] [LawfulBEq κ]

/-- **An index finds the first entry with the key.** -/
theorem getElem?_firstIndex [Hashable κ] [LawfulHashable κ] (keys : List (κ × Nat)) (k : κ) :
    (firstIndex keys)[k]? = keys.lookup k := by
  rw [firstIndex, StringTable.getElem?_foldl_insertIfNew, Std.HashMap.getElem?_empty, Option.none_or]

/-- Among the entries of a table, some of them passed over, the first with the key is the first that passes the
    test. -/
theorem lookup_zipIdx [DecidableEq κ] (l : List α) (n : Nat) (skips : α → Prop) [DecidablePred skips] (key : α → κ)
    (k : κ) :
    ((l.zipIdx n).filterMap fun (a, i) => if skips a then none else some (key a, i)).lookup k =
      (l.findIdx? fun a => ¬ skips a ∧ key a = k).map (· + n) := by
  induction l generalizing n with
  | nil => rfl
  | cons a l ih =>
    have later : (l.findIdx? fun a => ¬ skips a ∧ key a = k).map (· + (n + 1)) =
        ((l.findIdx? fun a => ¬ skips a ∧ key a = k).map (· + 1)).map (· + n) := by
      rw [Option.map_map]
      congr 1
      funext i
      exact (Nat.succ_add_eq_add_succ i n).symm
    rw [List.zipIdx_cons, List.findIdx?_cons]
    by_cases skipped : skips a
    · rw [List.filterMap_cons_none (by simp [skipped]), ih, later, if_neg (by simp [skipped])]
    · rw [List.filterMap_cons_some (b := (key a, n)) (by simp [skipped])]
      by_cases same : key a = k
      · rw [if_pos (by simp [skipped, same]), ← same, List.lookup_cons_self, Option.map_some, Nat.zero_add]
      · have other : (k == key a) = false := beq_false_of_ne (Ne.symm same)
        rw [List.lookup_cons, other, if_neg (by simp [same]), ← later, ← ih]

/-- Where the entries are numbered upwards, the first with a key has the least number. -/
theorem lookup_eq_some_iff_isLeast {l : List (κ × Nat)} (upwards : l.Pairwise fun p q => p.2 < q.2)
    {k : κ} {i : Nat} :
    l.lookup k = some i ↔ IsLeast {j | (k, j) ∈ l} i := by
  induction l with
  | nil => exact ⟨nofun, fun least => absurd least.1 List.not_mem_nil⟩
  | cons p l ih =>
    obtain ⟨key, n⟩ := p
    obtain ⟨first, rest⟩ := List.pairwise_cons.mp upwards
    rw [List.lookup_cons]
    by_cases same : k = key
    · subst same
      have least : IsLeast {j | (k, j) ∈ (k, n) :: l} n := by
        refine ⟨List.mem_cons_self, fun j isIn => ?_⟩
        rcases List.mem_cons.mp isIn with same | later
        · exact Nat.le_of_eq (Prod.mk.inj same).2.symm
        · exact Nat.le_of_lt (first _ later)
      rw [beq_self_eq_true, least.isLeast_iff_eq]
      exact Option.some_inj
    · have others : {j | (k, j) ∈ (key, n) :: l} = {j | (k, j) ∈ l} := by
        ext j
        simp [same]
      rw [beq_false_of_ne same, others]
      exact ih rest

end Index

/-! ## 2. Definitions. -/

namespace Program

/-- The first definition with a name, found by going through the table. An empty name names nothing. -/
def firstNamed? (defs : Array Def) (name : String) : Option Def :=
  defs.toList.find? fun d => d.name ≠ "" ∧ d.name = name

/-- The first definition at an offset, found by going through the table. One of type void marks no place. -/
def firstPlaced? (defs : Array Def) (ofs : Nat) : Option Def :=
  defs.toList.find? fun d => d.type ≠ .void ∧ d.ofs = ofs

/-- An index by name finds what a scan of the table does. -/
theorem namesOf_bind (defs : Array Def) (name : String) :
    (namesOf defs)[name]?.bind (defs[·]?) = firstNamed? defs name := by
  rw [namesOf, getElem?_firstIndex, lookup_zipIdx _ 0 (fun d : Def => d.name = ""), firstNamed?,
    List.find?_eq_bind_findIdx?_getElem?]
  simp

/-- So does an index by place. -/
theorem placesOf_bind (defs : Array Def) (ofs : Nat) :
    (placesOf defs)[ofs]?.bind (defs[·]?) = firstPlaced? defs ofs := by
  rw [placesOf, getElem?_firstIndex, lookup_zipIdx _ 0 (fun d : Def => d.type = .void), firstPlaced?,
    List.find?_eq_bind_findIdx?_getElem?]
  simp

/-- What was found by a scan is in the table. -/
theorem mem_of_find? {defs : Array Def} {test : Def → Bool} {d : Def} (found : defs.toList.find? test = some d) :
    d ∈ defs :=
  Array.mem_def.mpr (List.mem_of_find?_eq_some found)

variable {p : Program}

theorem Indexed.findGlobal? (h : p.Indexed) (name : String) : p.findGlobal? name = firstNamed? p.globalDefs name := by
  rw [Program.findGlobal?, h.globalNames, namesOf_bind]

theorem Indexed.findField? (h : p.Indexed) (name : String) : p.findField? name = firstNamed? p.fieldDefs name := by
  rw [Program.findField?, h.fieldNames, namesOf_bind]

theorem Indexed.globalAt? (h : p.Indexed) (ofs : Nat) : p.globalAt? ofs = firstPlaced? p.globalDefs ofs := by
  rw [Program.globalAt?, h.globalPlaces, placesOf_bind]

theorem Indexed.fieldAt? (h : p.Indexed) (ofs : Nat) : p.fieldAt? ofs = firstPlaced? p.fieldDefs ofs := by
  rw [Program.fieldAt?, h.fieldPlaces, placesOf_bind]

/-! ## 3. Functions by name. -/

/-- Function number `g`, not number zero, has the name. -/
def Named (p : Program) (name : String) (g : Nat) : Prop := 0 < g ∧ ∃ f, p.functions[g]? = some f ∧ f.name = name

/-- The functions that are searched are numbered upwards. -/
theorem pairwise_searched (p : Program) :
    (p.functions.toList.zipIdx.drop 1).Pairwise fun c d => c.2 < d.2 := by
  refine List.Pairwise.drop ?_
  rw [← List.pairwise_map (f := Prod.snd) (R := (· < ·)), List.zipIdx_map_snd]
  exact List.pairwise_lt_range'

theorem Named.lt {name : String} {g : Nat} (h : p.Named name g) : g < p.functions.size := by
  obtain ⟨-, f, found, -⟩ := h
  exact (Array.getElem?_eq_some_iff.mp found).1

theorem StartsAt.lt {g start : Nat} (h : p.StartsAt g start) : g < p.functions.size := by
  obtain ⟨f, found, -⟩ := h
  exact (Array.getElem?_eq_some_iff.mp found).1

/-- The index of functions finds the lowest number with the name. -/
theorem functionNamesOf_eq_some_iff {name : String} {g : Nat} :
    (functionNamesOf p.functions)[name]? = some g ↔ IsLeast {g | p.Named name g} g := by
  rw [functionNamesOf, getElem?_firstIndex, lookup_eq_some_iff_isLeast ?upwards]
  case upwards => exact List.pairwise_map.mpr p.pairwise_searched
  refine iff_of_eq (congrArg (IsLeast · g) (Set.ext fun g => ?_))
  simp only [Set.mem_ofPred_eq, List.mem_map, Prod.mk.injEq, Prod.exists]
  constructor
  · rintro ⟨f, i, searched, rfl, rfl⟩
    obtain ⟨pos, found⟩ := mem_searched.mp searched
    exact ⟨pos, f, found, rfl⟩
  · rintro ⟨pos, f, found, rfl⟩
    exact ⟨f, g, mem_searched.mpr ⟨pos, found⟩, rfl, rfl⟩

/-- A number below 2³² is the number of its reference. -/
theorem map_toUInt32_eq_some_iff {o : Option Nat} (small : ∀ g, o = some g → g < 2 ^ 32) {f : FuncRef} :
    o.map Nat.toUInt32 = some f ↔ o = some f.toNat := by
  cases o with
  | none => exact ⟨nofun, nofun⟩
  | some g =>
    have number : g.toUInt32.toNat = g := UInt32.toNat_ofNat_of_lt' (small g rfl)
    rw [Option.map_some, Option.some_inj, Option.some_inj]
    constructor
    · rintro rfl
      exact number.symm
    · rintro rfl
      exact UInt32.toNat_inj.mp number

theorem Indexed.findFunction?_eq_some_iff (h : p.Indexed) (few : p.functions.size ≤ 2 ^ 32) {name : String}
    {f : FuncRef} : p.findFunction? name = some f ↔ IsLeast {g | p.Named name g} f.toNat := by
  rw [findFunction?, h.functionNames, ← functionNamesOf_eq_some_iff]
  refine map_toUInt32_eq_some_iff fun g found => ?_
  exact Nat.lt_of_lt_of_le (functionNamesOf_eq_some_iff.mp found).1.lt few

theorem Indexed.findFunction?_eq_none_iff (h : p.Indexed) {name : String} :
    p.findFunction? name = none ↔ ∀ g, ¬ p.Named name g := by
  rw [findFunction?, h.functionNames, Option.map_eq_none_iff]
  constructor
  · intro absent g named
    classical
    have least := functionNamesOf_eq_some_iff.mpr
      ⟨Nat.find_spec ⟨g, named⟩, fun g' named' => Nat.find_min' ⟨g, named⟩ named'⟩
    rw [absent] at least
    cases least
  · intro unnamed
    cases found : (functionNamesOf p.functions)[name]? with
    | none => rfl
    | some g => exact absurd (functionNamesOf_eq_some_iff.mp found).1 (unnamed g)

/-! ## 4. Functions by statement. -/

/-- An entry at or before a statement, of a function other than number zero. -/
def EntryUpTo (p : Program) (i entry : Nat) : Prop := entry ≤ i ∧ ∃ g, 0 < g ∧ p.StartsAt g entry

/-- **Of equal entries** the search has kept the one with the lowest number. -/
def Earliest (seen : List (Function × Nat)) (best : Option (Nat × Nat)) : Prop :=
  ∀ entry g, best = some (entry, g) → ∀ c ∈ seen, c.1.codeStart? = some entry → g ≤ c.2

section

variable {i : Nat} {seen : List (Function × Nat)} {best : Option (Nat × Nat)} {c : Function × Nat}

/-- A function with a higher number comes in only with a later entry. -/
theorem Earliest.step (h : Earliest seen best) (latest : Latest i seen best) (above : ∀ d ∈ seen, d.2 < c.2) :
    Earliest (seen ++ [c]) (laterEntry i best c) := by
  have keeps : Earliest (seen ++ [c]) best := by
    rintro entry g rfl d isIn starts
    rcases List.mem_append.mp isIn with old | new
    · exact h entry g rfl d old starts
    · cases List.mem_singleton.mp new
      obtain ⟨f, found, -⟩ := latest.2.1
      exact Nat.le_of_lt (above _ found)
  unfold laterEntry
  cases code : c.1.codeStart? with
  | none => exact keeps
  | some entry =>
    dsimp only
    by_cases better : entry ≤ i ∧ best.all (·.1 < entry)
    · rw [if_pos better]
      rintro _ _ ⟨⟩ d isIn starts
      rcases List.mem_append.mp isIn with old | new
      · -- What was seen before starts elsewhere: past the statement, or before this entry.
        exfalso
        cases best with
        | none => exact Nat.not_lt.mpr better.1 (latest d old entry starts)
        | some found =>
          have before : found.1 < entry := by simpa using better.2
          exact Nat.not_le.mpr before (latest.2.2 d old entry starts better.1)
      · cases List.mem_singleton.mp new
        exact Nat.le_refl _
    · rw [if_neg better]
      exact keeps

theorem Earliest.fold {rest : List (Function × Nat)} (h : Earliest seen best) (latest : Latest i seen best)
    (upwards : (seen ++ rest).Pairwise fun c d => c.2 < d.2) :
    Earliest (seen ++ rest) (rest.foldl (laterEntry i) best) := by
  induction rest generalizing seen best with
  | nil => rwa [List.append_nil]
  | cons c rest ih =>
    have above : ∀ d ∈ seen, d.2 < c.2 := fun d isIn =>
      (List.pairwise_append.mp upwards).2.2 d isIn c List.mem_cons_self
    rw [List.append_cons, List.foldl_cons]
    rw [List.append_cons] at upwards
    exact ih (h.step latest above) (latest.step c) upwards

end

/-- **The search for a statement** finds the greatest entry up to it, and the lowest number of those that start
    there; it finds none exactly if there is no such entry. -/
theorem search_cases (p : Program) (i : Nat) :
    match (p.functions.toList.zipIdx.drop 1).foldl (laterEntry i) none with
    | some (entry, g) => IsGreatest {start | p.EntryUpTo i start} entry ∧ IsLeast {g | 0 < g ∧ p.StartsAt g entry} g
    | none => ∀ start, ¬ p.EntryUpTo i start := by
  have unseen : Latest i [] none := fun c seen => absurd seen List.not_mem_nil
  have latest := unseen.fold (p.functions.toList.zipIdx.drop 1)
  have earliest : Earliest [] none := nofun
  have earliest : Earliest ([] ++ p.functions.toList.zipIdx.drop 1) _ := earliest.fold unseen p.pairwise_searched
  rw [List.nil_append] at latest earliest
  cases best : (p.functions.toList.zipIdx.drop 1).foldl (laterEntry i) none with
  | none =>
    rw [best] at latest
    rintro start ⟨early, g, pos, f, found, starts⟩
    exact Nat.not_lt.mpr early (latest (f, g) (mem_searched.mpr ⟨pos, found⟩) start starts)
  | some kept =>
    obtain ⟨entry, g⟩ := kept
    rw [best] at latest earliest
    obtain ⟨early, ⟨f, searched, starts⟩, last⟩ := latest
    obtain ⟨pos, found⟩ := mem_searched.mp searched
    refine ⟨⟨⟨early, g, pos, f, found, starts⟩, ?_⟩, ⟨pos, f, found, starts⟩, ?_⟩
    · rintro start ⟨early', g', pos', f', found', starts'⟩
      exact last (f', g') (mem_searched.mpr ⟨pos', found'⟩) start starts' early'
    · rintro g' ⟨pos', f', found', starts'⟩
      exact earliest entry g rfl (f', g') (mem_searched.mpr ⟨pos', found'⟩) starts'

theorem functionContaining?_eq_some_iff (few : p.functions.size ≤ 2 ^ 32) {i : Nat} {f : FuncRef} :
    p.functionContaining? i = some f ↔ ∃ entry, IsGreatest {start | p.EntryUpTo i start} entry ∧
      IsLeast {g | 0 < g ∧ p.StartsAt g entry} f.toNat := by
  have search := p.search_cases i
  rw [functionContaining?]
  cases best : (p.functions.toList.zipIdx.drop 1).foldl (laterEntry i) none with
  | none =>
    rw [best] at search
    constructor
    · intro found
      cases found
    · rintro ⟨entry, greatest, -⟩
      exact absurd greatest.1 (search entry)
  | some kept =>
    obtain ⟨entry, g⟩ := kept
    rw [best] at search
    obtain ⟨greatest, least⟩ := search
    have small : g < 2 ^ 32 := Nat.lt_of_lt_of_le least.1.2.lt few
    have number : (some (entry, g)).map (·.2.toUInt32) = some f ↔ some g = some f.toNat :=
      map_toUInt32_eq_some_iff (o := some g) fun _ same => Option.some_inj.mp same ▸ small
    rw [number, Option.some_inj]
    constructor
    · intro same
      exact ⟨entry, greatest, same ▸ least⟩
    · rintro ⟨entry', greatest', least'⟩
      cases greatest.unique greatest'
      exact least.unique least'

theorem functionContaining?_eq_none_iff {i : Nat} :
    p.functionContaining? i = none ↔ ∀ start, ¬ p.EntryUpTo i start := by
  have search := p.search_cases i
  rw [functionContaining?, Option.map_eq_none_iff]
  cases best : (p.functions.toList.zipIdx.drop 1).foldl (laterEntry i) none with
  | none =>
    rw [best] at search
    exact ⟨fun _ => search, fun _ => rfl⟩
  | some kept =>
    rw [best] at search
    exact ⟨fun none => absurd none (Option.some_ne_none _), fun absent => absurd search.1.1 (absent kept.1)⟩

/-- **Every look-up is a scan of its table.** -/
structure ScansAlike (p : Program) : Prop where
  function : ∀ name f, p.findFunction? name = some f ↔ IsLeast {g | p.Named name g} f.toNat
  noFunction : ∀ name, p.findFunction? name = none ↔ ∀ g, ¬ p.Named name g
  global : ∀ name, p.findGlobal? name = firstNamed? p.globalDefs name
  field : ∀ name, p.findField? name = firstNamed? p.fieldDefs name
  globalAt : ∀ ofs, p.globalAt? ofs = firstPlaced? p.globalDefs ofs
  fieldAt : ∀ ofs, p.fieldAt? ofs = firstPlaced? p.fieldDefs ofs
  containing : ∀ i f, p.functionContaining? i = some f ↔
    ∃ entry, IsGreatest {start | p.EntryUpTo i start} entry ∧ IsLeast {g | 0 < g ∧ p.StartsAt g entry} f.toNat
  uncontained : ∀ i, p.functionContaining? i = none ↔ ∀ start, ¬ p.EntryUpTo i start

theorem Indexed.scansAlike (h : p.Indexed) (few : p.functions.size ≤ 2 ^ 32) : p.ScansAlike where
  function _ _ := h.findFunction?_eq_some_iff few
  noFunction _ := h.findFunction?_eq_none_iff
  global := h.findGlobal?
  field := h.findField?
  globalAt := h.globalAt?
  fieldAt := h.fieldAt?
  containing _ _ := functionContaining?_eq_some_iff few
  uncontained _ := functionContaining?_eq_none_iff

end Program

/-! ## 5. What was found can be read. -/

/-- A value that the block has room for can be read. -/
theorem GlobalBlock.value_of_le {g : GlobalBlock} {d : Def} (room : d.ofs + d.type.words ≤ g.size) :
    ∃ v, g.value d.ofs d.type = .ok v := by
  rw [value, slice_of_le room]
  exact ⟨_, rfl⟩

theorem Edict.value_of_le {e : Edict} {d : Def} (room : d.ofs + d.type.words ≤ e.fields.size) :
    ∃ v, e.value d.ofs d.type = .ok v := by
  rw [value, words, Block.slice?, if_pos room]
  exact ⟨_, rfl⟩

namespace Image

/-- **Names and places are looked up as if by going through the tables**, in every image that was loaded. A
    function is the lowest but number zero with the name; a global or a field is the first definition with the
    name, which is not empty, or the first at the offset that is not of type void; the function of a statement is
    the lowest but number zero of those with the greatest entry up to the statement. Every global that was found
    can be read from any block of the size of the image's, and every field that was found and is not of type void
    from any record of a store made for the program, whatever has happened to the store. -/
theorem lookups_scan {bytes : Bytes} {options : LoadOptions} {image : Image}
    (loaded : load bytes options = .ok image) :
    let p := image.program
    p.ScansAlike ∧
    (∀ d, (∃ name, p.findGlobal? name = some d) ∨ (∃ ofs, p.globalAt? ofs = some d) →
      ∀ g : GlobalBlock, g.size = image.globals.size → ∃ v, g.value d.ofs d.type = .ok v) ∧
    ∀ d, (∃ name, p.findField? name = some d) ∨ (∃ ofs, p.fieldAt? ofs = some d) → d.type ≠ .void →
      ∀ (config : StoreConfig) (cs : List StoreCommand) (id : EdictId) (e : Edict),
        (cs.foldl EdictStore.after (.new p.entityFields config)).get id = .ok e →
          ∃ v, e.value d.ofs d.type = .ok v := by
  intro p
  have checked := load_checked loaded
  have scans : p.ScansAlike := checked.indexed.scansAlike (functions_size_le loaded)
  refine ⟨scans, fun d found g size => ?_, fun d found typed config cs id e record => ?_⟩
  · have listed : d ∈ p.globalDefs := by
      rcases found with ⟨name, found⟩ | ⟨ofs, found⟩
      · exact Program.mem_of_find? ((scans.global name).symm.trans found)
      · exact Program.mem_of_find? ((scans.globalAt ofs).symm.trans found)
    exact GlobalBlock.value_of_le (size ▸ checked.globals d listed)
  · have listed : d ∈ p.fieldDefs := by
      rcases found with ⟨name, found⟩ | ⟨ofs, found⟩
      · exact Program.mem_of_find? ((scans.field name).symm.trans found)
      · exact Program.mem_of_find? ((scans.fieldAt ofs).symm.trans found)
    have width := ((EdictStore.Ordered.new p.entityFields config).foldl cs).width record
    exact Edict.value_of_le (width ▸ checked.fields d listed typed)

/-- A program in which two functions, two globals and two fields are all named `x`. The functions start at one
    statement; the globals lie at one offset, together with one that has no name. -/
def repeated : ImageBuilder :=
  { strings := #[0, 120, 0]
    statements := #[{}, { op := 43 }]
    functions := #[{}, { firstStatement := 1, name := 1 }, { firstStatement := 1, name := 1 }]
    globalDefs := #[{ type := 0, ofs := 28, name := 1 }, { type := 4, ofs := 28 },
      { type := 2, ofs := 28, name := 1 }]
    fieldDefs := #[{ type := 0, ofs := 7, name := 1 }, { type := 2, ofs := 0, name := 1 }]
    globals := Array.replicate 92 0
    entityFields := 1 }

/-- The first of each is found, by name the one of type void, by place the one without a name. -/
theorem lookups_scan_repeated : Loads repeated.build Assembly.tight fun image =>
    let p := image.program
    p.findFunction? "x" = some 1 ∧ p.functionContaining? 1 = some 1 ∧ p.functionContaining? 0 = none ∧
      (p.findGlobal? "x").map Def.type = some .void ∧ p.findGlobal? "" = none ∧
      (p.globalAt? 28).map Def.type = some .entity ∧ (p.findField? "x").map Def.ofs = some 7 ∧
      ∃ d v, p.globalAt? 28 = some d ∧ image.globals.value d.ofs d.type = .ok v := by
  have loads : Loads repeated.build Assembly.tight fun image =>
      (image.program.functions.toList.map fun f => (f.name, f.codeStart?)) =
        [("", some 0), ("x", some 1), ("x", some 1)] ∧
      (Program.firstNamed? image.program.globalDefs "x").map Def.type = some .void ∧
      Program.firstNamed? image.program.globalDefs "" = none ∧
      (Program.firstPlaced? image.program.globalDefs 28).map Def.type = some .entity ∧
      (Program.firstNamed? image.program.fieldDefs "x").map Def.ofs = some 7 := by decide +kernel
  obtain ⟨image, loaded, functions, named, unnamed, placed, field⟩ := loads
  obtain ⟨scans, readable, -⟩ := lookups_scan loaded
  rw [← scans.global] at named unnamed
  rw [← scans.globalAt] at placed
  rw [← scans.field] at field
  have tables (g : Nat) : image.program.functions[g]?.map (fun f => (f.name, f.codeStart?)) =
      [("", some 0), ("x", some 1), ("x", some 1)][g]? := by
    rw [← functions, List.getElem?_map, Array.getElem?_toList]
  obtain ⟨f, found, shape⟩ := Option.map_eq_some_iff.mp (tables 1)
  obtain ⟨called, starts⟩ := Prod.mk.inj shape
  have least (g : Nat) (pos : 0 < g) : 1 ≤ g := pos
  have entry : image.program.EntryUpTo 1 1 := ⟨Nat.le_refl 1, 1, Nat.one_pos, f, found, starts⟩
  refine ⟨image, loaded, (scans.function "x" 1).mpr ⟨⟨Nat.one_pos, f, found, called⟩, fun g h => least g h.1⟩,
    (scans.containing 1 1).mpr ⟨1, ⟨entry, fun start h => h.1⟩, ⟨Nat.one_pos, f, found, starts⟩,
      fun g h => least g h.1⟩,
    (scans.uncontained 0).mpr fun start h => ?_, named, unnamed, placed, field, ?_⟩
  · obtain ⟨early, g, pos, f', found', starts'⟩ := h
    cases Nat.le_zero.mp early
    have impossible := tables g
    rw [found', Option.map_some, starts'] at impossible
    match g, pos, impossible with
    | 1, _, impossible | 2, _, impossible => cases (Prod.mk.inj (Option.some_inj.mp impossible)).2
    | g + 3, _, impossible => cases impossible
  · obtain ⟨d, at', -⟩ := Option.map_eq_some_iff.mp placed
    obtain ⟨v, read⟩ := readable d (.inr ⟨28, at'⟩) image.globals rfl
    exact ⟨d, v, at', read⟩

end Image

end QuakeProgs
