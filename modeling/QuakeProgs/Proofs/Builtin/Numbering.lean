/-
  File:      QuakeProgs/Proofs/Builtin/Numbering.lean
  Subject:   WHICH BUILTIN A NUMBER STANDS FOR.

  A table is made in two passes: declarations overwrite one another, own numbers only fill what is empty. Both
  passes are read here as what they leave in one slot: the first as a search from the end of the program, the second
  as a search from the start of the registry.

  * `Registry.Built` -- the registries there can be: calls of `register`, one after the other;
  * `Registry.Built.get?_eq`, `Registry.Built.toList_eq` -- a name stands where it was registered first, with what
    was registered last;
  * `BuiltinTable.intended` -- the builtin that a number is meant to stand for;
  * `BuiltinTable.slot_of_declarations`, `BuiltinTable.slot_of_own` -- what each pass leaves in a slot;
  * `BuiltinTable.resolves` -- every slot holds what is intended, calls go there, and numbers and names agree.
-/
import Mathlib.Data.List.Find
import QuakeProgs.Proofs.Machine.Metering

namespace QuakeProgs

/-! ## 1. Registering. -/

/-- **The registries there can be**, after the given calls. -/
inductive Registry.Built : Registry → List Builtin → Prop
  | empty : Built {} []
  | register {r : Registry} {calls : List Builtin} (b : Builtin) : r.Built calls → (r.register b).Built (calls ++ [b])
  | advertise {r : Registry} {calls : List Builtin} (name : String) :
      r.Built calls → (r.addExtension name).Built calls

namespace Builtin

/-- What was registered last under a name. -/
def lastNamed? (calls : List Builtin) (name : String) : Option Builtin := calls.reverse.find? (·.name = name)

/-- The builtins in the order in which their names were registered first, each as it was registered last. -/
def inOrder (calls : List Builtin) : List Builtin := (calls.map name).eraseDups.filterMap (lastNamed? calls)

/-- A list of builtins, one of the same name replaced where it stands. -/
def put (b : Builtin) : List Builtin → List Builtin
  | [] => [b]
  | c :: cs => if c.name = b.name then b :: cs else c :: put b cs

theorem names_put (b : Builtin) (cs : List Builtin) :
    (put b cs).map name = if b.name ∈ cs.map name then cs.map name else cs.map name ++ [b.name] := by
  induction cs with
  | nil => rfl
  | cons c cs ih =>
    rw [put]
    by_cases same : c.name = b.name
    · have known : b.name ∈ (c :: cs).map name := by
        rw [List.map_cons, same]
        exact List.mem_cons_self
      rw [if_pos same, if_pos known, List.map_cons, List.map_cons, same]
    · rw [if_neg same, List.map_cons, ih, List.map_cons]
      have other : b.name ∈ c.name :: cs.map name ↔ b.name ∈ cs.map name :=
        List.mem_cons.trans (or_iff_right fun eq => same eq.symm)
      by_cases mem : b.name ∈ cs.map name
      · rw [if_pos mem, if_pos (other.mpr mem)]
      · rw [if_neg mem, if_neg fun h => mem (other.mp h), List.cons_append]

theorem find?_put (b : Builtin) (cs : List Builtin) (n : String) :
    (put b cs).find? (·.name = n) = if b.name = n then some b else cs.find? (·.name = n) := by
  induction cs with
  | nil => by_cases asked : b.name = n <;> simp [put, asked]
  | cons c cs ih =>
    rw [put]
    by_cases same : c.name = b.name
    · rw [if_pos same, List.find?_cons, List.find?_cons, same]
      by_cases asked : b.name = n <;> simp [asked]
    · rw [if_neg same, List.find?_cons, ih, List.find?_cons]
      by_cases asked : c.name = n
      · simp [asked, show b.name ≠ n from fun eq => same (asked.trans eq.symm)]
      · simp [asked]

end Builtin

namespace Registry

variable {calls : List Builtin} {r : Registry}

/-- Registering is putting into the list. -/
theorem toList_register (r : Registry) (b : Builtin) : (r.register b).builtins.toList = b.put r.builtins.toList := by
  have index : r.builtins.findIdx? (·.name = b.name) = r.builtins.toList.findIdx? (·.name = b.name) :=
    List.findIdx?_toArray _ r.builtins.toList
  have placed : ∀ cs : List Builtin, b.put cs = (cs.findIdx? (·.name = b.name)).elim (cs ++ [b]) (cs.set · b) := by
    intro cs
    induction cs with
    | nil => rfl
    | cons c cs ih =>
      rw [Builtin.put, ih, List.findIdx?_cons]
      by_cases same : c.name = b.name
      · simp [same]
      · cases cs.findIdx? (·.name = b.name) <;> simp [same]
  rw [register, index, placed]
  cases r.builtins.toList.findIdx? (·.name = b.name) with
  | some i => exact Array.toList_setIfInBounds
  | none => exact Array.toList_push

theorem get?_eq_find? (r : Registry) (name : String) : r.get? name = r.builtins.toList.find? (·.name = name) :=
  (Array.find?_toList).symm

theorem builtins_addExtension (r : Registry) (name : String) : (r.addExtension name).builtins = r.builtins := by
  unfold addExtension
  split <;> rfl

theorem lastNamed?_append (calls : List Builtin) (b : Builtin) (name : String) :
    Builtin.lastNamed? (calls ++ [b]) name = if b.name = name then some b else Builtin.lastNamed? calls name := by
  rw [Builtin.lastNamed?, List.reverse_append, List.reverse_singleton, List.singleton_append, List.find?_cons]
  by_cases asked : b.name = name <;> simp [Builtin.lastNamed?, asked]

/-- **A name stands for what was registered last under it.** -/
theorem Built.get?_eq (h : r.Built calls) (name : String) : r.get? name = Builtin.lastNamed? calls name := by
  induction h with
  | empty => rfl
  | register b _ ih =>
    rw [get?_eq_find?, toList_register, Builtin.find?_put, ← get?_eq_find?, ih, lastNamed?_append]
  | advertise ext _ ih => rw [get?_eq_find?, builtins_addExtension, ← get?_eq_find?, ih]

/-- Names keep the place of their first registration. -/
theorem Built.names_eq (h : r.Built calls) :
    r.builtins.toList.map Builtin.name = (calls.map Builtin.name).eraseDups := by
  induction h with
  | empty => rfl
  | @register r calls b _ ih =>
    rw [toList_register, Builtin.names_put, ih, List.map_append, List.eraseDups_append]
    have left : (List.removeAll [b.name] (calls.map Builtin.name)) =
        if b.name ∈ calls.map Builtin.name then [] else [b.name] := by
      rw [List.removeAll, List.filter_cons, List.filter_nil]
      by_cases known : b.name ∈ calls.map Builtin.name <;> simp [known]
    rw [List.map_singleton, left]
    simp only [List.mem_eraseDups]
    split
    · rw [List.eraseDups_nil, List.append_nil]
    · rfl
  | advertise ext _ ih => rw [builtins_addExtension, ih]

/-- No name is registered twice. -/
theorem Built.distinct (h : r.Built calls) : (r.builtins.toList.map Builtin.name).Nodup := by
  induction h with
  | empty => exact List.nodup_nil
  | register b _ ih =>
    rw [toList_register, Builtin.names_put]
    split
    · exact ih
    · next new =>
      refine List.nodup_append.mpr ⟨ih, List.pairwise_singleton _ _, fun x mem y last same => new ?_⟩
      rw [List.mem_singleton] at last
      exact last ▸ same ▸ mem
  | advertise ext _ ih => rwa [builtins_addExtension]

/-- **The order is that of the first registrations**, the builtins are those of the last. -/
theorem Built.toList_eq (h : r.Built calls) : r.builtins.toList = Builtin.inOrder calls := by
  have found : ∀ b ∈ r.builtins.toList, Builtin.lastNamed? calls b.name = some b := by
    intro b mem
    rw [← h.get?_eq, get?_eq_find?]
    have distinct := h.distinct
    generalize r.builtins.toList = cs at mem distinct
    induction cs with
    | nil => cases mem
    | cons c cs ih =>
      rw [List.map_cons, List.nodup_cons] at distinct
      rw [List.find?_cons]
      rcases List.mem_cons.mp mem with rfl | mem
      · simp
      · have other : c.name ≠ b.name := fun same => distinct.1 (same ▸ List.mem_map_of_mem mem)
        simp [other, ih mem distinct.2]
  rw [Builtin.inOrder, ← h.names_eq, List.filterMap_map]
  have same : ∀ cs : List Builtin, (∀ b ∈ cs, Builtin.lastNamed? calls b.name = some b) →
      cs = cs.filterMap (Builtin.lastNamed? calls ∘ Builtin.name) := by
    intro cs all
    induction cs with
    | nil => rfl
    | cons c cs ih =>
      have first : (Builtin.lastNamed? calls ∘ Builtin.name) c = some c := all c List.mem_cons_self
      rw [List.filterMap_cons_some first, ← ih fun b mem => all b (List.mem_cons_of_mem _ mem)]
  exact same _ found

end Registry

/-- A name stands for something once it was registered. -/
theorem Builtin.lastNamed?_isSome (calls : List Builtin) (name : String) :
    (lastNamed? calls name).isSome ↔ name ∈ calls.map Builtin.name := by
  simp [lastNamed?, List.find?_isSome]

/-! ## 2. What a number is meant to stand for. -/

/-- The number of the builtin that the function declares, if it does so under a registered name. -/
def Function.declared? (f : Function) (calls : List Builtin) : Option Nat :=
  if f.name ∈ calls.map Builtin.name then f.builtinNumber? else none

/-- The function declares a builtin of this number, under a registered name. -/
def Function.declares (f : Function) (calls : List Builtin) (n : Nat) : Bool := f.declared? calls = some n

theorem Function.declares_iff (f : Function) (calls : List Builtin) (n : Nat) :
    f.declares calls n = true ↔ f.builtinNumber? = some n ∧ f.name ∈ calls.map Builtin.name := by
  rw [declares, decide_eq_true_eq, declared?]
  split
  · next known => simp only [known, and_true]
  · next unknown => simp only [unknown, and_false, reduceCtorEq]

/-- Some function declares a builtin of this name, with a number in range. -/
def Program.names (p : Program) (size : Nat) (name : String) : Bool :=
  p.functions.toList.any fun f => f.name = name && f.builtinNumber?.any (· < size)

namespace BuiltinTable

/-- The last function of the program that declares a builtin of this number, under a registered name. -/
def declarer? (calls : List Builtin) (p : Program) (n : Nat) : Option Function :=
  p.functions.toList.reverse.find? (·.declares calls n)

/-- The first builtin, in the order of registration, that has this number of its own and is eligible. Number zero is
    nobody's own. -/
def owner? (calls : List Builtin) (eligible : Builtin → Bool) (n : Nat) : Option Builtin :=
  if n = 0 then none else (Builtin.inOrder calls).find? fun b => b.number = n && eligible b

/-- **The builtin that a number is meant to stand for**, in a table of `size` slots. -/
def intended (calls : List Builtin) (p : Program) (size : Nat) : Numbering → Nat → Option Builtin
  | .own, n => owner? calls (fun _ => true) n
  | .declared, n =>
    match declarer? calls p n with
    | some f => Builtin.lastNamed? calls f.name
    | none => owner? calls (fun b => !p.names size b.name) n

/-! ## 3. The two passes. -/

variable {calls : List Builtin} {r : Registry}

/-- A declaration that counts names something. -/
theorem get?_eq_some_of_declares (h : r.Built calls) {f : Function} {n : Nat} (declares : f.declares calls n = true) :
    f.builtinNumber? = some n ∧ ∃ b, r.get? f.name = some b := by
  rw [h.get?_eq, ← Option.isSome_iff_exists, Builtin.lastNamed?_isSome]
  exact (f.declares_iff calls n).mp declares

theorem size_placeDeclared (r : Registry) (acc : Placing) (f : Function) :
    (placeDeclared r acc f).slots.size = acc.slots.size := by
  unfold placeDeclared
  split
  · split
    · exact Array.size_setIfInBounds
    · rfl
  · rfl

/-- One declaration, and one slot. -/
theorem slot_placeDeclared (h : r.Built calls) (acc : Placing) (f : Function) {n : Nat}
    (inside : n < acc.slots.size) :
    (placeDeclared r acc f).slots[n]? =
      if f.declares calls n then some (Builtin.lastNamed? calls f.name) else acc.slots[n]? := by
  by_cases declares : f.declares calls n = true
  · obtain ⟨number, b, found⟩ := get?_eq_some_of_declares h declares
    rw [if_pos declares, ← h.get?_eq, placeDeclared, number, found]
    dsimp only
    rw [if_pos inside, Array.getElem?_setIfInBounds_self_of_lt inside]
  · rw [if_neg declares]
    unfold placeDeclared
    split
    · next k b number found =>
      have other : k ≠ n := by
        rintro rfl
        have known : f.name ∈ calls.map Builtin.name := by
          rw [← Builtin.lastNamed?_isSome, ← h.get?_eq, found]
          rfl
        exact declares ((f.declares_iff calls k).mpr ⟨number, known⟩)
      split
      · exact Array.getElem?_setIfInBounds_ne other
      · rfl
    · rfl

/-- One declaration, and the names that are placed. -/
theorem placed_placeDeclared (h : r.Built calls) (acc : Placing) (f : Function) {name : String}
    (known : name ∈ calls.map Builtin.name) : name ∈ (placeDeclared r acc f).placed ↔
      name ∈ acc.placed ∨ (f.name = name ∧ f.builtinNumber?.any (· < acc.slots.size) = true) := by
  unfold placeDeclared
  split
  · next n b number found =>
    have same : b.name = f.name := by simpa using Array.find?_some found
    rw [number, Option.any_some, decide_eq_true_eq]
    split
    · next inside => simp [same, inside, or_comm, eq_comm]
    · next outside => simp [outside]
  · next other =>
    refine ⟨.inl, fun placed => placed.resolve_right ?_⟩
    rintro ⟨rfl, inside⟩
    obtain ⟨n, number, -⟩ := (Option.any_eq_true _ _).mp inside
    obtain ⟨b, found⟩ := Option.isSome_iff_exists.mp ((Builtin.lastNamed?_isSome calls _).mpr known)
    rw [← h.get?_eq] at found
    exact other n b number found

/-- **The first pass leaves the last declaration** in a slot, and knows the names that were declared in range. -/
theorem slot_of_declarations (h : r.Built calls) (fs : List Function) (acc : Placing) {n : Nat}
    (inside : n < acc.slots.size) : (fs.foldl (placeDeclared r) acc).slots.size = acc.slots.size ∧
    (fs.foldl (placeDeclared r) acc).slots[n]? = (match fs.reverse.find? (·.declares calls n) with
      | some f => some (Builtin.lastNamed? calls f.name)
      | none => acc.slots[n]?) ∧
    ∀ name ∈ calls.map Builtin.name, name ∈ (fs.foldl (placeDeclared r) acc).placed ↔
      name ∈ acc.placed ∨ (fs.any fun f => f.name = name && f.builtinNumber?.any (· < acc.slots.size)) = true := by
  induction fs generalizing acc with
  | nil => simp
  | cons f fs ih =>
    have size := size_placeDeclared r acc f
    obtain ⟨size', slot, placed⟩ := ih (placeDeclared r acc f) (size ▸ inside)
    rw [List.foldl_cons]
    refine ⟨size'.trans size, ?_, fun name known => ?_⟩
    · rw [slot, slot_placeDeclared h acc f inside, List.reverse_cons, List.find?_append]
      cases fs.reverse.find? (·.declares calls n) with
      | some g => rfl
      | none => by_cases declares : f.declares calls n = true <;> simp [declares]
    · rw [placed name known, placed_placeDeclared h acc f known, size, List.any_cons]
      simp only [Bool.or_eq_true, Bool.and_eq_true, decide_eq_true_eq, or_assoc]

/-- The builtin may take the slot with this number, if that is empty. -/
def claims (placed : List String) (n : Nat) (b : Builtin) : Bool := b.number = n && !decide (b.name ∈ placed)

/-- One builtin with a number of its own, and one slot. -/
theorem slot_placeOwn (placed : List String) {slots : Array (Option Builtin)} (b : Builtin) {n : Nat}
    {slot : Option Builtin} (before : slots[n]? = some slot) :
    (placeOwn placed slots b)[n]? = some (slot.or (if n = 0 then none else [b].find? (claims placed n))) := by
  unfold placeOwn
  by_cases skipped : b.number = 0 ∨ b.name ∈ placed
  · have idle : (if n = 0 then none else [b].find? (claims placed n)) = none := by
      by_cases zero : n = 0
      · rw [if_pos zero]
      · rw [if_neg zero, List.find?_singleton, if_neg fun claimed => ?_]
        simp only [claims, Bool.and_eq_true, decide_eq_true_eq, Bool.not_eq_true', decide_eq_false_iff_not] at claimed
        exact skipped.elim (fun own => zero (claimed.1 ▸ own)) claimed.2
    rw [if_pos skipped, idle, Option.or_none, before]
  · rw [if_neg skipped]
    obtain ⟨positive, free⟩ := not_or.mp skipped
    by_cases same : b.number = n
    · subst same
      have inside : b.number < slots.size := (Array.getElem?_eq_some_iff.mp before).1
      rw [before, if_neg positive]
      cases slot with
      | none => simp [claims, free, inside]
      | some c => exact before
    · have idle : [b].find? (claims placed n) = none := by simp [claims, same]
      rw [idle, ite_self, Option.or_none, ← before]
      split
      · exact Array.getElem?_setIfInBounds_ne same
      · rfl

/-- **The second pass fills an empty slot** with the first builtin that may take it. Number zero is nobody's own. -/
theorem slot_of_own (placed : List String) (bs : List Builtin) {slots : Array (Option Builtin)} {n : Nat}
    {slot : Option Builtin} (before : slots[n]? = some slot) :
    (bs.foldl (placeOwn placed) slots)[n]? =
      some (slot.or (if n = 0 then none else bs.find? (claims placed n))) := by
  induction bs generalizing slots slot with
  | nil => rw [List.foldl_nil, List.find?_nil, ite_self, Option.or_none, before]
  | cons b bs ih =>
    rw [List.foldl_cons, ih (slot_placeOwn placed b before), Option.or_assoc]
    by_cases zero : n = 0
    · rw [if_pos zero, if_pos zero, if_pos zero, Option.or_none]
    · rw [if_neg zero, if_neg zero, if_neg zero, ← List.find?_append, List.singleton_append]

/-- The eligible builtins are those that were not placed. -/
theorem owner?_eq (calls : List Builtin) (eligible : Builtin → Bool) (placed : List String) (n : Nat)
    (same : ∀ b ∈ Builtin.inOrder calls, eligible b = !decide (b.name ∈ placed)) :
    owner? calls eligible n = if n = 0 then none else (Builtin.inOrder calls).find? (claims placed n) := by
  rw [owner?, List.find?_congr fun b mem => by rw [same b mem, ← claims]]

/-- Only what was registered has a place in the order. -/
theorem known_of_inOrder {b : Builtin} (h : r.Built calls) (mem : b ∈ Builtin.inOrder calls) :
    b.name ∈ calls.map Builtin.name := by
  rw [← List.mem_eraseDups, ← h.names_eq, h.toList_eq]
  exact List.mem_map_of_mem mem

/-! ## 4. The table. -/

/-- **Every slot holds what is intended.** -/
theorem slot_build (h : r.Built calls) (p : Program) (numbering : Numbering) {size n : Nat} (inside : n < size) :
    (build r p numbering size).slots[n]? = some (intended calls p size numbering n) := by
  have empty : (Array.replicate size (none : Option Builtin))[n]? = some none := by simp [inside]
  have room : n < (Array.replicate size (none : Option Builtin)).size := by simpa using inside
  unfold build
  dsimp only
  rw [← Array.foldl_toList, h.toList_eq]
  cases numbering with
  | own =>
    have owner := owner?_eq calls (fun _ => true) [] n fun b _ => by simp
    rw [slot_of_own [] _ empty, Option.none_or, intended, owner]
  | declared =>
    dsimp only
    rw [← Array.foldl_toList, intended, declarer?]
    obtain ⟨-, slot, placed⟩ := slot_of_declarations h p.functions.toList { slots := Array.replicate size none } room
    cases declared : p.functions.toList.reverse.find? (·.declares calls n) with
    | some f =>
      -- a declaration names something, so the slot is taken
      have declares : f.declares calls n = true := by simpa using List.find?_some declared
      obtain ⟨-, b, found⟩ := get?_eq_some_of_declares h declares
      rw [h.get?_eq] at found
      rw [declared] at slot
      rw [slot_of_own _ _ slot]
      dsimp only
      rw [found, Option.some_or]
    | none =>
      rw [declared] at slot
      have owner := owner?_eq calls (fun b => !p.names size b.name)
        (p.functions.toList.foldl (placeDeclared r) { slots := Array.replicate size none }).placed n fun b mem => by
          have named := placed b.name (known_of_inOrder h mem)
          rw [or_iff_right List.not_mem_nil, Array.size_replicate, ← Program.names] at named
          simp only [named, Bool.decide_eq_true]
      rw [slot_of_own _ _ (slot.trans empty), Option.none_or, owner]

theorem size_placeOwn (placed : List String) (slots : Array (Option Builtin)) (b : Builtin) :
    (placeOwn placed slots b).size = slots.size := by
  unfold placeOwn
  split
  · rfl
  · split
    · exact Array.size_setIfInBounds
    · rfl

theorem size_build (r : Registry) (p : Program) (numbering : Numbering) (size : Nat) :
    (build r p numbering size).slots.size = size := by
  have own : ∀ placed slots, (r.builtins.foldl (placeOwn placed) slots).size = slots.size := fun placed slots =>
    Array.foldl_induction (fun _ (acc : Array (Option Builtin)) => acc.size = slots.size) rfl
      fun i acc same => (size_placeOwn placed acc _).trans same
  have declared : (p.functions.foldl (placeDeclared r) { slots := Array.replicate size none }).slots.size = size :=
    Array.foldl_induction (fun _ (acc : Placing) => acc.slots.size = size) Array.size_replicate
      fun i acc same => (size_placeDeclared r acc _).trans same
  cases numbering with
  | own => exact (own _ _).trans Array.size_replicate
  | declared => exact (own _ _).trans declared

/-- Slot `n` holds a builtin of this name. -/
def Holds (t : BuiltinTable) (n : Nat) (name : String) : Prop := ∃ b, t.slots[n]? = some (some b) ∧ b.name = name

theorem nameOf?_eq_some_iff (t : BuiltinTable) (n : Nat) (name : String) :
    t.nameOf? n = some name ↔ t.Holds n name := by
  simp [nameOf?, Holds, Option.join_eq_some_iff]

/-- **The number of a name** is the lowest slot that holds it. -/
theorem numberOf?_eq_some_iff (t : BuiltinTable) (name : String) (n : Nat) :
    t.numberOf? name = some n ↔ t.Holds n name ∧ ∀ k < n, ¬ t.Holds k name := by
  have held : ∀ k (inside : k < t.slots.size), t.slots[k].any (·.name = name) = true ↔ t.Holds k name := by
    intro k inside
    rw [Holds, Array.getElem?_eq_getElem inside, Option.any_eq_true]
    simp
  rw [numberOf?, Array.findIdx?_eq_some_iff_getElem]
  constructor
  · rintro ⟨inside, here, before⟩
    refine ⟨(held n inside).mp here, fun k hk holds => ?_⟩
    exact before k hk ((held k (hk.trans inside)).mpr holds)
  · rintro ⟨⟨b, slot, named⟩, before⟩
    have inside := (Array.getElem?_eq_some_iff.mp slot).1
    exact ⟨inside, (held n inside).mpr ⟨b, slot, named⟩, fun k hk holds => before k hk ((held k _).mp holds)⟩

/-! ## 5. Calls. -/

/-- No two functions of the program declare the same number under registered names. -/
def Unclashing (calls : List Builtin) (p : Program) : Prop :=
  (p.functions.toList.filterMap (·.declared? calls)).Nodup

instance Unclashing.decidable (calls : List Builtin) (p : Program) : Decidable (Unclashing calls p) :=
  inferInstanceAs (Decidable (List.Nodup _))

/-- Where nothing clashes, a declaration is the last of its number. -/
theorem Unclashing.declarer?_eq {p : Program} (h : Unclashing calls p) {f : Function} {n : Nat}
    (mem : f ∈ p.functions.toList) (declares : f.declares calls n = true) : declarer? calls p n = some f := by
  have some? : (declarer? calls p n).isSome := List.find?_isSome.mpr ⟨f, List.mem_reverse.mpr mem, declares⟩
  obtain ⟨g, last⟩ := Option.isSome_iff_exists.mp some?
  have declares' : g.declares calls n = true := by
    rw [declarer?] at last
    simpa using List.find?_some last
  obtain ⟨i, hi, rfl⟩ := List.mem_iff_getElem.mp mem
  obtain ⟨j, hj, rfl⟩ := List.mem_iff_getElem.mp (List.mem_reverse.mp (List.mem_of_find?_eq_some last))
  rw [Function.declares, decide_eq_true_eq] at declares declares'
  have apart := List.pairwise_iff_getElem.mp (List.pairwise_filterMap.mp h)
  rcases Nat.lt_trichotomy i j with before | rfl | behind
  · exact absurd rfl (apart i j hi hj before n declares n declares')
  · exact last
  · exact absurd rfl (apart j i hj hi behind n declares' n declares)

/-- A slot that holds a builtin has it run, by a call and by an execution. -/
theorem dispatches_of_slot {m : Machine} {ref : FuncRef} {f : Function} {n : Nat} {b : Builtin}
    (dispatch : Native → Engine Unit) (known : ref ≠ 0) (found : m.program.function? ref = some f)
    (number : f.builtinNumber? = some n) (slot : m.builtins.slots[n]? = some (some b)) :
    Engine.run dispatch ref m = dispatch b.code { m with profile := m.profile.call ref } ∧
    Engine.call dispatch ref m =
      (do dispatch b.code; return Flow.next : Engine Flow) { m with profile := m.profile.call ref } := by
  have looked : m.builtins.lookup n = .ok (some b) := by rw [lookup, slot]
  have called : Engine.callBuiltin dispatch n ref m = dispatch b.code { m with profile := m.profile.call ref } := by
    have read : Engine.reads (fun m => m.builtins.lookup n) { m with profile := m.profile.call ref } =
      .ok (some b) { m with profile := m.profile.call ref } := Engine.reads_of_ok looked
    rw [Engine.callBuiltin, Engine.modify_bind, Engine.bind_of_ok read]
  have fetched := Engine.function_of_found known found
  constructor
  · rw [Engine.run, Engine.bind_of_ok fetched, number]
    exact called
  · rw [Engine.call, Engine.bind_of_ok fetched, number]
    simp only [bind, EStateM.bind, called]

/-- **Numbers stand for what was registered and declared.** The registry is the outcome of any calls. Every slot
    holds the builtin that is intended there, which without declarations does not hang on the program. Where no two
    declarations clash, calling or executing a declared builtin runs what was registered last under its name. The
    number of a name is the lowest slot with that name, and has that name. -/
theorem resolves (h : r.Built calls) (p : Program) (size : Nat) :
    (∀ numbering, (build r p numbering size).slots.size = size ∧
      ∀ n < size, (build r p numbering size).slots[n]? = some (intended calls p size numbering n)) ∧
    (∀ p', build r p .own size = build r p' .own size) ∧
    (Unclashing calls p → ∀ (dispatch : Native → Engine Unit) (m : Machine), m.program = p →
      m.builtins = build r p .declared size → ∀ ref f n, ref ≠ 0 → p.function? ref = some f →
      f.declares calls n = true → n < size → ∃ b, Builtin.lastNamed? calls f.name = some b ∧
        Engine.run dispatch ref m = dispatch b.code { m with profile := m.profile.call ref } ∧
        Engine.call dispatch ref m =
          (do dispatch b.code; return Flow.next : Engine Flow) { m with profile := m.profile.call ref }) ∧
    ∀ numbering name n, ((build r p numbering size).numberOf? name = some n ↔
        (build r p numbering size).Holds n name ∧ ∀ k < n, ¬ (build r p numbering size).Holds k name) ∧
      ((build r p numbering size).numberOf? name = some n → (build r p numbering size).nameOf? n = some name) := by
  refine ⟨fun numbering => ⟨size_build r p numbering size, fun n inside => slot_build h p numbering inside⟩,
    fun _ => rfl, ?_, fun numbering name n => ⟨numberOf?_eq_some_iff _ name n, fun numbered => ?_⟩⟩
  · intro unclashing dispatch m holds table ref f n known found declares inside
    obtain ⟨number, b, named⟩ := get?_eq_some_of_declares h declares
    rw [h.get?_eq] at named
    have slot := slot_build h p .declared inside
    rw [intended, unclashing.declarer?_eq (Array.mem_toList_iff.mpr (Array.mem_of_getElem? found)) declares] at slot
    refine ⟨b, named, dispatches_of_slot dispatch known (holds ▸ found) number ?_⟩
    rw [table, slot, ← named]
  · exact (nameOf?_eq_some_iff _ n name).mpr ((numberOf?_eq_some_iff _ name n).mp numbered).1

/-- A name is registered twice, the second time with another number. -/
def rivals : List Builtin :=
  [{ name := "a", number := 1, code := .hosted 0 }, { name := "b", number := 2, code := .hosted 1 },
    { name := "c", number := 3, code := .hosted 2 }, { name := "a", number := 3, code := .hosted 3 }]

/-- Declares `a` with the number of `b`, a name that nobody knows with that number too, and `c` beyond the table. -/
def shadowing : ImageBuilder :=
  { strings := #[0, 97, 0, 99, 0, 100, 0]
    functions := #[{}, { firstStatement := -2, name := 1 }, { firstStatement := -2, name := 5 },
      { firstStatement := -7, name := 3 }] }

/-- The call goes to the `a` that was registered last. No number is left for `b`, and `c` keeps its own. -/
theorem resolves_shadowed : ∃ (r : Registry) (m : Machine) (f : Function) (b : Builtin), r.Built rivals ∧
    m.builtins = build r m.program .declared 5 ∧ Unclashing rivals m.program ∧
    (∀ n < 5, m.builtins.slots[n]? = some (intended rivals m.program 5 .declared n)) ∧
    (List.range 5).map (intended rivals m.program 5 .declared) =
      [none, none, some ⟨"a", 3, .hosted 3⟩, some ⟨"c", 3, .hosted 2⟩, none] ∧
    m.program.function? 1 = some f ∧ f.declares rivals 2 = true ∧ Builtin.lastNamed? rivals f.name = some b ∧
    (∀ dispatch, Engine.run dispatch 1 m = dispatch b.code { m with profile := m.profile.call 1 }) ∧
    m.builtins.nameOf? 2 = some "a" := by
  let r : Registry := rivals.foldl .register {}
  have built : r.Built rivals := .register _ (.register _ (.register _ (.register _ .empty)))
  have loads : Machine.Loads shadowing.build .small { maxBuiltins := 5 } r fun m => Unclashing rivals m.program ∧
      (List.range 5).map (intended rivals m.program 5 .declared) =
        [none, none, some ⟨"a", 3, .hosted 3⟩, some ⟨"c", 3, .hosted 2⟩, none] ∧
      (m.program.function? 1).any (fun f => f.declares rivals 2) = true ∧ m.builtins.numberOf? "a" = some 2 := by
    decide +kernel
  obtain ⟨image, -, -, unclashing, table, declared, number⟩ := loads
  obtain ⟨f, found, declares⟩ := (Option.any_eq_true _ _).mp declared
  let m : Machine := { Machine.new image { maxBuiltins := 5 } r with globals := image.globals }
  have last : ∃ b, Builtin.lastNamed? rivals f.name = some b :=
    Option.isSome_iff_exists.mp ((Builtin.lastNamed?_isSome _ _).mpr ((f.declares_iff _ _).mp declares).2)
  obtain ⟨b, last⟩ := last
  obtain ⟨slots, -, called, numbers⟩ := resolves built m.program 5
  refine ⟨r, m, f, b, built, rfl, unclashing, (slots .declared).2, table, found, declares, last, fun dispatch => ?_,
    (numbers .declared "a" 2).2 number⟩
  obtain ⟨b', last', runs, -⟩ := called unclashing dispatch m rfl rfl 1 f 2 (by decide) found declares (by decide)
  cases last.symm.trans last'
  exact runs

end BuiltinTable

end QuakeProgs
