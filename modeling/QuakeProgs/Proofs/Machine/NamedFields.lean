/-
  File:      QuakeProgs/Proofs/Machine/NamedFields.lean
  Subject:   FIELDS BY NAME: the cache is never noticed.

  A machine remembers the last two names it was asked for, absent ones as well, and where each lies. Another image
  may have the same names in other places. The cache is cleared when one is put in place, so what it holds is always
  what the program that is loaded would answer.

  * `FieldCache.Once` -- no name is in the cache twice;
  * `Machine.Remembers` -- the cache fits the program that is loaded, and the indices fit its tables: the invariant;
  * `Machine.FieldsCurrent` -- every name is looked up as if by going through the table of fields;
  * `Engine.scanField`, `Engine.scanSetField` -- fields by name without a cache;
  * `Engine.Unnoticed` -- two actions with the same outcome, one with the cache and one without;
  * `FieldCall` -- a field is read or written, or another image put in place; `FieldCall.scan` uses no cache;
  * `Reachable.fields_as_scanned` -- any sequence of calls has the same answers with the cache and without.
-/
import Mathlib.Data.List.Forall2
import QuakeProgs.Proofs.Image.Lookups
import QuakeProgs.Proofs.Machine.Replacement

namespace QuakeProgs

open Engine

/-! ## 1. What the cache holds. -/

namespace FieldCache

variable {c : FieldCache} {p : Program}

/-- **No name is in the cache twice.** -/
def Once (c : FieldCache) : Prop := (c.entries.map CacheEntry.name).Nodup

theorem once_empty : ({} : FieldCache).Once := List.nodup_nil

/-- A name that is remembered goes into one place; what was in the other stays. -/
theorem Once.remember (once : c.Once) {e : CacheEntry} (absent : e.name ∉ c.entries.map CacheEntry.name) :
    (c.remember e).Once := by
  unfold Once entries at *
  rw [List.map_append] at once absent
  obtain ⟨fst, snd, -⟩ := List.nodup_append.mp once
  unfold FieldCache.remember
  cases c.second with
  | false => exact List.nodup_cons.mpr ⟨fun isIn => absent (List.mem_append_right _ isIn), snd⟩
  | true =>
    show ((c.fst.toList ++ [e]).map CacheEntry.name).Nodup
    rw [List.map_append, List.map_singleton, ← List.concat_eq_append]
    exact fst.concat fun isIn => absent (List.mem_append_left _ isIn)

theorem Once.lookup_snd (once : c.Once) (name : String) : (c.lookup p name).2.Once := by
  unfold lookup
  cases found : c.find? name with
  | some e => exact once
  | none =>
    refine once.remember fun isIn => ?_
    obtain ⟨e, isIn, same⟩ := List.mem_map.mp isIn
    exact List.find?_eq_none.mp found e isIn (decide_eq_true same)

theorem Once.after (once : c.Once) (names : List String) : (c.after p names).Once := by
  induction names generalizing c with
  | nil => exact once
  | cons name names ih => exact ih (once.lookup_snd name)

end FieldCache

/-! ## 2. The machine that has it. -/

namespace Machine

/-- **What is remembered is so in the program that is loaded.** -/
structure Remembers (m : Machine) : Prop where
  indexed : m.program.Indexed
  fits : m.fieldCache.Fits m.program
  once : m.fieldCache.Once

/-- A machine that has just been given an image remembers nothing. -/
theorem remembers_new {bytes : Bytes} {options : LoadOptions} {image : Image}
    (loaded : Image.load bytes options = .ok image) (config : Config) (registry : Registry) :
    (new image config registry).Remembers :=
  ⟨(Image.load_checked loaded).indexed, FieldCache.fits_empty _, FieldCache.once_empty⟩

/-- Code does not look fields up by name; a command that does is answered from the program that is loaded. -/
theorem enduring_remembers : Enduring Remembers where
  data h := { h with }
  texts _ h := { h with }
  store _ h := { h with }
  tell _ h := { h with }
  push h := { h with }
  enter _ _ h := { h with }
  pop _ h := { h with }
  fresh config registry loaded := remembers_new loaded config registry
  rebuilt {m _} _ rebuilt := by
    obtain ⟨-, _, _, _, loaded, rfl⟩ := rebuilt
    exact { remembers_new loaded m.config m.registry with }
  serviced {m m'} h s := by
    obtain ⟨names, looked⟩ := s.cache
    refine ⟨s.program ▸ h.indexed, s.fits h.fits, ?_⟩
    rw [looked]
    exact h.once.after names
  control h := { h with }

/-- **Every name is looked up where the program has it**: at the offset of the first definition with the name, which
    is not empty, in the table of fields. -/
structure FieldsCurrent (m : Machine) : Prop where
  looked : ∀ name, (m.fieldCache.lookup m.program name).1 = (m.program.findField? name).map Def.ofs
  first : ∀ name, m.program.findField? name = Program.firstNamed? m.program.fieldDefs name
  once : m.fieldCache.Once

theorem Remembers.current {m : Machine} (h : m.Remembers) : m.FieldsCurrent :=
  ⟨h.fits.lookup_fst, h.indexed.findField?, h.once⟩

/-- **The same machine with another cache**, which is right. -/
structure Remembering (m₁ m₂ : Machine) : Prop extends Remembers m₁ where
  same : ∃ cache, m₁ = { m₂ with fieldCache := cache }

end Machine

/-! ## 3. Fields without a cache. -/

namespace Engine

/-- Where a named field lies, found by going through the table of the program. -/
def scanOffset? (name : String) : Engine (Option Nat) :=
  return (Program.firstNamed? (← get).program.fieldDefs name).map Def.ofs

/-- `Engine.field` without the cache. -/
def scanField (id : EdictId) (name : String) (type : ValueType) : Engine (Option Value) := do
  match ← scanOffset? name with
  | none => return none
  | some ofs => return some (← reads fun m => do (← m.edicts.get id).value ofs type)

/-- `Engine.setField` without the cache. -/
def scanSetField (id : EdictId) (name : String) (v : Value) : Engine Bool := do
  match ← scanOffset? name with
  | none => return false
  | some ofs =>
    writeField id ofs v.toWords
    return true

/-- **Two actions with the same outcome** on machines that are the same but for the cache; and so are the machines
    they leave. -/
def Unnoticed {α : Type} (cached scanned : Engine α) : Prop :=
  ∀ m₁ m₂, m₁.Remembering m₂ →
    Paired cached scanned m₁ m₂ (fun a₁ a₂ n₁ n₂ => a₁ = a₂ ∧ n₁.Remembering n₂)
      fun _ => Machine.Remembering

variable {α β : Type}

theorem Unnoticed.pure (a : α) : Unnoticed (Pure.pure a) (Pure.pure a) := fun _ _ h => paired_pure ⟨rfl, h⟩

theorem Unnoticed.bind {x₁ x₂ : Engine β} {f₁ f₂ : β → Engine α} (hx : Unnoticed x₁ x₂)
    (hf : ∀ b, Unnoticed (f₁ b) (f₂ b)) : Unnoticed (x₁ >>= f₁) (x₂ >>= f₂) := by
  intro m₁ m₂ h
  refine paired_bind ((hx m₁ m₂ h).mono ?_ fun _ _ _ h' => h')
  rintro b _ n₁ n₂ ⟨rfl, h'⟩
  exact hf b n₁ n₂ h'

/-- **Looking a name up** gives the same offset from the cache and from the table. -/
theorem fieldOffset?_unnoticed (name : String) : Unnoticed (fieldOffset? name) (scanOffset? name) := by
  intro m₁ m₂ h
  have looked : (m₁.fieldCache.lookup m₁.program name).1 =
      (Program.firstNamed? m₁.program.fieldDefs name).map Def.ofs := by
    rw [h.current.looked, h.current.first]
  have kept := Machine.enduring_remembers.serviced h.toRemembers (fieldOffset?_serving name m₁)
  obtain ⟨cache, rfl⟩ := h.same
  exact .ok rfl rfl ⟨looked, { kept with same := ⟨_, rfl⟩ }⟩

theorem field_unnoticed (id : EdictId) (name : String) (type : ValueType) :
    Unnoticed (field id name type) (scanField id name type) := by
  refine (fieldOffset?_unnoticed name).bind fun found => ?_
  cases found with
  | none => exact .pure _
  | some ofs =>
    refine Unnoticed.bind (fun m₁ m₂ h => ?_) fun _ => .pure _
    obtain ⟨cache, rfl⟩ := h.same
    exact paired_reads rfl (fun _ _ => ⟨rfl, h⟩) fun _ _ => h

theorem setField_unnoticed (id : EdictId) (name : String) (v : Value) :
    Unnoticed (setField id name v) (scanSetField id name v) := by
  refine (fieldOffset?_unnoticed name).bind fun found => ?_
  cases found with
  | none => exact .pure _
  | some ofs =>
    refine Unnoticed.bind (fun m₁ m₂ h => ?_) fun _ => .pure _
    obtain ⟨cache, rfl⟩ := h.same
    exact paired_update rfl (fun _ _ => ⟨rfl, { h with same := ⟨cache, rfl⟩ }⟩) fun _ _ => h

/-- Another image makes the two the same, since it clears the cache. -/
theorem replace_unnoticed (bytes : Bytes) (options : LoadOptions) :
    Unnoticed (Command.replace bytes options).perform (Command.replace bytes options).perform := by
  refine Unnoticed.bind (fun m₁ m₂ h => ?_) fun _ => .pure _
  obtain ⟨cache, rfl⟩ := h.same
  refine paired_update rfl (fun m' started => ⟨rfl, ?_, m'.fieldCache, rfl⟩) fun _ _ => h
  cases loaded : Image.load bytes options with
  | error e =>
    rw [loaded] at started
    cases started
  | ok image =>
    rw [loaded] at started
    exact Machine.enduring_remembers.rebuilt h.toRemembers (Machine.rebuilt_of_replaceProgram loaded started)

/-- **Sequences of actions** that do not notice the cache one by one do not notice it together. -/
theorem chronicle_unnoticed {ι : Type} {cached scanned : ι → Engine α} (each : ∀ i, Unnoticed (cached i) (scanned i))
    (is : List ι) {m₁ m₂ : Machine} (h : m₁.Remembering m₂) :
    List.Forall₂ (fun used plain => used.1 = plain.1 ∧ used.2.Remembering plain.2)
      (chronicle (is.map cached) m₁) (chronicle (is.map scanned) m₂) := by
  induction is generalizing m₁ m₂ with
  | nil => exact .nil
  | cons i is ih =>
    rw [List.map_cons, List.map_cons]
    cases each i m₁ m₂ h with
    | ok h₁ h₂ both =>
      rw [chronicle_of_ok h₁, chronicle_of_ok h₂]
      exact .cons ⟨congrArg Except.ok both.1, both.2⟩ (ih both.2)
    | error h₁ h₂ both =>
      rw [chronicle_of_error h₁, chronicle_of_error h₂]
      exact .cons ⟨rfl, both⟩ (ih both)

end Engine

/-! ## 4. Sequences of calls. -/

/-- A named field is read or written, or another image is put in place. -/
inductive FieldCall where
  | read (id : EdictId) (name : String) (type : ValueType)
  | write (id : EdictId) (name : String) (v : Value)
  | replace (bytes : Bytes) (options : LoadOptions)

/-- What such a call answers. -/
inductive FieldAnswer where
  | value (v : Option Value)
  | written (found : Bool)
  | replaced
  deriving DecidableEq

namespace FieldCall

def perform : FieldCall → Engine FieldAnswer
  | read id name type => return .value (← field id name type)
  | write id name v => return .written (← setField id name v)
  | replace bytes options => do
    (Command.replace bytes options).perform
    return .replaced

/-- What the call does where there is no cache. -/
def scan : FieldCall → Engine FieldAnswer
  | read id name type => return .value (← scanField id name type)
  | write id name v => return .written (← scanSetField id name v)
  | replace bytes options => do
    (Command.replace bytes options).perform
    return .replaced

theorem unnoticed (call : FieldCall) : Unnoticed call.perform call.scan := by
  cases call with
  | read id name type => exact (field_unnoticed id name type).bind fun _ => .pure _
  | write id name v => exact (setField_unnoticed id name v).bind fun _ => .pure _
  | replace bytes options => exact (replace_unnoticed bytes options).bind fun _ => .pure _

end FieldCall

/-- **No call ever sees where a field used to lie.** In every machine that can be reached, whatever happened before,
    the builtins of the host leaving the cache right, a name is looked up where the program that is loaded has it
    first, and no name is in the cache twice. From there on any sequence of calls that read and write fields by
    name and put other images in place has the same answers, and leaves the same machines but for the cache, as if
    every name were found by going through the table of fields of the moment; and what held of the first machine
    holds of each of them. -/
theorem Reachable.fields_as_scanned {routines : Nat → Routine} {registry : Registry} {m : Machine}
    (host : ∀ key, (routines key).Keeps Machine.Remembers) (reached : Reachable routines registry m) :
    m.FieldsCurrent ∧ ∀ calls : List FieldCall,
      List.Forall₂ (fun used plain => used.1 = plain.1 ∧ used.2.FieldsCurrent ∧
          ∃ cache, used.2 = { plain.2 with fieldCache := cache })
        (chronicle (calls.map FieldCall.perform) m) (chronicle (calls.map FieldCall.scan) m) := by
  have remembers : m.Remembers := reached.endures Machine.enduring_remembers host
  refine ⟨remembers.current, fun calls => ?_⟩
  have alike : m.Remembering m := { remembers with same := ⟨_, rfl⟩ }
  exact (chronicle_unnoticed FieldCall.unnoticed calls alike).imp fun _ _ both =>
    ⟨both.1, both.2.current, both.2.same⟩

/-- A program with two fields, `x` and `y`, at two offsets. -/
def twoFields (x y : UInt16) : ImageBuilder :=
  { strings := #[0, 120, 0, 121, 0]
    statements := #[{}, { op := 43 }]
    functions := #[{}]
    fieldDefs := #[{ type := 2, ofs := x, name := 1 }, { type := 2, ofs := y, name := 3 }]
    globals := Array.replicate 92 0
    entityFields := 2 }

/-- Both programs have the field `x`. In the second, `y` lies where `x` lay in the first. -/
theorem Reachable.fields_as_scanned_moved : ∃ m, Reachable default .core m ∧
    (chronicle ([.write 0 "x" (.float (.ofNat 5)), .read 0 "x" .float, .read 0 "z" .float,
        .replace (twoFields 1 0).build .small, .write 0 "y" (.float (.ofNat 7)), .read 0 "x" .float].map
          FieldCall.perform) m).map Prod.fst =
      [.ok (.written true), .ok (.value (some (.float (.ofNat 5)))), .ok (.value none),
        .ok .replaced, .ok (.written true), .ok (.value (some (.float .zero)))] := by
  have host : ∀ key, ((default : Nat → Routine) key).Keeps Machine.Remembers := fun _ => Maintains.pure ()
  let calls : List FieldCall := [.write 0 "x" (.float (.ofNat 5)), .read 0 "x" .float, .read 0 "z" .float,
    .replace (twoFields 1 0).build .small, .write 0 "y" (.float (.ofNat 7)), .read 0 "x" .float]
  have loads : Machine.Loads (twoFields 0 1).build .small {} .core fun m =>
      (chronicle (calls.map FieldCall.scan) m).map Prod.fst =
        [.ok (.written true), .ok (.value (some (.float (.ofNat 5)))), .ok (.value none),
          .ok .replaced, .ok (.written true), .ok (.value (some (.float .zero)))] := by
    decide +kernel
  obtain ⟨m, reached, answers⟩ := loads.reachable default
  refine ⟨m, reached, ?_⟩
  have alike := (reached.fields_as_scanned host).2 calls
  rw [← answers, ← List.forall₂_eq_eq_eq, List.forall₂_map_left_iff, List.forall₂_map_right_iff]
  exact alike.imp fun _ _ both => both.1

end QuakeProgs
