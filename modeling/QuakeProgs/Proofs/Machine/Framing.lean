/-
  File:      QuakeProgs/Proofs/Machine/Framing.lean
  Subject:   ONE STATEMENT, and all that it writes.

  A statement that fails has written nothing, and one that succeeds has written to its destination and nowhere
  else. Words that go together are written together: each comes from what was there before the statement, also
  where a run of words is moved onto itself.

  * `Machine.Furnished` -- the fields that the engine writes by name have a place in every record;
  * `Machine.Writes`, `Machine.Stores` -- the words of the globals and of the records that a statement may change;
  * `Machine.Framed` -- nothing else has changed, and runs of words were moved as a whole;
  * `Engine.statement_frames` -- so it is at every statement of every run;
  * `Engine.return_torn` -- a return that finds the stacks emptied under it fails half done.
-/
import QuakeProgs.Image.Builder
import QuakeProgs.Proofs.Machine.Assembly
import QuakeProgs.Proofs.Machine.Balance
import QuakeProgs.Proofs.Machine.Metering
import QuakeProgs.Proofs.Machine.Passing
import QuakeProgs.Proofs.Machine.Sparing

namespace QuakeProgs

/-! ## 1. What was read. -/

namespace GlobalBlock

variable {g : GlobalBlock} {ofs : Nat}

/-- A float, as the word it was read from. -/
theorem getElem?_of_float {x : Single} (h : g.float ofs = .ok x) : g.words[ofs]? = some x.bits := by
  unfold GlobalBlock.float at h
  cases read : g.get ofs with
  | error e => rw [read] at h; cases h
  | ok w =>
    rw [read] at h
    cases h
    exact getElem?_of_get read

/-- A component of a vector, as the word it was read from. -/
theorem getElem?_of_vector {v : Vec3} (h : g.vector ofs = .ok v) {j : Nat} (hj : j < 3) :
    g.words[ofs + j]? = v.toWords[j]? := by
  unfold GlobalBlock.vector at h
  cases read : g.slice ofs 3 with
  | error e => rw [read] at h; cases h
  | ok ws =>
    rw [read] at h
    cases h
    obtain ⟨size, words⟩ := getElem?_of_slice read
    have three : ws.toList.length = 3 := by rw [Array.length_toList, size]
    rw [← words j hj]
    dsimp only
    generalize ws.toList = l at three
    match l, three with
    | [x, y, z], _ => rfl

end GlobalBlock

/-! ## 2. The fields that the engine writes by name. -/

/-- A field that was found lies inside the records. -/
theorem HotFields.find_inside {p : Program} {name : String} {type : ValueType} {ofs : Nat}
    (fields : ∀ d ∈ p.fieldDefs, d.type ≠ .void → d.ofs + d.type.words ≤ p.entityFields) (typed : type ≠ .void)
    (h : find p name type = some ofs) : ofs + type.words ≤ p.entityFields := by
  unfold find at h
  split at h
  · next d found =>
    split at h
    · next same =>
      cases h
      obtain ⟨i, -, at'⟩ := Option.bind_eq_some_iff.mp found
      rw [← same] at typed ⊢
      exact fields d (Array.mem_of_getElem? at') typed
    · cases h
  · cases h

namespace Machine

/-- **Every record has a place for the fields of the program**, and the engine has found those that it writes. -/
structure Furnished (m : Machine) : Prop where
  hot : m.hot = .resolve m.program
  fields : ∀ d ∈ m.program.fieldDefs, d.type ≠ .void → d.ofs + d.type.words ≤ m.program.entityFields
  edicts : ∃ config, m.edicts.Ordered m.program.entityFields config

theorem furnished_new {bytes : Bytes} {options : LoadOptions} {image : Image}
    (loaded : Image.load bytes options = .ok image) (config : Config) (registry : Registry) :
    (new image config registry).Furnished :=
  ⟨rfl, (Image.load_checked loaded).fields, ⟨_, .new _ _⟩⟩

theorem enduring_furnished : Enduring Furnished where
  data h := { h with }
  texts _ h := { h with }
  store c h := by
    obtain ⟨config, ordered⟩ := h.edicts
    exact { h with edicts := ⟨config, (ordered.after c).1⟩ }
  tell _ h := { h with }
  push h := { h with }
  enter _ _ h := { h with }
  pop _ h := { h with }
  fresh config registry loaded := furnished_new loaded config registry
  rebuilt {m _} _ rebuilt := by
    obtain ⟨-, _, _, _, loaded, rfl⟩ := rebuilt
    exact { furnished_new loaded m.config m.registry with }
  serviced h s := by
    obtain ⟨config, ordered⟩ := h.edicts
    obtain ⟨cs, made⟩ := s.edicts
    refine ⟨by rw [s.hot, s.program, h.hot], s.program ▸ h.fields, config, ?_⟩
    rw [made, s.program]
    exact ordered.foldl cs
  control h := { h with }

/-- A word that a record has room for. -/
theorem Furnished.width {m : Machine} (h : m.Furnished) {id : EdictId} {e : Edict} (found : m.edicts.get id = .ok e) :
    e.fields.size = m.program.entityFields := by
  obtain ⟨config, ordered⟩ := h.edicts
  exact ordered.width found

end Machine

/-! ## 3. The words of the records. -/

namespace EdictStore

variable {s s₁ s' : EdictStore} {touched : Nat → Nat → Prop}

/-- Word `k` of record `i`. -/
def word? (s : EdictStore) (i k : Nat) : Option Word := (s.get? i).bind (·.fields[k]?)

/-- What else there is to a record: whether it is free and since when, and how many words it has. -/
def header? (s : EdictStore) (i : Nat) : Option (Bool × Single × Nat) :=
  (s.get? i).map fun e => (e.free, e.freeTime, e.fields.size)

/-- **Only words that were touched have changed.** -/
structure Patched (s : EdictStore) (touched : Nat → Nat → Prop) (s' : EdictStore) : Prop where
  fieldWords : s'.fieldWords = s.fieldWords
  count : s'.count = s.count
  inUse : s'.inUse = s.inUse
  config : s'.config = s.config
  headers : ∀ i, s'.header? i = s.header? i
  words : ∀ i k, ¬ touched i k → s'.word? i k = s.word? i k

theorem Patched.refl (s : EdictStore) (touched : Nat → Nat → Prop) : s.Patched touched s :=
  ⟨rfl, rfl, rfl, rfl, fun _ => rfl, fun _ _ _ => rfl⟩

theorem Patched.trans (h : s.Patched touched s₁) (h' : s₁.Patched touched s') : s.Patched touched s' where
  fieldWords := h'.fieldWords.trans h.fieldWords
  count := h'.count.trans h.count
  inUse := h'.inUse.trans h.inUse
  config := h'.config.trans h.config
  headers i := (h'.headers i).trans (h.headers i)
  words i k away := (h'.words i k away).trans (h.words i k away)

theorem Patched.mono {touched' : Nat → Nat → Prop} (h : s.Patched touched s')
    (wider : ∀ i k, touched i k → touched' i k) : s.Patched touched' s' :=
  { h with words := fun i k away => h.words i k fun inside => away (wider i k inside) }

variable {id : EdictId} {ofs : Nat} {ws : List Word}

/-- A record that a write was checked against has the words. -/
theorem room_of_checkWrite (h : s.checkWrite id ofs ws.length = .ok ()) :
    ∃ e, s.get? id.toNat = some e ∧ ofs + ws.length ≤ e.fields.size := by
  unfold checkWrite EdictStore.get at h
  cases found : s.get? id.toNat with
  | none => rw [found] at h; cases h
  | some e =>
    rw [found] at h
    refine ⟨e, rfl, Nat.not_lt.mp fun outside => ?_⟩
    have refused : e.check ofs ws.length = .error (e.bad ofs) := if_neg (Nat.not_le.mpr outside)
    cases refused.symm.trans h

/-- A record with so many words can be written to. -/
theorem checkWrite_of_header {free : Bool} {time : Single} {width n : Nat}
    (h : s.header? id.toNat = some (free, time, width)) (room : ofs + n ≤ width) :
    s.checkWrite id ofs n = .ok () := by
  obtain ⟨e, found, same⟩ := Option.map_eq_some_iff.mp h
  cases same
  rw [checkWrite, EdictStore.get, found]
  exact if_pos room

/-- **Overwriting words of a record** touches these words. -/
theorem Tiled.overwrite_patched (tiled : s.Tiled) (checked : s.checkWrite id ofs ws.length = .ok ()) :
    s.Patched (fun i k => i = id.toNat ∧ ofs ≤ k ∧ k < ofs + ws.length) (s.overwrite id ofs ws) ∧
    ∀ j, j < ws.length → (s.overwrite id ofs ws).word? id.toNat (ofs + j) = ws[j]? := by
  obtain ⟨e, found, room⟩ := room_of_checkWrite checked
  obtain ⟨count, own, others⟩ := tiled.get?_modify id.toNat (keepsWidth_overwrite s.fieldWords ofs ws)
  rw [found, Option.map_some] at own
  have written (k : Nat) := Block.getElem?_writeFrom e.fields ofs k ws room
  have kept : (s.overwrite id ofs ws).fieldWords = s.fieldWords ∧ (s.overwrite id ofs ws).inUse = s.inUse ∧
      (s.overwrite id ofs ws).config = s.config := by
    unfold overwrite EdictStore.modify
    split <;> exact ⟨rfl, rfl, rfl⟩
  refine ⟨⟨kept.1, count, kept.2.1, kept.2.2, fun i => ?_, fun i k away => ?_⟩, fun j hj => ?_⟩
  · rw [header?, header?, overwrite]
    by_cases same : i = id.toNat
    · rw [same, own, found, Option.map_some, Option.map_some, Edict.overwrite, Block.size_writeFrom]
    · rw [others i same]
  · rw [word?, word?, overwrite]
    by_cases same : i = id.toNat
    · rw [same, own, found, Option.bind_some, Option.bind_some]
      exact (written k).trans (if_neg fun inside => away ⟨same, inside⟩)
    · rw [others i same]
  · rw [word?, overwrite, own, Option.bind_some]
    refine (written (ofs + j)).trans ((if_pos ⟨Nat.le_add_right _ _, by omega⟩).trans ?_)
    rw [Nat.add_sub_cancel_left]

end EdictStore

/-! ## 4. What a statement may change. -/

/-- What a vector operation does to each component. -/
def VectorOp.component : VectorOp → FloatOp
  | .add => .add
  | .sub => .sub

namespace Machine

/-- Where a statement that writes through a pointer writes to. -/
def Addresses (m : Machine) (st : Statement) (target : FieldPointer) : Prop :=
  ∃ ptr, m.globals.words[st.gb]? = some ptr ∧
    FieldPointer.decode ptr m.edicts.fieldWords m.edicts.count = .ok target

/-- **The globals that a statement may change**: the words of its third operand, except for a move between globals,
    a call and a return. -/
def Writes (m : Machine) (st : Statement) (k : Nat) : Prop :=
  match st.op with
  | .store s => st.gb ≤ k ∧ k < st.gb + s.words
  | .call _ => ∃ g func, m.callee? = some g ∧ m.program.function? g = some func ∧ func.IsParm k
  | .done | .ret => (Global.returned ≤ k ∧ k < Global.returned + 3) ∨
      ∃ func, m.program.function? m.current = some func ∧ func.parmStart ≤ k ∧ k < func.parmStart + func.locals
  | op => ∃ words, op.operands.2.2 = .global words ∧ st.gc ≤ k ∧ k < st.gc + words

/-- **The words of records that a statement may change**: those that its pointer addresses, and the three words
    that belong to the animation of `self`. -/
def Stores (m : Machine) (st : Statement) (i k : Nat) : Prop :=
  match st.op with
  | .storeThrough s => ∃ target, m.Addresses st target ∧ i = target.edict.toNat ∧
      target.field ≤ k ∧ k < target.field + s.words
  | .state => ∃ self, m.globals.words[Global.self]? = some self ∧ i = self.toNat ∧
      (HotFields.find m.program "nextthink" .float = some k ∨ HotFields.find m.program "frame" .float = some k ∨
        HotFields.find m.program "think" .function = some k)
  | _ => False

/-- **Words that go together were written together**: every word comes from words of before the statement. -/
def Moves (m : Machine) (st : Statement) (m' : Machine) : Prop :=
  match st.op with
  | .store s => ∀ j, j < s.words → m'.globals.words[st.gb + j]? = m.globals.words[st.ga + j]?
  | .load s => ∃ id field, m.globals.words[st.ga]? = some id ∧ m.globals.words[st.gb]? = some field ∧
      ∀ j, j < s.words → m'.globals.words[st.gc + j]? = m.edicts.word? id.toNat (field.toNat + j)
  | .storeThrough s => ∃ target, m.Addresses st target ∧
      ∀ j, j < s.words → m'.edicts.word? target.edict.toNat (target.field + j) = m.globals.words[st.ga + j]?
  | .vector op => ∀ j, j < 3 → ∃ x y, m.globals.words[st.ga + j]? = some x ∧ m.globals.words[st.gb + j]? = some y ∧
      m'.globals.words[st.gc + j]? = some (op.component.apply x.toSingle y.toSingle).bits
  | .scaleLeft => ∃ x, m.globals.words[st.ga]? = some x ∧ ∀ j, j < 3 → ∃ y, m.globals.words[st.gb + j]? = some y ∧
      m'.globals.words[st.gc + j]? = some (x.toSingle * y.toSingle).bits
  | .scaleRight => ∃ y, m.globals.words[st.gb]? = some y ∧ ∀ j, j < 3 → ∃ x, m.globals.words[st.ga + j]? = some x ∧
      m'.globals.words[st.gc + j]? = some (y.toSingle * x.toSingle).bits
  | _ => True

/-- **What a statement that succeeded has done** to the globals, the records and the strings. -/
structure Framed (m : Machine) (st : Statement) (m' : Machine) : Prop where
  strings : m'.strings = m.strings
  size : m'.globals.size = m.globals.size
  globals : ∀ k, ¬ m.Writes st k → m'.globals.words[k]? = m.globals.words[k]?
  edicts : m.edicts.Patched (m.Stores st) m'.edicts
  whole : (∀ i k, ¬ m.Stores st i k) → m'.edicts = m.edicts
  moves : m.Moves st m'

/-- **What a statement that failed has done** to them: nothing. -/
structure Untouched (m m' : Machine) : Prop where
  globals : m'.globals = m.globals
  edicts : m'.edicts = m.edicts
  strings : m'.strings = m.strings

theorem Untouched.refl (m : Machine) : m.Untouched m := ⟨rfl, rfl, rfl⟩

end Machine

/-! ## 5. Statements that compute and move words. -/

namespace Engine

variable {α β : Type} {m : Machine} {st : Statement}

/-- An action that only looks. -/
def Reading (act : Engine α) : Prop := ∀ m, Ends act m (fun _ m' => m = m') fun _ m' => m = m'

theorem Reading.pure (a : α) : Reading (Pure.pure a) := fun _ => rfl

theorem Reading.fail (c : Cause) : Reading (Engine.fail c : Engine α) := fun _ => rfl

theorem Reading.get : Reading (MonadState.get : Engine Machine) := fun _ => rfl

theorem Reading.reads (f : Machine → Except Error α) : Reading (reads f) :=
  fun _ => ends_reads (fun _ _ => rfl) fun _ _ => rfl

theorem Reading.bind {x : Engine β} {f : β → Engine α} (hx : Reading x) (hf : ∀ b, Reading (f b)) :
    Reading (x >>= f) := by
  intro m
  refine ends_bind ((hx m).mono (fun b m₁ same => ?_) fun _ _ same => same)
  subst same
  exact hf b m

theorem checkWorldWrite_reading (id : EdictId) : Reading (checkWorldWrite id) := by
  refine Reading.get.bind fun m => ?_
  split
  · exact .fail _
  · exact .pure _

theorem compareStrings_reading (a b : Nat) : Reading (compareStrings a b) :=
  (Reading.reads _).bind fun _ => (Reading.reads _).bind fun _ => .reads _

theorem isNone_reading (k : RefKind) (w : Word) : Reading (isNone k w) := by
  cases k with
  | string => exact Reading.get.bind fun _ => .pure _
  | entity => exact .pure _
  | function => exact .pure _

/-- What follows finds the machine as it was. -/
theorem Reading.then {x : Engine β} {f : β → Engine α} {Q : α → Machine → Prop} (hx : Reading x)
    (hf : ∀ b, Ends (f b) m Q fun _ m' => m.Untouched m') : Ends (x >>= f) m Q fun _ m' => m.Untouched m' := by
  refine ends_bind ((hx m).mono (fun b m₁ same => ?_) fun _ m₁ same => ?_)
  · subst same
    exact hf b
  · subst same
    exact .refl m

/-- **A statement that ends by writing globals.** -/
theorem write_framed {ofs : Nat} {ws : List Word} (writes : ∀ k, ofs ≤ k → k < ofs + ws.length → m.Writes st k)
    (moves : ∀ m', (∀ j, j < ws.length → m'.globals.words[ofs + j]? = ws[j]?) → m.Moves st m') :
    Ends (write ofs ws) m (fun _ m' => m.Framed st m') fun _ m' => m.Untouched m' := by
  refine (write_refills m ofs ws).mono (fun _ m' written => ?_) fun _ m' same => same ▸ .refl m
  obtain ⟨refills, written⟩ := written
  have edicts : m'.edicts = m.edicts := by rw [refills.rest]
  refine ⟨by rw [refills.rest], refills.size, fun k away => refills.outside k ?_, ?_, fun _ => edicts,
    moves m' written⟩
  · by_contra inside
    exact away (writes k (by omega) (by omega))
  · rw [edicts]
    exact .refl _ _

/-- A statement that moves words between globals. -/
theorem store_framed {s : Slot} (op : st.op = .store s) :
    Ends (do write st.gb (← slice st.ga s.words).toList) m (fun _ m' => m.Framed st m')
      fun _ m' => m.Untouched m' := by
  refine ends_bind (ends_reads (fun ws sliced => ?_) fun _ _ => .refl m)
  obtain ⟨size, words⟩ := GlobalBlock.getElem?_of_slice sliced
  have length : ws.toList.length = s.words := by rw [Array.length_toList, size]
  refine write_framed (fun k low high => ?_) fun m' written => ?_
  · rw [Machine.Writes, op]
    exact ⟨low, length ▸ high⟩
  · rw [Machine.Moves, op]
    intro j hj
    rw [written j (by omega), words j hj]

/-- A statement that reads a field. -/
theorem load_framed {s : Slot} (op : st.op = .load s) :
    Ends (load st.ga st.gb st.gc s.words) m (fun _ m' => m.Framed st m') fun _ m' => m.Untouched m' := by
  refine ends_bind (ends_reads (fun id named => ?_) fun _ _ => .refl m)
  refine ends_bind (ends_reads (fun field placed => ?_) fun _ _ => .refl m)
  refine ends_bind (ends_reads (fun ws read => ?_) fun _ _ => .refl m)
  have words : ws.size = s.words ∧ ∀ j, j < s.words → ws.toList[j]? = m.edicts.word? id.toNat (field.toNat + j) := by
    unfold EdictStore.get at read
    cases found : m.edicts.get? id.toNat with
    | none => rw [found] at read; cases read
    | some e =>
      rw [found] at read
      have sliced : (⟨e.fields⟩ : GlobalBlock).slice field.toNat s.words = .ok ws := by
        simp only [bind, Except.bind, Edict.words] at read
        rw [GlobalBlock.slice]
        split at read
        · next ws' sliced => rw [sliced]; exact read
        · cases read
      obtain ⟨size, words⟩ := GlobalBlock.getElem?_of_slice sliced
      refine ⟨size, fun j hj => (words j hj).trans ?_⟩
      rw [EdictStore.word?, found, Option.bind_some]
  have length : ws.toList.length = s.words := by rw [Array.length_toList, words.1]
  refine write_framed (fun k low high => ?_) fun m' written => ?_
  · rw [Machine.Writes, op]
    exact ⟨s.words, rfl, low, length ▸ high⟩
  · rw [Machine.Moves, op]
    refine ⟨id, field, GlobalBlock.getElem?_of_get named, GlobalBlock.getElem?_of_get placed, fun j hj => ?_⟩
    rw [written j (by omega), words.2 j hj]

/-- A statement on two vectors. -/
theorem vector_framed {op : VectorOp} (hop : st.op = .vector op) :
    Ends (do setVector st.gc (op.apply (← vector st.ga) (← vector st.gb))) m (fun _ m' => m.Framed st m')
      fun _ m' => m.Untouched m' := by
  refine ends_bind (ends_reads (fun u left => ?_) fun _ _ => .refl m)
  refine ends_bind (ends_reads (fun v right => ?_) fun _ _ => .refl m)
  refine write_framed (fun k low high => ?_) fun m' written => ?_
  · rw [Machine.Writes, hop]
    exact ⟨3, rfl, low, high⟩
  · rw [Machine.Moves, hop]
    intro j hj
    rw [GlobalBlock.getElem?_of_vector left hj, GlobalBlock.getElem?_of_vector right hj, written j hj]
    match j, hj with
    | 0, _ => exact ⟨_, _, rfl, rfl, by cases op <;> rfl⟩
    | 1, _ => exact ⟨_, _, rfl, rfl, by cases op <;> rfl⟩
    | 2, _ => exact ⟨_, _, rfl, rfl, by cases op <;> rfl⟩

/-- A float and a vector, in either order: the three words that are left. -/
theorem scaled_words {m' : Machine} {x : Single} {v : Vec3} {from' to' j : Nat}
    (read : m.globals.vector from' = .ok v)
    (written : ∀ j, j < (Vec3.scale x v).toWords.length → m'.globals.words[to' + j]? = (Vec3.scale x v).toWords[j]?)
    (hj : j < 3) : ∃ y, m.globals.words[from' + j]? = some y ∧
      m'.globals.words[to' + j]? = some (x * y.toSingle).bits := by
  rw [GlobalBlock.getElem?_of_vector read hj, written j hj]
  match j, hj with
  | 0, _ => exact ⟨_, rfl, rfl⟩
  | 1, _ => exact ⟨_, rfl, rfl⟩
  | 2, _ => exact ⟨_, rfl, rfl⟩

theorem scaleLeft_framed (op : st.op = .scaleLeft) :
    Ends (do setVector st.gc (.scale (← float st.ga) (← vector st.gb))) m (fun _ m' => m.Framed st m')
      fun _ m' => m.Untouched m' := by
  refine ends_bind (ends_reads (fun x left => ?_) fun _ _ => .refl m)
  refine ends_bind (ends_reads (fun v right => ?_) fun _ _ => .refl m)
  refine write_framed (fun k low high => ?_) fun m' written => ?_
  · rw [Machine.Writes, op]
    exact ⟨3, rfl, low, high⟩
  · rw [Machine.Moves, op]
    exact ⟨x.bits, GlobalBlock.getElem?_of_float left, fun j hj => scaled_words right written hj⟩

theorem scaleRight_framed (op : st.op = .scaleRight) :
    Ends (do let v ← vector st.ga; setVector st.gc (.scale (← float st.gb) v)) m (fun _ m' => m.Framed st m')
      fun _ m' => m.Untouched m' := by
  refine ends_bind (ends_reads (fun v left => ?_) fun _ _ => .refl m)
  refine ends_bind (ends_reads (fun x right => ?_) fun _ _ => .refl m)
  refine write_framed (fun k low high => ?_) fun m' written => ?_
  · rw [Machine.Writes, op]
    exact ⟨3, rfl, low, high⟩
  · rw [Machine.Moves, op]
    exact ⟨x.bits, GlobalBlock.getElem?_of_float right, fun j hj => scaled_words left written hj⟩

/-- A statement that writes through a pointer. -/
theorem storeThrough_framed (tiled : m.edicts.Tiled) {s : Slot} (op : st.op = .storeThrough s) :
    Ends (storeThrough st.ga st.gb s.words) m (fun _ m' => m.Framed st m') fun _ m' => m.Untouched m' := by
  refine ends_bind (ends_reads (fun ptr named => ?_) fun _ _ => .refl m)
  refine ends_bind (ends_reads (fun target decoded => ?_) fun _ _ => .refl m)
  have addresses : m.Addresses st target := ⟨ptr, GlobalBlock.getElem?_of_get named, decoded⟩
  refine (checkWorldWrite_reading target.edict).then fun _ => ?_
  refine ends_bind (ends_reads (fun ws sliced => ?_) fun _ _ => .refl m)
  obtain ⟨size, words⟩ := GlobalBlock.getElem?_of_slice sliced
  have length : ws.toList.length = s.words := by rw [Array.length_toList, size]
  refine ends_update (fun _ checked => ?_) fun _ _ => .refl m
  obtain ⟨patched, written⟩ := tiled.overwrite_patched checked
  refine ⟨rfl, rfl, fun _ _ => rfl, patched.mono fun i k inside => ?_, fun nothing => ?_, ?_⟩
  · rw [Machine.Stores, op]
    rw [length] at inside
    exact ⟨target, addresses, inside⟩
  · -- some word was addressed
    have some : 0 < s.words := by cases s <;> decide
    refine absurd ?_ (nothing target.edict.toNat target.field)
    rw [Machine.Stores, op]
    exact ⟨target, addresses, rfl, Nat.le_refl _, by omega⟩
  · rw [Machine.Moves, op]
    refine ⟨target, addresses, fun j hj => ?_⟩
    exact (written j (by omega)).trans (words j hj)

/-- The records have been written to, where the statement may. -/
structure Patching (m : Machine) (st : Statement) (n : Machine) : Prop where
  rest : n = { m with edicts := n.edicts }
  tiled : n.edicts.Tiled
  edicts : m.edicts.Patched (m.Stores st) n.edicts
  whole : (∀ i k, ¬ m.Stores st i k) → n.edicts = m.edicts

/-- A write of one more word, for which every record has a place. -/
theorem patching_put {n : Machine} {id : EdictId} {e : Edict} (h : Patching m st n) (found : m.edicts.get id = .ok e)
    {ofs : Option Nat} (stores : ∀ k, ofs = some k → m.Stores st id.toNat k)
    (room : ∀ k, ofs = some k → k + 1 ≤ e.fields.size) (w : Word) :
    Ends (match ofs with
      | some ofs => writeField id ofs [w]
      | none => Pure.pure ()) n (fun _ n' => Patching m st n') fun _ _ => False := by
  cases ofs with
  | none => exact h
  | some k =>
    have header : n.edicts.header? id.toNat = some (e.free, e.freeTime, e.fields.size) := by
      rw [h.edicts.headers, EdictStore.header?, EdictStore.get?_of_get found, Option.map_some]
    have inside : n.edicts.checkWrite id k [w].length = .ok () := EdictStore.checkWrite_of_header header (room k rfl)
    refine ends_update (fun _ checked => ?_) fun e refused => ?_
    · obtain ⟨patched, -⟩ := h.tiled.overwrite_patched checked
      refine ⟨by rw [h.rest], h.tiled.modify _ _, h.edicts.trans (patched.mono fun i l touched => ?_),
        fun nothing => ?_⟩
      · obtain ⟨rfl, low, high⟩ := touched
        have same : l = k := Nat.le_antisymm (Nat.le_of_lt_succ high) low
        exact same ▸ stores k rfl
      · exact absurd (stores k rfl) (nothing _ _)
    · cases refused.symm.trans inside

/-- **The statement that sets an animation.** Each of the three fields that the program has lies inside the record, so
    that none is refused once another was written. -/
theorem state_framed (furnished : m.Furnished) (op : st.op = .state) :
    Ends (state st.ga st.gb) m (fun _ m' => m.Framed st m') fun _ m' => m.Untouched m' := by
  refine ends_bind (ends_reads (fun id named => ?_) fun _ _ => .refl m)
  refine (checkWorldWrite_reading id).then fun _ => (Reading.reads _).then fun time => ?_
  refine (Reading.reads _).then fun frame => (Reading.reads _).then fun think => ?_
  refine ends_bind (ends_reads (fun e found => ?_) fun _ _ => .refl m)
  refine ends_bind (ends_get ?_)
  have stores (k : Nat) (h : HotFields.find m.program "nextthink" .float = some k ∨
      HotFields.find m.program "frame" .float = some k ∨ HotFields.find m.program "think" .function = some k) :
      m.Stores st id.toNat k := by
    rw [Machine.Stores, op]
    exact ⟨id, GlobalBlock.getElem?_of_get named, rfl, h⟩
  have room {name : String} {type : ValueType} (single : type.words = 1) (typed : type ≠ .void) (k : Nat)
      (h : HotFields.find m.program name type = some k) : k + 1 ≤ e.fields.size := by
    rw [furnished.width found, ← single]
    exact HotFields.find_inside furnished.fields typed h
  obtain ⟨config, ordered⟩ := furnished.edicts
  have begun : Patching m st m := ⟨rfl, ordered.tiled, .refl _ _, fun _ => rfl⟩
  rw [furnished.hot]
  refine ends_bind ((patching_put begun found (fun k h => stores k (.inl h)) (room rfl nofun) _).mono
    (fun _ m₁ first => ?_) fun _ _ never => never.elim)
  refine ends_bind ((patching_put first found (fun k h => stores k (.inr (.inl h))) (room rfl nofun) _).mono
    (fun _ m₂ second => ?_) fun _ _ never => never.elim)
  refine (patching_put second found (fun k h => stores k (.inr (.inr h))) (room rfl nofun) _).mono
    (fun _ m₃ third => ?_) fun _ _ never => never.elim
  refine ⟨by rw [third.rest], by rw [third.rest], fun k _ => by rw [third.rest], third.edicts, third.whole, ?_⟩
  rw [Machine.Moves, op]
  trivial

/-- Nothing was written, and nothing had to be. -/
theorem framed_refl (moves : m.Moves st m) : m.Framed st m :=
  ⟨rfl, rfl, fun _ _ => rfl, .refl _ _, fun _ => rfl, moves⟩

/-- A statement that leaves one word in its third operand. -/
def leavesWord : Opcode → Bool
  | .float _ | .dot | .eqVector | .neVector | .eqRef _ | .neRef _ => true
  | .notFloat | .notVector | .notRef _ | .address => true
  | _ => false

theorem setWord_framed (single : leavesWord st.op = true) (w : Word) :
    Ends (setWord st.gc w) m (fun _ m' => m.Framed st m') fun _ m' => m.Untouched m' := by
  obtain ⟨op, a, b, c⟩ := st
  cases op with
  | float _ | dot | eqVector | neVector | eqRef _ | neRef _ | notFloat | notVector | notRef _ | address =>
    exact write_framed (fun k low high => ⟨1, rfl, low, high⟩) fun _ _ => trivial
  | _ => cases single

/-- **A statement that computes or moves words**, whatever it is. -/
theorem compute_framed (furnished : m.Furnished) (st : Statement) :
    Ends (compute st) m (fun _ m' => m.Framed st m') fun _ m' => m.Untouched m' := by
  obtain ⟨config, ordered⟩ := furnished.edicts
  obtain ⟨op, a, b, c⟩ := st
  cases op with
  | done | ret | branchIf | branchIfNot | goto | call argc => exact framed_refl trivial
  | float _ | dot | eqVector | neVector =>
    exact (Reading.reads _).then fun _ => (Reading.reads _).then fun _ => setWord_framed rfl _
  | notFloat | notVector => exact (Reading.reads _).then fun _ => setWord_framed rfl _
  | eqRef k | neRef k =>
    cases k with
    | string => exact (compareStrings_reading _ _).then fun _ => setWord_framed rfl _
    | entity | function =>
      exact (Reading.reads _).then fun _ => (Reading.reads _).then fun _ => setWord_framed rfl _
  | notRef k => exact (Reading.reads _).then fun _ => (isNone_reading k _).then fun _ => setWord_framed rfl _
  | address =>
    refine (Reading.reads _).then fun id => (checkWorldWrite_reading id).then fun _ => ?_
    refine (Reading.reads _).then fun _ => (Reading.reads _).then fun _ => (Reading.reads _).then fun _ => ?_
    exact setWord_framed rfl _
  | vector op => exact vector_framed rfl
  | scaleLeft => exact scaleLeft_framed rfl
  | scaleRight => exact scaleRight_framed rfl
  | load s => exact load_framed rfl
  | store s => exact store_framed rfl
  | storeThrough s => exact storeThrough_framed ordered.tiled rfl
  | state => exact state_framed furnished rfl

/-! ## 6. Calls and returns. -/

/-- Words that are there are copied to words that are there. -/
theorem copyWords_total {src dst n : Nat} (from' : src + n ≤ m.globals.size) (to' : dst + n ≤ m.globals.size) :
    Ends (copyWords src dst n) m (fun _ m' => m'.globals.size = m.globals.size) fun _ _ => False := by
  induction n generalizing m src dst with
  | zero => exact rfl
  | succ n ih =>
    refine ends_bind (ends_reads (fun w _ => ?_) fun _ missing => GlobalBlock.get_ne_error (by omega) missing)
    refine ends_bind ((write_ends m (by rw [List.length_singleton]; omega)).mono ?_ fun _ _ never => never)
    rintro _ m₁ written
    have size : m₁.globals.size = m.globals.size := by rw [← written]; exact GlobalBlock.size_overwrite _
    refine (ih (by omega) (by omega)).mono (fun _ _ same => same.trans size) fun _ _ never => never

/-- **Arguments are copied without fail** to a place inside the block. -/
theorem copyArgs_total (wellKnown : Global.count ≤ m.globals.size) {i dst : Nat} {sizes : List Nat}
    (few : i + sizes.length ≤ Global.maxParms) (narrow : ∀ n ∈ sizes, n ≤ 3)
    (to' : dst + sizes.sum ≤ m.globals.size) :
    Ends (copyArgs i dst sizes) m (fun _ _ => True) fun _ _ => False := by
  induction sizes generalizing m i dst with
  | nil => exact trivial
  | cons size sizes ih =>
    rw [List.length_cons] at few
    rw [List.sum_cons] at to'
    have width := narrow size List.mem_cons_self
    have slot := parm_lt wellKnown (n := i) (by rw [Global.maxParms] at few; omega)
    refine ends_bind ((copyWords_total (by omega) (by omega)).mono (fun _ m₁ same => ?_) fun _ _ never => never)
    exact ih (by omega) (by omega) (fun n hn => narrow n (List.mem_cons_of_mem _ hn)) (by omega)

/-- **Entering** fills the parameters. It fails before it writes to the globals: what the loader has checked is enough
    for the arguments to find their place. -/
theorem enter_framed (ready : m.Ready) (g : FuncRef) :
    Ends (enter g) m
      (fun _ m' => ∃ func, m.program.function? g = some func ∧ m'.strings = m.strings ∧ m'.edicts = m.edicts ∧
        m'.globals.size = m.globals.size ∧ ∀ k, ¬ func.IsParm k → m'.globals.words[k]? = m.globals.words[k]?)
      fun _ m' => m.Untouched m' := by
  refine ends_bind ((function_ends m g).mono ?_ fun _ m' same => same.1 ▸ .refl m)
  rintro func _ ⟨rfl, -, found⟩
  cases entry : func.codeStart? with
  | none => exact .refl m
  | some entry' =>
    have fits := fits_of_function? ready found
    have code : func.codeStart?.isSome := Option.isSome_of_eq_some entry
    refine ends_bind ((pushFrame_ends m).mono ?_ fun _ m' same => same.1 ▸ .refl m)
    rintro _ _ ⟨-, rfl⟩
    refine ends_bind (ends_reads (fun region _ => ?_) fun _ _ => ⟨rfl, rfl, rfl⟩)
    refine ends_bind ((saveLocals_ends _ region).mono ?_ fun _ m' same => same.1 ▸ ⟨rfl, rfl, rfl⟩)
    rintro _ m₁ ⟨-, saved⟩
    have same : m.Untouched m₁ := saved ▸ ⟨rfl, rfl, rfl⟩
    have total : Ends (copyArgs 0 func.parmStart func.passedSizes) m₁ (fun _ _ => True) fun _ _ => False := by
      refine copyArgs_total ?_ ?_ (fits.widths code) ?_
      · rw [same.globals]
        exact ready.program.wellKnown
      · rw [Nat.zero_add]
        exact length_passedSizes func
      · rw [same.globals]
        exact fits.parms code
    refine ends_bind (ends_iff.mpr ⟨fun _ m₂ copied => ?_, fun _ _ failed => (total.error failed).elim⟩)
    have refills := (copyArgs_refills m₁ _ _ _).ok copied
    refine ends_bind (ends_modify (ends_pure ⟨func, found, ?_, ?_, ?_, fun k other => ?_⟩))
    · rw [refills.rest]
      exact same.strings
    · rw [refills.rest]
      exact same.edicts
    · exact refills.size.trans (by rw [same.globals])
    · rw [← same.globals]
      refine refills.outside k ?_
      rw [Function.IsParm, func.parmWords_eq_sum] at other
      omega

/-- **The turn at a call** of anything but a builtin. -/
theorem call_framed (ready : m.Ready) {argc : Fin 9} (hst : m.program.statements[m.statement]? = some st)
    (op : st.op = .call argc) (other : m.native? = none)
    (dispatch : Native → Engine Unit) :
    Ends (cycle dispatch m.statement) m (fun _ m' => m.Framed st m') fun _ m' => m.Untouched m' := by
  cases callee : m.callee? with
  | none =>
    -- the word that names the function is there
    have operand := (ready.program.statements m.statement st hst).a
    rw [op] at operand
    rw [Machine.callee?_eq hst op, Array.getElem?_eq_none_iff] at callee
    exact absurd operand (Nat.not_le.mpr (Nat.lt_succ_of_le callee))
  | some g =>
    obtain ⟨n, eq⟩ := @cycle_of_callee m g dispatch callee
    rw [Ends, eq]
    refine ends_bind ((function_ends (m.calling n) g).mono ?_ fun _ m' same => same.1 ▸ ⟨rfl, rfl, rfl⟩)
    rintro func _ ⟨rfl, known, found⟩
    cases builtin : func.builtinNumber? with
    | some number =>
      have native : m.program.isNative g = true := by
        have found : m.program.function? g = some func := found
        simp [Program.isNative, known, found, builtin]
      rw [Machine.native?, callee, Option.filter_some_pos native] at other
      cases other
    | none =>
      have ready' : (m.calling n).Ready := ⟨ready.program, ready.cursor, ready.edicts⟩
      refine ends_bind ((enter_framed ready' g).mono ?_ fun _ m' same => ⟨same.globals, same.edicts, same.strings⟩)
      rintro entry m' ⟨func', found', strings, edicts, size, outside⟩
      refine ends_pure ⟨strings, size, fun k away => outside k fun parm => away ?_, ?_, fun _ => edicts, ?_⟩
      · rw [Machine.Writes, op]
        exact ⟨g, func', callee, found', parm⟩
      · rw [edicts]
        exact .refl _ _
      · rw [Machine.Moves, op]
        trivial

/-- **A return from a function that can be left** succeeds. -/
theorem return_framed (ready : m.Ready) {func : Function} (can : m.CanLeave func) (returns : st.op.isReturn = true) :
    Ends (do returnWords st.ga; return Flow.returned (← leave)) m (fun _ m' => m.Framed st m')
      fun _ m' => m.Untouched m' := by
  have writes (k : Nat) : m.Writes st k ↔ (Global.returned ≤ k ∧ k < Global.returned + 3) ∨
      ∃ func, m.program.function? m.current = some func ∧ func.parmStart ≤ k ∧ k < func.parmStart + func.locals := by
    obtain ⟨op, a, b, c⟩ := st
    cases op with
    | done | ret => exact Iff.rfl
    | _ => cases returns
  refine ends_bind (ends_bind (ends_get ((write_refills m _ _).mono ?_ fun _ m' same => same ▸ .refl m)))
  rintro _ m₁ ⟨refills, -⟩
  have leavable : m₁.CanLeave func := by
    rw [refills.rest]
    exact { can with }
  have ready₁ : m₁.Ready := by
    rw [refills.rest]
    exact ⟨refills.size ▸ ready.program, ready.cursor, ready.edicts⟩
  refine ends_bind (ends_iff.mpr ⟨fun pc m₂ left => ?_, fun e m₂ stuck => ?_⟩)
  · obtain ⟨func', found, put⟩ := (leave_refills m₁).ok left
    have edicts : m₂.edicts = m.edicts := by rw [put.rest, refills.rest]
    refine ends_pure ⟨by rw [put.rest, refills.rest], put.size.trans refills.size, fun k away => ?_, ?_,
      fun _ => edicts, ?_⟩
    · rw [writes, not_or] at away
      obtain ⟨spared, kept⟩ := away
      have own : m.program.function? m.current = some func' := by
        rw [refills.rest] at found
        exact found
      have outside : ¬ (func'.parmStart ≤ k ∧ k < func'.parmStart + func'.locals) :=
        fun inside => kept ⟨func', own, inside⟩
      refine (put.outside k (by omega)).trans (refills.outside k ?_)
      rw [List.length_cons, List.length_cons, List.length_singleton]
      omega
    · rw [edicts]
      exact .refl _ _
    · obtain ⟨op, a, b, c⟩ := st
      cases op with
      | done | ret => exact trivial
      | _ => cases returns
  · exact absurd leavable (((leave_ends ready₁).error stuck).2 func)

/-! ## 7. Every statement of every run. -/

theorem jump_reading (pc : Nat) (st : Statement) : Reading (jump pc st) := by
  refine Reading.get.bind fun m => ?_
  dsimp only
  split
  · exact .pure _
  · exact .fail _

/-- **A turn** at any statement but the call of a builtin, where the running function can be left. -/
theorem cycle_framed (ready : m.Ready) (furnished : m.Furnished) {func : Function} (can : m.CanLeave func)
    (hst : m.program.statements[m.statement]? = some st) (other : m.native? = none)
    (dispatch : Native → Engine Unit) :
    Ends (cycle dispatch m.statement) m (fun _ m' => m.Framed st m') fun _ m' => m.Untouched m' := by
  by_cases calls : ∃ argc, st.op = .call argc
  · obtain ⟨argc, op⟩ := calls
    exact call_framed ready hst op other dispatch
  -- the host was told and the statement was counted: nothing that is looked at here
  let n := m.fetched m.statement
  have furnished' : n.Furnished := ⟨furnished.hot, furnished.fields, furnished.edicts⟩
  have ready' : n.Ready := ⟨ready.program, ready.cursor, ready.edicts⟩
  have can' : n.CanLeave func := ⟨can.found, can.code, can.depth, can.held⟩
  suffices turned : Ends (step dispatch m.statement st) n (fun _ m' => n.Framed st m') fun _ m' => n.Untouched m' by
    rw [Ends, cycle_eq hst]
    exact turned.mono (fun _ _ framed => ⟨framed.strings, framed.size, framed.globals, framed.edicts, framed.whole,
      framed.moves⟩) fun _ _ same => ⟨same.globals, same.edicts, same.strings⟩
  have jumped (moves : n.Moves st n) : Ends (jump m.statement st) n (fun _ m' => n.Framed st m')
      fun _ m' => n.Untouched m' :=
    (jump_reading m.statement st n).mono (fun _ _ same => same ▸ framed_refl moves) fun _ _ same => same ▸ .refl n
  have computed := compute_framed furnished' st
  have returned := @return_framed n st ready' func can'
  obtain ⟨op, a, b, c⟩ := st
  cases op with
  | done | ret => exact returned rfl
  | branchIf =>
    refine (Reading.reads _).then fun w => ?_
    split
    · exact jumped trivial
    · exact framed_refl trivial
  | branchIfNot =>
    refine (Reading.reads _).then fun w => ?_
    split
    · exact jumped trivial
    · exact framed_refl trivial
  | goto => exact jumped trivial
  | call argc => exact absurd ⟨argc, rfl⟩ calls
  | _ => exact ends_bind (computed.mono (fun _ _ framed => ends_pure framed) fun _ _ same => same)

variable {routines : Nat → Routine} {registry : Registry} {m₀ : Machine} {f : FuncRef} {opened : List Opened}

/-- **One statement, framed and whole.** Where no builtin of the host survives a failed execution, and none takes the
    records apart, every statement of every run that does not call a builtin writes to its destination and nowhere
    else, moves runs of words as a whole, and has written nothing if it fails. -/
theorem statement_frames (trusts : registry.Trusts routines) (host : ∀ key, (routines key).Keeps Machine.Furnished)
    (h : Reachable routines registry m₀) (nesting : Nat)
    (visits : Visits (Dispatch.link routines nesting) f m₀.started opened m)
    (hst : m.program.statements[m.statement]? = some st) (other : m.native? = none) :
    Ends (cycle (Dispatch.link routines nesting) m.statement) m (fun _ m' => m.Framed st m')
      fun _ m' => m.Untouched m' := by
  obtain ⟨sound, -, hr⟩ := h.sound trusts
  have start := Reachable.starts trusts sound hr nesting
  have inv := visits.inOrder start
  obtain ⟨o, rest, -, covers⟩ := inv.stacked.top
  have furnished := (Reachable.within nesting h visits).endures Machine.enduring_furnished host
  exact cycle_framed (start.sound.persists inv.persists).toReady furnished covers.canLeave hst other _

/-- An execution of the function enters it and passes its first statement, and then `P` holds. -/
def PassesFirst (dispatch : Native → Engine Unit) (f : FuncRef) (m : Machine) (P : Machine → Prop) : Prop :=
  Ends (enter f) m.started (fun entry m₁ =>
    Ends (cycle dispatch entry) (m₁.moveTo entry) (fun flow m₂ => flow = .next ∧ P (m₂.moveTo (entry + 1)))
      fun _ _ => False) fun _ _ => False

instance PassesFirst.decidable (dispatch : Native → Engine Unit) (f : FuncRef) (m : Machine) (P : Machine → Prop)
    [DecidablePred P] : Decidable (PassesFirst dispatch f m P) :=
  inferInstanceAs (Decidable (Ends (enter f) m.started (fun entry m₁ => Ends (cycle dispatch entry) (m₁.moveTo entry)
    (fun flow m₂ => flow = .next ∧ P (m₂.moveTo (entry + 1))) fun _ _ => False) fun _ _ => False))

theorem PassesFirst.visits {dispatch : Native → Engine Unit} {P : Machine → Prop} (h : PassesFirst dispatch f m₀ P) :
    ∃ m, Visits dispatch f m₀.started [⟨f, m₀.started⟩] m ∧ P m := by
  obtain ⟨entry, m₁, entered, ends⟩ := Ends.exists_ok h
  obtain ⟨_, m₂, passed, rfl, holds⟩ := ends.exists_ok
  exact ⟨_, .next (.entered entered) passed, holds⟩

/-- A program for one builtin of the host. Function 1 hands the function in word 4 to the builtin, then moves the
    three words from 92 on by one word, or returns them; function 2 only returns. -/
def handing (handed : Word) (then' : RawStatement) : ImageBuilder :=
  { statements := #[{}, { op := 52, a := 96 }, then', { op := 43 }]
    functions := #[{}, { firstStatement := 1, parmStart := 97 }, { firstStatement := 3, parmStart := 97 },
      { firstStatement := -1 }]
    globals := (Array.replicate 92 0).set! 4 handed ++ #[7, 8, 9, 10, 3] }

/-- The words 7, 8, 9 and 10 become 7, 7, 8 and 9. -/
theorem statement_frames_shifted : hosting.Trusts handingOn ∧ (∀ key, (handingOn key).Keeps Machine.Furnished) ∧
    ∃ m₀ opened m m', Reachable handingOn hosting m₀ ∧
    Visits (Dispatch.link handingOn 1) 1 m₀.started opened m ∧
    m.program.statements[m.statement]? = some ⟨.store .vector, 92, 93, 0⟩ ∧ m.native? = none ∧
    cycle (Dispatch.link handingOn 1) m.statement m = .ok .next m' ∧ m.Framed ⟨.store .vector, 92, 93, 0⟩ m' ∧
    m.globals.words.extract 92 96 = #[7, 8, 9, 10] ∧ m'.globals.words.extract 92 96 = #[7, 7, 8, 9] := by
  have loads : Machine.Loads (handing 2 { op := 32, a := 92, b := 93 }).build .small { numbering := .own } hosting
      fun m₀ =>
      PassesFirst (Dispatch.link handingOn 1) 1 m₀ fun m =>
        m.program.statements[m.statement]? = some ⟨.store .vector, 92, 93, 0⟩ ∧ m.native? = none ∧
        m.globals.words.extract 92 96 = #[7, 8, 9, 10] ∧
        Ends (cycle (Dispatch.link handingOn 1) m.statement) m (fun flow m' => flow = .next ∧
          m'.globals.words.extract 92 96 = #[7, 7, 8, 9]) fun _ _ => False := by
    decide +kernel
  have trusts : hosting.Trusts handingOn := fun _ _ _ _ => Routine.lawful_propagate _ (argWord_keeping 0)
  have host : ∀ key, (handingOn key).Keeps Machine.Furnished := by
    refine fun _ => ⟨argWord_reads 0, fun outcome => ?_⟩
    cases outcome with
    | ok _ => exact .pure _
    | error e => exact fun _ h => h
  obtain ⟨m₀, reachable, passes⟩ := loads.reachable handingOn
  obtain ⟨m, visits, hst, other, before, ends⟩ := passes.visits
  obtain ⟨_, m', turned, rfl, after⟩ := ends.exists_ok
  refine ⟨trusts, host, m₀, _, m, m', reachable, visits, hst, other, turned, ?_, before, after⟩
  exact (statement_frames trusts host reachable 1 visits hst other).ok turned

/-- **A return can fail half done.** Here the builtin is handed no function, and goes on when the execution fails.
    That has emptied both stacks under function 1. The return of function 1 has put its result in place when it finds
    that there is nothing to return to. -/
theorem return_torn : (∀ key, (goingOn key).Keeps Machine.Furnished) ∧
    ∃ m₀ opened m e m', Reachable goingOn hosting m₀ ∧ Visits (Dispatch.link goingOn 1) 1 m₀.started opened m ∧
    m.program.statements[m.statement]? = some ⟨.ret, 92, 0, 0⟩ ∧ m.native? = none ∧
    cycle (Dispatch.link goingOn 1) m.statement m = .error e m' ∧ e.cause = .stackUnderflow ∧ ¬ m.Untouched m' := by
  have loads : Machine.Loads (handing 0 { op := 43, a := 92 }).build .small { numbering := .own } hosting fun m₀ =>
      PassesFirst (Dispatch.link goingOn 1) 1 m₀ fun m =>
        m.program.statements[m.statement]? = some ⟨.ret, 92, 0, 0⟩ ∧ m.native? = none ∧
        m.globals.words[1]? = some 0 ∧
        Ends (cycle (Dispatch.link goingOn 1) m.statement) m (fun _ _ => False) fun e m' =>
          e.cause = .stackUnderflow ∧ m'.globals.words[1]? = some 7 := by
    decide +kernel
  obtain ⟨m₀, reachable, passes⟩ := loads.reachable goingOn
  obtain ⟨m, visits, hst, other, before, ends⟩ := passes.visits
  obtain ⟨e, m', failed, cause, after⟩ := ends.exists_error
  refine ⟨fun _ => ⟨argWord_reads 0, fun _ => .pure _⟩, m₀, _, m, e, m', reachable, visits, hst, other, failed,
    cause, fun same => ?_⟩
  rw [same.globals, before] at after
  exact absurd after (by decide)

end Engine

end QuakeProgs
