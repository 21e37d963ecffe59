/-
  File:      QuakeProgs/Proofs/Image/Acceptance.lean
  Subject:   WHICH BYTES ARE AN IMAGE, and what is known of a program once it is loaded.

  * `Acceptable` -- the conditions on the bytes, record by record at their positions;
  * `RawImage.decode_decides`, `Image.resolve_decides` -- the two halves of loading decide them;
  * `Program.Checked` -- what the checks leave behind: every operand, branch, entry and local range of
    the program lies where it must; `Program.Indexed` -- its indices are those of its tables;
  * `Image.load_checked` -- every loaded image has it;
  * `Image.load_accepts_exactly` -- loading succeeds exactly on `Acceptable` bytes, and a refusal is
    never a record that could not be read.
-/
import QuakeProgs.Proofs.Image.Layout
import QuakeProgs.Proofs.Image.Checks

namespace QuakeProgs

/-! ## 1. Tables. -/

namespace Extent

/-- The number of records, for a table inside the bytes. -/
def number (t : Extent) : Nat := t.count.toInt.toNat

/-- Where record `k` starts. -/
def place (t : Extent) (size k : Nat) : Nat := t.ofs.toInt.toNat + k * size

/-- A table of records of `size` bytes that lies inside `len` bytes. -/
structure Inside (t : Extent) (size len : Nat) : Prop where
  ofs : 0 ≤ t.ofs.toInt
  count : 0 ≤ t.count.toInt
  stop : t.place size t.number ≤ len

/-- The records of a table by position. -/
def table {α : Type} (t : Extent) (size : Nat) (at' : Bytes → Nat → α) (b : Bytes) : List α :=
  (List.range t.number).map fun k => at' b (t.place size k)

@[simp] theorem length_table {α : Type} (t : Extent) (size : Nat) (at' : Bytes → Nat → α) (b : Bytes) :
    (t.table size at' b).length = t.number := by
  rw [table, List.length_map, List.length_range]

/-- A condition on all records of a table is one on all positions. -/
theorem forall_table {α : Type} (t : Extent) (size : Nat) (at' : Bytes → Nat → α) (b : Bytes)
    (P : Nat → α → Prop) :
    (∀ k x, (t.table size at' b)[k]? = some x → P k x) ↔
      ∀ k, k < t.number → P k (at' b (t.place size k)) := by
  simp only [table, List.getElem?_map, Option.map_eq_some_iff]
  constructor
  · intro h k hk
    exact h k _ ⟨k, List.getElem?_range hk, rfl⟩
  · intro h k x hall
    obtain ⟨k', hk', rfl⟩ := hall
    obtain ⟨hk, rfl⟩ := List.getElem?_eq_some_iff.mp hk'
    rw [List.getElem_range]
    exact h k (by rwa [List.length_range] at hk)

theorem check_decides (t : Extent) {what : String} (hw : what ≠ "record") (size len : Nat) :
    Decides (t.check what size len) (t.Inside size len) fun _ => True := by
  refine ((Image.natural_decides t.count _).bind fun _ n hn =>
    (Image.natural_decides t.ofs _).bind (q := t.place size t.number ≤ len) fun _ start hs => ?_).congr ?_
  · have place : t.place size t.number = start + n * size := by
      rw [Extent.place, Extent.number, ← hn, ← hs, Int.toNat_natCast, Int.toNat_natCast]
    refine (Decides.refuseIf (e := Cause.truncated what start (start + n * size) len) hw
      fun _ => Decides.pure trivial).congr ?_
    rw [place, and_true, Nat.not_lt]
  · exact ⟨fun ⟨hc, ho, hl⟩ => ⟨ho, hc, hl⟩, fun h => ⟨h.count, h.ofs, h.stop⟩⟩

/-- **No record of a table inside the bytes is cut off.** -/
theorem read_eq_table {α : Type} {t : Extent} {r : Reader α} {size : Nat} {at' : Bytes → Nat → α}
    (hr : Reader.Finds r size at') {b : Bytes} (h : t.Inside size b.length) :
    t.read r b = .ok (t.table size at' b) := by
  have found := hr.many t.number b t.ofs.toInt.toNat h.stop
  rw [Extent.read]
  rw [Extent.number] at found
  rw [found]
  rfl

end Extent

/-! ## 2. The conditions on the bytes. -/

/-- The header: what it must say, and that the six tables it places lie inside the bytes. -/
structure Header.Fits (h : Header) (len : Nat) : Prop where
  version : h.version.toInt = 6
  crc : h.crc.toInt = 5927
  statements : h.statements.Inside 8 len
  globalDefs : h.globalDefs.Inside 8 len
  fieldDefs : h.fieldDefs.Inside 8 len
  functions : h.functions.Inside 36 len
  strings : h.strings.Inside 1 len
  globals : h.globals.Inside 4 len
  entityFields : 0 ≤ h.entityFields.toInt

/-- The records that a header places, each looked at where it lies. -/
structure Header.RecordsFit (h : Header) (b : Bytes) : Prop where
  wellKnown : 92 ≤ h.globals.number
  someFunction : 1 ≤ h.functions.number
  statements : ∀ i, i < h.statements.number →
    (RawStatement.at b (h.statements.place 8 i)).Fits i h.statements.number h.globals.number
  globalDefs : ∀ i, i < h.globalDefs.number →
    (RawDef.at b (h.globalDefs.place 8 i)).FitsGlobals h.strings.number h.globals.number
  fieldDefs : ∀ i, i < h.fieldDefs.number →
    (RawDef.at b (h.fieldDefs.place 8 i)).FitsFields h.strings.number h.entityFields.toInt.toNat
  functions : ∀ i, i < h.functions.number →
    (RawFunction.at b (h.functions.place 36 i)).Fits h.strings.number h.statements.number
      h.globals.number i

/-- **What bytes must satisfy to be an image.** -/
structure Acceptable (b : Bytes) : Prop where
  long : 60 ≤ b.length
  header : (Header.at b 0).Fits b.length
  records : (Header.at b 0).RecordsFit b

/-! ## 3. The tables are found where the header places them. -/

/-- The tables of an image by position. -/
def RawImage.at (b : Bytes) : RawImage :=
  let h := Header.at b 0
  { header := h
    statements := h.statements.table 8 RawStatement.at b
    globalDefs := h.globalDefs.table 8 RawDef.at b
    fieldDefs := h.fieldDefs.table 8 RawDef.at b
    functions := h.functions.table 36 RawFunction.at b
    strings := h.strings.table 1 Bytes.byteAt b
    globals := h.globals.table 4 Bytes.wordAt b }

namespace RawImage

theorem decodeHeader_decides (b : Bytes) :
    Decides (decodeHeader b) (60 ≤ b.length) fun h => h = Header.at b 0 := by
  unfold decodeHeader
  by_cases hl : 60 ≤ b.length
  · have found : Header.read b = _ := Reader.finds_header b 0 (by rw [Nat.zero_add]; exact hl)
    rw [found]
    exact (Decides.pure (Q := fun h => h = Header.at b 0) rfl).congr ⟨fun _ => hl, fun _ => trivial⟩
  · rw [Reader.read_header_of_short (by omega)]
    refine ⟨nofun, fun e he => ?_⟩
    cases he
    have other : "header" ≠ "record" := by decide
    exact ⟨hl, other⟩

theorem checkHeader_decides (h : Header) :
    Decides (checkHeader h) (h.version.toInt = 6 ∧ h.crc.toInt = 5927) fun _ => True := by
  refine (Decides.refuseIf (e := Cause.versionMismatch _ _) trivial fun _ =>
    Decides.refuseIf (e := Cause.headerCorrupt _ _) trivial fun _ => Decides.pure trivial).congr ?_
  rw [and_true, Decidable.not_not, Decidable.not_not, ← Int32.toInt_inj, ← Int32.toInt_inj]
  rfl

theorem checkTables_decides (h : Header) (len : Nat) :
    Decides (checkTables h len)
      (h.statements.Inside 8 len ∧ h.globalDefs.Inside 8 len ∧ h.fieldDefs.Inside 8 len ∧
        h.functions.Inside 36 len ∧ h.strings.Inside 1 len ∧ h.globals.Inside 4 len ∧
        0 ≤ h.entityFields.toInt) fun _ => True := by
  refine ((h.statements.check_decides (by decide) 8 len).bind fun _ _ _ =>
    (h.globalDefs.check_decides (by decide) 8 len).bind fun _ _ _ =>
    (h.fieldDefs.check_decides (by decide) 8 len).bind fun _ _ _ =>
    (h.functions.check_decides (by decide) 36 len).bind fun _ _ _ =>
    (h.strings.check_decides (by decide) 1 len).bind fun _ _ _ =>
    (h.globals.check_decides (by decide) 4 len).bind fun _ _ _ =>
    (Image.natural_decides h.entityFields _).bind fun _ _ _ => Decides.pure trivial).congr ?_
  rw [and_true]

/-- The reads of tables that lie inside the bytes all succeed. -/
theorem reads_eq {b : Bytes} (h : (Header.at b 0).Fits b.length) :
    (do
      let statements ← (Header.at b 0).statements.read RawStatement.read b
      let globalDefs ← (Header.at b 0).globalDefs.read RawDef.read b
      let fieldDefs ← (Header.at b 0).fieldDefs.read RawDef.read b
      let functions ← (Header.at b 0).functions.read RawFunction.read b
      let strings ← (Header.at b 0).strings.read Reader.byte b
      let globals ← (Header.at b 0).globals.read Reader.word b
      return { header := Header.at b 0, statements, globalDefs, fieldDefs, functions, strings, globals }) =
      (.ok (RawImage.at b) : Except Error RawImage) := by
  rw [Extent.read_eq_table Reader.finds_statement h.statements,
    Extent.read_eq_table Reader.finds_def h.globalDefs,
    Extent.read_eq_table Reader.finds_def h.fieldDefs,
    Extent.read_eq_table Reader.finds_function h.functions,
    Extent.read_eq_table Reader.finds_byte h.strings,
    Extent.read_eq_table Reader.finds_word h.globals]
  rfl

/-- **Decoding** decides the conditions on the header, and gives the tables it places. -/
theorem decode_decides (b : Bytes) :
    Decides (decode b) (60 ≤ b.length ∧ (Header.at b 0).Fits b.length) fun raw => raw = RawImage.at b := by
  refine (decodeHeader_decides b).bind fun _ h hh => ?_
  subst hh
  refine ((checkHeader_decides _).bind fun said _ _ => (checkTables_decides _ b.length).bind
    (q := True) fun placed _ _ => ?_).congr ?_
  · obtain ⟨hs, hg, hf, hu, ht, hw, he⟩ := placed
    rw [reads_eq ⟨said.1, said.2, hs, hg, hf, hu, ht, hw, he⟩]
    exact Decides.pure rfl
  · exact ⟨fun ⟨⟨hv, hc⟩, ⟨hs, hg, hf, hu, ht, hw, he⟩, _⟩ => ⟨hv, hc, hs, hg, hf, hu, ht, hw, he⟩,
      fun h => ⟨⟨h.version, h.crc⟩, ⟨h.statements, h.globalDefs, h.fieldDefs, h.functions, h.strings,
        h.globals, h.entityFields⟩, trivial⟩⟩

end RawImage

/-! ## 4. What a loaded program is known to satisfy. -/

/-- The conditions on the records of decoded tables. -/
structure RawImage.RecordsFit (raw : RawImage) : Prop where
  wellKnown : 92 ≤ raw.globals.length
  someFunction : 1 ≤ raw.functions.length
  statements : ∀ (k : Nat) (x : RawStatement), raw.statements[k]? = some x →
    x.Fits k raw.statements.length raw.globals.length
  globalDefs : ∀ (k : Nat) (x : RawDef), raw.globalDefs[k]? = some x →
    x.FitsGlobals raw.strings.length raw.globals.length
  fieldDefs : ∀ (k : Nat) (x : RawDef), raw.fieldDefs[k]? = some x →
    x.FitsFields raw.strings.length raw.header.entityFields.toInt.toNat
  functions : ∀ (k : Nat) (x : RawFunction), raw.functions[k]? = some x →
    x.Fits raw.strings.length raw.statements.length raw.globals.length k

/-- Read by position, they are the conditions on the bytes. -/
theorem RawImage.recordsFit_at (b : Bytes) : (RawImage.at b).RecordsFit ↔ (Header.at b 0).RecordsFit b := by
  constructor
  · intro hall
    obtain ⟨hw, hs, hst, hg, hf, hu⟩ := hall
    simp only [RawImage.at, Extent.length_table] at hw hs hst hg hf hu
    exact ⟨hw, hs, (Extent.forall_table ..).mp hst, (Extent.forall_table ..).mp hg,
      (Extent.forall_table ..).mp hf, (Extent.forall_table ..).mp hu⟩
  · intro hall
    obtain ⟨hw, hs, hst, hg, hf, hu⟩ := hall
    constructor <;> simp only [RawImage.at, Extent.length_table]
    · exact hw
    · exact hs
    · exact (Extent.forall_table _ _ _ _ fun k (x : RawStatement) => x.Fits k _ _).mpr hst
    · exact (Extent.forall_table _ _ _ _ fun _ (x : RawDef) => x.FitsGlobals _ _).mpr hg
    · exact (Extent.forall_table _ _ _ _ fun _ (x : RawDef) => x.FitsFields _ _).mpr hf
    · exact (Extent.forall_table _ _ _ _ fun k (x : RawFunction) => x.Fits _ _ _ k).mpr hu

/-- **A checked program**, over a block of `globals` words. -/
structure Program.Checked (p : Program) (globals : Nat) : Prop where
  wellKnown : Global.count ≤ globals
  someFunction : 0 < p.functions.size
  statements : ∀ (i : Nat) (st : Statement), p.statements[i]? = some st → st.Fits i p.statements.size globals
  functions : ∀ (i : Nat) (f : Function), p.functions[i]? = some f → f.Fits i p.statements.size globals

/-- **The indices of a program** are those of its tables. -/
structure Program.Indexed (p : Program) : Prop where
  functionNames : p.functionNames = functionNamesOf p.functions
  globalNames : p.globalNames = namesOf p.globalDefs
  fieldNames : p.fieldNames = namesOf p.fieldDefs
  globalPlaces : p.globalPlaces = placesOf p.globalDefs
  fieldPlaces : p.fieldPlaces = placesOf p.fieldDefs

namespace Image

/-- What is known of an image whose records were all passed. -/
structure Checked (image : Image) (options : LoadOptions) : Prop where
  program : image.program.Checked image.globals.size
  indexed : image.program.Indexed
  strings : ∃ blob,
    image.strings = StringTable.new blob options.tempSlots options.tempSize options.stringCapacity
  globals : ∀ d ∈ image.program.globalDefs, d.ofs + d.type.words ≤ image.globals.size
  fields : ∀ d ∈ image.program.fieldDefs, d.type ≠ .void → d.ofs + d.type.words ≤ image.program.entityFields

/-- The blob is part of the table. -/
theorem baseSize_le_size_new (blob : Bytes) (slots slotSize capacity : Nat) :
    (StringTable.new blob slots slotSize capacity).baseSize ≤
      (StringTable.new blob slots slotSize capacity).size := by
  simp [StringTable.new, StringTable.size]

/-- **Resolving** decides the conditions on the records, and gives a checked image. -/
theorem resolve_decides (raw : RawImage) (options : LoadOptions) (crc : UInt16) (digest : Digest) :
    Decides (resolve raw options crc digest) raw.RecordsFit fun image => image.Checked options := by
  let strings := StringTable.new raw.strings options.tempSlots options.tempSize options.stringCapacity
  have hsize : strings.baseSize ≤ strings.size := baseSize_le_size_new ..
  have statements := checkAll_decides (checkStatement_decides · raw.statements.length raw.globals.length) 0
    raw.statements
  have globalDefs := checkAll_decides (checkGlobalDef_decides hsize raw.globals.length) 0 raw.globalDefs
  have fieldDefs := checkAll_decides
    (checkFieldDef_decides hsize raw.header.entityFields.toInt.toNat) 0 raw.fieldDefs
  have functions := checkAll_decides
    (checkFunction_decides hsize raw.statements.length raw.globals.length) 0 raw.functions
  simp only [Nat.zero_add] at statements globalDefs fieldDefs functions
  refine (Decides.refuseIf (isRefusal_malformed _) fun enough => Decides.refuseIf (isRefusal_malformed _)
    fun some => statements.bind fun _ ss hss => globalDefs.bind fun _ gs hgs => fieldDefs.bind fun _ fs hfs =>
    functions.bind fun _ us hus => Decides.pure
      ⟨?program, ⟨rfl, rfl, rfl, rfl, rfl⟩, ⟨raw.strings, rfl⟩, ?globals, ?fields⟩).congr ?conditions
  case program =>
    refine ⟨Nat.not_lt.mp enough, ?_, fun i st hst => ?_, fun i f hf => ?_⟩
    · have : us ≠ [] := fun he => some (by rw [List.isEmpty_iff_length_eq_zero, ← hus.1, he]; rfl)
      exact List.length_pos_iff.mpr this
    · have hst : ss[i]? = .some st := by rw [← List.getElem?_toArray]; exact hst
      have fits := hss.2 i st hst
      rw [← hss.1] at fits
      exact fits
    · have hf : us[i]? = .some f := by rw [← List.getElem?_toArray]; exact hf
      have fits := hus.2 i f hf
      rw [← hss.1] at fits
      exact fits
  case globals =>
    intro d hd
    obtain ⟨i, hi⟩ := List.mem_iff_getElem?.mp (Array.mem_def.mp hd)
    exact hgs.2 i d hi
  case fields =>
    intro d hd
    obtain ⟨i, hi⟩ := List.mem_iff_getElem?.mp (Array.mem_def.mp hd)
    exact hfs.2 i d hi
  case conditions =>
    constructor
    · intro hall
      obtain ⟨hw, hs, hst, hg, hf, hu, -⟩ := hall
      refine ⟨Nat.not_lt.mp hw, ?_, hst, hg, hf, hu⟩
      exact List.length_pos_iff.mpr fun he => hs (List.isEmpty_iff.mpr he)
    · intro hall
      obtain ⟨hw, hs, hst, hg, hf, hu⟩ := hall
      refine ⟨Nat.not_lt.mpr hw, fun he => ?_, hst, hg, hf, hu, trivial⟩
      rw [List.isEmpty_iff.mp he] at hs
      cases hs

/-- **Loading** decides the conditions on the bytes, and gives a checked image. -/
theorem load_decides (bytes : Bytes) (options : LoadOptions) :
    Decides (load bytes options) (Acceptable bytes) fun image => image.Checked options := by
  refine ((RawImage.decode_decides bytes).bind (q := (Header.at bytes 0).RecordsFit bytes)
    fun _ raw hraw => ?_).congr ?_
  · subst hraw
    exact (resolve_decides _ options _ _).congr (RawImage.recordsFit_at bytes)
  · exact ⟨fun ⟨⟨hl, hh⟩, hr⟩ => ⟨hl, hh, hr⟩, fun h => ⟨⟨h.long, h.header⟩, h.records⟩⟩

/-- Every loaded image is checked. -/
theorem load_checked {bytes : Bytes} {options : LoadOptions} {image : Image}
    (h : load bytes options = .ok image) : image.Checked options :=
  ((load_decides bytes options).passed image h).2

/-- **Loading succeeds exactly on acceptable bytes**, and what it answers otherwise is a refusal: no
    record is ever cut off, and no name is ever looked up outside the string table. -/
theorem load_accepts_exactly (bytes : Bytes) (options : LoadOptions) :
    ((∃ image, load bytes options = .ok image) ↔ Acceptable bytes) ∧
      ∀ e, load bytes options = .error e → e.cause.IsRefusal :=
  ⟨(load_decides bytes options).isOk, fun e he => ((load_decides bytes options).refused e he).2⟩

end Image

end QuakeProgs
