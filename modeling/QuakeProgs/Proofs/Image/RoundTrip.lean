/-
  File:      QuakeProgs/Proofs/Image/RoundTrip.lean
  Subject:   READING GIVES BACK WHAT WAS WRITTEN, record by record and table by table.

  * `Reader.Restores` -- a reader takes off the front exactly what a writer put there, whatever follows;
  * `Reader.Restores.many` -- and so a table of records, one after the other;
  * `RawImage.Described` -- the header of an image says where its tables lie;
  * `RawImage.StandsIn` -- bytes in which an image stands: its tables follow one another from the end of the
    header to the end of the bytes (`Header.Consecutive`), and each reads back as it was;
  * `RawImage.Described.standsIn` -- what was encoded stands in the bytes;
  * `Image.Shows`, `Image.load_encode_decides` -- loading them is checking the records that were written, and
    the program shows every one of them.
-/
import QuakeProgs.Proofs.Image.Acceptance

namespace QuakeProgs

/-! ## 1. Records. -/

namespace Reader

variable {α : Type}

/-- **A reader restores what a writer wrote**, and leaves what follows. -/
def Restores (r : Reader α) (write : α → Bytes) : Prop :=
  ∀ (x : α) (rest : Bytes), r (write x ++ rest) = some (x, rest)

theorem restores_byte : Restores Reader.byte fun n => [n] := fun _ _ => rfl

theorem restores_word : Restores word Bytes.ofWord := word_ofWord

theorem restores_int16 : Restores int16 fun n => Bytes.ofHalf n.toUInt16 := by
  intro n rest
  rw [int16, half_ofHalf]
  exact congrArg (fun k => some (k, rest)) n.toInt16_toUInt16

theorem restores_int32 : Restores int32 fun n => Bytes.ofWord n.toUInt32 := by
  intro n rest
  rw [int32, word_ofWord]
  exact congrArg (fun k => some (k, rest)) n.toInt32_toUInt32

theorem restores_eight : Restores eight Vector.toList := by
  intro v rest
  obtain ⟨⟨bytes⟩, eight⟩ := v
  match bytes, eight with
  | [_, _, _, _, _, _, _, _], _ => rfl

theorem restores_statement : Restores RawStatement.read RawStatement.toBytes := by
  intro s rest
  simp only [RawStatement.read, RawStatement.toBytes, List.append_assoc, half_ofHalf, restores_int16 _ _,
    Option.bind_eq_bind, Option.bind_some]
  rfl

theorem restores_def : Restores RawDef.read RawDef.toBytes := by
  intro d rest
  simp only [RawDef.read, RawDef.toBytes, List.append_assoc, half_ofHalf, restores_int32 _ _,
    Option.bind_eq_bind, Option.bind_some]
  rfl

theorem restores_function : Restores RawFunction.read RawFunction.toBytes := by
  intro f rest
  simp only [RawFunction.read, RawFunction.toBytes, List.append_assoc, restores_int32 _ _,
    restores_eight _ _, Option.bind_eq_bind, Option.bind_some]
  rfl

/-- **A table is restored record by record.** -/
theorem Restores.many {r : Reader α} {write : α → Bytes} (h : Restores r write) (xs : List α) (rest : Bytes) :
    many r xs.length (xs.flatMap write ++ rest) = some (xs, rest) := by
  induction xs with
  | nil => rfl
  | cons x xs ih =>
    rw [List.flatMap_cons, List.append_assoc, List.length_cons, Reader.many, h x]
    simp only [ih]

theorem restores_header : Restores Header.read Header.toBytes := by
  intro h rest
  have numbers := restores_int32.many h.toList rest
  have fifteen : 15 = h.toList.length := rfl
  rw [Header.read, Header.toBytes, fifteen, numbers]
  rfl

end Reader

/-! ## 2. Sizes. -/

theorem length_flatMap_of_size {α : Type} {write : α → Bytes} {size : Nat} (h : ∀ x, (write x).length = size)
    (xs : List α) : (xs.flatMap write).length = xs.length * size := by
  induction xs with
  | nil => rw [List.flatMap_nil, List.length_nil, List.length_nil, Nat.zero_mul]
  | cons x xs ih => rw [List.flatMap_cons, List.length_append, h, ih, List.length_cons, Nat.succ_mul, Nat.add_comm]

theorem RawStatement.length_toBytes (s : RawStatement) : s.toBytes.length = RawStatement.size := rfl

theorem RawDef.length_toBytes (d : RawDef) : d.toBytes.length = RawDef.size := rfl

theorem RawFunction.length_toBytes (f : RawFunction) : f.toBytes.length = RawFunction.size := by
  rw [RawFunction.toBytes, List.length_append, Vector.length_toList]
  rfl

theorem Header.length_toBytes (h : Header) : h.toBytes.length = Header.size := rfl

/-! ## 3. Tables in order. -/

namespace Header

/-- Tables of records of given sizes that follow one another from `start` to `stop`. -/
def Consecutive (start stop : Nat) : List (Extent × Nat) → Prop
  | [] => start = stop
  | (t, size) :: ts =>
    t.ofs.toInt = start ∧ 0 ≤ t.count.toInt ∧ Consecutive (start + t.number * size) stop ts

/-- The six tables in order, each with the size of its records. -/
def tables (h : Header) : List (Extent × Nat) :=
  [(h.statements, RawStatement.size), (h.globalDefs, RawDef.size), (h.fieldDefs, RawDef.size),
    (h.functions, RawFunction.size), (h.strings, 1), (h.globals, 4)]

end Header

/-- The extent of a table by plain numbers. -/
def Extent.ofNat (ofs count : Nat) : Extent := ⟨Int32.ofNat ofs, Int32.ofNat count⟩

/-- A table that stands where its extent says reads back. -/
theorem Extent.read_written {α : Type} {r : Reader α} {write : α → Bytes} (h : Reader.Restores r write)
    {xs : List α} {bytes before : Bytes} (stands : before ++ xs.flatMap write <+: bytes)
    {ofs : Nat} (start : ofs = before.length) (small : ofs < 2 ^ 31) (few : xs.length < 2 ^ 31) :
    (Extent.ofNat ofs xs.length).read r bytes = .ok xs := by
  obtain ⟨after, rfl⟩ := stands
  rw [Extent.read, Extent.ofNat, Int32.toInt_ofNat_of_lt small, Int32.toInt_ofNat_of_lt few,
    Int.toNat_natCast, Int.toNat_natCast, start, List.append_assoc, List.drop_left, h.many]

namespace RawImage

/-- **The header of an image describes its tables.** -/
def Described (i : RawImage) : Prop :=
  i.header = layout i.header.version i.header.crc i.header.entityFields i.statements.length
    i.globalDefs.length i.fieldDefs.length i.functions.length i.strings.length i.globals.length

theorem length_ofWord (n : Word) : (Bytes.ofWord n).length = 4 := rfl

theorem length_encode (i : RawImage) :
    i.encode.length = 60 + i.statements.length * 8 + i.globalDefs.length * 8 + i.fieldDefs.length * 8 +
      i.functions.length * 36 + i.strings.length + i.globals.length * 4 := by
  simp only [encode, List.length_append, Header.length_toBytes,
    length_flatMap_of_size RawStatement.length_toBytes, length_flatMap_of_size RawDef.length_toBytes,
    length_flatMap_of_size RawFunction.length_toBytes,
    length_flatMap_of_size length_ofWord]
  rfl

/-- **Bytes in which an image stands**: its header comes first and places six tables, in order and with no
    gap up to the end; each reads back as it was. -/
structure StandsIn (i : RawImage) (bytes : Bytes) : Prop where
  header : ∃ rest, Header.read bytes = some (i.header, rest)
  consecutive : Header.Consecutive Header.size bytes.length i.header.tables
  statements : i.header.statements.read RawStatement.read bytes = .ok i.statements
  globalDefs : i.header.globalDefs.read RawDef.read bytes = .ok i.globalDefs
  fieldDefs : i.header.fieldDefs.read RawDef.read bytes = .ok i.fieldDefs
  functions : i.header.functions.read RawFunction.read bytes = .ok i.functions
  strings : i.header.strings.read Reader.byte bytes = .ok i.strings
  globals : i.header.globals.read Reader.word bytes = .ok i.globals

variable {i : RawImage}

theorem Described.consecutive (h : i.Described) (small : i.encode.length < 2 ^ 31) :
    Header.Consecutive Header.size i.encode.length i.header.tables := by
  have length := i.length_encode
  rw [h]
  simp only [Header.tables, Header.Consecutive, layout, Extent.number, Header.size, RawStatement.size,
    RawDef.size, RawFunction.size]
  rw [length] at small
  simp (disch := omega) only [Int32.toInt_ofNat_of_lt, Int.toNat_natCast, Int.natCast_nonneg, Nat.mul_one,
    length, and_self]

theorem read_header (i : RawImage) : ∃ rest, Header.read i.encode = some (i.header, rest) := by
  simp only [encode, List.append_assoc]
  exact ⟨_, Reader.restores_header i.header _⟩

/-- **What was encoded stands in the bytes.** -/
theorem Described.standsIn (h : i.Described) (small : i.encode.length < 2 ^ 31) : i.StandsIn i.encode := by
  have consecutive := h.consecutive small
  rw [length_encode] at small
  -- the bytes up to each table, with their lengths
  let b₁ := i.header.toBytes
  let b₂ := b₁ ++ i.statements.flatMap RawStatement.toBytes
  let b₃ := b₂ ++ i.globalDefs.flatMap RawDef.toBytes
  let b₄ := b₃ ++ i.fieldDefs.flatMap RawDef.toBytes
  let b₅ := b₄ ++ i.functions.flatMap RawFunction.toBytes
  let b₆ := b₅ ++ i.strings
  have l₁ : b₁.length = 60 := rfl
  have l₂ : b₂.length = b₁.length + i.statements.length * 8 := by
    rw [List.length_append, length_flatMap_of_size RawStatement.length_toBytes, RawStatement.size]
  have l₃ : b₃.length = b₂.length + i.globalDefs.length * 8 := by
    rw [List.length_append, length_flatMap_of_size RawDef.length_toBytes, RawDef.size]
  have l₄ : b₄.length = b₃.length + i.fieldDefs.length * 8 := by
    rw [List.length_append, length_flatMap_of_size RawDef.length_toBytes, RawDef.size]
  have l₅ : b₅.length = b₄.length + i.functions.length * 36 := by
    rw [List.length_append, length_flatMap_of_size RawFunction.length_toBytes, RawFunction.size]
  have l₆ : b₆.length = b₅.length + i.strings.length := List.length_append
  have p₆ : b₆ <+: i.encode := List.prefix_append _ _
  have p₅ : b₅ <+: i.encode := (List.prefix_append _ _).trans p₆
  have p₄ : b₄ <+: i.encode := (List.prefix_append _ _).trans p₅
  have p₃ : b₃ <+: i.encode := (List.prefix_append _ _).trans p₄
  have p₂ : b₂ <+: i.encode := (List.prefix_append _ _).trans p₃
  refine ⟨i.read_header, consecutive, ?_, ?_, ?_, ?_, ?_, ?_⟩
  all_goals
    rw [h]
    simp only [layout, Header.size, RawStatement.size, RawDef.size, RawFunction.size]
  · exact Extent.read_written Reader.restores_statement p₂ (by omega) (by omega) (by omega)
  · exact Extent.read_written Reader.restores_def p₃ (by omega) (by omega) (by omega)
  · exact Extent.read_written Reader.restores_def p₄ (by omega) (by omega) (by omega)
  · exact Extent.read_written Reader.restores_function p₅ (by omega) (by omega) (by omega)
  · have stands : b₅ ++ i.strings.flatMap (fun n => [n]) <+: i.encode := by
      rw [List.flatMap_singleton']
      exact p₆
    exact Extent.read_written Reader.restores_byte stands (by omega) (by omega) (by omega)
  · have stands : b₆ ++ i.globals.flatMap Bytes.ofWord <+: i.encode := List.prefix_refl _
    exact Extent.read_written Reader.restores_word stands (by omega) (by omega) (by omega)

/-- Tables that follow one another lie inside the bytes. -/
theorem inside_of_consecutive {start stop : Nat} {ts : List (Extent × Nat)}
    (h : Header.Consecutive start stop ts) : start ≤ stop ∧ ∀ p ∈ ts, p.1.Inside p.2 stop := by
  induction ts generalizing start with
  | nil => exact ⟨Nat.le_of_eq h, nofun⟩
  | cons p ts ih =>
    obtain ⟨t, size⟩ := p
    obtain ⟨ofs, count, rest⟩ := h
    obtain ⟨next, inside⟩ := ih rest
    have place : t.place size t.number = start + t.number * size := by
      rw [Extent.place, ofs, Int.toNat_natCast]
    refine ⟨by omega, List.forall_mem_cons.mpr ⟨⟨?_, count, ?_⟩, inside⟩⟩
    · rw [ofs]
      exact Int.natCast_nonneg _
    · rw [place]
      exact next

/-- **Decoding** what was encoded decides what the header must say, and gives the image back. -/
theorem Described.decode_decides (h : i.Described) (small : i.encode.length < 2 ^ 31) :
    Decides (decode i.encode)
      ((i.header.version.toInt = 6 ∧ i.header.crc.toInt = 5927) ∧ 0 ≤ i.header.entityFields.toInt)
      fun raw => raw = i := by
  have stands := h.standsIn small
  obtain ⟨rest, header⟩ := stands.header
  have inside := (inside_of_consecutive stands.consecutive).2
  simp only [Header.tables, List.forall_mem_cons] at inside
  obtain ⟨hs, hg, hf, hu, ht, hw, -⟩ := inside
  have found : Decides (decodeHeader i.encode) True fun h => h = i.header := by
    rw [decodeHeader, header]
    exact Decides.pure rfl
  refine (found.bind fun _ h e => ?_).congr (iff_of_eq (true_and _))
  subst e
  refine ((checkHeader_decides i.header).bind fun _ _ _ =>
    (checkTables_decides i.header i.encode.length).bind (q := True) fun _ _ _ => ?_).congr ?_
  · rw [stands.statements, stands.globalDefs, stands.fieldDefs, stands.functions, stands.strings, stands.globals]
    exact Decides.pure rfl
  · exact ⟨fun ⟨said, placed, _⟩ => ⟨said, placed.2.2.2.2.2.2⟩,
      fun ⟨said, fields⟩ => ⟨said, ⟨hs, hg, hf, hu, ht, hw, fields⟩, trivial⟩⟩

end RawImage

/-! ## 4. What a loaded program shows of the records. -/

/-- A computation that succeeds did so step by step. -/
theorem bind_eq_ok {α β : Type} {x : Except Error α} {f : α → Except Error β} {b : β} (h : x >>= f = .ok b) :
    ∃ a, x = .ok a ∧ f a = .ok b := by
  cases x with
  | error e => cases h
  | ok a => exact ⟨a, rfl, h⟩

/-- A statement of a program shows a record. -/
structure RawStatement.ReadAs (r : RawStatement) (st : Statement) : Prop where
  op : st.op.number = r.op.toNat
  a : st.a = r.a
  b : st.b = r.b
  c : st.c = r.c

/-- A definition of a program shows a record: its type, its bit for saving, its offset and its name. -/
structure RawDef.ReadAs (r : RawDef) (strings : StringTable) (d : Def) : Prop where
  type : d.type.tag.toNat = r.kind
  save : d.save = decide (0x8000 ≤ r.type.toNat)
  ofs : d.ofs = r.ofs.toNat
  nameRef : d.nameRef = r.name
  name : strings.text r.name = .ok d.name

/-- A function of a program shows a record. -/
structure RawFunction.ReadAs (r : RawFunction) (strings : StringTable) (f : Function) : Prop where
  firstStatement : f.firstStatement = r.firstStatement.toInt
  parmStart : (f.parmStart : Int) = r.parmStart.toInt
  locals : (f.locals : Int) = r.locals.toInt
  numParms : (f.numParms : Int) = r.numParms.toInt
  parmSizes : f.parmSizes = r.parmSizes
  name : strings.text r.name = .ok f.name
  file : strings.text r.file = .ok f.file

/-- The entries of a table show records, as many of them and in their order. -/
structure ShownBy {α β : Type} (R : α → β → Prop) (xs : List α) (ys : Array β) : Prop where
  size : ys.size = xs.length
  entry : ∀ (k : Nat) (x : α) (y : β), xs[k]? = some x → ys[k]? = some y → R x y

/-- **An image shows the records it was loaded from**, all of them and in their order. -/
structure Image.Shows (image : Image) (raw : RawImage) (options : LoadOptions) : Prop where
  header : image.program.header = raw.header
  strings : image.strings =
    StringTable.new raw.strings options.tempSlots options.tempSize options.stringCapacity
  globals : image.globals.words.toList = raw.globals
  statements : ShownBy RawStatement.ReadAs raw.statements image.program.statements
  globalDefs : ShownBy (RawDef.ReadAs · image.strings) raw.globalDefs image.program.globalDefs
  fieldDefs : ShownBy (RawDef.ReadAs · image.strings) raw.fieldDefs image.program.fieldDefs
  functions : ShownBy (RawFunction.ReadAs · image.strings) raw.functions image.program.functions

namespace Image

variable {strings : StringTable}

theorem nameAt_text {what : String} {r : Int32} {name : String} (h : nameAt strings what r = .ok name) :
    strings.text r = .ok name := by
  unfold nameAt at h
  split at h
  · exact h
  · cases h

/-- An opcode found under a number has that number. -/
theorem number_eq_of_ofNumber? {n : Nat} {op : Opcode} (h : Opcode.ofNumber? n = some op) : op.number = n := by
  have numbers : Opcode.table.map Opcode.number = List.range 66 := by rfl
  have here : (Opcode.table.map Opcode.number)[n]? = some op.number := by
    rw [List.getElem?_map]
    exact congrArg (Option.map Opcode.number) h
  rw [numbers] at here
  obtain ⟨below, e⟩ := List.getElem?_eq_some_iff.mp here
  rw [← e, List.getElem_range]

theorem checkStatement_readAs {index count globals : Nat} {r : RawStatement} {st : Statement}
    (h : checkStatement index count globals r = .ok st) : r.ReadAs st := by
  unfold checkStatement at h
  split at h
  · cases h
  · next op hop =>
    obtain ⟨_, -, h⟩ := bind_eq_ok h
    obtain ⟨_, -, h⟩ := bind_eq_ok h
    obtain ⟨_, -, h⟩ := bind_eq_ok h
    obtain ⟨_, -, h⟩ := bind_eq_ok h
    cases h
    exact ⟨number_eq_of_ofNumber? hop, rfl, rfl, rfl⟩

/-- A type found under a tag has that tag, but for the bit for saving. -/
theorem tag_eq_kind {r : RawDef} {type : ValueType} (h : ValueType.ofTag? r.type = some type) :
    type.tag.toNat = r.kind := by
  have tags : ValueType.all.map (·.tag.toNat) = List.range 8 := by rfl
  have here : (ValueType.all.map (·.tag.toNat))[r.kind]? = some type.tag.toNat := by
    rw [List.getElem?_map]
    exact congrArg (Option.map (·.tag.toNat)) h
  rw [tags] at here
  obtain ⟨below, e⟩ := List.getElem?_eq_some_iff.mp here
  rw [← e, List.getElem_range]

theorem resolveDef_readAs {r : RawDef} {d : Def} (h : resolveDef strings r = .ok d) : r.ReadAs strings d := by
  unfold resolveDef at h
  split at h
  · cases h
  · next type htype =>
    obtain ⟨name, hname, h⟩ := bind_eq_ok h
    cases h
    exact ⟨tag_eq_kind htype, rfl, rfl, rfl, nameAt_text hname⟩

theorem checkGlobalDef_readAs {globals index : Nat} {r : RawDef} {d : Def}
    (h : checkGlobalDef strings globals index r = .ok d) : r.ReadAs strings d := by
  obtain ⟨d', hd, h⟩ := bind_eq_ok h
  split at h
  · cases h
  · cases h
    exact resolveDef_readAs hd

theorem checkFieldDef_readAs {fields index : Nat} {r : RawDef} {d : Def}
    (h : checkFieldDef strings fields index r = .ok d) : r.ReadAs strings d := by
  obtain ⟨d', hd, h⟩ := bind_eq_ok h
  split at h
  · cases h
  · cases h
    exact resolveDef_readAs hd

theorem natural_toInt {n : Int32} {problem : String} {k : Nat} (h : Extent.natural n problem = .ok k) :
    (k : Int) = n.toInt :=
  ((natural_decides n problem).passed k h).2

theorem checkFunction_readAs {statements globals index : Nat} {r : RawFunction} {f : Function}
    (h : checkFunction strings statements globals index r = .ok f) : r.ReadAs strings f := by
  obtain ⟨name, hname, h⟩ := bind_eq_ok h
  obtain ⟨file, hfile, h⟩ := bind_eq_ok h
  obtain ⟨parmStart, hparms, h⟩ := bind_eq_ok h
  obtain ⟨locals, hlocals, h⟩ := bind_eq_ok h
  obtain ⟨numParms, hnum, h⟩ := bind_eq_ok h
  have same : f = { firstStatement := r.firstStatement.toInt, parmStart, locals, numParms
                    parmSizes := r.parmSizes, name, file } := by
    dsimp only at h
    split at h
    · obtain ⟨_, -, h⟩ := bind_eq_ok h
      cases h
      rfl
    · cases h
      rfl
  rw [same]
  exact ⟨rfl, natural_toInt hparms, natural_toInt hlocals, natural_toInt hnum, rfl, nameAt_text hname,
    nameAt_text hfile⟩

/-- What every passed check gives, a table of passed checks gives in order. -/
theorem checkAll_shownBy {α β : Type} {check : Nat → α → Except Error β} {R : α → β → Prop}
    {i : Nat} {xs : List α} {ys : List β} (e : checkAll check i xs = .ok ys)
    (h : ∀ i x y, check i x = .ok y → R x y) : ShownBy R xs ys.toArray := by
  induction xs generalizing i ys with
  | nil =>
    cases e
    exact ⟨rfl, nofun⟩
  | cons x xs ih =>
    rw [checkAll] at e
    obtain ⟨y, hy, e⟩ := bind_eq_ok e
    obtain ⟨zs, hzs, e⟩ := bind_eq_ok e
    cases e
    have rest := ih hzs
    have size : zs.length = xs.length := rest.size
    refine ⟨congrArg Nat.succ size, fun k a b ha hb => ?_⟩
    cases k with
    | zero =>
      cases ha
      cases hb
      exact h i x y hy
    | succ k =>
      rw [List.getElem?_toArray, List.getElem?_cons_succ, ← List.getElem?_toArray] at hb
      exact rest.entry k a b ha hb

/-- **Resolving** shows the records. -/
theorem resolve_shows {raw : RawImage} {options : LoadOptions} {crc : UInt16} {digest : Digest} {image : Image}
    (h : resolve raw options crc digest = .ok image) : image.Shows raw options := by
  unfold resolve at h
  dsimp only at h
  split at h
  · cases h
  · split at h
    · cases h
    · obtain ⟨statements, hs, h⟩ := bind_eq_ok h
      obtain ⟨globalDefs, hg, h⟩ := bind_eq_ok h
      obtain ⟨fieldDefs, hf, h⟩ := bind_eq_ok h
      obtain ⟨functions, hu, h⟩ := bind_eq_ok h
      have statements := checkAll_shownBy hs fun _ _ _ => checkStatement_readAs
      have globalDefs := checkAll_shownBy hg fun _ _ _ => checkGlobalDef_readAs
      have fieldDefs := checkAll_shownBy hf fun _ _ _ => checkFieldDef_readAs
      have functions := checkAll_shownBy hu fun _ _ _ => checkFunction_readAs
      cases h
      exact ⟨rfl, rfl, rfl, statements, globalDefs, fieldDefs, functions⟩

/-- **Loading what was encoded** decides what the header must say and that the records fit, and shows them. -/
theorem load_encode_decides {i : RawImage} (h : i.Described) (small : i.encode.length < 2 ^ 31)
    (options : LoadOptions) :
    Decides (load i.encode options)
      (((i.header.version.toInt = 6 ∧ i.header.crc.toInt = 5927) ∧ 0 ≤ i.header.entityFields.toInt) ∧
        i.RecordsFit) fun image => image.Shows i options := by
  refine (h.decode_decides small).bind fun _ raw same => ?_
  subst same
  have decides := resolve_decides raw options (crc16 raw.encode) (md5 raw.encode)
  exact ⟨fun image loaded => ⟨(decides.passed image loaded).1, resolve_shows loaded⟩, decides.refused⟩

end Image

end QuakeProgs
