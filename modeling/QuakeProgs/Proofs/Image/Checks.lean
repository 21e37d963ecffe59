/-
  File:      QuakeProgs/Proofs/Image/Checks.lean
  Subject:   WHAT EACH CHECK OF THE LOADER DECIDES.

  The conditions on records are said here in terms of numbers alone. A check decides a condition if
  it passes exactly where the condition holds, and otherwise rejects the image:

  * `RawStatement.Fits`, `RawDef.FitsGlobals`, `RawDef.FitsFields`, `RawFunction.Fits` -- the
    conditions;
  * `Decides` -- a check and its condition, with what is known of the value a passed check gives;
    `Decides.bind` puts checks one after the other;
  * `Image.checkStatement_decides` and its kin -- one for every kind of record;
  * `Image.checkAll_decides` -- a table passes if every record does.
-/
import Mathlib.Algebra.GroupWithZero.Nat
import QuakeProgs.Image.Load

namespace QuakeProgs

/-! ## 1. The conditions. -/

/-- How far an operand reaches: a global and its words inside the block, a branch to a statement. -/
def Operand.Fits (index count globals : Nat) (x : Int16) : Operand → Prop
  | .unused => True
  | .global words => x.toUInt16.toNat + words ≤ globals
  | .branch => 0 ≤ (index : Int) + x.toInt ∧ (index : Int) + x.toInt < count

/-- Every operand of statement `index` reaches what it uses. -/
structure Statement.Fits (st : Statement) (index count globals : Nat) : Prop where
  a : st.op.operands.1.Fits index count globals st.a
  b : st.op.operands.2.1.Fits index count globals st.b
  c : st.op.operands.2.2.Fits index count globals st.c

/-- A stored statement: there are 66 opcodes, and the operands reach what they use. -/
def RawStatement.Fits (r : RawStatement) (index count globals : Nat) : Prop :=
  r.op.toNat < 66 ∧
    ∀ op, Opcode.ofNumber? r.op.toNat = some op →
      Statement.Fits { op, a := r.a, b := r.b, c := r.c } index count globals

/-- A name inside the blob; offset zero is a name in any case. -/
def NameFits (blob : Nat) (r : Int32) : Prop := r.toInt = 0 ∨ 0 ≤ r.toInt ∧ r.toInt < blob

namespace RawDef

/-- The stored type without the bit for saving. -/
def kind (d : RawDef) : Nat := d.type.toNat % 0x8000

/-- A vector takes three words, all else one. -/
def words (d : RawDef) : Nat := if d.kind = 3 then 3 else 1

structure FitsGlobals (d : RawDef) (blob globals : Nat) : Prop where
  known : d.kind < 8
  name : NameFits blob d.name
  extent : d.ofs.toNat + d.words ≤ globals

/-- A field of type void may lie anywhere. -/
structure FitsFields (d : RawDef) (blob fields : Nat) : Prop where
  known : d.kind < 8
  name : NameFits blob d.name
  extent : d.kind ≠ 0 → d.ofs.toNat + d.words ≤ fields

end RawDef

namespace RawFunction

/-- The sizes of the parameters that are passed: of at most eight. -/
def passed (f : RawFunction) : List Nat :=
  (f.parmSizes.toList.take (min f.numParms.toInt.toNat 8)).map UInt8.toNat

/-- What is asked of bytecode. Function zero is never entered, so its entry does not matter. -/
structure FitsCode (f : RawFunction) (index statements globals : Nat) : Prop where
  entry : index ≠ 0 → f.firstStatement.toInt < statements
  locals : f.parmStart.toInt + f.locals.toInt ≤ globals
  widths : ∀ n ∈ f.passed, n ≤ 3
  parms : f.parmStart.toInt + f.passed.sum ≤ globals

structure Fits (f : RawFunction) (blob statements globals index : Nat) : Prop where
  name : NameFits blob f.name
  file : NameFits blob f.file
  parmStart : 0 ≤ f.parmStart.toInt
  locals : 0 ≤ f.locals.toInt
  numParms : 0 ≤ f.numParms.toInt
  code : 0 ≤ f.firstStatement.toInt → f.FitsCode index statements globals

end RawFunction

/-- What a loaded function keeps of these conditions. -/
structure Function.Fits (f : Function) (index statements globals : Nat) : Prop where
  entry : ∀ entry, f.codeStart? = some entry → index ≠ 0 → entry < statements
  locals : f.codeStart?.isSome → f.parmStart + f.locals ≤ globals
  widths : f.codeStart?.isSome → ∀ n ∈ f.passedSizes, n ≤ 3
  parms : f.codeStart?.isSome → f.parmStart + f.passedSizes.sum ≤ globals

/-! ## 2. Checks and their conditions. -/

/-- **The ways an image is refused.** A record that is cut off and a string outside the table are not
    among them. -/
def Cause.IsRefusal : Cause → Prop
  | .versionMismatch .. | .headerCorrupt .. | .malformed _ | .badOpcode .. | .badBranch .. => True
  | .truncated what .. => what ≠ "record"
  | _ => False

/-- **A check decides a condition**: it passes exactly where the condition holds, with a value that
    satisfies `Q`, and refuses the image elsewhere. -/
structure Decides {α : Type} (check : Except Error α) (fits : Prop) (Q : α → Prop) : Prop where
  passed : ∀ a, check = .ok a → fits ∧ Q a
  refused : ∀ e, check = .error e → ¬ fits ∧ e.cause.IsRefusal

namespace Decides

variable {α β : Type} {check : Except Error α} {p q : Prop} {Q : α → Prop} {R : β → Prop}

theorem isOk (h : Decides check p Q) : (∃ a, check = .ok a) ↔ p := by
  constructor
  · intro hall
    obtain ⟨a, ha⟩ := hall
    exact (h.passed a ha).1
  · intro hp
    cases hc : check with
    | ok a => exact ⟨a, rfl⟩
    | error e => exact absurd hp (h.refused e hc).1

theorem pure {a : α} (h : Q a) : Decides (.ok a) True Q :=
  ⟨fun _ e => by cases e; exact ⟨trivial, h⟩, nofun⟩

theorem congr (h : Decides check p Q) (e : p ↔ q) : Decides check q Q :=
  ⟨fun a ha => ⟨e.mp (h.passed a ha).1, (h.passed a ha).2⟩,
    fun err he => ⟨fun hq => (h.refused err he).1 (e.mpr hq), (h.refused err he).2⟩⟩

theorem weaken {Q' : α → Prop} (h : Decides check p Q) (hQ : ∀ a, p → Q a → Q' a) :
    Decides check p Q' :=
  ⟨fun a ha => ⟨(h.passed a ha).1, hQ a (h.passed a ha).1 (h.passed a ha).2⟩, h.refused⟩

/-- One check after another: both conditions. -/
theorem bind {f : α → Except Error β} (h : Decides check p Q)
    (hf : p → ∀ a, Q a → Decides (f a) q R) : Decides (check >>= f) (p ∧ q) R := by
  cases hc : check with
  | error e =>
    refine ⟨nofun, fun err he => ?_⟩
    cases he
    exact ⟨fun hpq => (h.refused e hc).1 hpq.1, (h.refused e hc).2⟩
  | ok a =>
    obtain ⟨hp, hQ⟩ := h.passed a hc
    have hb := hf hp a hQ
    exact ⟨fun b hb' => ⟨⟨hp, (hb.passed b hb').1⟩, (hb.passed b hb').2⟩,
      fun err he => ⟨fun hpq => (hb.refused err he).1 hpq.2, (hb.refused err he).2⟩⟩

/-- A refusal under a condition, and otherwise another check. -/
theorem refuseIf {c : Prop} [Decidable c] {e : Error} (he : e.cause.IsRefusal) (h : ¬ c → Decides check q Q) :
    Decides (if c then .error e else check) (¬ c ∧ q) Q := by
  by_cases hc : c
  · rw [if_pos hc]
    exact ⟨nofun, fun err h' => by cases h'; exact ⟨fun hq => hq.1 hc, he⟩⟩
  · rw [if_neg hc]
    exact (h hc).congr ⟨fun hq => ⟨hc, hq⟩, And.right⟩

end Decides

/-! ## 3. One check for every kind of record. -/

namespace Image

variable {strings : StringTable}

theorem isRefusal_malformed (what : String) : (Cause.malformed what : Error).cause.IsRefusal := trivial

/-- An operand that is no branch: the block holds it. -/
theorem checkOperand_decides (index globals : Nat) (op : Opcode) (x : Int16) (use : Operand) :
    Decides (checkOperand index globals op x use)
      (∀ words, use = .global words → x.toUInt16.toNat + wordsNeeded op words ≤ globals) fun _ => True := by
  cases use with
  | unused => exact (Decides.pure trivial).congr ⟨fun _ => nofun, fun _ => trivial⟩
  | branch => exact (Decides.pure trivial).congr ⟨fun _ => nofun, fun _ => trivial⟩
  | global words =>
    refine (Decides.refuseIf (isRefusal_malformed _) fun _ => Decides.pure trivial).congr ?_
    constructor
    · intro hall _ hall'
      obtain ⟨h, -⟩ := hall
      cases hall'
      exact Nat.le_of_not_gt h
    · intro h
      exact ⟨Nat.not_lt.mpr (h words rfl), trivial⟩

theorem checkBranch_decides (index count : Nat) (s : Statement) :
    Decides (checkBranch index count s) (∀ t, s.target? index = some t → 0 ≤ t ∧ t < count)
      fun _ => True := by
  unfold checkBranch
  cases ht : s.target? index with
  | none => exact (Decides.pure trivial).congr ⟨fun _ => nofun, fun _ => trivial⟩
  | some t =>
    by_cases h : 0 ≤ t ∧ t < count
    · simp only [if_pos h]
      exact (Decides.pure trivial).congr ⟨fun _ _ e => by cases e; exact h, fun _ => trivial⟩
    · simp only [if_neg h]
      refine ⟨nofun, fun e he => ?_⟩
      cases he
      exact ⟨fun hq => h (hq t rfl), trivial⟩

/-- A return needs one word, as its operand says; for no other opcode the need is changed. -/
theorem wordsNeeded_operands (op : Opcode) (words : Nat)
    (h : op.operands.1 = .global words ∨ op.operands.2.1 = .global words ∨
      op.operands.2.2 = .global words) : wordsNeeded op words = words := by
  cases op <;> simp_all [wordsNeeded, Opcode.isReturn, Opcode.operands]

/-- The branch a statement takes is its operand used as a branch. -/
theorem target?_eq_some_iff (s : Statement) (index : Nat) (t : Int) :
    s.target? index = some t ↔
      s.op.operands.1 = .branch ∧ (index : Int) + s.a.toInt = t ∨
      s.op.operands.2.1 = .branch ∧ (index : Int) + s.b.toInt = t ∨
      s.op.operands.2.2 = .branch ∧ (index : Int) + s.c.toInt = t := by
  obtain ⟨op, a, b, c⟩ := s
  cases op <;> simp [Statement.target?, Statement.distance?, Opcode.operands]

/-- The condition of an operand, by its use. -/
theorem operand_fits_iff (index count globals : Nat) (x : Int16) (use : Operand) :
    use.Fits index count globals x ↔
      (∀ words, use = .global words → x.toUInt16.toNat + words ≤ globals) ∧
      (use = .branch → 0 ≤ (index : Int) + x.toInt ∧ (index : Int) + x.toInt < count) := by
  cases use <;> simp [Operand.Fits]

/-- What the loader asks of the operands and the branch of a statement is that they fit. -/
theorem statement_fits_iff (s : Statement) (index count globals : Nat) :
    s.Fits index count globals ↔
      (∀ w, s.op.operands.1 = .global w → s.a.toUInt16.toNat + wordsNeeded s.op w ≤ globals) ∧
      (∀ w, s.op.operands.2.1 = .global w → s.b.toUInt16.toNat + wordsNeeded s.op w ≤ globals) ∧
      (∀ w, s.op.operands.2.2 = .global w → s.c.toUInt16.toNat + wordsNeeded s.op w ≤ globals) ∧
      (∀ t, s.target? index = some t → 0 ≤ t ∧ t < count) := by
  constructor
  · intro hall
    obtain ⟨ha, hb, hc⟩ := hall
    rw [operand_fits_iff] at ha hb hc
    refine ⟨fun w h => ?_, fun w h => ?_, fun w h => ?_, fun t h => ?_⟩
    · rw [wordsNeeded_operands _ _ (.inl h)]
      exact ha.1 w h
    · rw [wordsNeeded_operands _ _ (.inr (.inl h))]
      exact hb.1 w h
    · rw [wordsNeeded_operands _ _ (.inr (.inr h))]
      exact hc.1 w h
    · rcases (target?_eq_some_iff s index t).mp h with ⟨hu, rfl⟩ | ⟨hu, rfl⟩ | ⟨hu, rfl⟩
      · exact ha.2 hu
      · exact hb.2 hu
      · exact hc.2 hu
  · intro hall
    obtain ⟨ha, hb, hc, ht⟩ := hall
    refine ⟨(operand_fits_iff ..).mpr ⟨fun w h => ?_, fun h => ?_⟩,
      (operand_fits_iff ..).mpr ⟨fun w h => ?_, fun h => ?_⟩,
      (operand_fits_iff ..).mpr ⟨fun w h => ?_, fun h => ?_⟩⟩
    · rw [← wordsNeeded_operands _ _ (.inl h)]
      exact ha w h
    · exact ht _ ((target?_eq_some_iff ..).mpr (.inl ⟨h, rfl⟩))
    · rw [← wordsNeeded_operands _ _ (.inr (.inl h))]
      exact hb w h
    · exact ht _ ((target?_eq_some_iff ..).mpr (.inr (.inl ⟨h, rfl⟩)))
    · rw [← wordsNeeded_operands _ _ (.inr (.inr h))]
      exact hc w h
    · exact ht _ ((target?_eq_some_iff ..).mpr (.inr (.inr ⟨h, rfl⟩)))

/-- There are 66 opcodes. -/
theorem ofNumber?_isSome_iff (n : Nat) : (∃ op, Opcode.ofNumber? n = some op) ↔ n < 66 := by
  rw [← Option.isSome_iff_exists, Opcode.ofNumber?, isSome_getElem?]
  rfl

/-- **Statements**: the check decides whether the statement fits, and gives one that does. -/
theorem checkStatement_decides (index count globals : Nat) (raw : RawStatement) :
    Decides (checkStatement index count globals raw) (raw.Fits index count globals)
      fun st => st.Fits index count globals := by
  unfold checkStatement
  cases hop : Opcode.ofNumber? raw.op.toNat with
  | none =>
    refine ⟨nofun, fun e he => ?_⟩
    cases he
    refine ⟨fun h => ?_, trivial⟩
    obtain ⟨op, hop'⟩ := (ofNumber?_isSome_iff _).mpr h.1
    rw [hop] at hop'
    cases hop'
  | some op =>
    let s : Statement := { op, a := raw.a, b := raw.b, c := raw.c }
    have checks := (checkOperand_decides index globals op s.a op.operands.1).bind fun _ _ _ =>
      (checkOperand_decides index globals op s.b op.operands.2.1).bind fun _ _ _ =>
      (checkOperand_decides index globals op s.c op.operands.2.2).bind fun _ _ _ =>
      (checkBranch_decides index count s).bind fun _ _ _ =>
      Decides.pure (a := s) (Q := fun st => st = s) rfl
    have fits := checks.congr (q := s.Fits index count globals) (by
      rw [statement_fits_iff]
      simp only [and_true]
      exact Iff.rfl)
    refine Decides.congr (fits.weaken fun st hs e => e ▸ hs) ?_
    constructor
    · intro hs
      refine ⟨(ofNumber?_isSome_iff _).mp ⟨op, hop⟩, fun op' h' => ?_⟩
      cases hop.symm.trans h'
      exact hs
    · intro h
      exact h.2 op hop

/-- A name inside the blob can be read: the blob is part of the table. -/
theorem nameAt_decides (hsize : strings.baseSize ≤ strings.size) (what : String) (r : Int32) :
    Decides (nameAt strings what r) (NameFits strings.baseSize r) fun _ => True := by
  unfold nameAt
  have range : 0 ≤ r.toInt ∧ r.toInt.toNat < max strings.baseSize 1 ↔ NameFits strings.baseSize r := by
    unfold NameFits
    omega
  by_cases h : 0 ≤ r.toInt ∧ r.toInt.toNat < max strings.baseSize 1
  · rw [if_pos h, StringTable.text, StringTable.get, if_pos ⟨h.1, by omega⟩]
    exact (Decides.pure trivial).congr ⟨fun _ => range.mp h, fun _ => trivial⟩
  · rw [if_neg h]
    refine ⟨nofun, fun e he => ?_⟩
    cases he
    exact ⟨fun hf => h (range.mpr hf), trivial⟩

/-- A tag is one of eight, and only a vector takes three words. -/
theorem ofTag?_eq_some {raw : RawDef} {type : ValueType} (h : ValueType.ofTag? raw.type = some type) :
    raw.kind < 8 ∧ type.words = raw.words ∧ (type = .void ↔ raw.kind = 0) := by
  have h : ValueType.all[raw.kind]? = some type := h
  have hk : raw.kind < 8 := List.getElem?_eq_some_iff.mp h |>.1
  unfold RawDef.words
  generalize raw.kind = k at h hk
  match k, hk with
  | 0, _ | 1, _ | 2, _ | 3, _ | 4, _ | 5, _ | 6, _ | 7, _ =>
    cases h
    decide

/-- What the type and the name of a definition must be, and what is kept of the record. -/
theorem resolveDef_decides (hsize : strings.baseSize ≤ strings.size) (raw : RawDef) :
    Decides (resolveDef strings raw) (raw.kind < 8 ∧ NameFits strings.baseSize raw.name)
      fun d => d.ofs = raw.ofs.toNat ∧ d.type.words = raw.words ∧ (d.type = .void ↔ raw.kind = 0) := by
  unfold resolveDef
  cases ht : ValueType.ofTag? raw.type with
  | none =>
    refine ⟨nofun, fun e he => ?_⟩
    cases he
    refine ⟨fun h => ?_, trivial⟩
    have : ValueType.all.length ≤ raw.kind := List.getElem?_eq_none_iff.mp ht
    exact absurd h.1 (Nat.not_lt.mpr this)
  | some type =>
    obtain ⟨hk, hw, hv⟩ := ofTag?_eq_some ht
    refine ((nameAt_decides hsize "definition" raw.name).bind fun _ name _ =>
      @Decides.pure Def _ _ ⟨rfl, hw, hv⟩).congr ?_
    exact ⟨fun h => ⟨hk, h.1⟩, fun h => ⟨h.2, trivial⟩⟩

/-- **Definitions of globals.** -/
theorem checkGlobalDef_decides (hsize : strings.baseSize ≤ strings.size) (globals index : Nat)
    (raw : RawDef) :
    Decides (checkGlobalDef strings globals index raw) (raw.FitsGlobals strings.baseSize globals)
      fun d => d.ofs + d.type.words ≤ globals := by
  refine ((resolveDef_decides hsize raw).bind (q := raw.ofs.toNat + raw.words ≤ globals)
    fun _ d hd => ?_).congr ?_
  · obtain ⟨ho, hw, -⟩ := hd
    refine (Decides.refuseIf (isRefusal_malformed _) fun inside => @Decides.pure Def _ _ ?_).congr ?_
    · exact Nat.not_lt.mp inside
    rw [ho, hw, and_true, Nat.not_lt]
  · exact ⟨fun ⟨⟨hk, hn⟩, he⟩ => ⟨hk, hn, he⟩, fun h => ⟨⟨h.known, h.name⟩, h.extent⟩⟩

/-- **Definitions of fields.** -/
theorem checkFieldDef_decides (hsize : strings.baseSize ≤ strings.size) (fields index : Nat)
    (raw : RawDef) :
    Decides (checkFieldDef strings fields index raw) (raw.FitsFields strings.baseSize fields)
      fun d => d.type ≠ .void → d.ofs + d.type.words ≤ fields := by
  refine ((resolveDef_decides hsize raw).bind
    (q := raw.kind ≠ 0 → raw.ofs.toNat + raw.words ≤ fields) fun _ d hd => ?_).congr ?_
  · obtain ⟨ho, hw, hv⟩ := hd
    refine (Decides.refuseIf (isRefusal_malformed _) fun inside => Decides.pure fun typed => ?_).congr ?_
    · exact Nat.not_lt.mp fun outside => inside ⟨typed, outside⟩
    rw [ho, hw, ne_eq, hv, and_true, not_and, Nat.not_lt]
  · exact ⟨fun ⟨⟨hk, hn⟩, he⟩ => ⟨hk, hn, he⟩, fun h => ⟨⟨h.known, h.name⟩, h.extent⟩⟩

/-- A number that must not be negative. -/
theorem natural_decides (n : Int32) (problem : String) :
    Decides (Extent.natural n problem) (0 ≤ n.toInt) fun k => (k : Int) = n.toInt := by
  unfold Extent.natural
  have hn : n < 0 ↔ n.toInt < 0 := Int32.lt_iff_toInt_lt
  by_cases h : n < 0
  · rw [if_pos h]
    refine ⟨nofun, fun e he => ?_⟩
    cases he
    exact ⟨fun h' => by have := hn.mp h; omega, trivial⟩
  · rw [if_neg h]
    have h' : 0 ≤ n.toInt := Int.not_lt.mp fun hl => h (hn.mpr hl)
    exact (Decides.pure (by omega)).congr ⟨fun _ => h', fun _ => trivial⟩

/-- The conditions on bytecode, in the order they are looked at. -/
theorem checkBytecode_decides (index statements globals : Nat) (f : Function) (entry : Nat) :
    Decides (checkBytecode index statements globals f entry)
      ((index ≠ 0 → entry < statements) ∧ f.parmStart + f.locals ≤ globals ∧
        (∀ n ∈ f.passedSizes, n ≤ 3) ∧ f.parmStart + f.passedSizes.sum ≤ globals) fun _ => True := by
  unfold checkBytecode
  refine (Decides.refuseIf (isRefusal_malformed _) fun _ =>
    Decides.refuseIf (isRefusal_malformed _) fun _ =>
    Decides.refuseIf (isRefusal_malformed _) fun _ =>
    Decides.refuseIf (isRefusal_malformed _) fun _ => Decides.pure trivial).congr ?_
  have hsum : f.parmWords = f.passedSizes.sum := (List.sum_eq_foldl_nat).symm
  rw [hsum, not_and, Nat.not_le, Nat.not_lt, Nat.not_lt, and_true]
  simp only [List.any_eq_true, decide_eq_true_eq, not_exists, not_and, Nat.not_lt, ne_eq]

/-- Of a builtin nothing is asked; bytecode must satisfy the four conditions. -/
theorem function_fits_decides (index statements globals : Nat) (f : Function) :
    Decides (match f.codeStart? with
      | some entry => checkBytecode index statements globals f entry >>= fun _ => .ok f
      | none => .ok f) (f.Fits index statements globals) fun g => g = f := by
  cases hf : f.codeStart? with
  | none =>
    refine (Decides.pure (Q := fun g => g = f) rfl).congr ⟨fun _ => ?_, fun _ => trivial⟩
    constructor <;> intro h <;> simp [hf] at h ⊢
  | some entry =>
    refine ((checkBytecode_decides index statements globals f entry).bind fun _ _ _ =>
      Decides.pure (Q := fun g => g = f) rfl).congr ?_
    constructor
    · intro hall
      obtain ⟨⟨he, hl, hw, hp⟩, -⟩ := hall
      refine ⟨fun entry' h' => ?_, fun _ => hl, fun _ => hw, fun _ => hp⟩
      cases hf.symm.trans h'
      exact he
    · intro hall
      obtain ⟨he, hl, hw, hp⟩ := hall
      have some := Option.isSome_of_eq_some hf
      exact ⟨⟨he entry hf, hl some, hw some, hp some⟩, trivial⟩

/-- A loaded function fits if the record does. -/
theorem function_fits_iff {raw : RawFunction} {f : Function} (hs : f.firstStatement = raw.firstStatement.toInt)
    (hp : (f.parmStart : Int) = raw.parmStart.toInt) (hl : (f.locals : Int) = raw.locals.toInt)
    (hn : (f.numParms : Int) = raw.numParms.toInt) (hz : f.parmSizes = raw.parmSizes)
    (index statements globals : Nat) :
    f.Fits index statements globals ↔
      (0 ≤ raw.firstStatement.toInt → raw.FitsCode index statements globals) := by
  have passed : raw.passed = f.passedSizes := by
    rw [RawFunction.passed, ← hn, Int.toNat_natCast, ← hz]
    rfl
  have code : f.codeStart? =
      if raw.firstStatement.toInt < 0 then none else some raw.firstStatement.toInt.toNat := by
    rw [Function.codeStart?, hs]
  by_cases hc : raw.firstStatement.toInt < 0
  · rw [if_pos hc] at code
    constructor
    · intro _ h
      omega
    · intro _
      constructor <;> intro h <;> simp [code] at h ⊢
  · rw [if_neg hc] at code
    have some := Option.isSome_of_eq_some code
    constructor
    · intro hall _
      obtain ⟨he, hlo, hw, hpa⟩ := hall
      refine ⟨fun hi => ?_, ?_, ?_, ?_⟩
      · have := he _ code hi
        omega
      · have := hlo some
        omega
      · rw [passed]
        exact hw some
      · rw [passed]
        have := hpa some
        omega
    · intro h
      obtain ⟨he, hlo, hw, hpa⟩ := h (by omega)
      rw [passed] at hw hpa
      refine ⟨fun entry' h' hi => ?_, fun _ => by omega, fun _ => hw, fun _ => by omega⟩
      cases code.symm.trans h'
      have := he hi
      omega

/-- **Functions**: the check decides whether the function fits, and what it gives does. -/
theorem checkFunction_decides (hsize : strings.baseSize ≤ strings.size) (statements globals index : Nat)
    (raw : RawFunction) :
    Decides (checkFunction strings statements globals index raw)
      (raw.Fits strings.baseSize statements globals index) fun f => f.Fits index statements globals := by
  refine ((nameAt_decides hsize "function" raw.name).bind fun _ name _ =>
    (nameAt_decides hsize "function file" raw.file).bind fun _ file _ =>
    (natural_decides raw.parmStart _).bind fun _ parmStart hp =>
    (natural_decides raw.locals _).bind fun _ locals hl =>
    (natural_decides raw.numParms _).bind
      (q := 0 ≤ raw.firstStatement.toInt → raw.FitsCode index statements globals)
      fun _ numParms hn => ?_).congr ?_
  · let f : Function :=
      { firstStatement := raw.firstStatement.toInt, parmStart, locals, numParms
        parmSizes := raw.parmSizes, name, file }
    exact ((function_fits_decides index statements globals f).weaken fun g hf e => e ▸ hf).congr
      (function_fits_iff (f := f) rfl hp hl hn rfl index statements globals)
  · exact ⟨fun ⟨hn, hf, hp, hl, hk, hc⟩ => ⟨hn, hf, hp, hl, hk, hc⟩,
      fun h => ⟨h.name, h.file, h.parmStart, h.locals, h.numParms, h.code⟩⟩

/-- **A table passes if every record does**, and the values stand in the order of the records. -/
theorem checkAll_decides {α β : Type} {check : Nat → α → Except Error β} {fits : Nat → α → Prop}
    {Q : Nat → β → Prop} (h : ∀ i x, Decides (check i x) (fits i x) (Q i)) (i : Nat) (xs : List α) :
    Decides (checkAll check i xs) (∀ k x, xs[k]? = some x → fits (i + k) x)
      fun ys => ys.length = xs.length ∧ ∀ k y, ys[k]? = some y → Q (i + k) y := by
  induction xs generalizing i with
  | nil => exact (Decides.pure ⟨rfl, nofun⟩).congr ⟨fun _ => nofun, fun _ => trivial⟩
  | cons x xs ih =>
    refine ((h i x).bind fun _ y hy => (ih (i + 1)).bind fun _ ys hys =>
      Decides.pure (a := y :: ys) ⟨?length, ?values⟩).congr ?fits
    case length => rw [List.length_cons, List.length_cons, hys.1]
    case values =>
      intro k z hz
      cases k with
      | zero => cases hz; exact hy
      | succ k => rw [← Nat.succ_add_eq_add_succ]; exact hys.2 k z hz
    case fits =>
      constructor
      · intro hall k z hz
        obtain ⟨hx, hxs, -⟩ := hall
        cases k with
        | zero => cases hz; exact hx
        | succ k => rw [← Nat.succ_add_eq_add_succ]; exact hxs k z hz
      · intro hall
        refine ⟨hall 0 x rfl, fun k z hz => ?_, trivial⟩
        rw [Nat.succ_add_eq_add_succ]
        exact hall (k + 1) z hz

end Image

end QuakeProgs
