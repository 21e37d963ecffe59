/-
  File:      QuakeProgs/Proofs/Strings/Comparison.lean
  Subject:   TWO STRINGS COMPARED, by the first byte in which they differ.

  The comparison does not stop at the end of the shorter string: it goes on through the longer one, against zeros. A
  string that was read from a table has no zero among its bytes, so the first byte behind the end of the shorter one
  settles it, and a string comes after all its prefixes.

  * `Bytes.Ranked` -- a number tells which of two strings comes first: its sign is the order of the bytes;
  * `StringTable.difference_ranked` -- that of the first difference does, for strings without a zero;
  * `StringTable.InRange` -- the references that there is a string at;
  * `StringTable.Ranks` -- the comparison of a table, and where it fails;
  * `StringTable.compare_ranks` -- every table compares so, and two statements of a program say what it says.
-/
import QuakeProgs.Proofs.Machine.Operations
import QuakeProgs.Proofs.Strings.References

namespace QuakeProgs

open Bytes

/-! ## 1. Two strings. -/

/-- **A number tells how two strings lie**: it is zero if they are the same bytes, below zero if the first comes
    first, above if the second does. Bytes are compared as unsigned numbers, and a proper prefix comes first. -/
structure Bytes.Ranked (x y : Bytes) (d : Int) : Prop where
  same : d = 0 ↔ x = y
  before : d < 0 ↔ x < y
  behind : 0 < d ↔ y < x
  small : d.natAbs ≤ 255

namespace Bytes.Ranked

variable {x y z : Bytes} {c d e : Int}

/-- A first byte that both have in common does not count. -/
theorem cons (h : Ranked x y d) (a : UInt8) : Ranked (a :: x) (a :: y) d where
  same := by rw [h.same, List.cons.injEq, and_iff_right rfl]
  before := by rw [h.before, List.cons_lt_cons_iff, or_iff_right (UInt8.lt_irrefl a), and_iff_right rfl]
  behind := by rw [h.behind, List.cons_lt_cons_iff, or_iff_right (UInt8.lt_irrefl a), and_iff_right rfl]
  small := h.small

/-- **First bytes that differ** settle it. -/
theorem of_ne {a b : UInt8} (differ : a ≠ b) (x y : Bytes) : Ranked (a :: x) (b :: y) (a.toNat - b.toNat) := by
  have apart : a.toNat ≠ b.toNat := fun same => differ (UInt8.toNat_inj.mp same)
  have smallA := a.toNat_lt
  have smallB := b.toNat_lt
  refine ⟨?_, ?_, ?_, by omega⟩
  · rw [List.cons.injEq]
    exact ⟨fun same => absurd same (by omega), fun same => absurd same.1 differ⟩
  · rw [List.cons_lt_cons_iff, or_iff_left fun same => differ same.1, UInt8.lt_iff_toNat_lt]
    omega
  · rw [List.cons_lt_cons_iff, or_iff_left fun same => differ same.1.symm, UInt8.lt_iff_toNat_lt]
    omega

/-- Nothing comes before the empty string. -/
theorem of_nil {a : UInt8} (nonzero : a ≠ 0) (x : Bytes) : Ranked (a :: x) [] a.toNat := by
  have positive : a.toNat ≠ 0 := fun zero => nonzero (UInt8.toNat_inj.mp zero)
  have small := a.toNat_lt
  refine ⟨?_, ?_, ?_, by omega⟩
  · exact ⟨fun zero => absurd zero (by omega), nofun⟩
  · exact ⟨fun negative => absurd negative (by omega), fun before => absurd before (List.not_lt_nil _)⟩
  · exact ⟨fun _ => List.nil_lt_cons a x, fun _ => by omega⟩

theorem swap (h : Ranked x y d) : Ranked y x (-d) where
  same := by rw [Int.neg_eq_zero, h.same, eq_comm]
  before := by rw [← h.behind]; omega
  behind := by rw [← h.before]; omega
  small := by rw [Int.natAbs_neg]; exact h.small

/-- **Comparing is transitive**: what does not come behind a string that does not come behind a third does not come
    behind the third; and it is the third only if all are the same. -/
theorem trans (h : Ranked x y c) (h' : Ranked y z d) (h'' : Ranked x z e) (first : c ≤ 0) (second : d ≤ 0) :
    e ≤ 0 ∧ (e = 0 → c = 0 ∧ d = 0) := by
  rcases Int.lt_or_eq_of_le first with first | same
  · have before := h.before.mp first
    rcases Int.lt_or_eq_of_le second with second | same
    · have third := h''.before.mpr (List.lt_trans before (h'.before.mp second))
      omega
    · cases h'.same.mp same
      have third := h''.before.mpr before
      omega
  · cases h.same.mp same
    rcases Int.lt_or_eq_of_le second with second | same'
    · have third := h''.before.mpr (h'.before.mp second)
      omega
    · have third := h''.same.mpr (h'.same.mp same')
      omega

end Bytes.Ranked

namespace StringTable

/-- **The first difference ranks two strings**, neither of which has a zero among its bytes. -/
theorem difference_ranked {x y : Bytes} (hx : 0 ∉ x) (hy : 0 ∉ y) : Ranked x y (difference x y) := by
  induction x, y using difference.induct with
  | case1 =>
    rw [difference]
    exact ⟨by simp, by simp, by simp, by simp⟩
  | case2 as => exact absurd List.mem_cons_self hx
  | case3 a as nonzero =>
    rw [difference, if_neg nonzero]
    exact .of_nil nonzero as
  | case4 bs => exact absurd List.mem_cons_self hy
  | case5 b bs nonzero =>
    rw [difference, if_neg nonzero]
    exact (Ranked.of_nil nonzero bs).swap
  | case6 as b bs ih =>
    rw [difference, if_pos rfl]
    exact (ih (fun isIn => hx (List.mem_cons_of_mem _ isIn)) fun isIn => hy (List.mem_cons_of_mem _ isIn)).cons b
  | case7 a as b bs differ =>
    rw [difference, if_neg differ]
    exact .of_ne differ as bs

/-- The other way round, the difference is the opposite one. -/
theorem difference_swap (x y : Bytes) : difference y x = -difference x y := by
  induction x, y using difference.induct with
  | case1 => simp [difference]
  | case2 as ih => rw [difference, if_pos rfl, difference, if_pos rfl, ih]
  | case3 a as nonzero => rw [difference, if_neg nonzero, difference, if_neg nonzero]
  | case4 bs ih => rw [difference, if_pos rfl, difference, if_pos rfl, ih]
  | case5 b bs nonzero => rw [difference, if_neg nonzero, difference, if_neg nonzero, Int.neg_neg]
  | case6 as b bs ih => rw [difference, if_pos rfl, difference, if_pos rfl, ih]
  | case7 a as b bs differ => rw [difference, if_neg (Ne.symm differ), difference, if_neg differ, Int.neg_sub]

/-! ## 2. Two references. -/

/-- **There is a string at the reference**: it lies in the table, or right behind its last byte. -/
def InRange (t : StringTable) (r : StringRef) : Prop := 0 ≤ r.toInt ∧ r.toInt.toNat ≤ t.size

variable {t : StringTable} {a b : StringRef} {x y : Bytes}

/-- No string that was read has a zero among its bytes. -/
theorem InRange.get (h : t.InRange a) : ∃ x, t.get a = .ok x ∧ 0 ∉ x :=
  ⟨_, get_of_le h.1 h.2, nul_not_mem_beforeNul _⟩

theorem inRange_of_get (h : t.get a = .ok x) : t.InRange a :=
  ⟨(get_eq_ok h).1, (get_eq_ok h).2.1⟩

theorem compare_of_get (hx : t.get a = .ok x) (hy : t.get b = .ok y) : t.compare a b = .ok (difference x y) := by
  rw [compare, hx, hy]
  rfl

/-- **The comparison succeeds** for two references in range, and for no others. -/
theorem compare_eq_ok {d : Int} (h : t.compare a b = .ok d) : t.InRange a ∧ t.InRange b := by
  unfold compare at h
  cases hx : t.get a with
  | error e =>
    rw [hx] at h
    cases h
  | ok x =>
    rw [hx] at h
    cases hy : t.get b with
    | error e =>
      rw [hy] at h
      cases h
    | ok y => exact ⟨inRange_of_get hx, inRange_of_get hy⟩

theorem compare_ranked (ha : t.InRange a) (hb : t.InRange b) :
    ∃ x y d, t.get a = .ok x ∧ t.get b = .ok y ∧ t.compare a b = .ok d ∧ Ranked x y d := by
  obtain ⟨x, hx, plainX⟩ := ha.get
  obtain ⟨y, hy, plainY⟩ := hb.get
  exact ⟨x, y, _, hx, hy, compare_of_get hx hy, difference_ranked plainX plainY⟩

/-- **The table compares its strings by their bytes**: opposite ways give opposite answers, what comes before what
    comes before a third comes before the third, and there is no answer exactly if there is no string at one of the
    references. -/
structure Ranks (t : StringTable) : Prop where
  ranked : ∀ a b, t.InRange a → t.InRange b →
    ∃ x y d, t.get a = .ok x ∧ t.get b = .ok y ∧ t.compare a b = .ok d ∧ Ranked x y d
  swap : ∀ a b d, t.compare a b = .ok d → t.compare b a = .ok (-d)
  trans : ∀ a b c d e, t.compare a b = .ok d → t.compare b c = .ok e → d ≤ 0 → e ≤ 0 →
    ∃ f, t.compare a c = .ok f ∧ f ≤ 0 ∧ (f = 0 → d = 0 ∧ e = 0)
  fails : ∀ a b, (∃ e, t.compare a b = .error e) ↔ ¬ t.InRange a ∨ ¬ t.InRange b

theorem ranks (t : StringTable) : t.Ranks where
  ranked _ _ := compare_ranked
  swap a b d h := by
    obtain ⟨ha, hb⟩ := compare_eq_ok h
    obtain ⟨x, hx, -⟩ := ha.get
    obtain ⟨y, hy, -⟩ := hb.get
    cases (compare_of_get hx hy).symm.trans h
    rw [compare_of_get hy hx, difference_swap]
  trans a b c d e hd he first second := by
    obtain ⟨x, y, _, hx, hy, hd', ranked⟩ := compare_ranked (compare_eq_ok hd).1 (compare_eq_ok hd).2
    obtain ⟨y', z, _, hy', hz, he', ranked'⟩ := compare_ranked (compare_eq_ok he).1 (compare_eq_ok he).2
    obtain ⟨x', z', f, hx', hz', hf, ranked''⟩ := compare_ranked (compare_eq_ok hd).1 (compare_eq_ok he).2
    cases hd.symm.trans hd'
    cases he.symm.trans he'
    cases hx.symm.trans hx'
    cases hy.symm.trans hy'
    cases hz.symm.trans hz'
    exact ⟨f, hf, ranked.trans ranked' ranked'' first second⟩
  fails a b := by
    constructor
    · intro ⟨e, failed⟩
      by_contra inside
      obtain ⟨ha, hb⟩ := not_or.mp inside
      obtain ⟨_, _, _, _, _, compared, -⟩ := compare_ranked (not_not.mp ha) (not_not.mp hb)
      cases compared.symm.trans failed
    · intro outside
      cases compared : t.compare a b with
      | error e => exact ⟨e, rfl⟩
      | ok d =>
        obtain ⟨ha, hb⟩ := compare_eq_ok compared
        exact absurd outside (by simp [ha, hb])

end StringTable

/-! ## 3. Two statements. -/

/-- Of the numbers that a comparison can give, only zero has the word zero. -/
theorem Single.bits_ofInt_eq_zero_iff {d : Int} (small : d.natAbs ≤ 255) : (Single.ofInt d).bits = 0 ↔ d = 0 := by
  have each : ∀ (neg : Bool) (n : Fin 256), (neg = true → n ≠ 0) → ((Single.ofRatio neg n 1).bits = 0 ↔ n = 0) := by
    decide +kernel
  have fits : d.natAbs < 256 := Nat.lt_succ_of_le small
  have number := each (d < 0) ⟨d.natAbs, fits⟩ fun negative zero => by
    have negative := of_decide_eq_true negative
    have zero : d.natAbs = 0 := congrArg Fin.val zero
    omega
  rw [Single.ofInt, number, Fin.ext_iff]
  exact Int.natAbs_eq_zero

theorem Engine.compareStrings_of_words {m : Machine} {a b : Nat} {x y : Word} {d : Int}
    (hx : m.globals.get a = .ok x) (hy : m.globals.get b = .ok y)
    (compared : m.strings.compare x.toRef y.toRef = .ok d) : compareStrings a b m = .ok d m := by
  have readX : word a m = .ok x m := reads_of_ok hx
  have readY : word b m = .ok y m := reads_of_ok hy
  rw [compareStrings, bind_of_ok readX, bind_of_ok readY]
  exact reads_of_ok compared

open Engine in
/-- **Strings are compared as in C**, in every table and for all references: the answer is zero exactly for the same
    bytes, its sign is the order of the bytes, it lies within 255 of zero, and there is one exactly if there are
    strings at both references. The two statements that compare strings ask the same question: where there are
    strings at both words, one sets its flag exactly if the number that the other makes its result is zero. The
    result is the word zero exactly then, so what branches on one branches against the other. -/
theorem StringTable.compare_ranks (t : StringTable) : t.Ranks ∧
    ∀ (m : Machine) (st : Statement) (x y : Word), m.strings = t → m.globals.get st.ga = .ok x →
      m.globals.get st.gb = .ok y → t.InRange x.toRef → t.InRange y.toRef →
      ∃ d, t.compare x.toRef y.toRef = .ok d ∧
        compute { st with op := .eqRef .string } m = setFlag st.gc (d = 0) m ∧
        compute { st with op := .neRef .string } m = setFloat st.gc (.ofInt d) m ∧
        ((Single.ofInt d).bits = 0 ↔ d = 0) := by
  refine ⟨t.ranks, ?_⟩
  rintro m st x y rfl hx hy inX inY
  obtain ⟨_, _, d, -, -, compared, ranked⟩ := compare_ranked inX inY
  have asked : compareStrings st.ga st.gb m = .ok d m := compareStrings_of_words hx hy compared
  have equal : compute { st with op := .eqRef .string } m = setFlag st.gc (d = 0) m := bind_of_ok asked
  have different : compute { st with op := .neRef .string } m = setFloat st.gc (.ofInt d) m := bind_of_ok asked
  exact ⟨d, compared, equal, different, Single.bits_ofInt_eq_zero_iff ranked.small⟩

/-- A program with the strings `axe` and `ax`, and a global for each. -/
def prefixed : ImageBuilder :=
  { strings := #[0, 97, 120, 101, 0, 97, 120, 0]
    statements := #[{}, { op := 43 }]
    functions := #[{}]
    globals := (Array.replicate 92 0).set! 40 1 |>.set! 41 5 }

open Engine in
/-- The prefix comes first, and the flag of the statement is not set. -/
theorem StringTable.compare_ranks_prefixed : ∃ m d, Reachable default .core m ∧
    m.strings.compare 1 5 = .ok d ∧ m.strings.compare 5 1 = .ok (-d) ∧ 0 < d ∧
    compute { op := .eqRef .string, a := 40, b := 41, c := 42 } m = setFlag 42 false m ∧
    compute { op := .neRef .string, a := 40, b := 41, c := 42 } m = setFloat 42 (.ofInt d) m := by
  have loads : Machine.Loads prefixed.build .small {} .core fun m =>
      m.strings.get 1 = .ok [97, 120, 101] ∧ m.strings.get 5 = .ok [97, 120] ∧
        m.globals.get 40 = .ok 1 ∧ m.globals.get 41 = .ok 5 := by
    decide +kernel
  obtain ⟨m, reached, axe, ax, first, second⟩ := loads.reachable default
  obtain ⟨ranks, stated⟩ := m.strings.compare_ranks
  obtain ⟨d, compared, equal, different, -⟩ :=
    stated m { op := .done, a := 40, b := 41, c := 42 } 1 5 rfl first second
    (inRange_of_get axe) (inRange_of_get ax)
  obtain ⟨x, y, d', hx, hy, compared', ranked⟩ := ranks.ranked 1 5 (inRange_of_get axe) (inRange_of_get ax)
  cases axe.symm.trans hx
  cases ax.symm.trans hy
  cases compared.symm.trans compared'
  have behind : 0 < d := ranked.behind.mpr (by decide)
  rw [decide_eq_false (Int.ne_of_gt behind)] at equal
  exact ⟨m, d, reached, compared, ranks.swap _ _ _ compared, behind, equal, different⟩

end QuakeProgs
