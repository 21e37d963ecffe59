/-
  File:      QuakeProgs/Proofs/Diagnostics/Listings.lean
  Subject:   WHICH STATEMENTS THE LISTING OF A FUNCTION SHOWS, and which belong to its code.

  Where a function's code stops is said twice. A listing stops at the lowest entry above its own, taken
  over all functions; a statement belongs to the function whose entry comes last at or before it, taken
  over all functions but number zero. The loader asks nothing of the entry of function zero.

  * `View.lineNumber`, `View.listed` -- the numbers that the lines of a listing start with;
    `View.lineNumber_disassemble` -- each line starts with the number of its statement;
  * `Program.codeAt` -- the statements that belong to the code at an entry;
    `Program.inCode_iff` -- what the search over the functions decides;
  * `View.nextEntry_cases`, `View.lt_nextEntry_iff` -- where a listing stops, in the same terms;
  * `Program.CutAt` -- function zero starts within the code of another function, or past all statements;
  * `Image.listing_shows_code` -- a listing shows the code of the function exactly if function zero does not cut it,
    and a line outside the program only if function zero starts out there;
  * `Image.cut_listing` -- a listing that function zero cuts.
-/
import Mathlib.Data.List.Sort
import QuakeProgs.Diagnostics.Disassembly
import QuakeProgs.Proofs.Image.Building

namespace QuakeProgs

/-! ## 1. The number in front of a line. -/

namespace Text

theorem toList_padLeft (width : Nat) (s : String) :
    (padLeft width s).toList = List.replicate (width - s.length) ' ' ++ s.toList := by
  rw [padLeft, spaces, String.toList_append, String.toList_ofList]

/-- Trimming keeps everything up to a character that is no blank. -/
theorem toList_trimEnd {s : String} {front back : List Char} {c : Char} (e : s.toList = front ++ c :: back)
    (solid : isBlank c = false) : ∃ kept, (trimEnd s).toList = front ++ c :: kept := by
  refine ⟨(back.reverse.dropWhile isBlank).reverse, ?_⟩
  have stops : (c :: front.reverse).dropWhile isBlank = c :: front.reverse :=
    List.dropWhile_cons_of_neg (by rw [solid]; exact Bool.false_ne_true)
  rw [trimEnd, String.toList_ofList, e, List.reverse_append, List.reverse_cons, List.append_assoc,
    List.singleton_append, List.dropWhile_append, stops]
  cases rest : back.reverse.dropWhile isBlank with
  | nil => simp
  | cons d ds => simp

end Text

/-- No mnemonic starts with a blank. -/
theorem Opcode.mnemonic_starts (op : Opcode) : ∃ c rest, op.mnemonic.toList = c :: rest ∧ Text.isBlank c = false := by
  have all : ∀ op ∈ table, (op.mnemonic.toList.head?.any fun c => !Text.isBlank c) = true := by decide +kernel
  have solid := all op (List.mem_of_getElem? op.ofNumber?_number)
  cases letters : op.mnemonic.toList with
  | nil => rw [letters] at solid; cases solid
  | cons c rest =>
    rw [letters] at solid
    exact ⟨c, rest, rfl, by simpa using solid⟩

namespace View

/-- The number that a line starts with, after blanks. -/
def lineNumber (line : String) : Nat :=
  Nat.ofDigitChars 10 ((line.toList.dropWhile (· == ' ')).takeWhile Char.isDigit) 0

/-- The numbers of the lines under the heading of a listing. -/
def listed (v : View) (f : FuncRef) : List Nat := (v.disassembleFunction f).tail.map lineNumber

/-- A line starts with blanks, the number and another blank. -/
theorem disassemble_starts (v : View) (i : Nat) :
    ∃ n rest, (v.disassemble i).toList = List.replicate n ' ' ++ (Nat.toDigits 10 i ++ ' ' :: rest) := by
  have number : (Text.padLeft 5 (toString i)).toList =
      List.replicate (5 - (toString i).length) ' ' ++ Nat.toDigits 10 i := by
    rw [Text.toList_padLeft, Nat.toString_eq_ofList_toDigits, String.toList_ofList]
  suffices starts : ∃ rest, (v.disassemble i).toList = (Text.padLeft 5 (toString i)).toList ++ ' ' :: rest by
    obtain ⟨rest, e⟩ := starts
    exact ⟨_, rest, by rw [e, number, List.append_assoc]⟩
  have blank : " ".toList = [' '] := rfl
  unfold disassemble
  generalize Text.padLeft 5 (toString i) = column
  dsimp only
  cases found : v.program.statements[i]? with
  | none =>
    have split : " <statement out of range>".toList = ' ' :: "<statement out of range>".toList := by decide +kernel
    exact ⟨_, String.toList_append.trans (congrArg (column.toList ++ ·) split)⟩
  | some s =>
    obtain ⟨c, rest, starts, solid⟩ := s.op.mnemonic_starts
    have front : (s!"{column} {Text.padRight 10 s.op.mnemonic} {v.operandsText s}").toList =
        (column.toList ++ [' ']) ++ c :: (rest ++ ((Text.spaces (10 - s.op.mnemonic.length)).toList ++
          ' ' :: (v.operandsText s).toList)) := by
      simp only [toString, Text.padRight, String.toList_append, blank, starts, List.append_assoc, List.cons_append,
        List.nil_append]
    obtain ⟨kept, trimmed⟩ := Text.toList_trimEnd front solid
    exact ⟨c :: kept, trimmed.trans (List.append_assoc ..)⟩

/-- **Each line starts with the number of its statement.** -/
@[simp] theorem lineNumber_disassemble (v : View) (i : Nat) : lineNumber (v.disassemble i) = i := by
  obtain ⟨n, rest, starts⟩ := v.disassemble_starts i
  have digits : ∀ c ∈ Nat.toDigits 10 i, c.isDigit = true := fun c hc =>
    Nat.isDigit_of_mem_toDigits (by decide) (by decide) hc
  have blanks : ∀ c ∈ List.replicate n ' ', (c == ' ') = true := fun c hc => by
    rw [List.eq_of_mem_replicate hc]
    rfl
  have noBlank : (Nat.toDigits 10 i ++ ' ' :: rest).dropWhile (· == ' ') = Nat.toDigits 10 i ++ ' ' :: rest := by
    cases shape : Nat.toDigits 10 i with
    | nil => exact absurd shape Nat.toDigits_ne_nil
    | cons d ds =>
      have digit : d.isDigit = true := digits d (by rw [shape]; exact List.mem_cons_self)
      refine List.dropWhile_cons_of_neg fun blank => ?_
      rw [eq_of_beq blank] at digit
      cases digit
  rw [lineNumber, starts, List.dropWhile_append_of_pos blanks, noBlank, List.takeWhile_append_of_pos digits,
    List.takeWhile_cons_of_neg (by decide), List.append_nil, Nat.ofDigitChars_ten_toDigits]

end View

/-! ## 2. The function that a statement belongs to. -/

namespace Program

variable {p : Program} {i entry : Nat}

/-- Function number `g` is bytecode and starts at `start`. -/
def StartsAt (p : Program) (g start : Nat) : Prop := ∃ f, p.functions[g]? = some f ∧ f.codeStart? = some start

/-- Statement `i` belongs to the code at `entry`: it is not before the entry, and the function that it is in
    starts there. -/
def InCode (p : Program) (entry i : Nat) : Prop :=
  entry ≤ i ∧ ((p.functionContaining? i).bind p.function?).bind Function.codeStart? = some entry

instance InCode.decidable (p : Program) (entry : Nat) : DecidablePred (p.InCode entry) :=
  fun _ => inferInstanceAs (Decidable (_ ∧ _))

/-- The statements that belong to the code at `entry`. -/
def codeAt (p : Program) (entry : Nat) : List Nat := (List.range p.statements.size).filter (p.InCode entry ·)

theorem mem_codeAt : i ∈ p.codeAt entry ↔ i < p.statements.size ∧ p.InCode entry i := by
  rw [codeAt, List.mem_filter, List.mem_range, decide_eq_true_eq]

/-- **What the search has found among the functions it has seen**: the last entry at or before the statement,
    and a function that has it. -/
def Latest (i : Nat) (seen : List (Function × Nat)) : Option (Nat × Nat) → Prop
  | none => ∀ c ∈ seen, ∀ start, c.1.codeStart? = some start → i < start
  | some (entry, g) => entry ≤ i ∧ (∃ f, (f, g) ∈ seen ∧ f.codeStart? = some entry) ∧
      ∀ c ∈ seen, ∀ start, c.1.codeStart? = some start → start ≤ i → start ≤ entry

section

variable {seen : List (Function × Nat)} {best : Option (Nat × Nat)} {c : Function × Nat}

/-- A function that starts past the statement, or not past the best so far, changes nothing. -/
theorem Latest.keep (h : Latest i seen best)
    (passed : ∀ start, c.1.codeStart? = some start → start ≤ i → best.any (start ≤ ·.1)) :
    Latest i (seen ++ [c]) best := by
  cases best with
  | none =>
    intro d hd start starts
    rcases List.mem_append.mp hd with old | new
    · exact h d old start starts
    · cases List.mem_singleton.mp new
      exact Nat.lt_of_not_le fun reached => Bool.noConfusion (passed start starts reached)
  | some found =>
    obtain ⟨reached, ⟨f, isSeen, starts⟩, last⟩ := h
    refine ⟨reached, ⟨f, List.mem_append_left _ isSeen, starts⟩, fun d hd start starts early => ?_⟩
    rcases List.mem_append.mp hd with old | new
    · exact last d old start starts early
    · cases List.mem_singleton.mp new
      simpa using passed start starts early

/-- A later entry takes the place of the best so far. -/
theorem Latest.take (h : Latest i seen best) (starts : c.1.codeStart? = some entry) (reached : entry ≤ i)
    (later : best.all (·.1 < entry)) : Latest i (seen ++ [c]) (some (entry, c.2)) := by
  refine ⟨reached, ⟨c.1, List.mem_append_right _ List.mem_cons_self, starts⟩, fun d hd start starts' early => ?_⟩
  rcases List.mem_append.mp hd with old | new
  · cases best with
    | none => exact absurd early (Nat.not_le.mpr (h d old start starts'))
    | some found =>
      have before : found.1 < entry := by simpa using later
      exact Nat.le_of_lt (Nat.lt_of_le_of_lt (h.2.2 d old start starts' early) before)
  · cases List.mem_singleton.mp new
    cases starts.symm.trans starts'
    exact Nat.le_refl _

/-- One function more. -/
theorem Latest.step (h : Latest i seen best) (c : Function × Nat) :
    Latest i (seen ++ [c]) (laterEntry i best c) := by
  unfold laterEntry
  cases starts : c.1.codeStart? with
  | none => exact h.keep fun start starts' => by rw [starts] at starts'; cases starts'
  | some entry =>
    dsimp only
    by_cases better : entry ≤ i ∧ best.all (·.1 < entry)
    · rw [if_pos better]
      exact h.take starts better.1 better.2
    · rw [if_neg better]
      refine h.keep fun start starts' early => ?_
      cases starts.symm.trans starts'
      cases best with
      | none => exact absurd ⟨early, rfl⟩ better
      | some found => simpa using Nat.le_of_not_lt fun before => better ⟨early, by simpa using before⟩

end

theorem Latest.fold {seen : List (Function × Nat)} {best : Option (Nat × Nat)} (h : Latest i seen best)
    (rest : List (Function × Nat)) : Latest i (seen ++ rest) (rest.foldl (laterEntry i) best) := by
  induction rest generalizing seen best with
  | nil => rwa [List.append_nil]
  | cons c rest ih =>
    rw [List.append_cons, List.foldl_cons]
    exact ih (h.step c)

/-- The functions that are searched: all but number zero. -/
theorem mem_searched {f : Function} {g : Nat} :
    (f, g) ∈ p.functions.toList.zipIdx.drop 1 ↔ 0 < g ∧ p.functions[g]? = some f := by
  rw [List.mem_iff_getElem?]
  simp only [List.getElem?_drop, List.getElem?_zipIdx, Option.map_eq_some_iff, Prod.mk.injEq, Nat.zero_add,
    Array.getElem?_toList]
  constructor
  · intro place
    obtain ⟨k, _, found, rfl, rfl⟩ := place
    exact ⟨by omega, found⟩
  · intro place
    obtain ⟨pos, found⟩ := place
    exact ⟨g - 1, f, by rwa [Nat.add_sub_cancel' pos], rfl, by omega⟩

/-- **The code a statement belongs to** starts at the last entry at or before it, among all functions but
    number zero. -/
theorem inCode_iff (small : p.functions.size ≤ 2 ^ 32) :
    p.InCode entry i ↔ entry ≤ i ∧ (∃ g, 0 < g ∧ p.StartsAt g entry) ∧
      ∀ g start, 0 < g → p.StartsAt g start → start ≤ i → start ≤ entry := by
  have unseen : Latest i [] none := fun c seen => absurd seen List.not_mem_nil
  have found := unseen.fold (p.functions.toList.zipIdx.drop 1)
  rw [List.nil_append] at found
  rw [InCode, functionContaining?]
  cases best : (p.functions.toList.zipIdx.drop 1).foldl (laterEntry i) none with
  | none =>
    rw [best] at found
    constructor
    · intro ⟨_, impossible⟩
      cases impossible
    · intro ⟨reached, ⟨g, pos, f, at', starts⟩, _⟩
      exact absurd reached (Nat.not_le.mpr (found (f, g) (mem_searched.mpr ⟨pos, at'⟩) entry starts))
  | some latest =>
    rw [best] at found
    obtain ⟨last, g⟩ := latest
    obtain ⟨reached, ⟨f, isSearched, starts⟩, final⟩ := found
    obtain ⟨pos, at'⟩ := mem_searched.mp isSearched
    have inside : g < p.functions.size := (Array.getElem?_eq_some_iff.mp at').1
    have number : g.toUInt32.toNat = g := UInt32.toNat_ofNat_of_lt' (Nat.lt_of_lt_of_le inside small)
    have start : (((some (last, g)).map (·.2.toUInt32)).bind p.function?).bind Function.codeStart? = some last := by
      rw [Option.map_some, Option.bind_some, function?, number, at', Option.bind_some, starts]
    rw [start, Option.some_inj]
    constructor
    · rintro ⟨early, rfl⟩
      exact ⟨early, ⟨g, pos, f, at', starts⟩, fun g' start pos' ⟨f', at'', starts'⟩ =>
        final (f', g') (mem_searched.mpr ⟨pos', at''⟩) start starts'⟩
    · intro ⟨early, ⟨g', pos', f', at'', starts'⟩, greatest⟩
      refine ⟨early, Nat.le_antisymm (greatest g last pos ⟨f, at', starts⟩ reached) ?_⟩
      exact final (f', g') (mem_searched.mpr ⟨pos', at''⟩) entry starts' early

end Program

/-! ## 3. The statements that a listing shows. -/

namespace View

variable {v : View} {entry i : Nat}

/-- The entries above `entry`, of all functions. -/
theorem mem_later {start : Nat} :
    start ∈ (v.program.functions.toList.filterMap Function.codeStart?).filter (· > entry) ↔
      entry < start ∧ ∃ g, v.program.StartsAt g start := by
  rw [List.mem_filter, List.mem_filterMap, decide_eq_true_eq, and_comm]
  refine and_congr_right fun _ => ?_
  constructor
  · intro ⟨f, isIn, starts⟩
    obtain ⟨g, found⟩ := List.mem_iff_getElem?.mp isIn
    exact ⟨g, f, by rwa [Array.getElem?_toList] at found, starts⟩
  · intro ⟨g, f, found, starts⟩
    exact ⟨f, List.mem_of_getElem? (by rwa [Array.getElem?_toList]), starts⟩

/-- **Where a listing stops**: at the lowest entry above its own, or where the statements end. -/
theorem nextEntry_cases (v : View) (entry : Nat) :
    v.nextEntry entry = v.program.statements.size ∧ (∀ g start, v.program.StartsAt g start → start ≤ entry) ∨
      (entry < v.nextEntry entry ∧ ∃ g, v.program.StartsAt g (v.nextEntry entry)) ∧
        ∀ g start, v.program.StartsAt g start → entry < start → v.nextEntry entry ≤ start := by
  unfold nextEntry
  dsimp only
  cases lowest : ((v.program.functions.toList.filterMap Function.codeStart?).filter (· > entry)).min? with
  | none =>
    refine .inl ⟨rfl, fun g start starts => Nat.le_of_not_lt fun above => ?_⟩
    have isIn := mem_later.mpr ⟨above, g, starts⟩
    rw [List.min?_eq_none_iff.mp lowest] at isIn
    cases isIn
  | some stop =>
    obtain ⟨isIn, least⟩ := List.min?_eq_some_iff.mp lowest
    exact .inr ⟨mem_later.mp isIn, fun g start starts above => least start (mem_later.mpr ⟨above, g, starts⟩)⟩

theorem mem_functionRange : i ∈ v.functionRange entry ↔ entry ≤ i ∧ i < v.nextEntry entry := by
  rw [functionRange, List.mem_range'_1]
  omega

/-- A listing: a heading and the statements of the range, each on a line with its number. -/
theorem disassembleFunction_eq {f : FuncRef} {func : Function} (found : v.program.function? f = some func)
    (code : func.codeStart? = some entry) :
    v.listed f = v.functionRange entry ∧
      v.disassembleFunction f = s!"{func.name} ({func.file}):" :: (v.functionRange entry).map v.disassemble := by
  have lines : v.disassembleFunction f =
      s!"{func.name} ({func.file}):" :: (v.functionRange entry).map v.disassemble := by
    rw [disassembleFunction, found]
    dsimp only
    rw [code]
  refine ⟨?_, lines⟩
  rw [listed, lines, List.tail_cons, List.map_map]
  exact (List.map_congr_left fun i _ => v.lineNumber_disassemble i).trans (List.map_id _)

end View

/-! ## 4. What the listing shows is the code, but for function zero. -/

namespace Program

/-- **Function zero starts within the code at `entry`**, at `stop`: above the entry, below every other function
    that starts above it, and not just where the statements end. -/
structure CutAt (p : Program) (entry stop : Nat) : Prop where
  zero : p.StartsAt 0 stop
  above : entry < stop
  inside : stop ≠ p.statements.size
  first : ∀ g start, 0 < g → p.StartsAt g start → entry < start → stop < start

variable {p : Program} {entry stop i : Nat}

theorem StartsAt.unique {g start start' : Nat} (h : p.StartsAt g start) (h' : p.StartsAt g start') :
    start = start' := by
  obtain ⟨f, found, starts⟩ := h
  obtain ⟨f', found', starts'⟩ := h'
  cases found.symm.trans found'
  exact Option.some_inj.mp (starts.symm.trans starts')

/-- The code at an entry goes on up to the next entry of a function other than number zero. -/
theorem mem_codeAt_iff (small : p.functions.size ≤ 2 ^ 32) (owned : ∃ g, 0 < g ∧ p.StartsAt g entry) :
    i ∈ p.codeAt entry ↔ i < p.statements.size ∧ entry ≤ i ∧
      ∀ g start, 0 < g → p.StartsAt g start → entry < start → i < start := by
  rw [mem_codeAt, inCode_iff small]
  refine and_congr_right fun _ => and_congr_right fun _ => ?_
  rw [and_iff_right owned]
  refine forall_congr' fun g => forall_congr' fun start => forall_congr' fun _ => forall_congr' fun _ => ?_
  rw [← not_lt, ← not_lt, not_imp_not]

end Program

namespace View

variable {v : View} {entry stop : Nat}

/-- Where function zero starts within the code, the listing stops. -/
theorem nextEntry_of_cut (cut : v.program.CutAt entry stop) : v.nextEntry entry = stop := by
  rcases v.nextEntry_cases entry with ⟨-, none⟩ | ⟨⟨above, g, starts⟩, least⟩
  · exact absurd (none 0 stop cut.zero) (Nat.not_le.mpr cut.above)
  · refine Nat.le_antisymm (least 0 stop cut.zero cut.above) ?_
    rcases Nat.eq_zero_or_pos g with rfl | pos
    · exact Nat.le_of_eq (cut.zero.unique starts)
    · exact Nat.le_of_lt (cut.first g _ pos starts above)

/-- **Without a cut the listing stops where the code does.** -/
theorem lt_nextEntry_iff (inside : ∀ g start, 0 < g → v.program.StartsAt g start → start < v.program.statements.size)
    (uncut : ¬ ∃ stop, v.program.CutAt entry stop) (i : Nat) :
    i < v.nextEntry entry ↔ i < v.program.statements.size ∧
      ∀ g start, 0 < g → v.program.StartsAt g start → entry < start → i < start := by
  rcases v.nextEntry_cases entry with ⟨last, none⟩ | ⟨⟨above, g, starts⟩, least⟩
  · rw [last]
    refine ⟨fun lt => ⟨lt, fun g start _ starts above => ?_⟩, And.left⟩
    exact absurd (none g start starts) (Nat.not_le.mpr above)
  · -- The listing stops at an entry: of a function other than zero, or just where the statements end.
    have stops : v.nextEntry entry = v.program.statements.size ∨
        ∃ g, 0 < g ∧ v.program.StartsAt g (v.nextEntry entry) := by
      by_contra cut
      rw [not_or] at cut
      rcases Nat.eq_zero_or_pos g with rfl | pos
      · refine uncut ⟨_, starts, above, cut.1, fun g' start pos starts' above' => ?_⟩
        refine Nat.lt_of_le_of_ne (least g' start starts' above') fun same => cut.2 ⟨g', pos, ?_⟩
        rwa [same]
      · exact cut.2 ⟨g, pos, starts⟩
    constructor
    · intro lt
      refine ⟨?_, fun g start _ starts above => Nat.lt_of_lt_of_le lt (least g start starts above)⟩
      rcases stops with last | ⟨g, pos, starts⟩
      · rwa [← last]
      · exact Nat.lt_trans lt (inside g _ pos starts)
    · intro ⟨lt, below⟩
      rcases stops with last | ⟨g, pos, starts⟩
      · rwa [last]
      · exact below g _ pos starts above

end View

namespace Image

variable {bytes : Bytes} {options : LoadOptions} {image : Image}

/-- A table of functions is counted by a signed word. -/
theorem functions_size_le (loaded : load bytes options = .ok image) : image.program.functions.size ≤ 2 ^ 32 := by
  obtain ⟨raw, decoded, resolved⟩ := bind_eq_ok loaded
  have size := (resolve_shows resolved).functions.size
  obtain ⟨-, rfl⟩ := (RawImage.decode_decides bytes).passed raw decoded
  rw [RawImage.at, Extent.length_table, Extent.number] at size
  have bound := (Header.at bytes 0).functions.count.toInt_lt
  omega

/-- All entries but that of function zero lie within the program. -/
theorem entries_inside (loaded : load bytes options = .ok image) (g start : Nat) (pos : 0 < g)
    (starts : image.program.StartsAt g start) : start < image.program.statements.size := by
  obtain ⟨f, found, code⟩ := starts
  exact ((load_checked loaded).program.functions g f found).entry start code (Nat.ne_of_gt pos)

/-- **A listing shows the code of its function exactly if function zero does not start within it**; if it does,
    the listing stops there. Lines outside the program are listed exactly if function zero starts beyond the
    program and no function starts between. -/
theorem listing_shows_code (loaded : load bytes options = .ok image) {v : View} (shown : v.program = image.program)
    {f : FuncRef} (nonzero : f ≠ 0) {func : Function} (found : image.program.function? f = some func) {entry : Nat}
    (code : func.codeStart? = some entry) :
    v.disassembleFunction f = s!"{func.name} ({func.file}):" :: (v.listed f).map v.disassemble ∧
      (v.listed f = image.program.codeAt entry ↔ ¬ ∃ stop, image.program.CutAt entry stop) ∧
      (∀ stop, image.program.CutAt entry stop → v.listed f = List.range' entry (stop - entry)) ∧
      ((∃ i ∈ v.listed f, image.program.statements.size ≤ i) ↔
        ∃ stop, image.program.CutAt entry stop ∧ image.program.statements.size < stop) := by
  have small := functions_size_le loaded
  have inside := entries_inside loaded
  rw [← shown] at found small inside ⊢
  have pos : 0 < f.toNat := Nat.pos_of_ne_zero fun zero => nonzero (UInt32.toNat_inj.mp zero)
  have owned : v.program.StartsAt f.toNat entry := ⟨func, found, code⟩
  have within : entry < v.program.statements.size := inside f.toNat entry pos owned
  obtain ⟨listed, lines⟩ := View.disassembleFunction_eq found code
  rw [listed]
  have agree : (¬ ∃ stop, v.program.CutAt entry stop) → v.functionRange entry = v.program.codeAt entry := by
    intro uncut
    have ordered : (v.functionRange entry).Pairwise (· < ·) := List.pairwise_lt_range'
    refine ordered.eq_of_mem_iff (List.pairwise_lt_range.filter _) fun i => ?_
    rw [View.mem_functionRange, View.lt_nextEntry_iff inside uncut, Program.mem_codeAt_iff small ⟨_, pos, owned⟩]
    tauto
  refine ⟨lines, ⟨fun same cut => ?_, agree⟩, fun stop cut => ?_, fun outside => ?_, fun beyond => ?_⟩
  · obtain ⟨stop, cut⟩ := cut
    have shows (i : Nat) : entry ≤ i ∧ i < stop ↔ i ∈ v.program.codeAt entry := by
      rw [← same, View.mem_functionRange, View.nextEntry_of_cut cut]
    rcases Nat.lt_or_gt_of_ne cut.inside with early | late
    · -- The statement where function zero starts belongs to the code, and is not listed.
      have ends := (Program.mem_codeAt_iff small ⟨_, pos, owned⟩).mpr
        ⟨early, Nat.le_of_lt cut.above, cut.first⟩
      exact Nat.lt_irrefl stop ((shows stop).mpr ends).2
    · -- The number past the last statement is listed, and is no statement.
      have past := (shows v.program.statements.size).mp ⟨Nat.le_of_lt within, late⟩
      exact Nat.lt_irrefl _ (Program.mem_codeAt.mp past).1
  · rw [View.functionRange, View.nextEntry_of_cut cut]
  · obtain ⟨i, isListed, past⟩ := outside
    by_contra short
    have cut : ∃ stop, v.program.CutAt entry stop := by
      by_contra uncut
      rw [agree uncut] at isListed
      exact Nat.not_lt.mpr past (Program.mem_codeAt.mp isListed).1
    obtain ⟨stop, cut⟩ := cut
    rw [View.mem_functionRange, View.nextEntry_of_cut cut] at isListed
    exact short ⟨stop, cut, Nat.lt_of_le_of_lt past isListed.2⟩
  · obtain ⟨stop, cut, late⟩ := beyond
    refine ⟨v.program.statements.size, ?_, Nat.le_refl _⟩
    rw [View.mem_functionRange, View.nextEntry_of_cut cut]
    exact ⟨Nat.le_of_lt within, late⟩

/-! ### Two functions, and an entry for function zero. -/

/-- The bytes load to an image with a property. -/
def Loads (bytes : Bytes) (options : LoadOptions) (P : Image → Prop) : Prop :=
  ∃ image, load bytes options = .ok image ∧ P image

instance Loads.decidable (bytes : Bytes) (options : LoadOptions) (P : Image → Prop) [DecidablePred P] :
    Decidable (Loads bytes options P) :=
  match h : load bytes options with
  | .ok image => decidable_of_iff (P image) (by simp [Loads, h])
  | .error _ => isFalse (by simp [Loads, h])

/-- Two functions of two statements each, and function zero at an entry. -/
def twoFunctions (zero : Int32) : ImageBuilder :=
  let body (fb : FunctionBuilder) : FunctionBuilder := (fb.emit .notFloat 1 0 1).ret 1
  let b : ImageBuilder := { functions := #[{ firstStatement := zero }, {}, {}] }
  (b.define 1 [] body).define 2 [] body

/-- Where function zero starts at the first statement, as it does by default, it cuts nothing. -/
theorem listing_shows_code_second : Loads (twoFunctions 0).build Assembly.tight fun image =>
    ∀ v : View, v.program = image.program → v.listed 2 = [3, 4] := by
  have loads : Loads (twoFunctions 0).build Assembly.tight fun image =>
      (image.program.function? 2).bind Function.codeStart? = some 3 ∧ image.program.codeAt 3 = [3, 4] ∧
      (image.program.functions[0]?.bind Function.codeStart?) = some 0 := by decide +kernel
  obtain ⟨image, loaded, entry, code, zero⟩ := loads
  obtain ⟨func, found, starts⟩ := Option.bind_eq_some_iff.mp entry
  obtain ⟨func₀, found₀, starts₀⟩ := Option.bind_eq_some_iff.mp zero
  refine ⟨image, loaded, fun v shown => ?_⟩
  obtain ⟨-, agree, -, -⟩ := listing_shows_code loaded shown (by decide) found starts
  rw [← code]
  refine agree.mpr fun ⟨stop, cut⟩ => ?_
  cases cut.zero.unique ⟨func₀, found₀, starts₀⟩
  exact Nat.not_lt_zero 3 cut.above

/-- **A listing that function zero cuts**: it starts beyond the program, and the last function seems to go on
    up to there. -/
theorem cut_listing : Loads (twoFunctions 7).build Assembly.tight fun image =>
    (image.program.function? 2).bind Function.codeStart? = some 3 ∧ image.program.codeAt 3 = [3, 4] ∧
    ∀ v : View, v.program = image.program → v.listed 2 = [3, 4, 5, 6] ∧
      "    5 <statement out of range>" ∈ v.disassembleFunction 2 := by
  have loads : Loads (twoFunctions 7).build Assembly.tight fun image =>
      ((image.program.function? 2).bind Function.codeStart? = some 3 ∧ image.program.codeAt 3 = [3, 4]) ∧
      View.functionRange ⟨image.program, image.strings, image.globals⟩ 3 = [3, 4, 5, 6] ∧
      image.program.statements[5]? = none := by decide +kernel
  obtain ⟨image, loaded, ⟨entry, code⟩, range, outside⟩ := loads
  obtain ⟨func, found, starts⟩ := Option.bind_eq_some_iff.mp entry
  refine ⟨image, loaded, entry, code, fun v shown => ?_⟩
  have range : v.functionRange 3 = [3, 4, 5, 6] := by
    rw [← range, View.functionRange, View.functionRange, View.nextEntry, View.nextEntry, shown]
  rw [← shown] at found outside
  obtain ⟨listed, lines⟩ := View.disassembleFunction_eq found starts
  have placeholder : v.disassemble 5 = "    5 <statement out of range>" := by
    have text : Text.padLeft 5 (toString 5) ++ " <statement out of range>" = "    5 <statement out of range>" := by
      decide +kernel
    rw [View.disassemble, outside]
    exact text
  rw [listed, lines, range, ← placeholder]
  exact ⟨rfl, List.mem_cons_of_mem _ (List.mem_map_of_mem (by decide))⟩

end Image

end QuakeProgs
