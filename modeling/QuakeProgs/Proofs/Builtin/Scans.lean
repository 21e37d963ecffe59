/-
  File:      QuakeProgs/Proofs/Builtin/Scans.lean
  Subject:   LOOPS OVER THE ENTITIES: a program that goes on from the last result misses none.

  A program walks through the entities by calling `nextent`, or `find`, each time on what the last call gave
  it, until that is the world. A call knows nothing of the calls before it: free and live records may lie in
  any order, and the first argument may be any word.

  * `EdictStore.liveAfter` -- the entities that are still to come; a call finds the first of them
    (`Engine.nextLive_eq`), and the others come after that one (`EdictStore.liveAfter_of_cons`);
  * `Engine.nextent_eq`, `Engine.find_eq` -- one call;
  * `Engine.Row` -- calls in a row; between them the machine may change as long as it stays in the scene;
  * `Engine.Scans` -- a row that starts at the world goes through all entities that are looked for, in order,
    and comes back to the world;
  * `Engine.scans_complete` -- both builtins scan, from every machine in order whose numbers fit a reference;
  * `Engine.scan_misses_unnamed` -- with one number more, a loop comes back to the world before its end.
-/
import Mathlib.Data.List.Sort
import QuakeProgs.Proofs.Machine.Operations

namespace QuakeProgs

/-! ## 1. The entities still to come. -/

namespace EdictStore

variable {s : EdictStore} {p : Edict → Bool} {start i : Nat}

/-- The numbers past `start`, in order, of the records in use that are live and satisfy `p`. -/
def liveAfter (s : EdictStore) (p : Edict → Bool) (start : Nat) : List Nat :=
  (List.range' (start + 1) (s.inUse - (start + 1))).filter fun i => (s.get? i).any fun e => !e.free && p e

/-- **The number of an entity** that is in use, live, and satisfies `P`. -/
def LiveWith (s : EdictStore) (P : Edict → Prop) (i : Nat) : Prop :=
  i < s.inUse ∧ ∃ e, s.get? i = some e ∧ e.free = false ∧ P e

theorem mem_liveAfter : i ∈ s.liveAfter p start ↔ start < i ∧ s.LiveWith (fun e => p e = true) i := by
  rw [liveAfter, List.mem_filter, List.mem_range'_1, Option.any_eq_true, LiveWith]
  simp only [Bool.and_eq_true, Bool.not_eq_true']
  constructor
  · rintro ⟨⟨first, last⟩, found⟩
    exact ⟨first, by omega, found⟩
  · rintro ⟨first, last, found⟩
    exact ⟨⟨first, by omega⟩, found⟩

theorem pairwise_liveAfter (s : EdictStore) (p : Edict → Bool) (start : Nat) :
    (s.liveAfter p start).Pairwise (· < ·) :=
  List.Pairwise.filter _ List.pairwise_lt_range'

/-- What comes after the first hit in a run of numbers. -/
theorem filter_range'_of_cons {q : Nat → Bool} {n : Nat} {rest : List Nat}
    (h : (List.range' start n).filter q = i :: rest) :
    (List.range' (i + 1) (start + n - (i + 1))).filter q = rest := by
  induction n generalizing start with
  | zero => cases h
  | succ n ih =>
    rw [List.range'_succ, List.filter_cons] at h
    split at h
    · cases h
      rw [show i + (n + 1) - (i + 1) = n by omega]
    · rw [← ih h, show start + 1 + n = start + (n + 1) by omega]

/-- **After the first of the entities to come, the others come.** -/
theorem liveAfter_of_cons {rest : List Nat} (h : s.liveAfter p start = i :: rest) : s.liveAfter p i = rest := by
  have first : start < i ∧ s.LiveWith (fun e => p e = true) i := mem_liveAfter.mp (h ▸ List.mem_cons_self)
  have inside := first.2.1
  have others := filter_range'_of_cons h
  rwa [show start + 1 + (s.inUse - (start + 1)) = s.inUse by omega] at others

end EdictStore

namespace Engine

variable {m m' : Machine} {start field wanted : Word} {s : Bytes}

/-- **The first of the entities to come**, or the world if none is. -/
theorem nextLive_eq (m : Machine) (start : EdictId) (p : Edict → Bool) :
    nextLive m start p = ((m.edicts.liveAfter p start.toNat).head?.getD 0).toUInt32 := by
  rw [nextLive, EdictStore.search, EdictStore.firstOf_eq, EdictStore.liveAfter, List.head?_filter]

/-- A field that refers to a string with the wanted bytes, which no null reference does. -/
def FieldRefers (strings : StringTable) (field : Nat) (wanted : Bytes) (e : Edict) : Prop :=
  ∃ w, e.word field = .ok w ∧ w ≠ 0 ∧ strings.get w.toRef = .ok wanted

theorem fieldHolds_iff (strings : StringTable) (field : Nat) (wanted : Bytes) (e : Edict) :
    fieldHolds strings field wanted e = true ↔ FieldRefers strings field wanted e := by
  unfold fieldHolds FieldRefers
  cases word : e.word field with
  | error err => simp
  | ok w =>
    cases text : strings.get w.toRef with
    | error err => simp [text]
    | ok t => simp [text]

end Engine

/-! ## 2. One call. -/

namespace Machine

/-- The machine once a builtin has returned a word. -/
def returning (m : Machine) (w : Word) : Machine :=
  { m with globals := m.globals.overwrite Global.returned [w] }

/-- The machine once a word was put in place as an argument. -/
def passing (m : Machine) (n : Nat) (w : Word) : Machine :=
  { m with globals := m.globals.overwrite (Global.parm n) [w] }

/-- The word that is passed as an argument. -/
def argument? (m : Machine) (n : Nat) : Option Word := m.globals.words[Global.parm n]?

/-- The word that was returned. -/
def result? (m : Machine) : Option Word := m.globals.words[Global.returned]?

variable {m : Machine}

theorem Sound.overwrite (sound : m.Sound) {ofs : Nat} (wellKnown : ofs < Global.count) (w : Word) :
    Engine.write ofs [w] m = .ok () { m with globals := m.globals.overwrite ofs [w] } ∧
      Machine.Sound { m with globals := m.globals.overwrite ofs [w] } ∧
      ∀ k, (m.globals.overwrite ofs [w]).words[k]? = if k = ofs then some w else m.globals.words[k]? := by
  have room : ofs + 1 ≤ m.globals.size := Nat.lt_of_lt_of_le wellKnown sound.program.wellKnown
  have written : Engine.write ofs [w] m = .ok () { m with globals := m.globals.overwrite ofs [w] } :=
    Engine.write_of_room room
  refine ⟨written, ((Command.write ofs [w]).perform_sound m sound).ok written, fun k => ?_⟩
  rw [GlobalBlock.overwrite, Block.getElem?_writeFrom _ _ _ _ room]
  by_cases own : k = ofs
  · rw [if_pos (by simp only [List.length_singleton]; omega), if_pos own, own, Nat.sub_self]
    rfl
  · rw [if_neg (by simp only [List.length_singleton]; omega), if_neg own]

theorem Sound.returning (sound : m.Sound) (w : Word) : (m.returning w).Sound :=
  (sound.overwrite (by decide) w).2.1

theorem Sound.passing (sound : m.Sound) {n : Nat} (hn : n < 8) (w : Word) : (m.passing n w).Sound := by
  refine (sound.overwrite ?_ w).2.1
  simp only [Global.parm, Global.firstParm, Global.count]
  omega

theorem Sound.result?_returning (sound : m.Sound) (w : Word) : (m.returning w).result? = some w :=
  ((sound.overwrite (by decide) w).2.2 _).trans (if_pos rfl)

theorem Sound.argument?_returning (sound : m.Sound) (w : Word) (n : Nat) :
    (m.returning w).argument? n = m.argument? n := by
  refine ((sound.overwrite (by decide) w).2.2 _).trans (if_neg ?_)
  simp only [Global.parm, Global.firstParm, Global.returned]
  omega

theorem Sound.argument?_passing (sound : m.Sound) {n : Nat} (hn : n < 8) (w : Word) (k : Nat) :
    (m.passing n w).argument? k = if k = n then some w else m.argument? k := by
  have wellKnown : Global.parm n < Global.count := by
    simp only [Global.parm, Global.firstParm, Global.count]
    omega
  refine ((sound.overwrite wellKnown w).2.2 _).trans ?_
  by_cases own : k = n
  · rw [if_pos own, if_pos (by rw [own])]
  · rw [if_neg own, if_neg (by simp only [Global.parm, Global.firstParm]; omega)]
    rfl

end Machine

namespace Engine

variable {m m' : Machine} {start field wanted : Word} {s : Bytes}

theorem argWord_of_argument? {n : Nat} (hn : n < 8) {w : Word} (h : m.argument? n = some w) :
    argWord n m = .ok w m := by
  rw [argWord, argOffset_eq hn, pure_bind]
  exact word_of_getElem? h

theorem returnWord_eq (sound : m.Sound) (w : Word) : returnWord w m = .ok () (m.returning w) :=
  (sound.overwrite (by decide) w).1

/-- **One call of `nextent`.** -/
theorem nextent_eq (sound : m.Sound) (arg : m.argument? 0 = some start) :
    core .nextent m = .ok () (m.returning (nextLive m start fun _ => true)) := by
  have found := argWord_of_argument? (by decide) arg
  rw [core, bind_of_ok found, get_bind]
  exact returnWord_eq sound _

/-- **One call of `find`**, for a string that is there. -/
theorem find_eq (sound : m.Sound) (arg₀ : m.argument? 0 = some start) (arg₁ : m.argument? 1 = some field)
    (arg₂ : m.argument? 2 = some wanted) (nonnull : wanted ≠ 0) (text : m.strings.get wanted.toRef = .ok s) :
    core .find m = .ok () (m.returning (nextLive m start (fieldHolds m.strings field.toNat s))) := by
  have found₀ := argWord_of_argument? (by decide) arg₀
  have found₁ := argWord_of_argument? (by decide) arg₁
  have found₂ := argWord_of_argument? (by decide) arg₂
  have read : string wanted.toRef m = .ok s m := reads_of_ok text
  rw [core, find, bind_of_ok found₀, bind_of_ok found₁, bind_of_ok found₂, if_neg nonnull, bind_of_ok read, get_bind]
  exact returnWord_eq sound _

/-! ## 3. Calls in a row. -/

/-- **Calls in a row**: each is given what the one before it returned, the first a word `w`. Each is made by
    some machine of the scene. -/
inductive Row (call : Engine Unit) (scene : Machine → Prop) : Word → List Word → Prop
  | none {w : Word} : Row call scene w []
  | call {m m' : Machine} {w w' : Word} {ws : List Word} : scene m → m.argument? 0 = some w →
      call m = .ok () m' → m'.result? = some w' → Row call scene w' ws → Row call scene w (w' :: ws)

/-- **A scan of the entities that satisfy `P`.** Every call succeeds, stays in the scene, and gives the world or
    such an entity past its argument. From the world on, calls in a row give each of them, in order, and then the
    world. -/
structure Scans (call : Engine Unit) (scene : Machine → Prop) (store : EdictStore) (P : Edict → Prop) : Prop where
  advances : ∀ m start, scene m → m.argument? 0 = some start → ∃ m' next, call m = .ok () m' ∧ scene m' ∧
    m'.result? = some next ∧ (next = 0 ∨ start.toNat < next.toNat ∧ store.LiveWith P next.toNat)
  visits : ∃ is : List Nat, is.Pairwise (· < ·) ∧ (∀ i, i ∈ is ↔ 1 ≤ i ∧ store.LiveWith P i) ∧
    ∀ ws, Row call scene 0 ws ∧ ws.length = is.length + 1 ↔ ws = is.map Nat.toUInt32 ++ [0]

section Scan

variable {call : Engine Unit} {scene : Machine → Prop} {store : EdictStore} {p : Edict → Bool}
  (numbered : store.inUse ≤ 0x100000000)
include numbered

/-- The number of an entity in use fits a reference. -/
theorem toNat_of_liveWith {P : Edict → Prop} {i : Nat} (h : store.LiveWith P i) : i.toUInt32.toNat = i :=
  UInt32.toNat_ofNat_of_lt (Nat.lt_of_lt_of_le h.1 numbered)

variable (offers : ∀ w, ∃ m, scene m ∧ m.argument? 0 = some w)
  (answers : ∀ m start, scene m → m.argument? 0 = some start → ∃ m', call m = .ok () m' ∧ scene m' ∧
    m'.result? = some ((store.liveAfter p start.toNat).head?.getD 0).toUInt32)
include offers answers

omit numbered in
/-- The first call of a row gives the first of the entities to come, and the others start from that one. -/
theorem row_cons_iff {w : Word} {ws : List Word} : Row call scene start (w :: ws) ↔
    w = ((store.liveAfter p start.toNat).head?.getD 0).toUInt32 ∧ Row call scene w ws := by
  constructor
  · rintro (_ | ⟨staged, arg, called, result, row⟩)
    obtain ⟨m', called', -, result'⟩ := answers _ _ staged arg
    cases called.symm.trans called'
    exact ⟨Option.some.inj (result.symm.trans result'), row⟩
  · rintro ⟨rfl, row⟩
    obtain ⟨m, staged, arg⟩ := offers start
    obtain ⟨m', called, -, result⟩ := answers m start staged arg
    exact .call staged arg called result row

/-- **Calls in a row go through the entities still to come**, by induction on these. -/
theorem row_iff {is : List Nat} (come : store.liveAfter p start.toNat = is) (ws : List Word) :
    Row call scene start ws ∧ ws.length = is.length + 1 ↔ ws = is.map Nat.toUInt32 ++ [0] := by
  induction is generalizing start ws with
  | nil =>
    constructor
    · rintro ⟨row, length⟩
      obtain ⟨w, rfl⟩ := List.length_eq_one_iff.mp length
      rw [((row_cons_iff offers answers).mp row).1, come]
      rfl
    · rintro rfl
      refine ⟨(row_cons_iff offers answers).mpr ⟨?_, .none⟩, rfl⟩
      rw [come]
      rfl
  | cons i rest ih =>
    have live := (EdictStore.mem_liveAfter.mp (come ▸ List.mem_cons_self)).2
    have others : store.liveAfter p i.toUInt32.toNat = rest := by
      rw [toNat_of_liveWith numbered live]
      exact EdictStore.liveAfter_of_cons come
    constructor
    · rintro ⟨row, length⟩
      cases ws with
      | nil => cases length
      | cons w ws =>
        obtain ⟨found, row⟩ := (row_cons_iff offers answers).mp row
        rw [come] at found
        cases found
        rw [(ih others ws).mp ⟨row, Nat.succ.inj length⟩]
        rfl
    · rintro rfl
      obtain ⟨row, length⟩ := (ih others _).mpr rfl
      refine ⟨(row_cons_iff offers answers).mpr ⟨?_, row⟩, congrArg Nat.succ length⟩
      rw [come]
      rfl

/-- A builtin whose calls find the first of the entities to come scans. -/
theorem scans_of_answers {P : Edict → Prop} (accepts : ∀ e, p e = true ↔ P e) : Scans call scene store P := by
  have live : ∀ i, store.LiveWith (fun e => p e = true) i ↔ store.LiveWith P i := fun i => by
    simp only [EdictStore.LiveWith, accepts]
  constructor
  · intro m start staged arg
    obtain ⟨m', called, staged', result⟩ := answers m start staged arg
    refine ⟨m', _, called, staged', result, ?_⟩
    cases come : store.liveAfter p start.toNat with
    | nil => exact .inl rfl
    | cons i rest =>
      obtain ⟨past, found⟩ := EdictStore.mem_liveAfter.mp (come ▸ List.mem_cons_self)
      rw [List.head?_cons, Option.getD_some, toNat_of_liveWith numbered found]
      exact .inr ⟨past, (live i).mp found⟩
  · refine ⟨store.liveAfter p 0, store.pairwise_liveAfter p 0, fun i => ?_, row_iff numbered offers answers rfl⟩
    rw [EdictStore.mem_liveAfter, live]
    exact Iff.rfl

end Scan

end Engine

/-! ## 4. The two builtins. -/

namespace Machine

/-- **The scene of a loop with `nextent`**: any machine in order with the same entities. -/
structure SameEntities (m m' : Machine) : Prop where
  sound : m'.Sound
  edicts : m'.edicts = m.edicts

/-- **The scene of a loop with `find`**: besides, strings read the same, and the same field and string are
    asked for. -/
structure SameSearch (m : Machine) (field wanted : Word) (m' : Machine) : Prop extends SameEntities m m' where
  texts : ∀ r, m'.strings.get r = m.strings.get r
  field : m'.argument? 1 = some field
  wanted : m'.argument? 2 = some wanted

end Machine

namespace Engine

variable {m : Machine}

/-- **Both scans are complete and come to an end.** From a machine in order, whatever pattern of free and live
    records its store has, a row of calls of `nextent` goes through the live entities, and one of `find` through
    those whose field refers to the bytes of the string, if that is there and is not the null string. Each comes
    up once, in order; then the world does. From any start a call gives the world or an entity past the start. The
    numbers in use have to fit a reference. -/
theorem scans_complete (sound : m.Sound) (numbered : m.edicts.inUse ≤ 0x100000000) :
    Scans (core .nextent) m.SameEntities m.edicts (fun _ => True) ∧
      ∀ field wanted s, wanted ≠ 0 → m.strings.get wanted.toRef = .ok s →
        Scans (core .find) (m.SameSearch field wanted) m.edicts (FieldRefers m.strings field.toNat s) := by
  constructor
  · refine scans_of_answers (p := fun _ => true) numbered (fun w => ?_) (fun m' start scene arg => ?_)
      fun _ => by simp
    · exact ⟨m.passing 0 w, ⟨sound.passing (by decide) w, rfl⟩, sound.argument?_passing (by decide) w 0⟩
    · have called := nextent_eq scene.sound arg
      rw [nextLive_eq, scene.edicts] at called
      exact ⟨_, called, ⟨scene.sound.returning _, scene.edicts⟩, scene.sound.result?_returning _⟩
  · intro field wanted s nonnull text
    refine scans_of_answers numbered (fun w => ?_) (fun m' start scene arg => ?_)
      (fieldHolds_iff m.strings field.toNat s)
    · have sound₁ := sound.passing (by decide : 1 < 8) field
      have sound₂ := sound₁.passing (by decide : 2 < 8) wanted
      refine ⟨((m.passing 1 field).passing 2 wanted).passing 0 w, ⟨⟨sound₂.passing (by decide) w, rfl⟩, fun _ => rfl,
        ?_, ?_⟩, sound₂.argument?_passing (by decide) w 0⟩
      · rw [sound₂.argument?_passing (by decide) w, sound₁.argument?_passing (by decide) wanted,
          sound.argument?_passing (by decide) field]
        rfl
      · rw [sound₂.argument?_passing (by decide) w, sound₁.argument?_passing (by decide) wanted]
        rfl
    · have called := find_eq scene.sound arg scene.field scene.wanted nonnull ((scene.texts _).trans text)
      have reads : fieldHolds m'.strings field.toNat s = fieldHolds m.strings field.toNat s := by
        funext e
        simp only [fieldHolds, scene.texts]
      rw [nextLive_eq, scene.edicts, reads] at called
      refine ⟨_, called, ⟨⟨scene.sound.returning _, scene.edicts⟩, scene.texts, ?_, ?_⟩,
        scene.sound.result?_returning _⟩
      · exact (scene.sound.argument?_returning _ 1).trans scene.field
      · exact (scene.sound.argument?_returning _ 2).trans scene.wanted

/-- What a scan goes through is known once the entities are. -/
theorem Scans.row {call : Engine Unit} {scene : Machine → Prop} {store : EdictStore} {P : Edict → Prop}
    {p : Edict → Bool} (h : Scans call scene store P) (accepts : ∀ e, p e = true ↔ P e) {is : List Nat}
    (known : store.liveAfter p 0 = is) : Row call scene 0 (is.map Nat.toUInt32 ++ [0]) := by
  obtain ⟨js, ordered, members, rows⟩ := h.visits
  have same : js = is := by
    rw [← known]
    refine ordered.eq_of_mem_iff (store.pairwise_liveAfter p 0) fun i => ?_
    rw [members, EdictStore.mem_liveAfter]
    simp only [EdictStore.LiveWith, accepts]
    exact Iff.rfl
  cases same
  exact ((rows _).mpr rfl).1

/-- A program with one field, and the string "x" in its blob. -/
def marking : ImageBuilder :=
  { strings := #[0, 120, 0], entityFields := 1 }

/-- Of the entities 1 to 3, the last gets the string, and 2 is freed. -/
def markLast : Engine Unit := do
  (Command.writeField 3 0 [1]).perform
  (Command.release 2 .zero).perform

/-- A loop with `nextent` passes over the freed entity; one with `find` stops at the last alone. -/
theorem scans_complete_marked : ∃ m : Machine, m.Sound ∧ m.edicts.inUse ≤ 0x100000000 ∧
    Row (core .nextent) m.SameEntities 0 [1, 3, 0] ∧ Row (core .find) (m.SameSearch 0 1) 0 [3, 0] := by
  have loads : Machine.Loads marking.build .small { store := { initial := 4, reserved := 4 } } .core fun m =>
      Ends markLast m (fun _ m' => m'.edicts.inUse ≤ 0x100000000 ∧ m'.strings.get (1 : Word).toRef = .ok [120] ∧
        m'.edicts.liveAfter (fun _ => true) 0 = [1, 3] ∧
        m'.edicts.liveAfter (fieldHolds m'.strings (0 : Word).toNat [120]) 0 = [3]) fun _ _ => False := by
    decide +kernel
  obtain ⟨m₀, reachable, ends⟩ := loads.reachable default
  obtain ⟨_, m, done, numbered, text, live, marked⟩ := ends.exists_ok
  have sound₀ := (reachable.sound (Registry.onlyCore_core.trusts default)).1
  have sound : m.Sound := (((Command.writeField 3 0 [1]).perform_sound.bind fun _ =>
    (Command.release 2 .zero).perform_sound) m₀ sound₀).ok done
  obtain ⟨next, find⟩ := scans_complete sound numbered
  exact ⟨m, sound, numbered, next.row (p := fun _ => true) (fun _ => by simp) live,
    (find 0 1 [120] (by decide) text).row (fieldHolds_iff _ _ _) marked⟩

/-! ## 5. Numbers that no reference can name. -/

/-- A row goes on from any of its words. -/
theorem Row.suffix {call : Engine Unit} {scene : Machine → Prop} {before after : List Word} {w w' : Word}
    (row : Row call scene w (before ++ w' :: after)) : Row call scene w' after := by
  induction before generalizing w with
  | nil =>
    cases row with
    | call _ _ _ _ rest => exact rest
  | cons _ before ih =>
    cases row with
    | call _ _ _ _ rest => exact ih rest

/-- **A loop comes back too early**: with 2^32 + 1 live entities, the last has the number of the world. A loop with
    `nextent` would end there, but from the world it starts anew. -/
theorem not_scans_nextent (mark : m.edicts.inUse = 0x100000001)
    (live : ∀ i < 0x100000001, m.edicts.LiveWith (fun _ => True) i) :
    ¬ Scans (core .nextent) m.SameEntities m.edicts fun _ => True := by
  intro scans
  obtain ⟨is, ordered, members, rows⟩ := scans.visits
  have last : 0x100000000 ∈ is := (members _).mpr ⟨by omega, live _ (by omega)⟩
  obtain ⟨before, after, rfl⟩ := List.append_of_mem last
  have none : after = [] := by
    cases after with
    | nil => rfl
    | cons k rest =>
      have past := List.rel_of_pairwise_cons (List.pairwise_append.mp ordered).2.1 (List.mem_cons_self (a := k))
      have inside := ((members k).mp (by simp)).2.1
      omega
  subst none
  have row := ((rows _).mpr rfl).1
  rw [List.map_append, List.append_assoc] at row
  have number : (0x100000000 : Nat).toUInt32 = 0 := by decide
  rw [List.map_cons, List.map_nil, number] at row
  cases row.suffix with
  | call scene arg called result _ =>
    have next := nextent_eq scene.sound arg
    have first : (m.edicts.liveAfter (fun _ => true) (0 : Word).toNat).head? = some 1 := by
      obtain ⟨-, e, found, used, -⟩ := live 1 (by omega)
      have passes : ((m.edicts.get? 1).any fun e => !e.free && true) = true := by rw [found]; simp [used]
      rw [EdictStore.liveAfter, List.head?_filter, List.find?_range'_eq_some, List.mem_range'_1, mark,
        show (0 : Word).toNat = 0 from rfl]
      exact ⟨passes, by omega, fun j from_ below => by omega⟩
    rw [nextLive_eq, scene.edicts, first] at next
    cases called.symm.trans next
    rw [scene.sound.result?_returning] at result
    exact absurd result (by decide)

end Engine

/-- All records of a fresh store are live. -/
theorem EdictStore.liveWith_new (fieldWords : Nat) (config : StoreConfig) {i : Nat}
    (h : i < startInUse config (startCount config)) : (new fieldWords config).LiveWith (fun _ => True) i := by
  have tiled := Tiled.new fieldWords config
  have records : (new fieldWords config).records = List.replicate (startCount config) (.blank fieldWords) :=
    congrArg EdictTable.records (flat_new fieldWords config)
  have below : i < startCount config := Nat.lt_of_lt_of_le h (Nat.min_le_right _ _)
  refine ⟨?_, .blank fieldWords, ?_, rfl, trivial⟩
  · rw [new_eq]
    exact h
  · rw [tiled.get?_eq_records, records, List.getElem?_replicate, if_pos below]

namespace Engine

/-- **A scan that is not complete**: a program is loaded, and all 2^32 + 1 records of its store are in use. -/
theorem scan_misses_unnamed : ∃ m : Machine, m.Sound ∧ m.edicts.inUse = 0x100000001 ∧
    ¬ Scans (core .nextent) m.SameEntities m.edicts fun _ => True := by
  have loads : Machine.Loads marking.build .small {} .core fun _ => True := by decide +kernel
  obtain ⟨image, -, loaded, -⟩ := loads.holding
  let sizes : StoreConfig := { initial := 0, batch := 1, max := 0x100000001, reserved := 0x100000001 }
  have fresh : Reachable default Registry.core (.new image { store := sizes } .core) := .fresh _ loaded
  have sound := (fresh.sound (Registry.onlyCore_core.trusts default)).1
  have start : EdictStore.startInUse sizes (EdictStore.startCount sizes) = 0x100000001 := by decide
  have mark : (Machine.new image { store := sizes } .core).edicts.inUse = 0x100000001 :=
    (congrArg EdictStore.inUse (EdictStore.new_eq _ sizes)).trans start
  exact ⟨_, sound, mark, not_scans_nextent mark fun i below =>
    EdictStore.liveWith_new image.program.entityFields sizes (start.symm ▸ below)⟩

end Engine

end QuakeProgs
