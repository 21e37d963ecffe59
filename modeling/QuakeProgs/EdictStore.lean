/-
  File:      QuakeProgs/EdictStore.lean
  Subject:   THE ENTITIES: records in batches, handed out, freed and handed out again.

  Records live in batches that are only ever appended, so a number handed out once means the same
  record for as long as the store lives. Entity zero is the world and the next few numbers belong to
  clients; these are never handed out. A freed record rests for half a second before it is used
  again, unless it was freed in the first two seconds of a level.

  * `Batch` -- records in one allocation, their words one after the other;
  * `EdictStore.get?` -- the record with a number: the store seen as one array;
  * `EdictStore.modify`, `EdictStore.grow` -- the two changes all others are made of;
  * `EdictStore.search` -- the first record in a range that satisfies a test;
  * `EdictStore.alloc`, `EdictStore.release`, `EdictStore.reset`;
  * `EdictStore.snapshot`, `EdictStore.restore` -- the part in use, saved and put back.
-/
import QuakeProgs.Edict

namespace QuakeProgs

/-- The sizes of a store. -/
structure StoreConfig where
  /-- Records made at the start. -/
  initial : Nat := 256
  /-- Records added when the store runs out. -/
  batch : Nat := 256
  /-- The most records handed out. -/
  max : Nat := 8192
  /-- Records never handed out: the world and the clients. -/
  reserved : Nat := 17
  deriving DecidableEq, Inhabited

/-- Records with consecutive numbers, `start` being the first. The words of all of them lie in one array, one
    record after the other. -/
structure Batch where
  start : Nat
  headers : Array EdictHeader
  fields : Array Word
  deriving DecidableEq, Inhabited

/-- The entities of a running program. -/
structure EdictStore where
  /-- The field words of every record. -/
  fieldWords : Nat
  batches : Array Batch
  /-- The number of records. -/
  count : Nat
  /-- One past the highest number ever handed out. -/
  inUse : Nat
  config : StoreConfig
  deriving DecidableEq, Inhabited

/-- A saved record. -/
structure EdictRecord where
  free : Bool
  freeTime : Single
  fields : List Word
  deriving DecidableEq, Inhabited

/-- The saved records of a store. -/
structure StoreSnapshot where
  fieldWords : UInt64
  edicts : List EdictRecord
  deriving DecidableEq, Inhabited

/-! ## 1. A batch. -/

namespace Batch

/-- Whether a batch of `n` records can be made: a vector holds fewer than 2^63 bytes, and a header has 8 of
    them, a word 4. For a larger one the engine stops, at once or, where the number of words has wrapped around,
    when a record is looked up. -/
def fits (width n : Nat) : Bool := n * 8 < 0x8000000000000000 && n * width * 4 < 0x8000000000000000

/-- Blank records of `width` words. -/
def blank (start width n : Nat) : Batch :=
  { start, headers := Array.replicate n {}, fields := Array.replicate (n * width) 0 }

/-- The record at a place: its header, and the words from `i * width` up to `(i + 1) * width`. -/
def edict? (b : Batch) (width i : Nat) : Option Edict :=
  match b.headers[i]?, Block.slice? b.fields (i * width) width with
  | some h, some ws => some { free := h.free, freeTime := h.freeTime, fields := ws }
  | _, _ => none

/-- Changes the record at a place. It keeps its number of words: what a change adds is dropped, and what it
    leaves out stays. -/
def modify (b : Batch) (width i : Nat) (change : Edict → Edict) : Batch :=
  match b.edict? width i with
  | some e =>
    let e := change e
    { b with
      headers := b.headers.setIfInBounds i e.header
      fields := Block.writeFrom b.fields (i * width) (e.fields.toList.take width) }
  | none => b

/-- Makes every record blank. -/
def reset (b : Batch) : Batch :=
  { b with headers := b.headers.map fun _ => {}, fields := b.fields.map fun _ => 0 }

end Batch

namespace EdictStore

/-! ## 2. The records as one array. -/

/-- The first batch in `lo ..< hi` that starts after `index`, found by halving; `hi` if none does. -/
def firstAfter (batches : Array Batch) (index : Nat) : (fuel lo hi : Nat) → Nat
  | 0, lo, _ => lo
  | fuel + 1, lo, hi =>
    if lo ≥ hi then lo
    else
      let mid := (lo + hi) / 2
      if (batches[mid]?).any (·.start ≤ index) then firstAfter batches index fuel (mid + 1) hi
      else firstAfter batches index fuel lo mid

/-- The search ends at the one place that divides the batches: those before it start at or before
    `index`, those from it on do not. -/
theorem firstAfter_eq (batches : Array Batch) (index k fuel lo hi : Nat) (enough : hi - lo ≤ fuel)
    (hlo : lo ≤ k) (hhi : k ≤ hi)
    (below : ∀ i < k, (batches[i]?).any (·.start ≤ index) = true)
    (above : ∀ i, k ≤ i → i < hi → (batches[i]?).any (·.start ≤ index) = false) :
    firstAfter batches index fuel lo hi = k := by
  induction fuel generalizing lo hi with
  | zero =>
    rw [firstAfter]
    omega
  | succ fuel ih =>
    rw [firstAfter]
    by_cases done : lo ≥ hi
    · rw [if_pos done]
      omega
    · rw [if_neg done]
      by_cases hm : (lo + hi) / 2 < k
      · simp only [below _ hm, if_true]
        exact ih _ _ (by omega) (by omega) hhi above
      · simp only [above _ (Nat.le_of_not_lt hm) (by omega), Bool.false_eq_true, if_false]
        exact ih _ _ (by omega) hlo (by omega) fun i hk hi' => above i hk (by omega)

/-- Where a record lies: the last batch that starts at or before it, and the place in that batch. -/
@[inline] def locate? (s : EdictStore) (index : Nat) : Option (Nat × Nat) :=
  let b := firstAfter s.batches index s.batches.size 0 s.batches.size - 1
  match s.batches[b]? with
  | some batch => if batch.start ≤ index then some (b, index - batch.start) else none
  | none => none

/-- The record with a number. -/
def get? (s : EdictStore) (index : Nat) : Option Edict :=
  match s.locate? index with
  | some (b, i) => s.batches[b]?.bind fun batch => batch.edict? s.fieldWords i
  | none => none

/-- What is noted about the record with a number. -/
def headerAt? (s : EdictStore) (index : Nat) : Option EdictHeader :=
  match s.locate? index with
  | some (b, i) => s.batches[b]?.bind fun batch => batch.headers[i]?
  | none => none

/-- Changes the record with a number; a number beyond the store changes nothing. -/
def modify (s : EdictStore) (index : Nat) (change : Edict → Edict) : EdictStore :=
  match s.locate? index with
  | some (b, i) => { s with batches := s.batches.modify b fun batch => batch.modify s.fieldWords i change }
  | none => s

/-- Appends `n` blank records as one batch. Sizes are exact here; the engine counts them in 64 bits, where they stay
    as they are for a batch that `fits`. -/
def grow (s : EdictStore) (n : Nat) : EdictStore :=
  if n = 0 then s
  else { s with batches := s.batches.push (.blank s.count s.fieldWords n), count := s.count + n }

/-- The numbers in use at the start: the reserved ones, at least the world, at most all. -/
def startInUse (config : StoreConfig) (count : Nat) : Nat := Nat.min (Nat.max config.reserved 1) count

/-- The records made at the start: those asked for and the reserved ones, at least the world, at most the limit. -/
def startCount (config : StoreConfig) : Nat :=
  Nat.min (Nat.max (Nat.max config.initial config.reserved) 1) (Nat.max config.max 1)

/-- A store of blank records. -/
def new (fieldWords : Nat) (config : StoreConfig) : EdictStore :=
  let empty : EdictStore := { fieldWords, batches := #[], count := 0, inUse := 0, config }
  let s := empty.grow (startCount config)
  { s with inUse := startInUse config s.count }

/-- The bytes of a record: its words, its flag and its time. -/
def edictSize (s : EdictStore) : Nat := s.fieldWords * 4 + 8

/-- The record that program data refers to. -/
def get (s : EdictStore) (id : EdictId) : Except Error Edict :=
  match s.get? id.toNat with
  | some e => .ok e
  | none => .error (Cause.badEdict id.toNat s.count)

/-- Whether an entity has `n` field words from `ofs` on. -/
def checkWrite (s : EdictStore) (id : EdictId) (ofs n : Nat) : Except Error Unit := do
  (← s.get id).check ofs n

/-- Overwrites field words of an entity that has them. -/
def overwrite (s : EdictStore) (id : EdictId) (ofs : Nat) (ws : List Word) : EdictStore :=
  s.modify id.toNat (·.overwrite ofs ws)

/-- Overwrites field words of an entity. -/
def write (s : EdictStore) (id : EdictId) (ofs : Nat) (ws : List Word) : Except Error EdictStore := do
  s.checkWrite id ofs ws.length
  return s.overwrite id ofs ws

/-- The first of the `n` numbers from `i` on that passes a test. -/
def firstOf (test : Nat → Bool) (i : Nat) : Nat → Option Nat
  | 0 => none
  | n + 1 => if test i then some i else firstOf test (i + 1) n

/-- Looking for the first is looking through the numbers one by one. -/
theorem firstOf_eq (test : Nat → Bool) (i n : Nat) : firstOf test i n = (List.range' i n).find? test := by
  induction n generalizing i with
  | zero => rfl
  | succ n ih =>
    rw [firstOf, List.range'_succ, List.find?_cons, ih]
    cases test i <;> rfl

/-- The first of the `n` numbers from `i` on whose record satisfies `p`. -/
def search (s : EdictStore) (p : Edict → Bool) (i n : Nat) : Option Nat := firstOf (fun k => (s.get? k).any p) i n

/-! ## 3. Handing out and freeing. -/

/-- Freed before this time, a record need not rest. -/
def levelStart : Single := ⟨0x40000000⟩

/-- How long a freed record rests. -/
def restTime : Single := .half

/-- Whether a record of which this is noted may be handed out again at a time. -/
def rested (time : Single) (h : EdictHeader) : Bool :=
  h.free && (h.freeTime.lt levelStart || restTime.lt (time - h.freeTime))

/-- Whether a record may be handed out again at a time. -/
def reusable (time : Single) (e : Edict) : Bool := rested time e.header

theorem reusable_eq (time : Single) (e : Edict) :
    reusable time e = (e.free && (e.freeTime.lt levelStart || restTime.lt (time - e.freeTime))) := rfl

/-- The first number that may be handed out. -/
def firstFree (config : StoreConfig) : Nat := Nat.max config.reserved 1

/-- The lowest number in use whose record may be handed out again. -/
def reusable? (s : EdictStore) (time : Single) : Option Nat :=
  firstOf (fun k => (s.headerAt? k).any (rested time)) (firstFree s.config) (s.inUse - firstFree s.config)

/-- Makes a record blank. -/
def wipe (s : EdictStore) (index : Nat) : EdictStore :=
  s.modify index fun e => { e.clear with free := false, freeTime := .zero }

/-- The number that is handed out next: one that may be used again, else the next one. -/
def vacancy (s : EdictStore) (time : Single) : Except Error Nat :=
  match s.reusable? time with
  | some i => .ok i
  | none => if s.inUse ≥ s.config.max then .error (Cause.noFreeEdicts s.config.max) else .ok s.inUse

/-- Brings the next number into use; the store grows when it has to. -/
def extend (s : EdictStore) : EdictStore :=
  if s.inUse ≥ s.count then
    { s.grow (Nat.min (Nat.max s.config.batch 1) (s.config.max - s.count)) with inUse := s.inUse + 1 }
  else { s with inUse := s.inUse + 1 }

/-- Hands a vacant number out, its record blank. -/
def occupy (s : EdictStore) (index : Nat) : EdictStore :=
  if index < s.inUse then s.wipe index else s.extend.wipe index

/-- Hands a blank record out. -/
def alloc (s : EdictStore) (time : Single) : Except Error (EdictId × EdictStore) := do
  let i ← s.vacancy time
  return (i.toUInt32, s.occupy i)

/-- Whether a record can be freed: it is there and is not the world. -/
def checkRelease (s : EdictStore) (id : EdictId) : Except Error Unit := do
  if id = 0 then .error (Cause.programError "tried to free the world entity")
  else
    let _ ← s.get id

/-- Clears the fields of a record and notes the time. -/
def free (s : EdictStore) (id : EdictId) (time : Single) : EdictStore :=
  s.modify id.toNat fun e => { e.clear with free := true, freeTime := time }

/-- Frees a record. The world is never freed. -/
def release (s : EdictStore) (id : EdictId) (time : Single) : Except Error EdictStore := do
  s.checkRelease id
  return s.free id time

/-- Makes every record blank and starts handing out anew. -/
def reset (s : EdictStore) : EdictStore :=
  { s with
    batches := s.batches.map Batch.reset
    inUse := startInUse s.config s.count }

/-- The numbers in use whose records are not free, in order. -/
def live (s : EdictStore) : List Nat :=
  (List.range s.inUse).filter fun i => (s.headerAt? i).any (!·.free)

/-- The entities that are live, in order. -/
def liveEdicts (s : EdictStore) : List (Nat × Edict) :=
  (List.range s.inUse).filterMap fun i =>
    match s.get? i with
    | some e => if e.free then none else some (i, e)
    | none => none

/-! ## 4. Saving and restoring. -/

def record (e : Edict) : EdictRecord := { free := e.free, freeTime := e.freeTime, fields := e.fields.toList }

/-- The records below the high-water mark. -/
def snapshot (s : EdictStore) : StoreSnapshot :=
  { fieldWords := s.fieldWords.toUInt64
    edicts := (List.range s.inUse).filterMap fun i => (s.get? i).map record }

/-- Puts saved records in place one after the other. -/
def place (s : EdictStore) : Nat → List EdictRecord → EdictStore
  | _, [] => s
  | i, r :: rs =>
    (s.modify i fun _ => { free := r.free, freeTime := r.freeTime, fields := r.fields.toArray }).place
      (i + 1) rs

/-- Replaces the contents with saved records of the same width. -/
def restore (s : EdictStore) (saved : StoreSnapshot) : Except Error EdictStore :=
  let n := saved.edicts.length
  if saved.fieldWords.toNat ≠ s.fieldWords then
    .error (Cause.serialization
      s!"snapshot has {saved.fieldWords.toNat} field words, program has {s.fieldWords}")
  else if n > s.config.max then .error (Cause.noFreeEdicts s.config.max)
  else if saved.edicts.any fun r => r.fields.length ≠ s.fieldWords then
    .error (Cause.serialization "edict record with wrong field count")
  else
    let s := (s.reset.grow (n - s.count)).place 0 saved.edicts
    .ok { s with inUse := Nat.max n s.inUse }

end EdictStore

end QuakeProgs
