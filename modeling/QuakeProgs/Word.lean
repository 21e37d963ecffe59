/-
  File:      QuakeProgs/Word.lean
  Subject:   WORDS: the untyped 32-bit slots of globals and entity fields, and what they refer to.

  A word has no type of its own; the instruction that touches it decides how its bits are read.

  * `Word`, `EdictId`, `FuncRef` -- 32 bits, read as an unsigned number;
  * `StringRef` -- the same bits read as a signed number;
  * `Block` -- runs of words in an array: reading, overwriting and copying within bounds.
-/
import QuakeProgs.Single.Decimal
import QuakeProgs.Text.Layout

namespace QuakeProgs

/-- A 32-bit slot. -/
abbrev Word := UInt32

/-- The number of an entity; entity zero is the world. -/
abbrev EdictId := UInt32

/-- The number of a function; function zero stands for none. -/
abbrev FuncRef := UInt32

/-- The byte offset of a string; offset zero is the empty string. -/
abbrev StringRef := Int32

namespace Word

/-- The bits read as a signed number, which is how a string is referred to. -/
def toRef (w : Word) : StringRef := w.toInt32

def ofRef (r : StringRef) : Word := r.toUInt32

/-- The bits read as a number. -/
def toSingle (w : Word) : Single := ⟨w⟩

/-- The word a condition leaves behind: the bits of one or zero. -/
def ofBool (b : Bool) : Word := (Single.ofBool b).bits

/-- Both readings of a word: the bits and the number. -/
def describe (w : Word) : String := s!"Word({Text.hexWord w} / {w.toSingle.text})"

theorem ofRef_toRef (w : Word) : ofRef (toRef w) = w := rfl

theorem toRef_ofRef (r : StringRef) : toRef (ofRef r) = r := rfl

end Word

/-- An entity as a listing names it. -/
def EdictId.text (e : EdictId) : String := s!"entity {e.toNat}"

/-! ## Runs of words. -/

namespace Block

/-- The `n` words from `ofs` on, if the array has them. -/
def slice? (b : Array Word) (ofs n : Nat) : Option (Array Word) :=
  if ofs + n ≤ b.size then some (b.extract ofs (ofs + n)) else none

/-- Writes words one after the other from `ofs` on; what lies past the end is dropped. -/
def writeFrom (b : Array Word) (ofs : Nat) : List Word → Array Word
  | [] => b
  | w :: ws => writeFrom (b.setIfInBounds ofs w) (ofs + 1) ws

theorem size_writeFrom (b : Array Word) (ofs : Nat) (ws : List Word) :
    (writeFrom b ofs ws).size = b.size := by
  induction ws generalizing b ofs with
  | nil => rfl
  | cons w ws ih => rw [writeFrom, ih, Array.size_setIfInBounds]

/-- Word `i` after a write: the written word inside the run, the old one outside. -/
theorem getElem?_writeFrom (b : Array Word) (ofs i : Nat) (ws : List Word)
    (h : ofs + ws.length ≤ b.size) :
    (writeFrom b ofs ws)[i]? =
      if ofs ≤ i ∧ i < ofs + ws.length then ws[i - ofs]? else b[i]? := by
  induction ws generalizing b ofs with
  | nil => rw [writeFrom, if_neg (by rw [List.length_nil]; omega)]
  | cons w ws ih =>
    simp only [List.length_cons] at h ⊢
    rw [writeFrom, ih _ _ (by rw [Array.size_setIfInBounds]; omega)]
    by_cases hi : i = ofs
    · subst hi
      have h₁ : ¬ (i + 1 ≤ i ∧ i < i + 1 + ws.length) := by omega
      have h₂ : i ≤ i ∧ i < i + (ws.length + 1) := by omega
      rw [if_neg h₁, if_pos h₂, Array.getElem?_setIfInBounds_self_of_lt (by omega)]
      simp
    · by_cases hr : ofs + 1 ≤ i ∧ i < ofs + 1 + ws.length
      · rw [if_pos hr, if_pos (by omega)]
        rw [show i - ofs = (i - (ofs + 1)) + 1 by omega, List.getElem?_cons_succ]
      · rw [if_neg hr, if_neg (by omega), Array.getElem?_setIfInBounds_ne (by omega)]

end Block

end QuakeProgs
