/-
  File:      QuakeProgs/Proofs/Machine/Outcome.lean
  Subject:   HOW AN ACTION ENDS, step by step.

  * `Engine.Ends` -- what holds of the result and the machine after an action, and what holds of the
    error and the machine a failure leaves;
  * `Engine.Ends.decidable` -- on a given machine this can be found out by running the action;
  * `Engine.ends_bind` and its kin -- one action after the other.
-/
import QuakeProgs.Machine.Execute

namespace QuakeProgs

/-- A result that was looked at as an option. -/
theorem eq_ok_of_toOption {α : Type} {x : Except Error α} {a : α} (h : x.toOption = some a) : x = .ok a := by
  cases x with
  | ok b =>
    cases h
    rfl
  | error e => cases h

namespace Engine

variable {α β : Type} {m m' : Machine}

/-! ## 1. Both ends. -/

/-- From `m`, the action gives a result and a machine that satisfy `Q`, or fails with an error and a
    machine that satisfy `E`. -/
def Ends (act : Engine α) (m : Machine) (Q : α → Machine → Prop) (E : Error → Machine → Prop) : Prop :=
  match act m with
  | .ok a m' => Q a m'
  | .error e m' => E e m'

variable {Q : α → Machine → Prop} {E : Error → Machine → Prop}

theorem Ends.ok {act : Engine α} {a : α} (h : Ends act m Q E) (e : act m = .ok a m') : Q a m' := by
  rw [Ends, e] at h
  exact h

theorem Ends.error {act : Engine α} {err : Error} (h : Ends act m Q E) (e : act m = .error err m') :
    E err m' := by
  rw [Ends, e] at h
  exact h

theorem ends_iff {act : Engine α} :
    Ends act m Q E ↔
      (∀ a m', act m = .ok a m' → Q a m') ∧ ∀ e m', act m = .error e m' → E e m' := by
  constructor
  · exact fun h => ⟨fun _ _ e => h.ok e, fun _ _ e => h.error e⟩
  · intro hres
    obtain ⟨hok, herr⟩ := hres
    rw [Ends]
    cases e : act m with
    | ok a m' => exact hok a m' e
    | error err m' => exact herr err m' e

/-- How an action ends can be found out by running it. -/
instance Ends.decidable (act : Engine α) (m : Machine) [∀ a m', Decidable (Q a m')]
    [∀ e m', Decidable (E e m')] : Decidable (Ends act m Q E) :=
  match h : act m with
  | .ok a m' => decidable_of_iff (Q a m') (by rw [Ends, h])
  | .error e m' => decidable_of_iff (E e m') (by rw [Ends, h])

/-- An action that cannot fail. -/
theorem Ends.exists_ok {act : Engine α} (h : Ends act m Q fun _ _ => False) :
    ∃ a m', act m = .ok a m' ∧ Q a m' := by
  cases e : act m with
  | ok a m' => exact ⟨a, m', rfl, h.ok e⟩
  | error err m' => exact (h.error e).elim

/-- An action that cannot succeed. -/
theorem Ends.exists_error {act : Engine α} (h : Ends act m (fun _ _ => False) E) :
    ∃ e m', act m = .error e m' ∧ E e m' := by
  cases e : act m with
  | ok a m' => exact (h.ok e).elim
  | error err m' => exact ⟨err, m', rfl, h.error e⟩

theorem Ends.mono {act : Engine α} {Q' : α → Machine → Prop} {E' : Error → Machine → Prop}
    (h : Ends act m Q E) (hQ : ∀ a m', Q a m' → Q' a m') (hE : ∀ e m', E e m' → E' e m') :
    Ends act m Q' E' :=
  ends_iff.mpr ⟨fun a m' e => hQ a m' (h.ok e), fun err m' e => hE err m' (h.error e)⟩

/-! ## 2. Action by action. -/

theorem ends_pure {a : α} (h : Q a m) : Ends (pure a) m Q E := h

theorem ends_get {Q : Machine → Machine → Prop} (h : Q m m) : Ends get m Q E := h

theorem ends_modify {f : Machine → Machine} {Q : Unit → Machine → Prop} (h : Q () (f m)) :
    Ends (modify f) m Q E := h

theorem bind_of_ok {x : Engine β} {f : β → Engine α} {m n : Machine} {b : β} (h : x m = .ok b n) :
    (x >>= f) m = f b n := by
  simp only [bind, EStateM.bind, h]

theorem bind_of_error {x : Engine β} {f : β → Engine α} {m n : Machine} {e : Error} (h : x m = .error e n) :
    (x >>= f) m = .error e n := by
  simp only [bind, EStateM.bind, h]

theorem get_bind (f : Machine → Engine α) : ((get : Engine Machine) >>= f) m = f m m := rfl

theorem modify_bind (change : Machine → Machine) (f : Unit → Engine α) :
    ((modify change : Engine Unit) >>= f) m = f () (change m) := rfl

theorem reads_of_ok {f : Machine → Except Error α} {a : α} (h : f m = .ok a) : reads f m = .ok a m := by
  rw [reads, h]

theorem update_of_ok {check : Machine → Except Error α} {a : α} (h : check m = .ok a)
    (change : α → Machine → Machine) : update check change m = .ok a (change a m) := by
  rw [update, h]

theorem update_of_error {check : Machine → Except Error α} {e : Error} (h : check m = .error e)
    (change : α → Machine → Machine) : update check change m = .error e m := by
  rw [update, h]

theorem ends_bind {x : Engine β} {f : β → Engine α}
    (h : Ends x m (fun b m' => Ends (f b) m' Q E) E) : Ends (x >>= f) m Q E := by
  unfold Ends at h ⊢
  cases hx : x m with
  | ok b m' => rw [hx] at h; rw [bind_of_ok hx]; exact h
  | error e m' => rw [hx] at h; rw [bind_of_error hx]; exact h

theorem ends_reads {f : Machine → Except Error α} (hok : ∀ a, f m = .ok a → Q a m)
    (herr : ∀ e, f m = .error e → E e m) : Ends (reads f) m Q E := by
  unfold Ends reads
  cases h : f m with
  | ok a => exact hok a h
  | error e => exact herr e h

theorem ends_update {check : Machine → Except Error α} {change : α → Machine → Machine}
    (hok : ∀ a, check m = .ok a → Q a (change a m)) (herr : ∀ e, check m = .error e → E e m) :
    Ends (update check change) m Q E := by
  unfold Ends update
  cases h : check m with
  | ok a => exact hok a h
  | error e => exact herr e h

theorem ends_attempt {act : Engine α} {Q : Except Error α → Machine → Prop}
    (h : Ends act m (fun a => Q (.ok a)) (fun e => Q (.error e))) : Ends (attempt act) m Q E := by
  unfold Ends attempt at *
  cases hx : act m with
  | ok a m' => rw [hx] at h; exact h
  | error e m' => rw [hx] at h; exact h

end Engine

end QuakeProgs
