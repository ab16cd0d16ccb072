import Mathlib

/-! # Checked computations

A computation that may be refused succeeds exactly when each of its parts does. These laws take a
success apart, and a refusal comes from the part that is refused.
-/

namespace NativeBridge.Checked

variable {ε ε' α β : Type}

theorem exists_ok_of_isOk {x : Except ε α} (h : x.isOk = true) : ∃ a, x = .ok a := by
  cases x with
  | error => cases h
  | ok a => exact ⟨a, rfl⟩

theorem bind_eq_ok_iff {x : Except ε α} {f : α → Except ε β} {b : β} :
    x >>= f = .ok b ↔ ∃ a, x = .ok a ∧ f a = .ok b := by
  cases x <;> simp [bind, Except.bind]

theorem bind_eq_error_iff {x : Except ε α} {f : α → Except ε β} {e : ε} :
    x >>= f = .error e ↔ x = .error e ∨ ∃ a, x = .ok a ∧ f a = .error e := by
  cases x <;> simp [bind, Except.bind]

theorem pure_eq_ok_iff {a b : α} : (pure a : Except ε α) = .ok b ↔ a = b := by
  simp [pure, Except.pure]

theorem map_eq_ok_iff {x : Except ε α} {f : α → β} {b : β} :
    x.map f = .ok b ↔ ∃ a, x = .ok a ∧ f a = b := by
  cases x <;> simp [Except.map]

theorem map_eq_error_iff {x : Except ε α} {f : α → β} {e : ε} :
    x.map f = .error e ↔ x = .error e := by
  cases x <;> simp [Except.map]

theorem mapError_eq_ok_iff {x : Except ε α} {f : ε → ε'} {a : α} :
    x.mapError f = .ok a ↔ x = .ok a := by
  cases x <;> simp [Except.mapError]

theorem mapError_eq_error_iff {x : Except ε α} {f : ε → ε'} {e' : ε'} :
    x.mapError f = .error e' ↔ ∃ e, x = .error e ∧ f e = e' := by
  cases x <;> simp [Except.mapError]

theorem mapM_eq_ok_iff {f : α → Except ε β} {as : List α} {bs : List β} :
    as.mapM f = .ok bs ↔ List.Forall₂ (fun a b => f a = .ok b) as bs := by
  induction as generalizing bs with
  | nil => rw [List.mapM_nil, pure_eq_ok_iff, List.forall₂_nil_left_iff, eq_comm]
  | cons a as ih =>
    rw [List.mapM_cons, bind_eq_ok_iff]
    simp only [bind_eq_ok_iff, pure_eq_ok_iff, ih]
    constructor
    · rintro ⟨b, hb, bs', hbs, rfl⟩
      exact .cons hb hbs
    · intro h
      cases h with
      | cons hb hbs => exact ⟨_, hb, _, hbs, rfl⟩

def Accepted (x : Except ε α) : Prop :=
  ∃ a, x = .ok a

@[simp] theorem accepted_ok (a : α) : Accepted (.ok a : Except ε α) :=
  ⟨a, rfl⟩

@[simp] theorem accepted_pure (a : α) : Accepted (pure a : Except ε α) :=
  ⟨a, rfl⟩

@[simp] theorem not_accepted_error (e : ε) : ¬Accepted (.error e : Except ε α) :=
  fun ⟨_, h⟩ => by cases h

theorem accepted_bind_iff {x : Except ε α} {f : α → Except ε β} :
    Accepted (x >>= f) ↔ ∃ a, x = .ok a ∧ Accepted (f a) := by
  simp only [Accepted, bind_eq_ok_iff]
  constructor
  · rintro ⟨b, a, hx, hf⟩
    exact ⟨a, hx, b, hf⟩
  · rintro ⟨a, hx, b, hf⟩
    exact ⟨b, a, hx, hf⟩

/-- The common case of a sequence whose second part does not depend on the first. -/
theorem accepted_bind_of_forall {x : Except ε α} {f : α → Except ε β} (hx : Accepted x)
    (hf : ∀ a, Accepted (f a)) : Accepted (x >>= f) := by
  obtain ⟨a, ha⟩ := hx
  exact accepted_bind_iff.mpr ⟨a, ha, hf a⟩

theorem accepted_map_iff {x : Except ε α} {f : α → β} : Accepted (x.map f) ↔ Accepted x := by
  cases x <;> simp [Except.map]

theorem accepted_mapError_iff {x : Except ε α} {f : ε → ε'} :
    Accepted (x.mapError f) ↔ Accepted x := by
  cases x <;> simp [Except.mapError]

theorem accepted_mapM_iff {f : α → Except ε β} {as : List α} :
    Accepted (as.mapM f) ↔ ∀ a ∈ as, Accepted (f a) := by
  induction as with
  | nil => simp
  | cons a as ih =>
    rw [List.mapM_cons, List.forall_mem_cons, ← ih]
    constructor
    · intro h
      obtain ⟨b, hb, h⟩ := accepted_bind_iff.mp h
      obtain ⟨bs, hbs, -⟩ := accepted_bind_iff.mp h
      exact ⟨⟨b, hb⟩, ⟨bs, hbs⟩⟩
    · rintro ⟨hb, hbs⟩
      exact accepted_bind_of_forall hb fun b =>
        accepted_bind_of_forall hbs fun bs => accepted_pure _

/-- Whether every reason to refuse a computation satisfies `P`. -/
def RefusedOnly (P : ε → Prop) (x : Except ε α) : Prop :=
  ∀ e, x = .error e → P e

namespace RefusedOnly

variable {P : ε → Prop} {x : Except ε α}

theorem ok (a : α) : RefusedOnly P (.ok a : Except ε α) :=
  fun _ h => by cases h

theorem error {e : ε} (h : P e) : RefusedOnly P (.error e : Except ε α) := by
  rintro _ ⟨⟩
  exact h

theorem of_accepted (h : Accepted x) : RefusedOnly P x := by
  obtain ⟨a, rfl⟩ := h
  exact ok a

theorem mono {Q : ε → Prop} (hx : RefusedOnly P x) (h : ∀ e, P e → Q e) : RefusedOnly Q x :=
  fun e he => h e (hx e he)

theorem bind {f : α → Except ε β} (hx : RefusedOnly P x) (hf : ∀ a, RefusedOnly P (f a)) :
    RefusedOnly P (x >>= f) := by
  cases x with
  | error e => exact error (hx e rfl)
  | ok a => exact hf a

theorem map (hx : RefusedOnly P x) (f : α → β) : RefusedOnly P (x.map f) := by
  cases x with
  | error e => exact error (hx e rfl)
  | ok a => exact ok (f a)

theorem mapError {f : ε' → ε} (h : ∀ e, P (f e)) (y : Except ε' α) :
    RefusedOnly P (y.mapError f) := by
  cases y with
  | error e => exact error (h e)
  | ok a => exact ok a

theorem mapM {f : α → Except ε β} {as : List α} (h : ∀ a ∈ as, RefusedOnly P (f a)) :
    RefusedOnly P (as.mapM f) := by
  induction as with
  | nil => exact ok []
  | cons a as ih =>
    obtain ⟨ha, has⟩ := List.forall_mem_cons.mp h
    rw [List.mapM_cons]
    exact ha.bind fun b => (ih has).bind fun bs => ok _

end RefusedOnly

end NativeBridge.Checked
