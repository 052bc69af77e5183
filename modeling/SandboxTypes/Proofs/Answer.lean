/-!
# Granted answers

When a step that may be refused is granted, so are the steps it is made of.

Two steps that do not need each other may be taken in either order, up to the cause
that is given when both are refused: `SameGrant` compares answers without the cause.
-/

namespace SandboxTypes

variable {ε α β : Type}

theorem bind_eq_ok_iff {answer : Except ε α} {next : α → Except ε β} {value : β} :
    (answer >>= next) = .ok value ↔ ∃ first, answer = .ok first ∧ next first = .ok value := by
  cases answer with
  | error error => simp [bind, Except.bind]
  | ok first => simp [bind, Except.bind]

theorem map_eq_ok_iff {answer : Except ε α} {f : α → β} {value : β} :
    answer.map f = .ok value ↔ ∃ first, answer = .ok first ∧ f first = value := by
  cases answer with
  | error error => simp [Except.map]
  | ok first => simp [Except.map]

theorem bind_eq_error_iff {answer : Except ε α} {next : α → Except ε β} {cause : ε} :
    (answer >>= next) = .error cause ↔
      answer = .error cause ∨ ∃ first, answer = .ok first ∧ next first = .error cause := by
  cases answer with
  | error error => simp [bind, Except.bind]
  | ok first => simp [bind, Except.bind]

theorem map_eq_error_iff {answer : Except ε α} {f : α → β} {cause : ε} :
    answer.map f = .error cause ↔ answer = .error cause := by
  cases answer with
  | error error => simp [Except.map]
  | ok first => simp [Except.map]

theorem mapError_eq_ok_iff {δ : Type} {answer : Except ε α} {f : ε → δ} {value : α} :
    answer.mapError f = .ok value ↔ answer = .ok value := by
  cases answer with
  | error error =>
      change (.error (f error) : Except δ α) = .ok value ↔ _
      simp
  | ok first =>
      change (.ok first : Except δ α) = .ok value ↔ _
      simp

theorem mapM_eq_ok {f : α → Except ε β} {g : α → β} {xs : List α}
    (h : ∀ x ∈ xs, f x = .ok (g x)) : xs.mapM f = .ok (xs.map g) := by
  induction xs with
  | nil => rfl
  | cons x xs ih =>
      rw [List.mapM_cons, h x List.mem_cons_self,
        ih fun other hother => h other (List.mem_cons_of_mem _ hother)]
      rfl

/-- The granted answers are the answers to what was asked. -/
theorem mem_of_mapM_eq_ok {f : α → Except ε β} {xs : List α} {ys : List β} {y : β}
    (h : xs.mapM f = .ok ys) : y ∈ ys ↔ ∃ x ∈ xs, f x = .ok y := by
  induction xs generalizing ys with
  | nil =>
      obtain rfl := Except.ok.inj h
      simp
  | cons x xs ih =>
      rw [List.mapM_cons] at h
      obtain ⟨first, hfirst, h⟩ := bind_eq_ok_iff.1 h
      obtain ⟨rest, hrest, h⟩ := bind_eq_ok_iff.1 h
      obtain rfl := Except.ok.inj h
      simp [ih hrest, hfirst, eq_comm]

/-! ## The same answer up to the cause of a refusal -/

/-- Two answers grant the same value, or are both refused, be it for different causes. -/
def SameGrant (first second : Except ε α) : Prop :=
  ∀ value, first = .ok value ↔ second = .ok value

namespace SameGrant

@[refl] theorem refl (answer : Except ε α) : SameGrant answer answer := fun _ => Iff.rfl

theorem map {first second : Except ε α} (h : SameGrant first second) (f : α → β) :
    SameGrant (first.map f) (second.map f) := by
  intro value
  simp only [map_eq_ok_iff, h _]

theorem mapError {δ : Type} {first second : Except ε α} (h : SameGrant first second)
    (f : ε → δ) : SameGrant (first.mapError f) (second.mapError f) := by
  intro value
  simp only [mapError_eq_ok_iff, h _]

theorem bind {first second : Except ε α} {f g : α → Except ε β} (h : SameGrant first second)
    (hnext : ∀ value, SameGrant (f value) (g value)) :
    SameGrant (first >>= f) (second >>= g) := by
  intro value
  simp only [bind_eq_ok_iff, h _, hnext _ _]

/-- Of two questions that do not need each other either may be asked first. -/
theorem bind_swap {γ : Type} (first : Except ε α) (second : Except ε β)
    {f : α → β → Except ε γ} {g : β → α → Except ε γ} (h : ∀ x y, SameGrant (f x y) (g y x)) :
    SameGrant (first >>= fun x => second >>= f x) (second >>= fun y => first >>= g y) := by
  intro value
  simp only [bind_eq_ok_iff, h _ _ _]
  constructor
  · rintro ⟨x, hx, y, hy, hvalue⟩
    exact ⟨y, hy, x, hx, hvalue⟩
  · rintro ⟨y, hy, x, hx, hvalue⟩
    exact ⟨x, hx, y, hy, hvalue⟩

end SameGrant

end SandboxTypes
