import Mathlib.Data.List.Forall2
import SceneReader.Diagnostic.Reported

/-!
# Steps that succeed

A row of steps in `Except`, or of steps that report, succeeds when each of them does.  These
lemmas take such a row apart, so that later proofs need not open the bind.  A row of steps
that report has a value and nothing to report when this holds of each step.
-/

namespace SceneReader

namespace Reported

variable {ε α β γ : Type}

theorem andThen_pure (x : Reported ε α) : x.andThen ofValue = x := by
  obtain ⟨notes, _ | a⟩ := x
  · rfl
  · change (⟨notes ++ [], .ok a⟩ : Reported ε α) = _
    rw [List.append_nil]

theorem andThen_assoc (x : Reported ε α) (f : α → Reported ε β) (g : β → Reported ε γ) :
    (x.andThen f).andThen g = x.andThen fun a => (f a).andThen g := by
  obtain ⟨notes, _ | a⟩ := x
  · rfl
  · cases hf : (f a).result with
    | error e => simp [andThen, hf]
    | ok b => simp [andThen, hf]

instance : LawfulMonad (Reported ε) :=
  LawfulMonad.mk' (Reported ε) andThen_pure (fun _ _ => rfl) andThen_assoc

theorem ok_bind (notes : Diagnostics) (a : α) (f : α → Reported ε β) :
    (⟨notes, .ok a⟩ : Reported ε α) >>= f = ⟨notes ++ (f a).notes, (f a).result⟩ := rfl

theorem ofExcept_ok (a : α) : (ofExcept (.ok a) : Reported ε α) = pure a := rfl

theorem mapError_pure {δ : Type} (a : α) (f : ε → δ) :
    (pure a : Reported ε α).mapError f = pure a := rfl

theorem mapError_mapError {δ δ' : Type} (x : Reported ε α) (f : ε → δ) (g : δ → δ') :
    (x.mapError f).mapError g = x.mapError fun e => g (f e) := by
  obtain ⟨notes, _ | a⟩ := x <;> rfl

theorem mapError_bind {δ : Type} (x : Reported ε α) (f : α → Reported ε β) (g : ε → δ) :
    (x >>= f).mapError g = x.mapError g >>= fun a => (f a).mapError g := by
  obtain ⟨notes, _ | a⟩ := x <;> rfl

end Reported

namespace Success

variable {ε δ α β : Type}

theorem of_bind {x : Except ε α} {f : α → Except ε β} {b : β} (h : x >>= f = .ok b) :
    ∃ a, x = .ok a ∧ f a = .ok b := by
  cases x with
  | error e => cases h
  | ok a => exact ⟨a, rfl, h⟩

theorem of_map {x : Except ε α} {f : α → β} {b : β} (h : x.map f = .ok b) :
    ∃ a, x = .ok a ∧ f a = b := by
  cases x with
  | error e => cases h
  | ok a => exact ⟨a, rfl, Except.ok.inj h⟩

theorem of_mapError {x : Except ε α} {f : ε → δ} {a : α} (h : x.mapError f = .ok a) :
    x = .ok a := by
  cases x with
  | error e => cases h
  | ok b =>
      cases h
      rfl

theorem of_toOption {x : Except ε α} {a : α} (h : x.toOption = some a) : x = .ok a := by
  cases x with
  | error e => cases h
  | ok b => exact congrArg Except.ok (Option.some.inj h)

theorem of_isSome {x : Except ε α} (h : x.toOption.isSome = true) : ∃ a, x = .ok a :=
  (Option.isSome_iff_exists.mp h).imp fun _ => of_toOption

theorem of_result_bind {x : Reported ε α} {f : α → Reported ε β} {b : β}
    (h : (x >>= f).result = .ok b) : ∃ a, x.result = .ok a ∧ (f a).result = .ok b := by
  cases hx : x.result with
  | error e =>
      rw [Reported.bind_of_error hx] at h
      cases h
  | ok a =>
      rw [Reported.result_bind hx] at h
      exact ⟨a, rfl, h⟩

theorem of_result_mapError {x : Reported ε α} {f : ε → δ} {a : α}
    (h : (x.mapError f).result = .ok a) : x.result = .ok a :=
  of_mapError h

/-- A row of steps fails where its first step does, or where the others do after it. -/
theorem result_bind_eq_error_iff {x : Reported ε α} {f : α → Reported ε β} {e : ε} :
    (x >>= f).result = .error e ↔
      x.result = .error e ∨ ∃ a, x.result = .ok a ∧ (f a).result = .error e := by
  cases hx : x.result with
  | error e' =>
      rw [Reported.bind_of_error hx]
      simp
  | ok a =>
      rw [Reported.result_bind hx]
      simp

theorem map_eq_error_iff {x : Except ε α} {f : α → β} {e : ε} :
    x.map f = .error e ↔ x = .error e := by
  cases x <;> simp [Except.map]

theorem mapError_eq_error_iff {x : Except ε α} {f : ε → δ} {e : δ} :
    x.mapError f = .error e ↔ ∃ e', x = .error e' ∧ f e' = e := by
  cases x <;> simp [Except.mapError]

theorem of_bind_eq_pure {x : Reported ε α} {f : α → Reported ε β} {b : β}
    (h : x >>= f = pure b) : ∃ a, x = pure a ∧ f a = pure b := by
  obtain ⟨notes, _ | a⟩ := x
  · cases h
  · refine ⟨a, ?_⟩
    have hnotes : notes ++ (f a).notes = [] := congrArg Reported.notes h
    have hresult : (f a).result = .ok b := congrArg Reported.result h
    obtain ⟨rfl, hrest⟩ := List.append_eq_nil_iff.mp hnotes
    refine ⟨rfl, ?_⟩
    cases hf : f a
    rw [hf] at hrest hresult
    subst hrest hresult
    rfl

theorem mapM_eq_pure_iff {f : α → Reported ε β} {as : List α} {bs : List β} :
    as.mapM f = pure bs ↔ List.Forall₂ (fun a b => f a = pure b) as bs := by
  induction as generalizing bs with
  | nil =>
      rw [List.mapM_nil]
      constructor
      · intro h
        cases h
        exact .nil
      · intro h
        cases h
        rfl
  | cons a as ih =>
      rw [List.mapM_cons]
      constructor
      · intro h
        obtain ⟨b, hb, h⟩ := of_bind_eq_pure h
        obtain ⟨bs', hbs, h⟩ := of_bind_eq_pure h
        cases h
        exact .cons hb (ih.mp hbs)
      · intro h
        cases h with
        | cons hb hbs =>
            rw [hb, pure_bind, ih.mpr hbs, pure_bind]

end Success
end SceneReader
