import SceneReader.Diagnostic.Cause
import SceneReader.Diagnostic.Report

/-!
# Results with diagnostics

A step of reading a scene reports diagnostics on its way and ends in a value or in an
error.  Diagnostics reported before an error are kept.

**Results.**
* `notes_bind`, `result_bind`: steps in sequence report one after the other, and the
  second is reached only if the first has a value.
-/

namespace SceneReader

/-- The outcome of a step: what it reported, and how it ended. -/
structure Reported (ε α : Type) where
  notes : Diagnostics
  result : Except ε α

namespace Reported

variable {ε α β : Type}

/-- A value, with nothing to report. -/
def ofValue (a : α) : Reported ε α := ⟨[], .ok a⟩

/-- An error, with nothing else to report. -/
def fail (e : ε) : Reported ε α := ⟨[], .error e⟩

/-- A value or an error, with nothing to report. -/
def ofExcept (r : Except ε α) : Reported ε α := ⟨[], r⟩

/-- One diagnostic. -/
def note (d : Diagnostic) : Reported ε Unit := ⟨[d], .ok ()⟩

/-- A step and the step that goes on with its value. -/
def andThen (x : Reported ε α) (f : α → Reported ε β) : Reported ε β :=
  match x.result with
  | .ok a => ⟨x.notes ++ (f a).notes, (f a).result⟩
  | .error e => ⟨x.notes, .error e⟩

instance : Monad (Reported ε) where
  pure := ofValue
  bind := andThen

/-- The same step with its error seen as one of another kind. -/
def mapError {δ : Type} (f : ε → δ) (x : Reported ε α) : Reported δ α :=
  ⟨x.notes, x.result.mapError f⟩

theorem notes_bind {x : Reported ε α} {f : α → Reported ε β} {a : α} (h : x.result = .ok a) :
    (x >>= f).notes = x.notes ++ (f a).notes := by
  change (andThen x f).notes = _
  simp [andThen, h]

theorem result_bind {x : Reported ε α} {f : α → Reported ε β} {a : α} (h : x.result = .ok a) :
    (x >>= f).result = (f a).result := by
  change (andThen x f).result = _
  simp [andThen, h]

theorem bind_of_error {x : Reported ε α} {f : α → Reported ε β} {e : ε}
    (h : x.result = .error e) : x >>= f = ⟨x.notes, .error e⟩ := by
  change andThen x f = _
  simp [andThen, h]

end Reported
end SceneReader
