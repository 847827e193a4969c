import SceneReader.Diagnostic.Cause
import SceneReader.Diagnostic.Report
import SceneReader.Engine.Event

/-!
# Actions

An action changes the state of reading a scene, reports events to the targets and
diagnostics to the user, and always succeeds.

**Results.**
* `run_bind`: actions in sequence pass on the state and report one after the other.
-/

namespace SceneReader

/-- What an action comes to. -/
structure Outcome (K α : Type) where
  value : α
  state : EngineState K
  events : List (Event K)
  notes : Diagnostics

/-- A change of the state that reports events and diagnostics. -/
structure Action (K α : Type) where
  run : EngineState K → Outcome K α

namespace Action

variable {K α β : Type}

/-- An action and the one that goes on with its value. -/
def andThen (x : Action K α) (f : α → Action K β) : Action K β :=
  ⟨fun s =>
    let a := x.run s
    let b := (f a.value).run a.state
    ⟨b.value, b.state, a.events ++ b.events, a.notes ++ b.notes⟩⟩

instance : Monad (Action K) where
  pure a := ⟨fun s => ⟨a, s, [], []⟩⟩
  bind := andThen

/-- The state. -/
def state : Action K (EngineState K) := ⟨fun s => ⟨s, s, [], []⟩⟩

/-- Changes the state. -/
def change (f : EngineState K → EngineState K) : Action K Unit := ⟨fun s => ⟨(), f s, [], []⟩⟩

/-- Reports an event. -/
def emit (e : Event K) : Action K Unit := ⟨fun s => ⟨(), s, [e], []⟩⟩

/-- Reports a diagnostic. -/
def note (d : Diagnostic) : Action K Unit := ⟨fun s => ⟨(), s, [], [d]⟩⟩

theorem run_pure (a : α) (s : EngineState K) :
    (pure a : Action K α).run s = ⟨a, s, [], []⟩ := rfl

theorem run_bind (x : Action K α) (f : α → Action K β) (s : EngineState K) :
    (x >>= f).run s =
      ⟨((f (x.run s).value).run (x.run s).state).value,
       ((f (x.run s).value).run (x.run s).state).state,
       (x.run s).events ++ ((f (x.run s).value).run (x.run s).state).events,
       (x.run s).notes ++ ((f (x.run s).value).run (x.run s).state).notes⟩ := rfl

instance : LawfulMonad (Action K) :=
  LawfulMonad.mk' (Action K)
    (fun _ => by simp [Functor.map, andThen])
    (fun _ _ => by simp [bind, pure, andThen])
    (fun _ _ _ => by simp [bind, andThen, List.append_assoc])

end Action
end SceneReader
