import SceneReader.Proofs.Engine.Blocks
import SceneReader.Proofs.Engine.EndlessTurn

/-!
# Which directives are accepted

Whether a directive is accepted depends on the names of the directives before it, and on
nothing else: not on arguments and parameters, and not on files or on what was warned
about.  An automaton reads the names.  It keeps the phase, a stack of the kinds of open
blocks, whether an object is open, and how many directories are entered.

The engine goes along with the automaton step by step: it refuses a directive exactly if
the automaton refuses its name, for a reason with the same code.

**Results.**
* `Stage.refusal?_append`: the automaton on a row of names in two parts.
* `permit_stage`, `stage_perform`: one directive.
* `executeAll_stage`: a row of directives.
* `rejectedAt_iff`: a run is refused where the automaton is.
-/

namespace SceneReader

/-! ## The automaton -/

/-- What the names of directives make of a scene: its phase, the kinds of the open blocks,
the innermost first, whether an object is open, and how many directories are entered. -/
structure Stage where
  phase : Phase
  blocks : List ScopeKind
  inObject : Bool
  depth : Nat
deriving DecidableEq

namespace Stage

/-- Before the first directive. -/
def start : Stage := ⟨.options, [], false, 0⟩

/-- The code for a name that is out of place in a phase. -/
def phaseCode? (phase : Phase) (name : DirectiveName) : Option String :=
  match name.placement, phase with
  | .anywhere, _ => none
  | _, .ended => some "E301"
  | .worldStart, .world => some "E302"
  | .optionsOnly, .world => some "E301"
  | .worldOnly, .options => some "E301"
  | _, _ => none

/-- The code for the end of a block of another kind, or of none. -/
def closeCode? (q : Stage) (kind : ScopeKind) : Option String :=
  match q.blocks with
  | [] => some "E304"
  | top :: _ => if top = kind then none else some "E305"

/-- The code for a name that does not fit what is open. -/
def nestingCode? (q : Stage) : DirectiveName → Option String
  | .attributeEnd => q.closeCode? .attributes
  | .transformEnd => q.closeCode? .transform
  | .objectEnd => q.closeCode? .object
  | .objectBegin => if q.inObject then some "E303" else none
  | .objectInstance => if q.inObject then some "E306" else none
  | .workDirEnd => if q.depth = 0 then some "E304" else none
  | _ => none

/-- The code with which a name is refused. -/
def code? (q : Stage) (name : DirectiveName) : Option String :=
  (phaseCode? q.phase name).or (q.nestingCode? name)

/-- The stage after a name that is not refused. -/
def next (q : Stage) : DirectiveName → Stage
  | .worldBegin => { q with phase := .world }
  | .worldEnd => { q with phase := .ended, blocks := [], inObject := false }
  | .attributeBegin => { q with blocks := .attributes :: q.blocks }
  | .attributeEnd => { q with blocks := q.blocks.tail }
  | .transformBegin => { q with blocks := .transform :: q.blocks }
  | .transformEnd => { q with blocks := q.blocks.tail }
  | .objectBegin => { q with blocks := .object :: q.blocks, inObject := true }
  | .objectEnd => { q with blocks := q.blocks.tail, inObject := false }
  | .workDirBegin => { q with depth := q.depth + 1 }
  | .workDirEnd => { q with depth := q.depth - 1 }
  | _ => q

/-- The index of the first name that is refused, and the code. -/
def refusal? (q : Stage) : List DirectiveName → Option (Nat × String)
  | [] => none
  | name :: names =>
      match q.code? name with
      | some code => some (0, code)
      | none => ((q.next name).refusal? names).map fun r => (r.1 + 1, r.2)

variable {q : Stage}

theorem next_of_not_structural {name : DirectiveName} (h : Engine.isStructural name = false) :
    q.next name = q := by
  cases name <;> first | rfl | cases h

theorem refusal?_append (names more : List DirectiveName) :
    q.refusal? (names ++ more) = (q.refusal? names).or
      (((names.foldl next q).refusal? more).map fun r => (r.1 + names.length, r.2)) := by
  induction names generalizing q with
  | nil => simp [refusal?]
  | cons name names ih =>
      simp only [List.cons_append, refusal?]
      cases q.code? name with
      | some code => rfl
      | none =>
          rw [ih]
          cases (q.next name).refusal? names with
          | some r => rfl
          | none =>
              simp only [Option.none_or, Option.map_none, List.foldl_cons, Option.map_map,
                List.length_cons]
              congr 1

/-- A name is the first to be refused if those before it are not and it is. -/
theorem refusal?_eq_some_iff {names : List DirectiveName} {i : Nat} {code : String} :
    q.refusal? names = some (i, code) ↔
      q.refusal? (names.take i) = none ∧
        (q.refusal? (names.take (i + 1))).map (·.2) = some code := by
  induction names generalizing q i with
  | nil => simp [refusal?]
  | cons name names ih =>
      cases i with
      | zero =>
          cases hcode : q.code? name with
          | some code' => simp [refusal?, hcode]
          | none => simp [refusal?, hcode]
      | succ i =>
          cases hcode : q.code? name with
          | some code' => simp [refusal?, hcode]
          | none =>
              have hshift : ((q.next name).refusal? names).map (fun r => (r.1 + 1, r.2)) =
                  some (i + 1, code) ↔ (q.next name).refusal? names = some (i, code) := by
                cases (q.next name).refusal? names <;> simp [Prod.ext_iff]
              simp only [refusal?, hcode, List.take_succ_cons, Option.map_eq_none_iff,
                Option.map_map]
              rw [hshift, ih]
              rfl

end Stage

variable {K : Type}

/-- What admission looks at in a state. -/
def EngineState.stage (s : EngineState K) : Stage :=
  ⟨s.phase, s.scopes.map (·.kind), s.openObject.isSome, s.dirs.depth⟩

/-- The code of a rejection, if it is an error of the scene. -/
def Rejection.code? : Rejection K → Option String
  | .scene e => some e.fault.code
  | .transform _ => none

namespace Engine

/-! ## One directive -/

theorem phaseCode?_eq (phase : Phase) (name : DirectiveName) :
    Stage.phaseCode? phase name = (phaseFault? phase name).map Fault.code := by
  unfold Stage.phaseCode? phaseFault?
  cases name.placement <;> cases phase <;> rfl

theorem closeCode?_eq (s : EngineState K) (kind : ScopeKind) :
    s.stage.closeCode? kind = (closeFault? s kind).map Fault.code := by
  unfold Stage.closeCode? closeFault? EngineState.stage
  cases s.scopes with
  | nil => rfl
  | cons scope rest =>
      by_cases hk : scope.kind = kind
      · simp [hk]
      · simp [hk, Fault.code]

theorem nestingCode?_eq (s : EngineState K) (d : Directive) :
    s.stage.nestingCode? d.name = (nestingFault? s d).map Fault.code := by
  unfold nestingFault?
  cases d.name with
  | attributeEnd => exact closeCode?_eq s .attributes
  | transformEnd => exact closeCode?_eq s .transform
  | objectEnd => exact closeCode?_eq s .object
  | objectBegin =>
      unfold Stage.nestingCode? EngineState.stage
      cases s.openObject <;> rfl
  | objectInstance =>
      unfold Stage.nestingCode? EngineState.stage
      cases s.openObject <;> rfl
  | workDirEnd =>
      unfold Stage.nestingCode? EngineState.stage DirectoryStack.pop? DirectoryStack.depth
      cases s.dirs.dirs <;> rfl
  | _ => rfl

variable [Scalar K] {c : EngineContext} {d : Directive} {s : EngineState K}

/-- A directive is refused if its name is, for a reason with the same code, and otherwise
for its transform. -/
theorem permit_stage (c : EngineContext) (d : Directive) (s : EngineState K) :
    (∃ e, permit c s d = .error (.scene e) ∧ s.stage.code? d.name = some e.fault.code) ∨
      (s.stage.code? d.name = none ∧ permit c s d =
        (motionFault? d).elim (.ok ()) fun f => .error (.transform f)) := by
  have hcode : s.stage.code? d.name =
      ((phaseFault? s.phase d.name).or (nestingFault? s d)).map Fault.code := by
    rw [Stage.code?, nestingCode?_eq, Option.map_or, ← phaseCode?_eq]
    rfl
  unfold permit
  rw [hcode]
  cases (phaseFault? s.phase d.name).or (nestingFault? s d) with
  | none => exact Or.inr ⟨rfl, by cases motionFault? (K := K) d <;> rfl⟩
  | some f => exact Or.inl ⟨_, rfl, rfl⟩

omit [Scalar K] in
theorem stage_of_framed {s' : EngineState K} (h : Framed s s') : s'.stage = s.stage := by
  unfold EngineState.stage
  rw [h.phase, h.scopes, h.openObject, h.dirs]

omit [Scalar K] in
theorem stage_closed {s' : EngineState K} {es : List (Event K)} {scope : Scope K}
    {rest : List (Scope K)} (h : Closed s s' es) (hs : s.scopes = scope :: rest) :
    s'.stage = { s.stage with
      blocks := s.stage.blocks.tail
      inObject := s.stage.inObject && decide (scope.kind ≠ .object) } := by
  unfold EngineState.stage
  rw [h.phase_eq, h.scopes_eq, h.openObject_isSome hs, h.dirs_eq, List.map_tail]

omit [Scalar K] in
theorem stage_endWorld (ha : IsArranged s) (span : Span) :
    ((endWorld span).run s).state.stage = s.stage.next .worldEnd ∧
      IsArranged ((endWorld span).run s).state := by
  obtain ⟨s₁, es, hc, hs, -⟩ := endWorld_run span s
  have hscopes := endWorld_scopes span s
  have harranged := hc.arranged ha
  rw [hs] at hscopes ⊢
  have hopen : s₁.openObject = none := openObject_of_scopes_eq_nil harranged hscopes
  have hdirs := hc.unchanged.2.2
  refine ⟨?_, harranged⟩
  unfold EngineState.stage Stage.next
  rw [hscopes, hopen, hdirs]
  rfl

theorem stage_closeScope (kind : ScopeKind) (ha : IsArranged s) (hp : permit c s d = .ok ())
    (hd : d.name = kind.closer) :
    (closeScope.run s).state.stage = s.stage.next kind.closer ∧
      IsArranged (closeScope.run s).state := by
  obtain ⟨scope, rest, hs, hk⟩ := top_of_permit_closer hp hd
  have hc := closed_closeScope s
  refine ⟨?_, hc.arranged ha⟩
  rw [stage_closed hc hs, hk]
  cases kind <;> simp [ScopeKind.closer, Stage.next]

theorem stage_beginObject (ha : IsArranged s) (hp : permit c s d = .ok ())
    (hd : d.name = .objectBegin) :
    ((beginObject c d).run s).state.stage = s.stage.next .objectBegin ∧
      IsArranged ((beginObject c d).run s).state := by
  have hnone := openObject_of_permit_objectBegin hp hd
  obtain ⟨hs, -⟩ := beginObject_run c d s
  rw [hs]
  unfold IsArranged at ha ⊢
  rw [hnone] at ha
  exact ⟨rfl, .object rfl rfl ha⟩

omit [Scalar K] in
theorem stage_openScope {kind : ScopeKind} (ha : IsArranged s) (hk : kind ≠ .object) :
    ((openScope kind).run s).state.stage = s.stage.next kind.opener ∧
      IsArranged ((openScope kind).run s).state := by
  obtain ⟨hs, -⟩ := openScope_run kind s
  rw [hs]
  refine ⟨?_, isArranged_opened ha hk⟩
  cases kind with
  | attributes => rfl
  | transform => rfl
  | object => exact absurd rfl hk

theorem stage_beginWorld (ha : IsArranged s) :
    (beginWorld.run s).state.stage = s.stage.next .worldBegin ∧
      IsArranged (beginWorld.run s).state := by
  rw [(beginWorld_run s).1]
  exact ⟨rfl, ha⟩

omit [Scalar K] in
theorem depth_pop? (dirs : DirectoryStack) :
    (((dirs.pop?).map (·.2)).getD dirs).depth = dirs.depth - 1 := by
  unfold DirectoryStack.pop? DirectoryStack.depth
  cases hdirs : dirs.dirs with
  | nil => simp [hdirs]
  | cons dir rest => rfl

/-- A directive that is admitted leads to the next stage. -/
theorem stage_perform (ha : IsArranged s) (hp : permit c s d = .ok ()) :
    ((perform c d).run s).state.stage = s.stage.next d.name ∧
      IsArranged ((perform c d).run s).state := by
  by_cases hd : isStructural d.name = true
  · unfold perform
    cases hn : d.name with
    | worldBegin => exact stage_beginWorld ha
    | worldEnd => exact stage_endWorld ha _
    | attributeBegin => exact stage_openScope ha (by decide)
    | attributeEnd => exact stage_closeScope .attributes ha hp hn
    | transformBegin => exact stage_openScope ha (by decide)
    | transformEnd => exact stage_closeScope .transform ha hp hn
    | objectBegin => exact stage_beginObject ha hp hn
    | objectEnd => exact stage_closeScope .object ha hp hn
    | workDirBegin => exact ⟨rfl, ha⟩
    | workDirEnd =>
        exact ⟨congrArg (fun depth => { s.stage with depth := depth }) (depth_pop? s.dirs), ha⟩
    | _ =>
        rw [hn] at hd
        cases hd
  · have hframed := framed_of_effect (perform_effect c d s) (Bool.eq_false_iff.mpr hd)
    rw [Stage.next_of_not_structural (Bool.eq_false_iff.mpr hd)]
    exact ⟨stage_of_framed hframed, hframed.arranged ha⟩

/-! ## Rows of directives -/

/-- A directive is refused with the code with which its name is, or for its transform, or it
is executed and leads to the next stage. -/
theorem execute_stage (c : EngineContext) (d : Directive) (ha : IsArranged s) :
    (∃ e, (execute c d s).rejection = some (.scene e) ∧
        s.stage.code? d.name = some e.fault.code) ∨
      (s.stage.code? d.name = none ∧
        (execute c d s).rejection = (motionFault? d).map Rejection.transform ∧
        (motionFault? (K := K) d = none →
          (execute c d s).state.stage = s.stage.next d.name ∧
            IsArranged (execute c d s).state)) := by
  obtain ⟨hbegun, -⟩ := begin_run c s
  unfold execute Progress.andThen Progress.ofAction
  dsimp only
  rw [hbegun]
  rw [attempt_eq]
  have hsame : EngineState.stage { s with begun := true } = s.stage := rfl
  rcases permit_stage c d { s with begun := true } with ⟨e, hp, hcode⟩ | ⟨hcode, hp⟩
  · rw [hp]
    exact Or.inl ⟨e, rfl, hcode⟩
  · cases hmotion : motionFault? (K := K) d with
    | some f =>
        rw [hmotion] at hp
        rw [hp]
        exact Or.inr ⟨hcode, rfl, nofun⟩
    | none =>
        rw [hmotion] at hp
        rw [hp]
        exact Or.inr ⟨hcode, rfl, fun _ => stage_perform (s := { s with begun := true }) ha hp⟩

/-- The engine refuses one of the directives with the code with which the automaton refuses
one of the names, and otherwise arrives at the stage where the automaton does. -/
theorem executeAll_stage {ds : List Directive} (h : ∀ d ∈ ds, motionFault? (K := K) d = none)
    (ha : IsArranged s) :
    (executeAll c ds s).rejection.map Rejection.code? =
        (s.stage.refusal? (ds.map (·.name))).map (fun r => some r.2) ∧
      ((executeAll c ds s).rejection = none →
        (executeAll c ds s).state.stage = (ds.map (·.name)).foldl Stage.next s.stage) := by
  induction ds generalizing s with
  | nil => exact ⟨rfl, fun _ => rfl⟩
  | cons d ds ih =>
      obtain ⟨hd, hds⟩ := List.forall_mem_cons.mp h
      unfold executeAll Progress.andThen
      simp only [List.map_cons, Stage.refusal?, List.foldl_cons]
      rcases execute_stage c d ha with ⟨e, hsome, hcode⟩ | ⟨hcode, hnone, hexecuted⟩
      · rw [hsome, hcode]
        dsimp only
        rw [hsome]
        exact ⟨rfl, fun hnone => absurd hnone (Option.some_ne_none _)⟩
      · obtain ⟨hstage, harranged⟩ := hexecuted hd
        obtain ⟨hrest, hend⟩ := ih hds harranged
        rw [hnone, hcode, hd]
        dsimp only [Option.map_none]
        rw [hrest, ← hstage, Option.map_map]
        exact ⟨rfl, hend⟩

/-- A run ends as executing its directives does. -/
theorem run_rejection (c : EngineContext) (ds : List Directive) (dirs : DirectoryStack) :
    (run (K := K) c ds (.initial dirs)).rejection =
      (executeAll (K := K) c ds { EngineState.initial dirs with begun := true }).rejection := by
  change ((started c ds dirs).andThen (Progress.ofAction finish)).rejection = _
  rw [started_eq]
  unfold Progress.andThen
  dsimp only
  split
  · rfl
  · rename_i hnone
    rw [hnone]
    rfl

theorem isInf_of_isFinite {x : Float} (h : x.isFinite = true) : x.isInf = false := by
  change x.toModel.unpack.isFinite = true at h
  change x.toModel.unpack.isInf = false
  cases hx : x.toModel.unpack with
  | infinity sign =>
      rw [hx] at h
      cases h
  | notANumber => rfl
  | zero sign => rfl
  | finite sign mantissa exponent hpos => rfl

/-! ## Runs -/

/-- The run ends at the directive with the index: those before it are executed, and with
it the run is rejected. -/
structure RejectedAt (c : EngineContext) (ds : List Directive) (dirs : DirectoryStack) (i : Nat)
    (r : Rejection K) : Prop where
  before : (run (K := K) c (ds.take i) (.initial dirs)).rejection = none
  here : (run c (ds.take (i + 1)) (.initial dirs)).rejection = some r
  whole : (run c ds (.initial dirs)).rejection = some r

theorem run_stage {ds : List Directive} (h : ∀ d ∈ ds, motionFault? (K := K) d = none) :
    (run (K := K) c ds (.initial .empty)).rejection.map Rejection.code? =
      (Stage.start.refusal? (ds.map (·.name))).map (fun r => some r.2) := by
  have hbegun : IsArranged { EngineState.initial (K := K) .empty with begun := true } := .nil
  rw [run_rejection]
  exact (executeAll_stage h hbegun).1

theorem run_rejection_eq_none_iff {ds : List Directive}
    (h : ∀ d ∈ ds, motionFault? (K := K) d = none) :
    (run (K := K) c ds (.initial .empty)).rejection = none ↔
      Stage.start.refusal? (ds.map (·.name)) = none := by
  have hrun := run_stage (c := c) h
  constructor
  · intro hnone
    rw [hnone] at hrun
    exact Option.map_eq_none_iff.mp hrun.symm
  · intro hnone
    rw [hnone] at hrun
    exact Option.map_eq_none_iff.mp hrun

/-- More directives change nothing after a run that was rejected. -/
theorem run_of_take {ds : List Directive} {dirs : DirectoryStack} {n : Nat} {r : Rejection K}
    (h : (run c (ds.take n) (.initial dirs)).rejection = some r) :
    (run c ds (.initial dirs)).rejection = some r := by
  rw [run_rejection] at h ⊢
  rw [← List.take_append_drop n ds, executeAll_append]
  unfold Progress.andThen
  rw [h]
  exact h

theorem rejectedAt_iff_refusal? {ds : List Directive}
    (h : ∀ d ∈ ds, motionFault? (K := K) d = none) (i : Nat) (code : String) :
    (∃ e, RejectedAt (K := K) c ds .empty i (.scene e) ∧ e.fault.code = code) ↔
      Stage.start.refusal? (ds.map (·.name)) = some (i, code) := by
  have htake (n : Nat) : ∀ d ∈ ds.take n, motionFault? (K := K) d = none :=
    fun d hd => h d (List.mem_of_mem_take hd)
  have hbefore := run_rejection_eq_none_iff (c := c) (htake i)
  have hhere := run_stage (c := c) (htake (i + 1))
  rw [Stage.refusal?_eq_some_iff, ← List.map_take, ← List.map_take, ← hbefore]
  constructor
  · rintro ⟨e, hrejected, rfl⟩
    refine ⟨hrejected.before, ?_⟩
    rw [hrejected.here] at hhere
    obtain ⟨r, hr, hcode⟩ := Option.map_eq_some_iff.mp hhere.symm
    rw [hr]
    exact hcode
  · rintro ⟨hnone, hsome⟩
    obtain ⟨r, hr, rfl⟩ := Option.map_eq_some_iff.mp hsome
    rw [hr] at hhere
    obtain ⟨rejection, hrejection, hcode⟩ := Option.map_eq_some_iff.mp hhere
    cases rejection with
    | scene e => exact ⟨e, ⟨hnone, hrejection, run_of_take hrejection⟩, Option.some.inj hcode⟩
    | transform f => cases hcode

/-- A parsed directive with finite numbers, whose transform is never beyond recovery. -/
def IsTame (d : Directive) : Prop :=
  d.Parsed ∧ ∀ x ∈ d.numbers, x.isFinite = true

theorem IsTame.motionFault?_eq_none {d : Directive} (h : IsTame d) :
    motionFault? (K := Float) d = none :=
  (motionFault?_eq_none_iff h.1.fits).mpr
    (not_isEndlessTurn fun x hx => isInf_of_isFinite (h.2 x hx))

/-- An object inside of another one. -/
def nestedObjects : List Directive :=
  let span : Span := ⟨none, .start, .start⟩
  [⟨.worldBegin, [], .empty, some span⟩, ⟨.objectBegin, [.text "a"], .empty, some span⟩,
    ⟨.objectBegin, [.text "b"], .empty, some span⟩]

end Engine
end SceneReader
