import SceneReader.Proofs.Engine.Accepted
import SceneReader.Proofs.Engine.PendingLight
import SceneReader.Proofs.Engine.Protocol

/-!
# The definition of an object

Between its begin and its end an object takes up the shapes that are stated, those inside
of inner blocks as well.  Each is kept with its transform seen from where the object began.
The end puts the object into the table, where later placements find it.

**Invariant.**  `InBody base under inner s`: in the state `s` the block of the object lies
over the blocks `under` and has saved the transform `base`; the blocks `inner` were opened
since, and none of them is an object's.

**Results.**
* `InBody.step`: one directive in the body of an object, with what it does to the blocks.
* `InBody.capture`: the shape that a directive adds to the object, if it adds one.
* `InBody.executeAll`: a row of directives in the body.
* `defined_of_accepted`: a whole definition.
-/

namespace SceneReader
namespace Engine

variable {K : Type} [Scalar K] {c : EngineContext} {d : Directive} {s : EngineState K}

/-! ## Shapes that are stated -/

/-- The directive states a shape: its type is known, and if it is a mesh then its file is
found. -/
def statesShape (c : EngineContext) (dirs : DirectoryStack) (d : Directive) : Bool :=
  decide (d.name = .shape) && (Known.shapeName? d.subject).isSome &&
    (decide (d.subject ≠ "plymesh") ||
      ((d.params.strings "filename").head?.bind fun name =>
        dirs.find? c.files (Path.ofText name)).isSome)

omit [Scalar K] in
theorem value_findFile (c : EngineContext) (d : Directive) (name : String) (s : EngineState K) :
    ((findFile c d name).run s).value =
      (s.dirs.find? c.files (Path.ofText name)).map Location.text := by
  unfold findFile
  rw [Action.run_state_bind]
  split
  · rename_i l hl
    rw [hl]
    rfl
  · rename_i hnone
    rw [hnone]
    rfl

omit [Scalar K] in
/-- A mesh is made if its file is found. -/
theorem isSome_value_meshShape (c : EngineContext) (d : Directive) (s : EngineState K) :
    ((meshShape c d).run s).value.isSome = ((d.params.strings "filename").head?.bind fun name =>
      s.dirs.find? c.files (Path.ofText name)).isSome := by
  unfold meshShape
  split
  · rename_i hnone
    rw [hnone]
    rfl
  · rename_i name hname
    rw [hname, Option.bind_some, Action.run_bind]
    rw [value_findFile]
    cases s.dirs.find? c.files (Path.ofText name) with
    | none => rfl
    | some l =>
        dsimp only [Option.map_some]
        rw [Action.run_state_bind]
        split <;> rfl

/-- A directive that makes a shape states it if it was made. -/
theorem run_makeShape (hd : d.name = .shape) (s : EngineState K) :
    (statesShape c s.dirs d = true ∧ ∃ r s₁ es, Recorded s s₁ es ∧
        ((makeShape c d).run s).state = ((stateShape c d r).run s₁).state) ∨
      (statesShape c s.dirs d = false ∧ ∃ es, Recorded s ((makeShape c d).run s).state es) := by
  unfold makeShape statesShape
  dsimp only
  split
  · rename_i hunknown
    rw [hunknown]
    exact Or.inr ⟨by simp, [], Recorded.refl s⟩
  · rename_i name hknown
    rw [hknown, hd]
    split
    · rename_i hmesh
      have hmade := records_meshShape c d s
      have hsome := isSome_value_meshShape c d s
      rw [hmesh, ← hsome, Action.run_bind]
      cases hvalue : ((meshShape c d).run s).value with
      | none => exact Or.inr ⟨by simp, _, hmade⟩
      | some r => exact Or.inl ⟨by simp, r, _, _, hmade, rfl⟩
    · rename_i hmesh
      have hmade := records_plainShape (K := K) d.subject name d.params s
      obtain ⟨r, hvalue⟩ : ∃ r, ((plainShape (K := K) d.subject name d.params).run s).value =
        some r := ⟨_, rfl⟩
      rw [Action.run_bind, hvalue]
      exact Or.inl ⟨by simp [hmesh], r, _, _, hmade, rfl⟩

/-- Inside of an object a statement becomes one of its shapes. -/
theorem run_addStatement {o : ObjectDefinition K} (ho : s.openObject = some o)
    (st : ShapeStatement K) : ((addStatement st).run s).state = captured o st s := by
  unfold addStatement
  rw [Action.run_state_bind, ho]
  rfl

theorem run_stateShape {o : ObjectDefinition K} (ho : s.openObject = some o) (r : Resource K) :
    ((stateShape c d r).run s).state = captured o (statedAs s r d.span) (lightTaken s) := by
  have hopen : (lightTaken s).openObject = some o := ho
  rw [statedAs_eq]
  unfold stateShape
  rw [Action.run_state_bind]
  dsimp only
  rw [Action.run_change_bind]
  split
  · rename_i hanimated
    exact run_addStatement (s := lightTaken s) hopen _
  · rename_i hstill
    exact run_addStatement (s := lightTaken s) hopen _

/-! ## The body of an object -/

/-- The state is one in the body of an object: its block lies over the blocks `under` and
has saved the transform `base`, and the blocks `inner` were opened since. -/
structure InBody (base : TransformSet K) (under inner : List (Scope K)) (s : EngineState K) :
    Prop where
  scopes : s.scopes = inner ++ ⟨.object, base, false⟩ :: under
  plain : ∀ scope ∈ inner, scope.kind ≠ .object
  phase : s.phase = .world
  isOpen : s.openObject.isSome = true

/-- What a directive in the body of an object does to the blocks that were opened in it. -/
inductive BlockStep (d : Directive) (s s' : EngineState K) :
    List (Scope K) → List (Scope K) → Prop
  | opened {inner : List (Scope K)} (kind : ScopeKind) (hk : kind ≠ .object)
      (hd : d.name = kind.opener) (hctm : s'.ctm = s.ctm) :
      BlockStep d s s' inner (⟨kind, s.ctm, false⟩ :: inner)
  | closed {inner : List (Scope K)} (kind : ScopeKind) (hk : kind ≠ .object)
      (hd : d.name = kind.closer) (scope : Scope K) (hctm : s'.ctm = scope.ctm) :
      BlockStep d s s' (scope :: inner) inner
  | level {inner : List (Scope K)}
      (hd : ∀ kind, d.name ≠ ScopeKind.opener kind ∧ d.name ≠ ScopeKind.closer kind) :
      BlockStep d s s' inner inner

/-- The statement is the one that a directive makes in a state, seen from a transform. -/
structure Captures (base : TransformSet K) (d : Directive) (s : EngineState K)
    (st : ShapeStatement K) : Prop where
  transform : st.transform = s.ctm.relativeTo base
  material : st.material = s.graphics.material
  areaLight : st.areaLight = if s.ctm.isAnimated then none else s.graphics.areaLight
  span : st.span = d.span

namespace InBody

variable {base : TransformSet K} {under inner : List (Scope K)}

/-- The transform from which the object sees its shapes. -/
theorem objectBase_eq (h : InBody base under inner s) : objectBase s = base := by
  have hfind : s.scopes.find? (fun scope => decide (scope.kind = .object)) =
      some ⟨.object, base, false⟩ := by
    rw [h.scopes, List.find?_append, List.find?_eq_none.mpr]
    · simp
    · intro scope hscope
      simpa using h.plain scope hscope
  unfold objectBase
  rw [hfind]

/-- A block that is opened in the body. -/
theorem opened (h : InBody base under inner s) {kind : ScopeKind}
    (hacc : (execute c d s).rejection = none) (hd : d.name = kind.opener) :
    ∃ inner', InBody base under inner' (execute c d s).state ∧
      BlockStep d s (execute c d s).state inner inner' ∧
      (execute c d s).state.objects = s.objects ∧
      (d.name ≠ .shape → (execute c d s).state.openObject = s.openObject) := by
  have hk : kind ≠ .object := by
    rintro rfl
    have hopen := h.isOpen
    rw [(state_of_objectBegin hacc hd).1] at hopen
    cases hopen
  have hreported : isReported kind { s with begun := true } = false := by
    obtain ⟨o, ho⟩ := Option.isSome_iff_exists.mp h.isOpen
    simp [isReported, ho]
  rw [state_of_opener hacc hk hd, Engine.opened, hreported]
  refine ⟨⟨kind, s.ctm, false⟩ :: inner, ⟨?_, ?_, h.phase, h.isOpen⟩, .opened kind hk hd rfl, rfl,
    fun _ => rfl⟩
  · rw [List.cons_append, ← h.scopes]
  · exact List.forall_mem_cons.mpr ⟨hk, h.plain⟩

/-- A block that is closed in the body was opened in it. -/
theorem closed (h : InBody base under inner s) {kind : ScopeKind}
    (hacc : (execute c d s).rejection = none) (hd : d.name = kind.closer) (hk : kind ≠ .object) :
    ∃ inner', InBody base under inner' (execute c d s).state ∧
      BlockStep d s (execute c d s).state inner inner' ∧
      (execute c d s).state.objects = s.objects ∧
      (d.name ≠ .shape → (execute c d s).state.openObject = s.openObject) := by
  obtain ⟨scope, rest, es, hscopes, hkind, hc⟩ := closed_of_closer hacc hd
  have hne : scope.kind ≠ .object := by
    rw [hkind]
    exact hk
  obtain ⟨hctm, hrest, -⟩ := hc.restores hscopes
  obtain ⟨hopen, hobjects⟩ := hc.objects_eq hscopes hne
  have hall := h.scopes
  rw [hscopes] at hall
  cases inner with
  | nil =>
      cases hall
      exact (hne rfl).elim
  | cons top inner =>
      obtain ⟨rfl, rfl⟩ := List.cons.inj hall
      refine ⟨inner, ⟨hrest, ?_, hc.phase_eq.trans h.phase, ?_⟩, .closed kind hk hd scope hctm,
        hobjects, fun _ => hopen⟩
      · exact (List.forall_mem_cons.mp h.plain).2
      · rw [hopen]
        exact h.isOpen

/-- Any other directive in the body, but for the two ends, opens and closes nothing. -/
theorem level (h : InBody base under inner s) (hacc : (execute c d s).rejection = none)
    (hd : ∀ kind, d.name ≠ ScopeKind.opener kind ∧ d.name ≠ ScopeKind.closer kind)
    (hend : d.name ≠ .worldEnd) :
    InBody base under inner (execute c d s).state ∧
      (execute c d s).state.objects = s.objects ∧
      (d.name ≠ .shape → (execute c d s).state.openObject = s.openObject) := by
  obtain ⟨hp, es, he, -⟩ := effect_of_accepted hacc
  generalize (execute c d s).state = s' at he ⊢
  by_cases hstructural : isStructural d.name = true
  · cases he with
    | worldBegin hn =>
        have hphase : s.phase = .options := phase_of_permit_worldBegin hp hn
        rw [h.phase] at hphase
        cases hphase
    | worldEnd hn s₁ es hc => exact (hend hn).elim
    | opened kind hk hn => exact ((hd kind).1 hn).elim
    | closed kind hn s₁ es hc => exact ((hd kind).2 hn).elim
    | objectBegin hn => exact ((hd .object).1 hn).elim
    | directories hn dirs => exact ⟨⟨h.scopes, h.plain, h.phase, h.isOpen⟩, rfl, fun _ => rfl⟩
    | _ => simp_all [isStructural]
  · have hframed := framed_of_effect he (Bool.eq_false_iff.mpr hstructural)
    have hkept := kept_of_effect he (Bool.eq_false_iff.mpr hstructural)
    exact ⟨⟨hframed.scopes.trans h.scopes, h.plain, hframed.phase.trans h.phase,
      hframed.openObject.trans h.isOpen⟩, hkept.objects, hkept.openObject⟩

/-- One directive in the body of an object. -/
theorem step (h : InBody base under inner s) (hacc : (execute c d s).rejection = none)
    (hobject : d.name ≠ .objectEnd) (hworld : d.name ≠ .worldEnd) :
    ∃ inner', InBody base under inner' (execute c d s).state ∧
      BlockStep d s (execute c d s).state inner inner' ∧
      (execute c d s).state.objects = s.objects ∧
      (d.name ≠ .shape → (execute c d s).state.openObject = s.openObject) := by
  by_cases hopener : ∃ kind, d.name = ScopeKind.opener kind
  · obtain ⟨kind, hd⟩ := hopener
    exact h.opened hacc hd
  · by_cases hcloser : ∃ kind, d.name = ScopeKind.closer kind
    · obtain ⟨kind, hd⟩ := hcloser
      refine h.closed hacc hd ?_
      rintro rfl
      exact hobject hd
    · have hd (kind : ScopeKind) : d.name ≠ kind.opener ∧ d.name ≠ kind.closer :=
        ⟨fun hn => hopener ⟨kind, hn⟩, fun hn => hcloser ⟨kind, hn⟩⟩
      obtain ⟨hin, hkept⟩ := h.level hacc hd hworld
      exact ⟨inner, hin, .level hd, hkept⟩

/-- The shape that a directive adds to the object, if it states one. -/
theorem capture (h : InBody base under inner s) (hacc : (execute c d s).rejection = none)
    (hobject : d.name ≠ .objectEnd) (hworld : d.name ≠ .worldEnd) {o : ObjectDefinition K}
    (ho : s.openObject = some o) :
    (statesShape c s.dirs d = true ∧ ∃ st, Captures base d s st ∧
        (execute c d s).state.openObject = some { o with shapes := o.shapes ++ [st] }) ∨
      (statesShape c s.dirs d = false ∧ (execute c d s).state.openObject = some o) := by
  by_cases hd : d.name = .shape
  · obtain ⟨-, hs, -⟩ := performed_of_accepted hacc
    rw [hs, perform, hd]
    rcases run_makeShape (c := c) hd { s with begun := true } with
      ⟨hstates, r, s₁, es, hr, hrun⟩ | ⟨hstates, es, hr⟩
    · have hopen : s₁.openObject = some o := by
        cases hr
        exact ho
      have hbase : objectBase (lightTaken s₁) = base := by
        rw [← h.objectBase_eq]
        cases hr
        rfl
      refine Or.inl ⟨hstates, { statedAs s₁ r d.span with
        transform := (statedAs s₁ r d.span).transform.relativeTo base }, ?_, ?_⟩
      · cases hr
        exact ⟨rfl, rfl, rfl, rfl⟩
      · dsimp only
        rw [hrun, run_stateShape hopen, ← hbase]
        rfl
    · refine Or.inr ⟨hstates, ?_⟩
      dsimp only
      generalize ((makeShape c d).run { s with begun := true }).state = s' at hr ⊢
      cases hr
      exact ho
  · obtain ⟨inner', -, -, -, hsame⟩ := h.step hacc hobject hworld
    refine Or.inr ⟨by simp [statesShape, hd], ?_⟩
    rw [hsame hd, ho]

end InBody

/-! ## The end of the world -/

/-- After the end of the world only directives of any phase are accepted. -/
theorem placement_of_ended {ds : List Directive} (hs : s.phase = .ended)
    (hacc : (executeAll c ds s).rejection = none) : ∀ d ∈ ds, d.name.placement = .anywhere := by
  induction ds generalizing s with
  | nil => nofun
  | cons d ds ih =>
      obtain ⟨hd, hds⟩ := accepted_cons_iff.mp hacc
      obtain ⟨hp, es, he, -⟩ := effect_of_accepted hd
      exact List.forall_mem_cons.mpr
        ⟨placement_of_permit_ended hp hs, ih (ended_of_effect hp he hs) hds⟩

theorem phase_of_worldEnd (hacc : (execute c d s).rejection = none) (hd : d.name = .worldEnd) :
    (execute c d s).state.phase = .ended := by
  obtain ⟨-, hs, -⟩ := performed_of_accepted hacc
  obtain ⟨s₁, es, -, hrun, -⟩ := endWorld_run (c.whereIs d).1 { s with begun := true }
  rw [hs, perform, hd]
  exact congrArg EngineState.phase hrun

/-- Where a directive that belongs into the world is accepted, the world has not ended
before. -/
theorem ne_worldEnd_of_accepted {before : List Directive}
    (hacc : (executeAll c (before ++ [d]) s).rejection = none)
    (hd : d.name.placement = .worldOnly) : ∀ w ∈ before, w.name ≠ .worldEnd := by
  intro w hw hn
  obtain ⟨earlier, later, rfl⟩ := List.append_of_mem hw
  rw [List.append_assoc, List.cons_append] at hacc
  obtain ⟨-, hrest⟩ := accepted_append_iff.mp hacc
  obtain ⟨hend, hlater⟩ := accepted_cons_iff.mp hrest
  have hplace := placement_of_ended (phase_of_worldEnd hend hn) hlater d (by simp)
  rw [hd] at hplace
  cases hplace

/-! ## Whole definitions -/

/-- The shapes that directives state from a state on, each with the state in which it is
stated. -/
def statedShapes (c : EngineContext) : List Directive → EngineState K →
    List (Directive × EngineState K)
  | [], _ => []
  | d :: ds, s =>
      (if statesShape c s.dirs d then [(d, s)] else []) ++
        statedShapes c ds (execute c d s).state

/-- The shapes of a row of directives in the body of an object. -/
theorem InBody.executeAll {base : TransformSet K} {under inner : List (Scope K)}
    {ds : List Directive} (h : InBody base under inner s)
    (hacc : (Engine.executeAll c ds s).rejection = none)
    (hnames : ∀ d ∈ ds, d.name ≠ .objectEnd ∧ d.name ≠ .worldEnd) {o : ObjectDefinition K}
    (ho : s.openObject = some o) :
    ∃ inner' sts, InBody base under inner' (Engine.executeAll c ds s).state ∧
      (Engine.executeAll c ds s).state.objects = s.objects ∧
      (Engine.executeAll c ds s).state.openObject = some { o with shapes := o.shapes ++ sts } ∧
      List.Forall₂ (fun p st => Captures base p.1 p.2 st) (statedShapes c ds s) sts := by
  induction ds generalizing s inner o with
  | nil => exact ⟨inner, [], h, rfl, by rw [List.append_nil]; exact ho, .nil⟩
  | cons d ds ih =>
      obtain ⟨hd, hds⟩ := accepted_cons_iff.mp hacc
      obtain ⟨⟨hobject, hworld⟩, hrest⟩ := List.forall_mem_cons.mp hnames
      obtain ⟨inner₁, h₁, -, hobjects₁, -⟩ := h.step hd hobject hworld
      rw [state_cons hd, statedShapes]
      rcases h.capture hd hobject hworld ho with ⟨hstates, st, hst, ho₁⟩ | ⟨hstates, ho₁⟩
      · obtain ⟨inner', sts, h', hobjects, hopen, hsts⟩ := ih h₁ hds hrest ho₁
        refine ⟨inner', st :: sts, h', hobjects.trans hobjects₁, ?_, ?_⟩
        · rw [hopen, List.append_assoc]
          rfl
        · rw [if_pos hstates]
          exact .cons hst hsts
      · obtain ⟨inner', sts, h', hobjects, hopen, hsts⟩ := ih h₁ hds hrest ho₁
        refine ⟨inner', sts, h', hobjects.trans hobjects₁, hopen, ?_⟩
        rw [hstates]
        exact hsts

/-- The begin of an object leads into its body. -/
theorem inBody_of_begin (hacc : (execute c d s).rejection = none) (hd : d.name = .objectBegin) :
    InBody s.ctm s.scopes [] (execute c d s).state ∧
      (execute c d s).state.openObject = some ⟨d.subject, []⟩ ∧
      (execute c d s).state.objects = s.objects := by
  obtain ⟨hp, -⟩ := performed_of_accepted hacc
  have hphase : s.phase = .world := phase_of_permit_worldOnly hp (by rw [hd]; rfl)
  rw [(state_of_objectBegin hacc hd).2]
  exact ⟨⟨rfl, nofun, hphase, rfl⟩, rfl, rfl⟩

/-- The end of an object puts it into the table. -/
theorem objects_of_end {o : ObjectDefinition K} (ho : s.openObject = some o)
    (hacc : (execute c d s).rejection = none) (hd : d.name = .objectEnd) :
    (execute c d s).state.objects = s.objects.put o.name o ∧
      (execute c d s).state.openObject = none := by
  have hcloser : d.name = ScopeKind.object.closer := hd
  obtain ⟨scope, rest, es, hscopes, hkind, hc⟩ := closed_of_closer hacc hcloser
  generalize (execute c d s).state = s' at hc ⊢
  cases hc with
  | nothing hnil =>
      rw [hscopes] at hnil
      cases hnil
  | attributes scope' rest' hs hk =>
      rw [hscopes] at hs
      cases hs
      rw [hkind] at hk
      cases hk
  | object scope' rest' o' hs hk ho' =>
      rw [ho] at ho'
      cases ho'
      exact ⟨rfl, rfl⟩
  | plain scope' rest' hs hk ho' =>
      rw [hscopes] at hs
      cases hs
      rw [ho' hkind] at ho
      cases ho

/-- A row of directives that begins and ends the same object. -/
structure IsDefinition (first : Directive) (body : List Directive) (last : Directive) : Prop where
  begins : first.name = .objectBegin
  body : ∀ d ∈ body, d.name ≠ .objectEnd
  ends : last.name = .objectEnd

/-- A whole definition puts into the table, under its name, the shapes that are stated in
it, seen from where it began. -/
theorem defined_of_accepted {first last : Directive} {body : List Directive}
    (hdef : IsDefinition first body last)
    (hacc : (executeAll c (first :: (body ++ [last])) s).rejection = none) :
    ∃ sts, (executeAll c (first :: (body ++ [last])) s).state.objects =
        s.objects.put first.subject ⟨first.subject, sts⟩ ∧
      (executeAll c (first :: (body ++ [last])) s).state.openObject = none ∧
      List.Forall₂ (fun p st => Captures s.ctm p.1 p.2 st)
        (statedShapes c body (execute c first s).state) sts := by
  obtain ⟨hfirst, hrest⟩ := accepted_cons_iff.mp hacc
  obtain ⟨hbody, hlast⟩ := accepted_append_iff.mp hrest
  obtain ⟨hin, ho, hobjects⟩ := inBody_of_begin hfirst hdef.begins
  have hworld := ne_worldEnd_of_accepted hrest (by rw [hdef.ends]; rfl)
  obtain ⟨inner, sts, hin', hobjects', ho', hsts⟩ := hin.executeAll hbody
    (fun d hd => ⟨hdef.body d hd, hworld d hd⟩) ho
  rw [executeAll_singleton] at hlast
  obtain ⟨hput, hnone⟩ := objects_of_end ho' hlast hdef.ends
  refine ⟨sts, ?_, ?_, hsts⟩
  · rw [state_cons hfirst, state_append [last] hbody, executeAll_singleton, hput, hobjects',
      hobjects]
    rfl
  · rw [state_cons hfirst, state_append [last] hbody, executeAll_singleton, hnone]

end Engine
end SceneReader
