import SceneReader.Proofs.Engine.Definition
import SceneReader.Proofs.Engine.TrueInverse

/-!
# Where an object is defined

The shapes of an object are seen from where the object began.  A transform that is composed
in the body of the object is seen as it was composed, wherever the object began.  A
transform that is put in the place of the current one in the body is not: it stays where it
is in the world, and is seen from where the object began.

The course of a body is what its directives make of the transforms without a place where
the object began: for every stated shape a sketch that says for both ends of the motion
which of the two it is.  Two definitions with the same body have the same course, and so
the same transforms, except where a shape was put in a place and the objects began in
different ones.

**Results.**
* `ctm_eq_moved`, `ctm_of_level`, `dirs_of_accepted`: what one directive does.
* `Follows.step`, `Follows.statedShapes`: a body goes along with its course.
* `transforms_eq_iff`: when two definitions with the same body have the same transforms.
-/

namespace SceneReader

variable {K : Type}

/-! ## Transforms without a place -/

/-- One end of a motion as directives make it of a place that is not known. -/
inductive Half (K : Type) where
  /-- Composed from the place on. -/
  | since (t : Transform K)
  /-- Put somewhere, wherever the place is. -/
  | put (t : Transform K)

namespace Half

/-- The half does not follow the place. -/
def isPut : Half K → Bool
  | since _ => false
  | put _ => true

variable [Scalar K]

/-- One more transform. -/
def compose (h : Half K) (t : Transform K) : Half K :=
  match h with
  | since u => since (u.compose t)
  | put u => put (u.compose t)

/-- The half for a place. -/
def seenAt (base : Transform K) : Half K → Transform K
  | since t => base.compose t
  | put t => t

end Half

/-- Both ends of a motion as directives make them of a place that is not known. -/
structure Sketch (K : Type) where
  start : Half K
  stop : Half K
  active : ActiveHalves

namespace Sketch

/-- Changes the active halves. -/
def select (f : Half K → Half K) (k : Sketch K) : Sketch K :=
  ⟨if k.active.hasStart then f k.start else k.start,
   if k.active.hasEnd then f k.stop else k.stop, k.active⟩

variable [Scalar K]

/-- The place itself. -/
def here (active : ActiveHalves) : Sketch K :=
  ⟨.since .identity, .since .identity, active⟩

/-- The sketch for a place. -/
def seenAt (base : TransformSet K) (k : Sketch K) : TransformSet K :=
  ⟨k.start.seenAt base.start, k.stop.seenAt base.stop, k.active⟩

/-- The sketch after a directive that opens and closes no block. -/
def after (k : Sketch K) (d : Directive) : Sketch K :=
  match d.name with
  | .identity => k.select fun _ => .put .identity
  | .activeTransform =>
      match Engine.activeHalves? d.subject with
      | some halves => { k with active := halves }
      | none => k
  | name =>
      match motion? (K := K) d with
      | some (.ok t) => k.select fun h => if name = .transform then .put t else h.compose t
      | _ => k

end Sketch

namespace Engine

/-! ## The course of a body -/

/-- What the directives of a body make of the directories and the transforms: the current
sketch and those that open blocks saved, the innermost first. -/
structure Course (K : Type) where
  dirs : DirectoryStack
  current : Sketch K
  saved : List (Sketch K)

namespace Course

variable [Scalar K]

/-- The course after a directive. -/
def next (q : Course K) (d : Directive) : Course K :=
  match d.name with
  | .attributeBegin => { q with saved := q.current :: q.saved }
  | .transformBegin => { q with saved := q.current :: q.saved }
  | .attributeEnd => { q with current := q.saved.headD q.current, saved := q.saved.tail }
  | .transformEnd => { q with current := q.saved.headD q.current, saved := q.saved.tail }
  | .workDirBegin => { q with dirs := q.dirs.push (Path.ofText d.subject) }
  | .workDirEnd => { q with dirs := ((q.dirs.pop?).map (·.2)).getD q.dirs }
  | _ => { q with current := q.current.after d }

/-- The sketches of the shapes that a body states. -/
def shapes (c : EngineContext) : Course K → List Directive → List (Sketch K)
  | _, [] => []
  | q, d :: ds =>
      (if statesShape c q.dirs d then [q.current] else []) ++ shapes c (q.next d) ds

/-- The course at the begin of an object. -/
def start (s : EngineState K) : Course K := ⟨s.dirs, .here s.ctm.active, []⟩

end Course

/-! ## One directive -/

/-- Directives that may change the current transform. -/
def changesTransform : DirectiveName → Bool
  | .identity | .translate | .scale | .rotate | .lookAt | .concatTransform | .transform => true
  | .coordSysTransform | .activeTransform | .worldBegin | .worldEnd => true
  | .attributeEnd | .transformEnd | .objectEnd => true
  | _ => false

section Steps

variable [Scalar K] {c : EngineContext} {d : Directive} {s : EngineState K}

theorem motion?_eq_none (h : changesTransform d.name = false) : motion? (K := K) d = none := by
  unfold motion?
  split <;> simp_all [changesTransform]

namespace Course

theorem next_opener (q : Course K) {kind : ScopeKind} (hk : kind ≠ .object)
    (hd : d.name = kind.opener) : q.next d = { q with saved := q.current :: q.saved } := by
  unfold next
  rw [hd]
  cases kind with
  | attributes => rfl
  | transform => rfl
  | object => exact (hk rfl).elim

theorem next_closer (q : Course K) {kind : ScopeKind} (hk : kind ≠ .object)
    (hd : d.name = kind.closer) :
    q.next d = { q with current := q.saved.headD q.current, saved := q.saved.tail } := by
  unfold next
  rw [hd]
  cases kind with
  | attributes => rfl
  | transform => rfl
  | object => exact (hk rfl).elim

theorem next_level (q : Course K)
    (hd : ∀ kind, d.name ≠ ScopeKind.opener kind ∧ d.name ≠ ScopeKind.closer kind) :
    (q.next d).current = q.current.after d ∧ (q.next d).saved = q.saved := by
  have still (h : changesTransform d.name = false) : q.current.after d = q.current := by
    have hmotion := motion?_eq_none (K := K) h
    unfold Sketch.after
    split <;> simp_all [changesTransform]
  unfold next
  split
  · rename_i hn
    exact ((hd .attributes).1 hn).elim
  · rename_i hn
    exact ((hd .transform).1 hn).elim
  · rename_i hn
    exact ((hd .attributes).2 hn).elim
  · rename_i hn
    exact ((hd .transform).2 hn).elim
  · rename_i hn
    exact ⟨(still (by rw [hn]; rfl)).symm, rfl⟩
  · rename_i hn
    exact ⟨(still (by rw [hn]; rfl)).symm, rfl⟩
  · exact ⟨rfl, rfl⟩

end Course

/-- Any other directive keeps the current transform. -/
theorem ctm_of_effect {s' : EngineState K} {es : List (Event K)} (he : Effect d s s' es)
    (h : changesTransform d.name = false) : s'.ctm = s.ctm := by
  have hmotion := motion?_eq_none (K := K) h
  have changes {n : DirectiveName} (hn : d.name = n) (hc : changesTransform n = true) : False := by
    rw [hn, hc] at h
    cases h
  cases he with
  | skipped hd => rfl
  | composed hd t ht =>
      rw [hmotion] at ht
      cases ht.2
  | replaced hd t ht =>
      rcases ht with ⟨hn, -⟩ | ⟨hn, -⟩
      · exact (changes hn rfl).elim
      · exact (changes hn rfl).elim
  | recalled hd t ht => exact (changes hd rfl).elim
  | activated hd halves hh => exact (changes hd rfl).elim
  | saved hd => rfl
  | timed hd a b => rfl
  | placed hd o ho => rfl
  | setting hd kind setting s₁ es hr =>
      cases hr
      rfl
  | camera hd setting s₁ es hr =>
      cases hr
      rfl
  | medium hd id s₁ es hr =>
      cases hr
      rfl
  | painted hd g s₁ es hr hg =>
      cases hr
      rfl
  | light hd r s₁ es hr hmem =>
      cases hr
      rfl
  | areaLight hd r s₁ es hr hmem =>
      cases hr
      rfl
  | stated hd r s₁ es hr ho =>
      cases hr
      rfl
  | captured hd r s₁ es hr o ho =>
      cases hr
      rfl
  | worldBegin hn => exact (changes hn rfl).elim
  | worldEnd hn s₁ es hc => exact (changes hn rfl).elim
  | opened kind hk hn => rfl
  | closed kind hn s₁ es hc => exact (changes hn (by cases kind <;> rfl)).elim
  | objectBegin hn => rfl
  | directories hn dirs => rfl

theorem run_move (c : EngineContext) (d : Directive) (replaces : Bool) (s : EngineState K) :
    ((move c d replaces).run s).state.ctm =
      match motion? d with
      | some (.ok t) => if replaces then s.ctm.replace t else s.ctm.compose t
      | _ => s.ctm := by
  unfold move
  cases motion? (K := K) d with
  | none => rfl
  | some r => cases r <;> rfl

omit [Scalar K] in
theorem run_activate (d : Directive) (s : EngineState K) :
    ((activate d).run s).state.ctm =
      match activeHalves? d.subject with
      | some halves => { s.ctm with active := halves }
      | none => s.ctm := by
  unfold activate
  cases activeHalves? d.subject <;> rfl

/-- The current transform after a directive that opens and closes no block and goes back to
no coordinate system. -/
def moved (t : TransformSet K) (d : Directive) : TransformSet K :=
  match d.name with
  | .identity => t.replace .identity
  | .activeTransform =>
      match activeHalves? d.subject with
      | some halves => { t with active := halves }
      | none => t
  | name =>
      match motion? d with
      | some (.ok u) => if name = .transform then t.replace u else t.compose u
      | _ => t

/-- A directive that opens and closes no block moves the current transform, if it goes back
to no coordinate system. -/
theorem ctm_eq_moved (hacc : (execute c d s).rejection = none)
    (hd : ∀ kind, d.name ≠ ScopeKind.opener kind ∧ d.name ≠ ScopeKind.closer kind)
    (hbegin : d.name ≠ .worldBegin) (hend : d.name ≠ .worldEnd)
    (hsystem : d.name ≠ .coordSysTransform) :
    (execute c d s).state.ctm = moved s.ctm d := by
  obtain ⟨hp, hs, -⟩ := performed_of_accepted hacc
  unfold moved
  split
  · rename_i hid
    rw [hs, perform, hid]
    rfl
  · rename_i hactive
    rw [hs, perform, hactive]
    exact run_activate d _
  · by_cases hmoves : changesTransform d.name = true
    · have hmove : perform (K := K) c d = move c d (decide (d.name = .transform)) := by
        unfold perform
        cases hn : d.name with
        | translate => rfl
        | scale => rfl
        | rotate => rfl
        | lookAt => rfl
        | concatTransform => rfl
        | transform => rfl
        | attributeEnd => exact ((hd .attributes).2 hn).elim
        | transformEnd => exact ((hd .transform).2 hn).elim
        | objectEnd => exact ((hd .object).2 hn).elim
        | _ => simp_all [changesTransform]
      rw [hs, hmove, run_move]
      simp only [decide_eq_true_eq]
    · obtain ⟨-, es, he, -⟩ := effect_of_accepted hacc
      rw [ctm_of_effect he (Bool.eq_false_iff.mpr hmoves),
        motion?_eq_none (Bool.eq_false_iff.mpr hmoves)]

/-- The directories are changed by the directives that are for it alone. -/
theorem dirs_of_effect {s' : EngineState K} {es : List (Event K)} (he : Effect d s s' es)
    (hbegin : d.name ≠ .workDirBegin) (hend : d.name ≠ .workDirEnd) : s'.dirs = s.dirs := by
  by_cases hd : isStructural d.name = true
  · cases he with
    | worldBegin hn => rfl
    | worldEnd hn s₁ es hc => exact hc.unchanged.2.2
    | opened kind hk hn => rfl
    | closed kind hn s₁ es hc => exact hc.dirs_eq
    | objectBegin hn => rfl
    | directories hn dirs => exact (hn.elim hbegin hend).elim
    | _ => simp_all [isStructural]
  · exact (framed_of_effect he (Bool.eq_false_iff.mpr hd)).dirs

/-- The directories after a directive are those of the course. -/
theorem dirs_of_accepted (hacc : (execute c d s).rejection = none) {q : Course K}
    (hq : q.dirs = s.dirs) : (q.next d).dirs = (execute c d s).state.dirs := by
  obtain ⟨-, hs, -⟩ := performed_of_accepted hacc
  by_cases hbegin : d.name = .workDirBegin
  · rw [hs, perform, Course.next, hbegin]
    dsimp only
    rw [hq]
    rfl
  · by_cases hend : d.name = .workDirEnd
    · rw [hs, perform, Course.next, hend]
      dsimp only
      rw [hq]
      rfl
    · obtain ⟨-, es, he, -⟩ := effect_of_accepted hacc
      rw [dirs_of_effect he hbegin hend]
      unfold Course.next
      split <;> first | exact hq | contradiction

end Steps

end Engine

/-! ## Sketches seen from a place -/

section Exact

variable [ExactScalar K]

theorem Half.seenAt_compose (base : Transform K) (h : Half K) (t : Transform K) :
    (h.compose t).seenAt base = (h.seenAt base).compose t := by
  cases h with
  | since u => exact (Transform.compose_assoc base u t).symm
  | put u => rfl

namespace Sketch

/-- What changes the halves of a sketch changes them where they are seen. -/
theorem seenAt_select (base : TransformSet K) (k : Sketch K) {f : Half K → Half K}
    {g : Transform K → Transform K} (h : ∀ b half, (f half).seenAt b = g (half.seenAt b)) :
    (k.select f).seenAt base = (k.seenAt base).select g := by
  unfold seenAt select TransformSet.select
  dsimp only
  cases k.active.hasStart <;> cases k.active.hasEnd <;> simp [h]

theorem seenAt_here (base : TransformSet K) : (here base.active).seenAt base = base := by
  unfold seenAt here Half.seenAt
  dsimp only
  rw [Transform.compose_identity, Transform.compose_identity]

/-- What moves a sketch moves it where it is seen. -/
theorem seenAt_after (base : TransformSet K) (k : Sketch K) (d : Directive) :
    (k.after d).seenAt base = Engine.moved (k.seenAt base) d := by
  unfold after Engine.moved
  split
  · exact seenAt_select base k fun _ _ => rfl
  · cases Engine.activeHalves? d.subject <;> rfl
  · cases motion? (K := K) d with
    | none => rfl
    | some r =>
        cases r with
        | error f => rfl
        | ok t =>
            dsimp only
            by_cases ht : d.name = .transform
            · simp only [ht, if_true]
              exact seenAt_select base k fun _ _ => rfl
            · simp only [ht, if_false]
              exact seenAt_select base k fun b half => Half.seenAt_compose b half t

end Sketch

namespace Engine

variable {c : EngineContext} {d : Directive} {s : EngineState K} {base : TransformSet K}

/-- A directive that opens and closes no block goes along with the course of transforms,
if it goes back to no coordinate system. -/
theorem ctm_of_level (hacc : (execute c d s).rejection = none)
    (hd : ∀ kind, d.name ≠ ScopeKind.opener kind ∧ d.name ≠ ScopeKind.closer kind)
    (hbegin : d.name ≠ .worldBegin) (hend : d.name ≠ .worldEnd)
    (hsystem : d.name ≠ .coordSysTransform) {k : Sketch K} (hctm : s.ctm = k.seenAt base) :
    (execute c d s).state.ctm = (k.after d).seenAt base := by
  rw [ctm_eq_moved hacc hd hbegin hend hsystem, hctm, Sketch.seenAt_after]

/-! ## The body goes along with its course -/

/-- In the body of an object the current transform and those that its blocks saved are the
sketches of the course, seen from where the object began. -/
structure Follows (base : TransformSet K) (inner : List (Scope K)) (q : Course K)
    (s : EngineState K) : Prop where
  dirs : q.dirs = s.dirs
  ctm : s.ctm = q.current.seenAt base
  saved : List.Forall₂ (fun scope k => scope.ctm = Sketch.seenAt base k) inner q.saved

/-- One directive in the body. -/
theorem Follows.step {under inner : List (Scope K)} {q : Course K} (h : Follows base inner q s)
    (hin : InBody base under inner s) (hacc : (execute c d s).rejection = none)
    (hobject : d.name ≠ .objectEnd) (hworld : d.name ≠ .worldEnd)
    (hsystem : d.name ≠ .coordSysTransform) :
    ∃ inner', InBody base under inner' (execute c d s).state ∧
      Follows base inner' (q.next d) (execute c d s).state := by
  obtain ⟨inner', hin', hstep, -⟩ := hin.step hacc hobject hworld
  have hdirs := dirs_of_accepted hacc h.dirs
  refine ⟨inner', hin', ?_⟩
  cases hstep with
  | opened kind hk hd hctm =>
      rw [q.next_opener hk hd] at hdirs ⊢
      exact ⟨hdirs, hctm.trans h.ctm, .cons h.ctm h.saved⟩
  | closed kind hk hd scope hctm =>
      rw [q.next_closer hk hd] at hdirs ⊢
      obtain ⟨k, saved, hscope, hrest, hsaved⟩ := List.forall₂_cons_left_iff.mp h.saved
      refine ⟨hdirs, ?_, ?_⟩
      · rw [hctm, hscope, hsaved]
        rfl
      · rw [hsaved]
        exact hrest
  | level hd =>
      have hbegin : d.name ≠ .worldBegin := by
        intro hn
        obtain ⟨hp, -⟩ := performed_of_accepted hacc
        have hphase : s.phase = .options := phase_of_permit_worldBegin hp hn
        rw [hin.phase] at hphase
        cases hphase
      obtain ⟨hcurrent, hsaved⟩ := q.next_level hd
      refine ⟨hdirs, ?_, ?_⟩
      · rw [hcurrent]
        exact ctm_of_level hacc hd hbegin hworld hsystem h.ctm
      · rw [hsaved]
        exact h.saved

/-- The shapes of a body are where the sketches of its course say. -/
theorem Follows.map_statedShapes {under inner : List (Scope K)} {q : Course K}
    {ds : List Directive} (h : Follows base inner q s) (hin : InBody base under inner s)
    (hacc : (executeAll c ds s).rejection = none)
    (hnames : ∀ d ∈ ds, d.name ≠ .objectEnd ∧ d.name ≠ .worldEnd)
    (hsystem : ∀ d ∈ ds, d.name ≠ .coordSysTransform) :
    (statedShapes c ds s).map (·.2.ctm) = (q.shapes c ds).map (Sketch.seenAt base) := by
  induction ds generalizing s inner q with
  | nil => rfl
  | cons d ds ih =>
      obtain ⟨hd, hds⟩ := accepted_cons_iff.mp hacc
      obtain ⟨⟨hobject, hworld⟩, hrest⟩ := List.forall_mem_cons.mp hnames
      obtain ⟨hdsystem, hsystems⟩ := List.forall_mem_cons.mp hsystem
      obtain ⟨inner', hin', h'⟩ := h.step hin hd hobject hworld hdsystem
      rw [statedShapes, Course.shapes, h.dirs, List.map_append, List.map_append,
        ih h' hin' hds hrest hsystems]
      split
      · rw [List.map_singleton, List.map_singleton, h.ctm]
      · rfl

/-! ## Two places -/

theorem isSound_of_mem_statedShapes {ds : List Directive} (hs : IsSoundState s) :
    ∀ p ∈ statedShapes c ds s, p.2.ctm.IsSound := by
  induction ds generalizing s with
  | nil => exact fun p hp => absurd hp List.not_mem_nil
  | cons d ds ih =>
      obtain ⟨hs', -⟩ := (isSoundState_invariant c).execute ⟨hs, AreSoundEvents.nil⟩ d
      intro p hp
      rw [statedShapes] at hp
      rcases List.mem_append.mp hp with hp | hp
      · split at hp
        · rw [List.mem_singleton.mp hp]
          exact hs.ctm
        · cases hp
      · exact ih hs' p hp

/-- A definition keeps the sketches of its course, each seen from where the object began. -/
theorem transforms_of_definition (hs : IsSoundState s) {first last : Directive}
    {body : List Directive} (hdef : IsDefinition first body last)
    (hsystem : ∀ d ∈ body, d.name ≠ .coordSysTransform)
    (hacc : (executeAll c (first :: (body ++ [last])) s).rejection = none) :
    ∃ o, (executeAll c (first :: (body ++ [last])) s).state.objects.get? first.subject = some o ∧
      o.transforms = ((Course.start s).shapes c body).map
        (fun k => (k.seenAt s.ctm).relativeTo s.ctm) ∧
      ∀ k ∈ (Course.start s).shapes c body, (k.seenAt s.ctm).IsSound := by
  obtain ⟨sts, hput, -, hsts⟩ := defined_of_accepted hdef hacc
  obtain ⟨hfirst, hrest⟩ := accepted_cons_iff.mp hacc
  obtain ⟨hbody, -⟩ := accepted_append_iff.mp hrest
  obtain ⟨hin, -, -⟩ := inBody_of_begin hfirst hdef.begins
  have hworld := ne_worldEnd_of_accepted hrest (by rw [hdef.ends]; rfl)
  have hstart : Follows s.ctm [] (Course.start s) (execute c first s).state := by
    rw [(state_of_objectBegin hfirst hdef.begins).2]
    exact ⟨rfl, (Sketch.seenAt_here s.ctm).symm, .nil⟩
  have hsketches := hstart.map_statedShapes hin hbody
    (fun d hd => ⟨hdef.body d hd, hworld d hd⟩) hsystem
  refine ⟨⟨first.subject, sts⟩, by rw [hput, Table.get?_put_self], ?_, fun k hk => ?_⟩
  · rw [← Function.comp_def (fun t : TransformSet K => t.relativeTo s.ctm), ← List.map_map,
      ← hsketches, List.map_map]
    have hcaptured : List.Forall₂ (fun p st => p.2.ctm.relativeTo s.ctm = st.transform)
        (statedShapes c body (execute c first s).state) sts :=
      hsts.imp fun _ _ h => h.transform.symm
    rw [← List.forall₂_map_right_iff, ← List.forall₂_map_left_iff, List.forall₂_eq_eq_eq]
      at hcaptured
    exact hcaptured.symm
  · obtain ⟨hs', -⟩ := (isSoundState_invariant c).execute ⟨hs, AreSoundEvents.nil⟩ first
    have hmem := List.mem_map_of_mem (f := Sketch.seenAt s.ctm) hk
    rw [← hsketches] at hmem
    obtain ⟨p, hp, hctm⟩ := List.mem_map.mp hmem
    rw [← hctm]
    exact isSound_of_mem_statedShapes hs' p hp

/-- A half that was composed from the place on is seen the same way from every place; one
that was put somewhere is so from the same place only. -/
theorem seen_eq_iff {b b' : Transform K} (hb : b.IsSound) (hb' : b'.IsSound) {h : Half K}
    (hh : (h.seenAt b).IsSound) :
    b.invert.compose (h.seenAt b) = b'.invert.compose (h.seenAt b') ↔
      (h.isPut = true → b = b') := by
  cases h with
  | since t =>
      unfold Half.seenAt
      dsimp only
      rw [hb.invert_compose_cancel, hb'.invert_compose_cancel]
      exact ⟨fun _ => nofun, fun _ => rfl⟩
  | put t =>
      constructor
      · exact fun heq _ => Transform.eq_of_invert_compose_eq hh heq
      · intro heq
        rw [heq rfl]

/-- Two definitions with the same body, begun in different places with the same active
halves, have the same transforms exactly if no shape of the body that was put somewhere at
one end of the motion tells the places apart at that end. -/
theorem transforms_eq_iff {s' : EngineState K} {es es' : List (Event K)}
    (hr : Reachable c s es) (hr' : Reachable c s' es') (hactive : s'.ctm.active = s.ctm.active)
    (hdirs : s'.dirs = s.dirs) {first last : Directive} {body : List Directive}
    (hdef : IsDefinition first body last) (hsystem : ∀ d ∈ body, d.name ≠ .coordSysTransform)
    (hacc : (executeAll c (first :: (body ++ [last])) s).rejection = none)
    (hacc' : (executeAll c (first :: (body ++ [last])) s').rejection = none) :
    ∃ o o',
      (executeAll c (first :: (body ++ [last])) s).state.objects.get? first.subject = some o ∧
      (executeAll c (first :: (body ++ [last])) s').state.objects.get? first.subject = some o' ∧
      (o.transforms = o'.transforms ↔
        ∀ k ∈ (Course.start s).shapes c body,
          (k.start.isPut = true → s.ctm.start = s'.ctm.start) ∧
          (k.stop.isPut = true → s.ctm.stop = s'.ctm.stop)) := by
  obtain ⟨hs, -⟩ := hr.invariant (isSoundState_invariant c)
  obtain ⟨hs', -⟩ := hr'.invariant (isSoundState_invariant c)
  obtain ⟨o, ho, htransforms, hsound⟩ := transforms_of_definition hs hdef hsystem hacc
  obtain ⟨o', ho', htransforms', -⟩ := transforms_of_definition hs' hdef hsystem hacc'
  have hcourse : Course.start s' = Course.start s := by
    unfold Course.start
    rw [hactive, hdirs]
  refine ⟨o, o', ho, ho', ?_⟩
  rw [htransforms, htransforms', hcourse, List.map_inj_left]
  refine forall₂_congr fun k hk => ?_
  obtain ⟨hstart, hstop⟩ := hsound k hk
  rw [← seen_eq_iff hs.ctm.1 hs'.ctm.1 hstart, ← seen_eq_iff hs.ctm.2 hs'.ctm.2 hstop]
  unfold TransformSet.relativeTo Sketch.seenAt
  simp only [TransformSet.mk.injEq, and_true]

end Engine

end Exact

namespace Engine

/-! ## An object that begins one step away -/

/-- The begin of an object. -/
def objectStart : Directive := ⟨.objectBegin, [.text "o"], .empty, none⟩

/-- The end of an object. -/
def objectStop : Directive := ⟨.objectEnd, [], .empty, none⟩

/-- A step along the first axis. -/
def stepAside : Directive :=
  ⟨.translate, [.number 1.0, .number 0.0, .number 0.0], .empty, none⟩

/-- A shape. -/
def sphere : Directive := ⟨.shape, [.text "sphere"], .empty, none⟩

/-- The state in the world after some transforms. -/
noncomputable def placeAfter (moves : List Directive) : EngineState ℝ :=
  (executeAll ⟨.rooted [], [], none⟩ (⟨.worldBegin, [], .empty, none⟩ :: moves)
    (.initial .empty)).state

theorem reachable_placeAfter (moves : List Directive) :
    ∃ es, Reachable ⟨.rooted [], [], none⟩ (placeAfter moves) es :=
  ⟨_, reachable_executeAll (Reachable.initial .empty) _⟩

/-- A shape that is moved in the body of the object is where it was moved, wherever the
object began. -/
theorem transforms_eq_of_stepAside :
    IsDefinition objectStart [stepAside, sphere] objectStop ∧
    ∃ o o',
      (executeAll ⟨.rooted [], [], none⟩ (objectStart :: ([stepAside, sphere] ++ [objectStop]))
        (placeAfter [])).state.objects.get? "o" = some o ∧
      (executeAll ⟨.rooted [], [], none⟩ (objectStart :: ([stepAside, sphere] ++ [objectStop]))
        (placeAfter [stepAside])).state.objects.get? "o" = some o' ∧
      o.transforms = o'.transforms := by
  have hdef : IsDefinition objectStart [stepAside, sphere] objectStop :=
    ⟨rfl, by simp [stepAside, sphere], rfl⟩
  obtain ⟨es, hr⟩ := reachable_placeAfter []
  obtain ⟨es', hr'⟩ := reachable_placeAfter [stepAside]
  obtain ⟨o, o', ho, ho', htransforms⟩ := transforms_eq_iff hr hr' rfl rfl hdef
    (by simp [stepAside, sphere]) rfl rfl
  refine ⟨hdef, o, o', ho, ho', htransforms.mpr fun k hk => ?_⟩
  have hshapes : ∃ t u, (Course.start (placeAfter [])).shapes ⟨.rooted [], [], none⟩
      [stepAside, sphere] = [⟨.since t, .since u, .all⟩] := ⟨_, _, rfl⟩
  obtain ⟨t, u, hshapes⟩ := hshapes
  rw [hshapes] at hk
  rw [List.mem_singleton.mp hk]
  exact ⟨nofun, nofun⟩

/-- A shape that is put back to the middle in the body of the object is seen from where the
object began. -/
theorem transforms_ne_of_identity :
    (∃ es, Reachable ⟨.rooted [], [], none⟩ (placeAfter []) es) ∧
    (∃ es, Reachable ⟨.rooted [], [], none⟩ (placeAfter [stepAside]) es) ∧
    (placeAfter [stepAside]).ctm.active = (placeAfter []).ctm.active ∧
    (placeAfter [stepAside]).dirs = (placeAfter []).dirs ∧
    IsDefinition objectStart [⟨.identity, [], .empty, none⟩, sphere] objectStop ∧
    (executeAll ⟨.rooted [], [], none⟩
      (objectStart :: ([⟨.identity, [], .empty, none⟩, sphere] ++ [objectStop]))
      (placeAfter [])).rejection = none ∧
    (executeAll ⟨.rooted [], [], none⟩
      (objectStart :: ([⟨.identity, [], .empty, none⟩, sphere] ++ [objectStop]))
      (placeAfter [stepAside])).rejection = none ∧
    ∃ o o',
      (executeAll ⟨.rooted [], [], none⟩
        (objectStart :: ([⟨.identity, [], .empty, none⟩, sphere] ++ [objectStop]))
        (placeAfter [])).state.objects.get? "o" = some o ∧
      (executeAll ⟨.rooted [], [], none⟩
        (objectStart :: ([⟨.identity, [], .empty, none⟩, sphere] ++ [objectStop]))
        (placeAfter [stepAside])).state.objects.get? "o" = some o' ∧
      o.transforms ≠ o'.transforms := by
  have hdef : IsDefinition objectStart [⟨.identity, [], .empty, none⟩, sphere] objectStop :=
    ⟨rfl, by simp [sphere], rfl⟩
  let moved : Transform ℝ :=
    .translate ⟨Scalar.ofFloat 1.0, Scalar.ofFloat 0.0, Scalar.ofFloat 0.0⟩
  refine ⟨reachable_placeAfter _, reachable_placeAfter _, rfl, rfl, hdef, rfl, rfl, _, _, rfl,
    rfl, ?_⟩
  intro heq
  have hseen : (Transform.identity : Transform ℝ).invert.compose .identity =
      (Transform.identity.compose moved).invert.compose .identity :=
    congrArg TransformSet.start (List.cons.inj heq).1
  have hid := Transform.isSound_identity (K := ℝ)
  have hplace := Transform.eq_of_invert_compose_eq hid hseen
  -- The two places differ in the last column.
  have hmatrix := congrArg Transform.matrix hplace
  rw [Transform.matrix_compose] at hmatrix
  change Matrix4.identity = Matrix4.identity.mul moved.matrix at hmatrix
  rw [Matrix4.identity_mul] at hmatrix
  have hone : (0 : ℝ) < Scalar.ofFloat 1.0 :=
    Number.toReal_pos (by decide +kernel) (by decide +kernel) (by decide +kernel)
  have hzero : (0 : ℝ) = Scalar.ofFloat 1.0 := congrArg (fun m : Matrix4 ℝ => m.r0.w) hmatrix
  exact absurd hzero hone.ne

end Engine

end SceneReader
