import SceneReader.Proofs.Engine.DefinitionSite
import SceneReader.Proofs.Engine.Restoration

/-!
# What the world takes over from the options

Where the world begins the current transform is the identity, whatever the transforms of the
options were.  The blocks that the options left open stay open, though, and a block that is
closed in the world restores the transform that it saved before the world began.

So two scenes with the same world agree on the current transform until the world closes a
block that the options left open, and beyond that as long as these blocks saved the same
transforms.  Coordinate systems are another way around the identity; the worlds here go back
to none.

**Results.**
* `transforms_of_accepted`, `transforms_of_executeAll`: what directives do to the current
  transform and to the saved ones.
* `TransformStack.current_foldl_congr`, `TransformStack.take_eq_of_current_eq`: on which of
  the saved transforms the current one depends.
* `worldTransforms_eq_iff`: when two options blocks make no difference to the world.
-/

namespace SceneReader
namespace Engine

variable {K : Type}

/-! ## The stack of transforms -/

/-- What a directive does to the open blocks. -/
inductive BlockChange where
  | opens
  | closes
  | keeps
deriving DecidableEq

/-- What a directive inside of the world does to the open blocks. -/
def blockChange : DirectiveName → BlockChange
  | .attributeBegin => .opens
  | .transformBegin => .opens
  | .objectBegin => .opens
  | .attributeEnd => .closes
  | .transformEnd => .closes
  | .objectEnd => .closes
  | _ => .keeps

theorem blockChange_eq_opens_iff {name : DirectiveName} :
    blockChange name = .opens ↔ ∃ kind, name = ScopeKind.opener kind := by
  constructor
  · intro h
    cases name with
    | attributeBegin => exact ⟨.attributes, rfl⟩
    | transformBegin => exact ⟨.transform, rfl⟩
    | objectBegin => exact ⟨.object, rfl⟩
    | _ => cases h
  · rintro ⟨kind, rfl⟩
    cases kind <;> rfl

theorem blockChange_eq_closes_iff {name : DirectiveName} :
    blockChange name = .closes ↔ ∃ kind, name = ScopeKind.closer kind := by
  constructor
  · intro h
    cases name with
    | attributeEnd => exact ⟨.attributes, rfl⟩
    | transformEnd => exact ⟨.transform, rfl⟩
    | objectEnd => exact ⟨.object, rfl⟩
    | _ => cases h
  · rintro ⟨kind, rfl⟩
    cases kind <;> rfl

/-- How many blocks directives close beyond those that they open, if `depth` blocks were
opened before. -/
def closedBelow : (depth : Nat) → List Directive → Nat
  | _, [] => 0
  | depth, d :: ds =>
      match blockChange d.name, depth with
      | .opens, depth => closedBelow (depth + 1) ds
      | .closes, 0 => closedBelow 0 ds + 1
      | .closes, depth + 1 => closedBelow depth ds
      | .keeps, depth => closedBelow depth ds

theorem closedBelow_le_append (depth : Nat) (as bs : List Directive) :
    closedBelow depth as ≤ closedBelow depth (as ++ bs) := by
  induction as generalizing depth with
  | nil => exact Nat.zero_le _
  | cons d as ih =>
      rw [List.cons_append]
      unfold closedBelow
      cases blockChange d.name with
      | opens => exact ih (depth + 1)
      | keeps => exact ih depth
      | closes =>
          cases depth with
          | zero => exact Nat.succ_le_succ (ih 0)
          | succ depth => exact ih depth

/-- The current transform and those that open blocks saved, the innermost first. -/
structure TransformStack (K : Type) where
  current : TransformSet K
  saved : List (TransformSet K)

namespace TransformStack

/-- The transforms of a state. -/
def ofState (s : EngineState K) : TransformStack K := ⟨s.ctm, s.scopes.map Scope.ctm⟩

variable [Scalar K]

/-- The transforms after a directive of the world. -/
def next (q : TransformStack K) (d : Directive) : TransformStack K :=
  match blockChange d.name with
  | .opens => ⟨q.current, q.current :: q.saved⟩
  | .closes => ⟨q.saved.headD q.current, q.saved.tail⟩
  | .keeps => ⟨moved q.current d, q.saved⟩

/-- The current transform depends on those saved transforms alone whose blocks are closed. -/
theorem current_foldl_congr {ds : List Directive} {t : TransformSet K}
    {inner under under' : List (TransformSet K)}
    (h : under.take (closedBelow inner.length ds) = under'.take (closedBelow inner.length ds)) :
    (ds.foldl next ⟨t, inner ++ under⟩).current = (ds.foldl next ⟨t, inner ++ under'⟩).current := by
  induction ds generalizing t inner under under' with
  | nil => rfl
  | cons d ds ih =>
      rw [List.foldl_cons, List.foldl_cons]
      unfold next
      unfold closedBelow at h
      cases hd : blockChange d.name with
      | opens =>
          rw [hd] at h
          exact @ih t (t :: inner) under under' h
      | keeps =>
          rw [hd] at h
          exact ih h
      | closes =>
          rw [hd] at h
          cases inner with
          | cons u inner => exact ih h
          | nil =>
              cases under with
              | nil =>
                  cases under' with
                  | nil => rfl
                  | cons u' under' => cases h
              | cons u under =>
                  cases under' with
                  | nil => cases h
                  | cons u' under' =>
                      obtain ⟨rfl, hrest⟩ := List.cons.inj h
                      exact @ih u [] under under' hrest

/-- Where two rows of saved transforms make no difference on the way, the blocks that were
closed had saved the same. -/
theorem take_eq_of_current_eq {ds : List Directive} {t : TransformSet K}
    {inner under under' : List (TransformSet K)}
    (hunder : closedBelow inner.length ds ≤ under.length)
    (hunder' : closedBelow inner.length ds ≤ under'.length)
    (h : ∀ part, part <+: ds → (part.foldl next ⟨t, inner ++ under⟩).current =
      (part.foldl next ⟨t, inner ++ under'⟩).current) :
    under.take (closedBelow inner.length ds) = under'.take (closedBelow inner.length ds) := by
  induction ds generalizing t inner under under' with
  | nil => rfl
  | cons d ds ih =>
      have hrest (part : List Directive) (hpart : part <+: ds) :=
        h (d :: part) (List.cons_prefix_cons.mpr ⟨rfl, hpart⟩)
      simp only [List.foldl_cons] at hrest
      unfold next at hrest
      unfold closedBelow at hunder hunder' ⊢
      cases hd : blockChange d.name with
      | opens =>
          rw [hd] at hunder hunder' hrest
          exact @ih t (t :: inner) under under' hunder hunder' hrest
      | keeps =>
          rw [hd] at hunder hunder' hrest
          exact ih hunder hunder' hrest
      | closes =>
          rw [hd] at hunder hunder' hrest
          cases inner with
          | cons u inner => exact ih hunder hunder' hrest
          | nil =>
              cases under with
              | nil => cases hunder
              | cons u under =>
                  cases under' with
                  | nil => cases hunder'
                  | cons u' under' =>
                      obtain rfl : u = u' := hrest [] List.nil_prefix
                      exact congrArg (u :: ·) (@ih u [] under under'
                        (Nat.le_of_succ_le_succ hunder) (Nat.le_of_succ_le_succ hunder') hrest)

end TransformStack

/-! ## Directives of the world -/

variable [Scalar K] {c : EngineContext} {d : Directive} {s : EngineState K}

theorem scopes_of_keeps (hacc : (execute c d s).rejection = none)
    (hd : blockChange d.name = .keeps) (hend : d.name ≠ .worldEnd) :
    (execute c d s).state.scopes = s.scopes := by
  obtain ⟨-, es, he, -⟩ := effect_of_accepted hacc
  by_cases hstructural : isStructural d.name = true
  · generalize (execute c d s).state = s' at he ⊢
    cases he with
    | worldBegin hn => rfl
    | worldEnd hn s₁ es hc => exact (hend hn).elim
    | opened kind hk hn =>
        rw [blockChange_eq_opens_iff.mpr ⟨kind, hn⟩] at hd
        cases hd
    | closed kind hn s₁ es hc =>
        rw [blockChange_eq_closes_iff.mpr ⟨kind, hn⟩] at hd
        cases hd
    | objectBegin hn =>
        rw [hn] at hd
        cases hd
    | directories hn dirs => rfl
    | _ => simp_all [isStructural]
  · exact (framed_of_effect he (Bool.eq_false_iff.mpr hstructural)).scopes

/-- One directive of the world; a block is closed only where one is open. -/
theorem transforms_of_accepted (hacc : (execute c d s).rejection = none)
    (hbegin : d.name ≠ .worldBegin) (hend : d.name ≠ .worldEnd)
    (hsystem : d.name ≠ .coordSysTransform) :
    TransformStack.ofState (execute c d s).state = (TransformStack.ofState s).next d ∧
      (blockChange d.name = .closes → s.scopes ≠ []) := by
  unfold TransformStack.next
  cases hd : blockChange d.name with
  | opens =>
      obtain ⟨kind, hn⟩ := blockChange_eq_opens_iff.mp hd
      obtain ⟨-, es, he, -⟩ := effect_of_accepted hacc
      have hctm := ctm_of_effect he (by rw [hn]; cases kind <;> rfl)
      obtain ⟨hscopes, -⟩ := stacks_of_opener hacc hn
      refine ⟨?_, nofun⟩
      unfold TransformStack.ofState
      rw [hctm, hscopes]
      rfl
  | closes =>
      obtain ⟨kind, hn⟩ := blockChange_eq_closes_iff.mp hd
      obtain ⟨scope, rest, es, hscopes, -, hc⟩ := closed_of_closer hacc hn
      obtain ⟨hctm, hrest, -⟩ := hc.restores hscopes
      unfold TransformStack.ofState
      rw [hctm, hrest, hscopes]
      exact ⟨rfl, fun _ => List.cons_ne_nil _ _⟩
  | keeps =>
      have hlevel (kind : ScopeKind) : d.name ≠ kind.opener ∧ d.name ≠ kind.closer := by
        constructor
        · intro hn
          rw [blockChange_eq_opens_iff.mpr ⟨kind, hn⟩] at hd
          cases hd
        · intro hn
          rw [blockChange_eq_closes_iff.mpr ⟨kind, hn⟩] at hd
          cases hd
      refine ⟨?_, nofun⟩
      unfold TransformStack.ofState
      rw [ctm_eq_moved hacc hlevel hbegin hend hsystem, scopes_of_keeps hacc hd hend]

/-- A directive of the world that goes back to no coordinate system. -/
structure InWorld (d : Directive) : Prop where
  begins : d.name ≠ .worldBegin
  ends : d.name ≠ .worldEnd
  system : d.name ≠ .coordSysTransform

theorem transforms_of_executeAll {ds : List Directive} (hds : ∀ d ∈ ds, InWorld d)
    (hacc : (executeAll c ds s).rejection = none) :
    TransformStack.ofState (executeAll c ds s).state =
      ds.foldl TransformStack.next (TransformStack.ofState s) := by
  induction ds generalizing s with
  | nil => rfl
  | cons d ds ih =>
      obtain ⟨hd, hrest⟩ := List.forall_mem_cons.mp hds
      obtain ⟨hone, hall⟩ := accepted_cons_iff.mp hacc
      rw [state_cons hone, ih hrest hall,
        (transforms_of_accepted hone hd.begins hd.ends hd.system).1, List.foldl_cons]

/-- Directives close only blocks that are open. -/
theorem closedBelow_le {ds : List Directive} (hds : ∀ d ∈ ds, InWorld d)
    (hacc : (executeAll c ds s).rejection = none) {depth below : Nat}
    (hlength : s.scopes.length = depth + below) : closedBelow depth ds ≤ below := by
  induction ds generalizing s depth below with
  | nil => exact Nat.zero_le _
  | cons d ds ih =>
      obtain ⟨hd, hrest⟩ := List.forall_mem_cons.mp hds
      obtain ⟨hone, hall⟩ := accepted_cons_iff.mp hacc
      obtain ⟨hnext, hopen⟩ := transforms_of_accepted hone hd.begins hd.ends hd.system
      have hsaved := congrArg (fun q => q.saved.length) hnext
      unfold TransformStack.ofState TransformStack.next at hsaved
      unfold closedBelow
      cases hchange : blockChange d.name with
      | opens =>
          simp only [hchange, List.length_map, List.length_cons] at hsaved
          exact ih hrest hall (by omega)
      | keeps =>
          simp only [hchange, List.length_map] at hsaved
          exact ih hrest hall (by omega)
      | closes =>
          have hpos := List.length_pos_iff.mpr (hopen hchange)
          simp only [hchange, List.length_map, List.length_tail] at hsaved
          cases depth with
          | zero =>
              have hle : closedBelow 0 ds ≤ below - 1 := ih hrest hall (by omega)
              dsimp only
              omega
          | succ depth => exact ih hrest hall (by omega)

/-! ## Two options blocks -/

/-- Once the world has begun it does not begin again. -/
theorem ne_worldBegin_of_accepted {ds : List Directive} (hs : s.phase ≠ .options)
    (hacc : (executeAll c ds s).rejection = none) : ∀ d ∈ ds, d.name ≠ .worldBegin := by
  induction ds generalizing s with
  | nil => nofun
  | cons d ds ih =>
      obtain ⟨hone, hall⟩ := accepted_cons_iff.mp hacc
      obtain ⟨hp, es, he, -⟩ := effect_of_accepted hone
      have hd : d.name ≠ .worldBegin := fun hn => hs (phase_of_permit_worldBegin hp hn)
      refine List.forall_mem_cons.mpr ⟨hd, ih ?_ hall⟩
      rcases phase_of_effect he with hphase | hn | hn
      · rw [hphase]
        exact hs
      · exact (hd hn).elim
      · rw [phase_of_worldEnd hone hn]
        nofun

/-- The transforms that the blocks saved which the options leave open, the innermost
first. -/
def leftOpen (c : EngineContext) (options : List Directive) (dirs : DirectoryStack) :
    List (TransformSet K) :=
  (started c options dirs).state.scopes.map Scope.ctm

/-- The current transform after the directives. -/
def ctmAfter (c : EngineContext) (ds : List Directive) (dirs : DirectoryStack) :
    TransformSet K :=
  (started c ds dirs).state.ctm

section World

variable {options before after : List Directive} {first : Directive} {dirs : DirectoryStack}

/-- In the world the current transform is what its directives make of the identity and of
what the options left open. -/
theorem ctm_of_world (hfirst : first.name = .worldBegin)
    (hsystem : ∀ w ∈ before, w.name ≠ .coordSysTransform) (hd : d.name.placement = .worldOnly)
    (hrun : (run (K := K) c (options ++ first :: (before ++ d :: after))
      (.initial dirs)).rejection = none) :
    (∀ part, part <+: before → ctmAfter (K := K) c (options ++ first :: part) dirs =
        (part.foldl TransformStack.next ⟨.identity, leftOpen c options dirs⟩).current) ∧
      closedBelow 0 before ≤ (leftOpen (K := K) c options dirs).length := by
  rw [run_rejection] at hrun
  obtain ⟨hoptions, hrest⟩ := accepted_append_iff.mp hrun
  obtain ⟨hbegin, hworld⟩ := accepted_cons_iff.mp hrest
  unfold leftOpen ctmAfter
  simp only [started_eq]
  generalize { EngineState.initial (K := K) dirs with begun := true } = s₀ at *
  have hbegun : (execute c first (executeAll c options s₀).state).state =
      worldBegun { (executeAll c options s₀).state with begun := true } := by
    rw [(performed_of_accepted hbegin).2.1, perform, hfirst]
    exact (beginWorld_run _).1
  rw [hbegun] at hworld
  obtain ⟨hbefore, -⟩ := accepted_append_iff.mp hworld
  have hin : ∀ w ∈ before, InWorld w := by
    have hone : (executeAll c (before ++ [d])
        (worldBegun { (executeAll c options s₀).state with begun := true })).rejection = none := by
      rw [List.append_cons] at hworld
      exact (accepted_append_iff.mp hworld).1
    have hphase : Phase.world ≠ .options := by decide
    exact fun w hw => ⟨ne_worldBegin_of_accepted hphase hbefore w hw,
      ne_worldEnd_of_accepted hone hd w hw, hsystem w hw⟩
  refine ⟨?_, closedBelow_le hin hbefore (by simp [worldBegun])⟩
  rintro part ⟨rest, rfl⟩
  obtain ⟨hpart, -⟩ := accepted_append_iff.mp hbefore
  rw [state_append _ hoptions, state_cons hbegin, hbegun]
  exact congrArg TransformStack.current
    (transforms_of_executeAll (fun w hw => hin w (List.mem_append_left _ hw)) hpart)

end World

/-- The directives of the world before a shape, a light or an instance have the same current
transforms after two options blocks, and so has the shape, the light or the instance itself,
exactly if the blocks that they close and the options left open saved the same. -/
theorem worldTransforms_eq_iff {options options' before after : List Directive}
    {first : Directive} {dirs : DirectoryStack} (hfirst : first.name = .worldBegin)
    (hsystem : ∀ w ∈ before ++ d :: after, w.name ≠ .coordSysTransform)
    (hd : d.name = .shape ∨ d.name = .lightSource ∨ d.name = .objectInstance)
    (hrun : (run (K := K) c (options ++ first :: (before ++ d :: after))
      (.initial dirs)).rejection = none)
    (hrun' : (run (K := K) c (options' ++ first :: (before ++ d :: after))
      (.initial dirs)).rejection = none) :
    (∀ part, part <+: before → ctmAfter (K := K) c (options ++ first :: part) dirs =
        ctmAfter c (options' ++ first :: part) dirs) ↔
      (leftOpen (K := K) c options dirs).take (closedBelow 0 before) =
        (leftOpen c options' dirs).take (closedBelow 0 before) := by
  have hplace : d.name.placement = .worldOnly := by
    rcases hd with hd | hd | hd <;> rw [hd] <;> rfl
  have hbefore := fun w hw => hsystem w (List.mem_append_left _ hw)
  obtain ⟨hctm, hle⟩ := ctm_of_world hfirst hbefore hplace hrun
  obtain ⟨hctm', hle'⟩ := ctm_of_world hfirst hbefore hplace hrun'
  constructor
  · intro h
    refine @TransformStack.take_eq_of_current_eq K _ before .identity [] _ _ hle hle' ?_
    intro part hpart
    rw [List.nil_append, List.nil_append, ← hctm part hpart, ← hctm' part hpart]
    exact h part hpart
  · intro h part hpart
    rw [hctm part hpart, hctm' part hpart]
    refine @TransformStack.current_foldl_congr K _ part .identity [] _ _ ?_
    obtain ⟨rest, rfl⟩ := hpart
    have hpart := congrArg (List.take (closedBelow 0 part)) h
    rwa [List.take_take, List.take_take, Nat.min_eq_left (closedBelow_le_append 0 part rest)]
      at hpart

/-- The begin of the world. -/
def startWorld : Directive := ⟨.worldBegin, [], .empty, none⟩

/-- The begin of a block of transforms. -/
def startBlock : Directive := ⟨.transformBegin, [], .empty, none⟩

/-- The end of a block of transforms. -/
def stopBlock : Directive := ⟨.transformEnd, [], .empty, none⟩

/-- Where the world closes only blocks of its own, what the options left open is no matter. -/
theorem worldTransforms_eq_of_ownBlock :
    (∀ w ∈ [startBlock, stepAside, stopBlock] ++ sphere :: [], w.name ≠ .coordSysTransform) ∧
    (run (K := Float) ⟨.rooted [], [], none⟩ ([stepAside, startBlock] ++
      startWorld :: ([startBlock, stepAside, stopBlock] ++ sphere :: []))
      (.initial .empty)).rejection = none ∧
    (run (K := Float) ⟨.rooted [], [], none⟩ ([startBlock] ++
      startWorld :: ([startBlock, stepAside, stopBlock] ++ sphere :: []))
      (.initial .empty)).rejection = none ∧
    ∀ part, part <+: [startBlock, stepAside, stopBlock] →
      ctmAfter (K := Float) ⟨.rooted [], [], none⟩ ([stepAside, startBlock] ++ startWorld :: part)
          .empty =
        ctmAfter ⟨.rooted [], [], none⟩ ([startBlock] ++ startWorld :: part) .empty := by
  have hsystem : ∀ w ∈ [startBlock, stepAside, stopBlock] ++ sphere :: [],
      w.name ≠ .coordSysTransform := by
    simp [startBlock, stepAside, stopBlock, sphere]
  refine ⟨hsystem, rfl, rfl,
    (worldTransforms_eq_iff rfl hsystem (Or.inl rfl) rfl rfl).mpr ?_⟩
  rw [show closedBelow 0 [startBlock, stepAside, stopBlock] = 0 from rfl, List.take_zero,
    List.take_zero]

/-- Directives about transforms. -/
def isTransforming : DirectiveName → Bool
  | .identity | .translate | .scale | .rotate | .lookAt | .transform | .concatTransform => true
  | .activeTransform | .coordinateSystem | .coordSysTransform => true
  | .transformBegin | .transformEnd => true
  | _ => false

/-- A block that the options left open brings a transform of the options into the world. -/
theorem worldTransforms_ne_of_leftOpen :
    [stepAside, startBlock].filter (fun d => !isTransforming d.name) =
      [startBlock].filter (fun d => !isTransforming d.name) ∧
    (∀ w ∈ [stopBlock, sphere], w.name ≠ .coordSysTransform) ∧
    (run (K := Float) ⟨.rooted [], [], none⟩
      ([stepAside, startBlock] ++ startWorld :: [stopBlock, sphere])
      (.initial .empty)).rejection = none ∧
    (run (K := Float) ⟨.rooted [], [], none⟩ ([startBlock] ++ startWorld :: [stopBlock, sphere])
      (.initial .empty)).rejection = none ∧
    ctmAfter (K := Float) ⟨.rooted [], [], none⟩ ([stepAside, startBlock] ++
        startWorld :: [stopBlock]) .empty ≠
      ctmAfter ⟨.rooted [], [], none⟩ ([startBlock] ++ startWorld :: [stopBlock]) .empty := by
  refine ⟨rfl, by simp [stopBlock, sphere], rfl, rfl, fun h => ?_⟩
  have hstep : TransformSet.identity.compose (.translate ⟨(1.0 : Float), 0.0, 0.0⟩) = .identity := h
  have hcolumn := congrArg (fun t => Scalar.same t.start.matrix.r0.w (0 : Float)) hstep
  exact absurd hcolumn (by decide +kernel)

end Engine
end SceneReader
