import SceneReader.Proofs.Engine.Acceptance
import SceneReader.Proofs.Engine.Accepted

/-!
# What directives look up

Directives take their arguments from the list of their arguments, and blocks that are closed
take what they restore from the stacks.  None of this can be missing: arguments are of the
shape that the name of the directive asks for, every open block of attributes has a saved
graphics state, and there is an open object exactly if the block of one is open.

**Invariant.**  `Consistent`: the stacks are as long as the open blocks say.

**Results.**
* `consistent_invariant`: the stacks go along with the blocks in every run.
* `answered_of_permit`: an admitted directive finds what it looks up.
-/

namespace SceneReader
namespace Engine

variable {K : Type}

/-! ## Stacks and blocks -/

/-- There is a saved graphics state for each open block of attributes, and an open object for
each open block of an object. -/
structure Consistent (s : EngineState K) : Prop where
  saved : s.stage.blocks.count .attributes = s.savedGraphics.length
  object : s.stage.blocks.count .object = s.openObject.toList.length

namespace Consistent

variable {s s' : EngineState K} {es : List (Event K)}

theorem of_framed (h : Consistent s) (hframed : Framed s s')
    (hsaved : s'.savedGraphics = s.savedGraphics) : Consistent s' := by
  have hblocks : s'.stage.blocks = s.stage.blocks := by rw [stage_of_framed hframed]
  have hlength : s'.openObject.toList.length = s.openObject.toList.length := by
    have hopen := hframed.openObject
    cases ho : s.openObject <;> cases ho' : s'.openObject <;> simp_all
  exact ⟨by rw [hblocks, hsaved, h.saved], by rw [hblocks, hlength, h.object]⟩

theorem opened (h : Consistent s) {kind : ScopeKind} (hk : kind ≠ .object) :
    Consistent (Engine.opened kind s) := by
  have hblocks : (Engine.opened kind s).stage.blocks = kind :: s.stage.blocks := rfl
  refine ⟨?_, ?_⟩
  · rw [hblocks, List.count_cons, h.saved]
    cases kind <;> rfl
  · rw [hblocks, List.count_cons_of_ne hk, h.object]
    rfl

theorem objectOpened (h : Consistent s) (ho : s.openObject = none) (o : ObjectDefinition K) :
    Consistent { Engine.opened .object s with openObject := some o } := by
  have hnone := h.object
  rw [ho] at hnone
  refine ⟨?_, ?_⟩
  · exact (List.count_cons_of_ne (by decide : ScopeKind.object ≠ .attributes)).trans h.saved
  · exact List.count_cons_self.trans (congrArg (· + 1) hnone)

/-- A block that is closed finds what it restores. -/
theorem restores (h : Consistent s) {scope : Scope K} {rest : List (Scope K)}
    (hs : s.scopes = scope :: rest) :
    (scope.kind = .attributes → s.savedGraphics ≠ []) ∧
      (scope.kind = .object → s.openObject.isSome) := by
  have hmem : scope.kind ∈ s.stage.blocks := by
    unfold EngineState.stage
    rw [hs]
    exact List.mem_cons_self
  refine ⟨fun hk hnil => ?_, fun hk => ?_⟩
  · have hsaved := h.saved
    rw [hnil] at hsaved
    exact List.count_eq_zero.mp hsaved (hk ▸ hmem)
  · have hobject := h.object
    cases ho : s.openObject with
    | some o => rfl
    | none =>
        rw [ho] at hobject
        exact absurd (hk ▸ hmem) (List.count_eq_zero.mp hobject)

theorem closed (h : Consistent s) (hc : Closed s s' es) : Consistent s' := by
  have tail {scope : Scope K} {rest : List (Scope K)} (hs : s.scopes = scope :: rest) :
      s.stage.blocks = scope.kind :: rest.map (·.kind) := by
    unfold EngineState.stage
    rw [hs]
    rfl
  obtain ⟨hsaved, hobject⟩ := h
  cases hc with
  | nothing hs => exact ⟨hsaved, hobject⟩
  | attributes scope rest hs hk =>
      rw [tail hs, hk] at hsaved hobject
      rw [List.count_cons_self] at hsaved
      rw [List.count_cons_of_ne (by decide)] at hobject
      unfold restoreGraphics
      cases hg : s.savedGraphics with
      | nil => simp [hg] at hsaved
      | cons g gs =>
          rw [hg, List.length_cons, Nat.succ_inj] at hsaved
          exact ⟨hsaved, hobject⟩
  | object scope rest o hs hk ho =>
      rw [tail hs, hk] at hsaved hobject
      rw [List.count_cons_of_ne (by decide)] at hsaved
      rw [List.count_cons_self, ho] at hobject
      exact ⟨hsaved, Nat.succ.inj hobject⟩
  | plain scope rest hs hk ho =>
      rw [tail hs] at hsaved hobject
      rw [List.count_cons_of_ne hk] at hsaved
      by_cases hkind : scope.kind = .object
      · rw [hkind, List.count_cons_self, ho hkind] at hobject
        cases hobject
      · rw [List.count_cons_of_ne hkind] at hobject
        exact ⟨hsaved, hobject⟩

theorem closedAll (h : Consistent s) (hc : ClosedAll s s' es) : Consistent s' := by
  induction hc with
  | nil s => exact h
  | cons first rest ih => exact ih (h.closed first)

end Consistent

section Runs

variable [Scalar K] {c : EngineContext} {d : Directive} {s s' : EngineState K}
  {es : List (Event K)}

theorem consistent_of_effect (hp : permit c s d = .ok ()) (he : Effect d s s' es)
    (h : Consistent s) : Consistent s' := by
  by_cases hd : isStructural d.name = true
  · cases he with
    | worldBegin hn => exact ⟨h.saved, h.object⟩
    | worldEnd hn s₁ es hc => exact ⟨(h.closedAll hc).saved, (h.closedAll hc).object⟩
    | opened kind hk hn => exact h.opened hk
    | closed kind hn s₁ es hc => exact h.closed hc
    | objectBegin hn => exact h.objectOpened (openObject_of_permit_objectBegin hp hn) _
    | directories hn dirs => exact ⟨h.saved, h.object⟩
    | _ => simp_all [isStructural]
  · exact h.of_framed (framed_of_effect he (Bool.eq_false_iff.mpr hd))
      (kept_of_effect he (Bool.eq_false_iff.mpr hd)).savedGraphics

/-- The stacks go along with the open blocks in every run. -/
theorem consistent_invariant (c : EngineContext) :
    IsInvariant (K := K) c fun s _ => Consistent s where
  initial _ := ⟨rfl, rfl⟩
  begun h := ⟨⟨h.saved, h.object⟩, ⟨h.saved, h.object⟩⟩
  performed hp he h := consistent_of_effect hp he h
  ended := by
    rintro s s' es es' ⟨s₁, es₁, hc, rfl, rfl⟩ h
    exact ⟨(h.closedAll hc).saved, (h.closedAll hc).object⟩
  finished h := h

/-! ## Look-ups -/

/-- The directives with a transform. -/
def motions : List DirectiveName :=
  [.translate, .scale, .rotate, .lookAt, .concatTransform, .transform]

/-- What a directive looks up is there. -/
structure Answered (s : EngineState K) (d : Directive) : Prop where
  arguments : d.name.signature.Fits d.args
  motion : d.name ∈ motions → (motion? (K := K) d).isSome
  halves : d.name = .activeTransform → (activeHalves? d.subject).isSome
  /-- A block that a directive closes is open. -/
  block : ∀ kind : ScopeKind, d.name = kind.closer →
    ∃ scope rest, s.scopes = scope :: rest ∧ scope.kind = kind
  /-- However many blocks are closed, the next one finds what it restores. -/
  restored : ∀ n scope rest, ((closeScopes n).run s).state.scopes = scope :: rest →
    (scope.kind = .attributes → ((closeScopes n).run s).state.savedGraphics ≠ []) ∧
      (scope.kind = .object → ((closeScopes n).run s).state.openObject.isSome)
  /-- The block of an object that is open is found. -/
  base : s.openObject.isSome → (s.scopes.find? fun scope => decide (scope.kind = .object)).isSome
  directory : d.name = .workDirEnd → s.dirs.pop?.isSome

theorem isSome_motion? (hfits : d.name.signature.Fits d.args) (hd : d.name ∈ motions) :
    (motion? (K := K) d).isSome := by
  have hlength (n : Nat) : d.name.signature = .numbers n → d.numbers.length = n :=
    length_numbers hfits
  unfold motion?
  cases hname : d.name with
  | translate =>
      match d.numbers, hlength 3 (by rw [hname]; rfl) with
      | [x, y, z], _ => rfl
  | scale =>
      match d.numbers, hlength 3 (by rw [hname]; rfl) with
      | [x, y, z], _ => rfl
  | rotate =>
      match d.numbers, hlength 4 (by rw [hname]; rfl) with
      | [angle, x, y, z], _ => rfl
  | lookAt =>
      match d.numbers, hlength 9 (by rw [hname]; rfl) with
      | [a, b, c, e, f, g, h, i, j], _ => rfl
  | concatTransform => rfl
  | transform => rfl
  | _ =>
      rw [hname] at hd
      exact absurd hd (by decide)

theorem isSome_activeHalves? (hfits : d.name.signature.Fits d.args)
    (hd : d.name = .activeTransform) : (activeHalves? d.subject).isSome := by
  rw [hd] at hfits
  unfold Directive.subject Directive.texts
  generalize d.args = args at hfits
  cases hfits with
  | keyword word hword =>
      simp only [activeKeywords, List.mem_cons, List.not_mem_nil, or_false] at hword
      rcases hword with rfl | rfl | rfl <;> rfl

theorem isSome_pop?_of_permit (hp : permit c s d = .ok ()) (hd : d.name = .workDirEnd) :
    s.dirs.pop?.isSome := by
  have hnest := (faults_of_permit hp).2
  unfold nestingFault? at hnest
  rw [hd] at hnest
  dsimp only at hnest
  split at hnest
  · cases hnest
  · rename_i hpop
    rw [hpop]
    rfl

/-- An admitted directive finds what it looks up, if its arguments are of the right shape. -/
theorem answered_of_permit (hfits : d.name.signature.Fits d.args) (h : Consistent s)
    (hp : permit c s d = .ok ()) : Answered s d where
  arguments := hfits
  motion := isSome_motion? hfits
  halves := isSome_activeHalves? hfits
  block _ hd := top_of_permit_closer hp hd
  restored n _ _ hs := (h.closedAll (closedAll_closeScopes n s)).restores hs
  base ho := by
    -- An open object is counted among the blocks, so its block is one of them.
    have hcount := h.object
    obtain ⟨o, ho⟩ := Option.isSome_iff_exists.mp ho
    rw [ho] at hcount
    have hmem : .object ∈ s.scopes.map (·.kind) := List.count_pos_iff.mp (hcount ▸ Nat.one_pos)
    obtain ⟨scope, hscope, hk⟩ := List.mem_map.mp hmem
    exact List.find?_isSome.mpr ⟨scope, hscope, by simpa using hk⟩
  directory := isSome_pop?_of_permit hp

end Runs

end Engine
end SceneReader
