import SceneReader.Proofs.Engine.Stacks
import SceneReader.Proofs.Scene.Completion

/-!
# Open nodes

The scene that is being made of the events keeps a stack of nodes of its own: the root, and
over it one node for each block of which it is told.  It stays in step with the blocks of the
state in all states that directives lead to.  So no block ends without a node to close, and
the root is never closed.

**Invariant.**  `IsBuilt`: the events make a scene, as many nodes are open in it as targets
know of, and each block that ended had a node over the root.

**Results.**
* `IsBuilt.extend`: more events that tell of what happens to the blocks.
* `isBuilt_kept`: open nodes and blocks agree in every run.
* `coherent_of_reachable`: the stacks of the state and of the scene fit together.
-/

namespace SceneReader

variable {K : Type} [Scalar K]

namespace SceneBuilder

variable {here : Location} {b b' : SceneBuilder K} {es : List (Event K)}

/-- A block that ends has a node over those that are open below. -/
theorem exists_before_end (hb : InRange b) (h : es.foldlM (step here) b = .ok b')
    (hedge : ∀ e ∈ es, e.isEdge = false) {blocks : List ScopeKind}
    (hblocks : (es.foldlM Event.blocksAfter? blocks).isSome)
    {tops below : List (NodeId × Transform K)} (ho : b.open? = tops ++ below)
    (hlength : tops.length = blocks.length) {before after : List (Event K)} {kind : ScopeKind}
    (hes : es = before ++ .endScope kind :: after) :
    ∃ b₁, before.foldlM (step here) b = .ok b₁ ∧ below.length < b₁.open?.length := by
  subst hes
  rw [List.foldlM_append] at h
  obtain ⟨b₁, hb₁, -⟩ := Success.of_bind h
  obtain ⟨blocks', hrow⟩ := Option.isSome_iff_exists.mp hblocks
  rw [List.foldlM_append] at hrow
  obtain ⟨blocks₁, hblocks₁, hrow⟩ := Option.bind_eq_some_iff.mp hrow
  rw [List.foldlM_cons] at hrow
  obtain ⟨blocks₂, hend, -⟩ := Option.bind_eq_some_iff.mp hrow
  obtain ⟨tops₁, ho₁, hlength₁⟩ := open?_foldlM hb hb₁
    (fun e he => hedge e (List.mem_append_left _ he)) hblocks₁ ho hlength
  refine ⟨b₁, hb₁, ?_⟩
  cases blocks₁ with
  | nil => cases hend
  | cons block rest =>
      rw [ho₁, List.length_append, hlength₁, List.length_cons]
      omega

end SceneBuilder

namespace Engine

open SceneBuilder (InRange)

variable {c : EngineContext} {here : Location} {s s' : EngineState K} {es es' : List (Event K)}
  {b : SceneBuilder K}

/-! ## Scenes that are being made -/

/-- The events make a scene with an open node for each block that targets know of, over the
root.  Each block that ended had such a node. -/
structure IsBuilt (here : Location) (s : EngineState K) (es : List (Event K))
    (b : SceneBuilder K) : Prop where
  made : es.foldlM (SceneBuilder.step here) .initial = .ok b
  ids : b.resourceIds = declaredIds es
  height : b.open?.length = (toldBlocks s).length + s.begun.toNat
  ends : ∀ before kind after, es = before ++ .endScope kind :: after →
    ∃ b₁, before.foldlM (SceneBuilder.step here) .initial = .ok b₁ ∧ 1 < b₁.open?.length

namespace IsBuilt

theorem inRange (h : IsBuilt here s es b) : InRange b :=
  (SceneBuilder.grows_foldlM SceneBuilder.inRange_initial h.made).inRange
    SceneBuilder.inRange_initial

omit [Scalar K] in
/-- An event in a row of two parts is in one of them. -/
theorem split_append {before after : List (Event K)} {e : Event K}
    (h : es ++ es' = before ++ e :: after) :
    (∃ rest, es = before ++ e :: rest) ∨
      ∃ first, before = es ++ first ∧ es' = first ++ e :: after := by
  rcases List.append_eq_append_iff.mp h with ⟨first, hbefore, hes'⟩ | ⟨last, hes, hlast⟩
  · exact Or.inr ⟨first, hbefore, hes'⟩
  · cases last with
    | nil =>
        rw [List.append_nil] at hes
        exact Or.inr ⟨[], by rw [hes, List.append_nil], hlast.symm⟩
    | cons e' rest =>
        rw [List.cons_append] at hlast
        cases hlast
        exact Or.inl ⟨rest, hes⟩

/-- Events that tell of what happens to the blocks do the same to the nodes. -/
theorem extend (h : IsBuilt here s es b) (hbegun : s.begun = true) (ht : Tells s s' es')
    (hids : (declaredIds (es ++ es')).Nodup) : ∃ b', IsBuilt here s' (es ++ es') b' := by
  have hheight : b.open?.length = (toldBlocks s).length + 1 := by rw [h.height, hbegun]; rfl
  have hne : b.open? ≠ [] := List.ne_nil_of_length_eq_add_one hheight
  have ho : b.open? = b.open?.dropLast ++ [b.open?.getLast hne] :=
    (List.dropLast_append_getLast hne).symm
  have hlength : b.open?.dropLast.length = (toldBlocks s).length := by
    rw [List.length_dropLast, hheight, Nat.add_sub_cancel]
  have hsome : (es'.foldlM Event.blocksAfter? (toldBlocks s)).isSome := by rw [ht.blocks]; rfl
  rw [declaredIds_append, ← h.ids] at hids
  obtain ⟨b', hb', hids'⟩ := SceneBuilder.exists_foldlM here h.inRange ht.inner hsome ho hlength
    (List.cons_ne_nil _ _) hids
  obtain ⟨tops, ho', hlength'⟩ :=
    SceneBuilder.open?_foldlM h.inRange hb' ht.inner ht.blocks ho hlength
  have hmade (more : List (Event K)) :
      (es ++ more).foldlM (SceneBuilder.step here) .initial =
        more.foldlM (SceneBuilder.step here) b := by
    rw [List.foldlM_append, h.made]
    rfl
  refine ⟨b', (hmade es').trans hb', ?_, ?_, ?_⟩
  · rw [hids', h.ids, declaredIds_append]
  · rw [ho', List.length_append, hlength', ht.begun, hbegun]
    rfl
  · intro before kind after hsplit
    rcases split_append hsplit with ⟨rest, hes⟩ | ⟨first, rfl, hes'⟩
    · exact h.ends before kind rest hes
    · obtain ⟨b₁, hb₁, hlt⟩ :=
        SceneBuilder.exists_before_end h.inRange hb' ht.inner hsome ho hlength hes'
      exact ⟨b₁, (hmade first).trans hb₁, hlt⟩

/-- One more event that ends no block. -/
theorem concat {e : Event K} {b' : SceneBuilder K} (h : IsBuilt here s es b)
    (hstep : b.step here e = .ok b') (hends : ∀ kind, e ≠ .endScope kind)
    (hids : b'.resourceIds = b.resourceIds ++ declaredIds [e])
    (hheight : b'.open?.length = (toldBlocks s').length + s'.begun.toNat) :
    IsBuilt here s' (es ++ [e]) b' := by
  refine ⟨?_, ?_, hheight, ?_⟩
  · rw [List.foldlM_append, h.made]
    change [e].foldlM (SceneBuilder.step here) b = _
    rw [List.foldlM_cons, hstep]
    rfl
  · rw [hids, h.ids, declaredIds_append]
  · intro before kind after hsplit
    rcases split_append hsplit with ⟨rest, hes⟩ | ⟨first, -, hone⟩
    · exact h.ends before kind rest hes
    · rcases List.append_eq_singleton_iff.mp hone.symm with ⟨-, hend⟩ | ⟨-, hend⟩
      · cases hend
        exact absurd rfl (hends kind)
      · cases hend

end IsBuilt

/-- Open nodes and blocks agree in every run. -/
theorem isBuilt_kept (c : EngineContext) (here : Location) : IsKept (K := K) c fun s es =>
    Orderly s ∧ Numbered 0 s.made es ∧ ∃ b, IsBuilt here s es b where
  initial dirs := by
    refine ⟨(orderly_kept c).initial dirs, .of_nothing 0 rfl, .initial, rfl, rfl, rfl, ?_⟩
    intro before kind after hnil
    simp at hnil
  begun {s es} hb h := by
    obtain ⟨hs, hn, b, hbuilt⟩ := h
    refine ⟨hs.begun, hn.concat rfl, ?_⟩
    have htold : toldBlocks s = [] := by rw [toldBlocks, (hs.idle hb).2]; rfl
    have hends (kind : ScopeKind) : Event.begin c.source ≠ .endScope (K := K) kind := by simp
    refine ⟨_, hbuilt.concat rfl hends (List.append_nil _).symm ?_⟩
    change 1 = (toldBlocks s).length + 1
    rw [htold, List.length_nil]
  performed {d s es} hbegun hp h := by
    obtain ⟨hs, hn, b, hbuilt⟩ := h
    have hnumbered := hn.trans (numbered_of_effect (perform_effect c d s))
    exact ⟨hs.performed hbegun hp, hnumbered,
      hbuilt.extend hbegun (tells_perform hs.arranged hs.sound hp) hnumbered.nodup⟩
  ended {s es} hphase h := by
    obtain ⟨hs, hn, b, hbuilt⟩ := h
    have hbegun : s.begun = true := by
      by_contra hidle
      have hoptions := (hs.idle (Bool.eq_false_iff.mpr hidle)).1
      rw [hphase] at hoptions
      cases hoptions
    obtain ⟨s₁, es₁, hc, hstate, hevents⟩ := endWorld_run .unknown s
    have hnumbered := hn.trans (.of_ended ⟨s₁, es₁, hc, hstate, hevents⟩)
    exact ⟨hs.ended hphase .unknown, hnumbered,
      hbuilt.extend hbegun (tells_endWorld hs.arranged hphase .unknown) hnumbered.nodup⟩
  finished {s es} h := by
    obtain ⟨hs, hn, b, hbuilt⟩ := h
    have hends (kind : ScopeKind) : Event.finish ≠ .endScope (K := K) kind := by simp
    exact ⟨hs, hn.concat rfl, _,
      hbuilt.concat rfl hends (List.append_nil _).symm hbuilt.height⟩

/-! ## Stacks that fit together -/

/-- The stacks of a state, and that of the scene which is made of the events before it, fit
together, so that nothing is taken from a stack that is empty. -/
structure Coherent (c : EngineContext) (here : Location) (s : EngineState K)
    (es : List (Event K)) : Prop where
  /-- One graphics state is saved for each open block of attributes. -/
  graphics : s.savedGraphics.length = s.scopes.countP fun scope => decide (scope.kind = .attributes)
  oneObject : (s.scopes.countP fun scope => decide (scope.kind = .object)) ≤ 1
  openObject : s.openObject.isSome ↔ ∃ scope ∈ s.scopes, scope.kind = .object
  /-- Targets are told of a block exactly if it is outside of all objects. -/
  reported : ∀ inner scope outer, s.scopes = inner ++ scope :: outer →
    (scope.reported = true ↔ scope.kind ≠ .object ∧ ∀ below ∈ outer, below.kind ≠ .object)
  options : s.phase = .options → ∀ scope ∈ s.scopes, scope.kind = .transform
  ended : s.phase = .ended → s.scopes = [] ∧ s.savedGraphics = [] ∧ s.openObject = none
  /-- The scene has one open node more than there are blocks of which it was told: the root,
  which is there from the start on. -/
  nodes : ∃ b, es.foldlM (SceneBuilder.step here) .initial = .ok b ∧
    b.open?.length = s.scopes.countP (·.reported) + if s.begun then 1 else 0
  /-- A directive that closes a block is admitted only where such a block is open. -/
  closes : ∀ (d : Directive) (kind : ScopeKind), d.name = kind.closer →
    (execute c d s).rejection = none →
    ∃ scope rest, s.scopes = scope :: rest ∧ scope.kind = kind
  /-- The next block to be closed finds the graphics state or the object that it restores,
  however many blocks the end of the world has closed before. -/
  restores : ∀ n < s.scopes.length, ∃ scope rest,
    ((closeScopes n).run s).state.scopes = scope :: rest ∧
      (scope.kind = .attributes → ((closeScopes n).run s).state.savedGraphics ≠ []) ∧
      (scope.kind = .object → ((closeScopes n).run s).state.openObject.isSome)
  /-- A shape that is captured finds the block of its object. -/
  base : s.openObject.isSome →
    ∃ scope ∈ s.scopes, scope.kind = .object ∧ objectBase s = scope.ctm
  /-- Where targets are told that a block ends, its node is open over the root. -/
  ends : ∀ before kind after, es = before ++ .endScope kind :: after →
    ∃ b, before.foldlM (SceneBuilder.step here) .initial = .ok b ∧ 1 < b.open?.length

/-- In every state that directives lead to, refused or not, all stacks fit together. -/
theorem coherent_of_reachable (h : Reachable c s es) (here : Location) :
    Coherent c here s es := by
  obtain ⟨hs, -, b, hbuilt⟩ := h.kept (isBuilt_kept c here)
  have hcount (kind : ScopeKind) := Orderly.countP_kind s kind
  have htold : (toldBlocks s).length = s.scopes.countP (·.reported) := by
    rw [toldBlocks, List.length_map, List.countP_eq_length_filter]
  refine ⟨?_, ?_, hs.arranged.flag_iff, ?_, ?_, hs.after_end, ⟨b, hbuilt.made, ?_⟩, ?_,
    fun n hn => hs.restores hn, hs.base, hbuilt.ends⟩
  · rw [hcount, hs.consistent.saved]
  · rw [hcount, hs.consistent.object]
    cases s.openObject <;> simp
  · intro inner scope outer hscopes
    have harranged := hs.arranged
    unfold IsArranged at harranged
    rw [hscopes] at harranged
    exact harranged.reported_iff
  · intro hphase scope hscope
    exact hs.opening hphase _ (List.mem_map_of_mem hscope)
  · rw [hbuilt.height, htold]
    cases s.begun <;> rfl
  · intro d kind hd haccepted
    obtain ⟨scope, rest, -, hscopes, hkind, -⟩ := closed_of_closer haccepted hd
    exact ⟨scope, rest, hscopes, hkind⟩

/-- A block of attributes inside of an object inside of a transform block. -/
def nestedBlocks : List Directive :=
  [⟨.worldBegin, [], .empty, none⟩, ⟨.transformBegin, [], .empty, none⟩,
    ⟨.objectBegin, [.text "o"], .empty, none⟩, ⟨.attributeBegin, [], .empty, none⟩]

/-- Of the three blocks that are open only the outermost has a node, which lies over the
root. -/
theorem coherent_of_reachable_nestedBlocks :
    let p := executeAll (K := Float) ⟨.rooted [], [], none⟩ nestedBlocks
      { EngineState.initial .empty with begun := true }
    p.state.scopes.length = 3 ∧ p.state.savedGraphics.length = 1 ∧
      ∃ b, (.begin none :: p.events).foldlM (SceneBuilder.step []) .initial = .ok b ∧
        b.open?.length = 2 := by
  have hreachable := reachable_executeAll (K := Float) (c := ⟨.rooted [], [], none⟩)
    (Reachable.initial .empty).begun nestedBlocks
  have h := coherent_of_reachable hreachable []
  obtain ⟨b, hb, hheight⟩ := h.nodes
  exact ⟨rfl, h.graphics, b, hb, hheight⟩

end Engine
end SceneReader
