import SceneReader.Proofs.Engine.ReportedBlocks
import SceneReader.Proofs.Scene.Attachment

/-!
# How a scene grows

Each event adds one row of nodes at most, below the innermost open node.  So a node that is
neither open nor the root is complete: no later event changes it.  Blocks that begin and end
leave the open nodes as they were.

**Invariant.**  `InRange b`: all open nodes are there.

**Results.**
* `addition_of_step`: what one event adds.
* `Grows.trans`, `grows_foldlM`: what later events leave alone.
* `open?_of_balanced`: open nodes after blocks that have ended.
-/

namespace SceneReader
namespace SceneBuilder

variable {K : Type}

/-- All open nodes are there. -/
def InRange (b : SceneBuilder K) : Prop := ∀ top ∈ b.open?, top.1 < b.graph.size

variable [Scalar K]

/-! ## One event -/

/-- What an event adds to a scene. -/
inductive Addition (b b' : SceneBuilder K) : Event K → Prop
  | root (source : Option String) (hg : b'.graph = b.graph.extend [⟨"Scene", none, [], []⟩])
      (ho : b'.open? = [(b.graph.size, .identity)]) : Addition b b' (.begin source)
  /-- The node of a block, which is open from then on. -/
  | opened (kind : ScopeKind) (ctm : TransformSet K) (parent : NodeId × Transform K) (n : Node K)
      (hparent : b.parent? = .ok parent)
      (hg : b'.graph = (b.graph.adopt parent.1 [b.graph.size]).extend [n])
      (ho : b'.open? = (b.graph.size, ctm.start) :: b.open?) :
      Addition b b' (.beginScope kind ctm)
  | closed (kind : ScopeKind) (hg : b'.graph = b.graph) (ho : b'.open? = b.open?.tail) :
      Addition b b' (.endScope kind)
  /-- A node that is not opened, perhaps with nodes below it. -/
  | placed (e : Event K) (he : e.isLevel = true ∧ e.isEdge = false)
      (parent : NodeId × Transform K) (n : Node K) (ns : List (Node K))
      (hparent : b.parent? = .ok parent)
      (hg : b'.graph = (b.graph.adopt parent.1 [b.graph.size]).extend (n :: ns))
      (ho : b'.open? = b.open?) : Addition b b' e
  | nothing (e : Event K) (he : e.isLevel = true ∧ e.isEdge = false) (hg : b'.graph = b.graph)
      (ho : b'.open? = b.open?) : Addition b b' e
  | finished (cs : List (Component K)) (hg : b'.graph = (b.attachAll 0 cs).graph)
      (ho : b'.open? = b.open?) : Addition b b' .finish

variable {here : Location} {b b' : SceneBuilder K} {e : Event K} {es : List (Event K)}

omit [Scalar K] in
theorem mem_of_parent? {parent : NodeId × Transform K} (h : b.parent? = .ok parent) :
    parent ∈ b.open? := by
  unfold parent? at h
  split at h
  · cases h
  · rename_i top rest hopen
    cases h
    rw [hopen]
    exact List.mem_cons_self

theorem addition_of_step (hb : InRange b) (h : b.step here e = .ok b') : Addition b b' e := by
  have range {parent : NodeId × Transform K} (hparent : b.parent? = .ok parent) :
      parent.1 < b.graph.size := hb parent (mem_of_parent? hparent)
  cases e with
  | begin source =>
      cases h
      exact .root source rfl rfl
  | beginScope kind ctm =>
      obtain ⟨parent, hparent, h⟩ := Success.of_bind h
      rw [addChild_eq (range hparent)] at h
      cases h
      exact .opened kind ctm parent _ hparent rfl rfl
  | endScope kind =>
      cases h
      exact .closed kind rfl rfl
  | shape st =>
      obtain ⟨parent, hparent, h⟩ := Success.of_bind h
      rw [placeShape_eq (range hparent)] at h
      cases h
      exact .placed _ ⟨rfl, rfl⟩ parent _ [] hparent rfl rfl
  | light r ctm =>
      obtain ⟨parent, hparent, -⟩ := Success.of_bind h
      obtain ⟨m, f, hplace⟩ := placeLight_eq hparent (range hparent) r ctm
      cases hplace.symm.trans h
      exact .placed _ ⟨rfl, rfl⟩ parent _ [] hparent rfl rfl
  | placed o ctm =>
      obtain ⟨parent, hparent, -⟩ := Success.of_bind h
      change b.placeObject o ctm = .ok b' at h
      rw [placeObject_eq hparent (range hparent)] at h
      cases h
      exact .placed _ ⟨rfl, rfl⟩ parent _ _ hparent rfl rfl
  | declare r =>
      obtain ⟨resources, -, h⟩ := Success.of_bind h
      cases h
      exact .nothing _ ⟨rfl, rfl⟩ rfl rfl
  | finish =>
      cases h
      exact .finished _ rfl rfl
  | _ =>
      cases h
      exact .nothing _ ⟨rfl, rfl⟩ rfl rfl

/-! ## Growth -/

/-- The second scene is the first one with more nodes: children are added to nodes that are
open, and components to the root, and all other nodes stay as they are. -/
structure Grows (b b' : SceneBuilder K) : Prop where
  size : b.graph.size ≤ b'.graph.size
  node? : ∀ id < b.graph.size, id ≠ 0 → (∀ top ∈ b.open?, top.1 ≠ id) →
    b'.graph.node? id = b.graph.node? id
  childrenOf : ∀ id < b.graph.size, b.graph.childrenOf id <+: b'.graph.childrenOf id
  open? : ∀ top ∈ b'.open?,
    top ∈ b.open? ∨ (b.graph.size ≤ top.1 ∧ top.1 < b'.graph.size)

namespace Grows

omit [Scalar K] in
theorem refl (b : SceneBuilder K) : Grows b b :=
  ⟨Nat.le_refl _, fun _ _ _ _ => rfl, fun _ _ => List.prefix_rfl, fun _ h => Or.inl h⟩

omit [Scalar K] in
theorem trans {b₁ b₂ b₃ : SceneBuilder K} (h : Grows b₁ b₂) (h' : Grows b₂ b₃) :
    Grows b₁ b₃ := by
  refine ⟨Nat.le_trans h.size h'.size, ?_, ?_, ?_⟩
  · intro id hid hroot hclosed
    have hid' := Nat.lt_of_lt_of_le hid h.size
    -- a node that was there is not opened later
    have hclosed' : ∀ top ∈ b₂.open?, top.1 ≠ id := by
      intro top htop
      rcases h.open? top htop with hold | ⟨hnew, -⟩
      · exact hclosed top hold
      · exact Nat.ne_of_gt (Nat.lt_of_lt_of_le hid hnew)
    rw [h'.node? id hid' hroot hclosed', h.node? id hid hroot hclosed]
  · intro id hid
    exact (h.childrenOf id hid).trans (h'.childrenOf id (Nat.lt_of_lt_of_le hid h.size))
  · intro top htop
    rcases h'.open? top htop with hold | ⟨hle, hlt⟩
    · rcases h.open? top hold with hold | ⟨hle, hlt⟩
      · exact Or.inl hold
      · exact Or.inr ⟨hle, Nat.lt_of_lt_of_le hlt h'.size⟩
    · exact Or.inr ⟨Nat.le_trans h.size hle, hlt⟩

omit [Scalar K] in
theorem inRange (h : Grows b b') (hb : InRange b) : InRange b' := by
  intro top htop
  rcases h.open? top htop with hold | ⟨-, hlt⟩
  · exact Nat.lt_of_lt_of_le (hb top hold) h.size
  · exact hlt

omit [Scalar K] in
/-- Nodes that are taken up by an open one. -/
theorem of_adopt {parent : NodeId × Transform K} (hb : InRange b)
    (hparent : b.parent? = .ok parent) (ids : List NodeId) (n : Node K) (ns : List (Node K))
    (hg : b'.graph = (b.graph.adopt parent.1 ids).extend (n :: ns))
    (ho : ∀ top ∈ b'.open?, top ∈ b.open? ∨ top.1 = b.graph.size) : Grows b b' := by
  have hmem := mem_of_parent? hparent
  have hold {id : NodeId} (hid : id < b.graph.size) :
      b'.graph.node? id = (b.graph.adopt parent.1 ids).node? id := by
    rw [hg, SceneGraph.node?_extend_left]
    rwa [SceneGraph.size_adopt]
  have hsize : b'.graph.size = b.graph.size + (ns.length + 1) := by
    rw [hg, SceneGraph.size_extend, SceneGraph.size_adopt, List.length_cons]
  refine ⟨by omega, ?_, ?_, ?_⟩
  · intro id hid _ hclosed
    rw [hold hid, SceneGraph.node?_adopt_of_ne _ (hclosed parent hmem)]
  · intro id hid
    have hchildren : b'.graph.childrenOf id = (b.graph.adopt parent.1 ids).childrenOf id := by
      unfold SceneGraph.childrenOf
      rw [hold hid]
    rw [hchildren]
    by_cases hp : parent.1 = id
    · rw [← hp, SceneGraph.childrenOf_adopt (hb parent hmem)]
      exact List.prefix_append _ _
    · unfold SceneGraph.childrenOf
      rw [SceneGraph.node?_adopt_of_ne _ hp]
  · intro top htop
    rcases ho top htop with hold | hnew
    · exact Or.inl hold
    · have hlt : b.graph.size < b'.graph.size := by omega
      rw [hnew]
      exact Or.inr ⟨Nat.le_refl _, hlt⟩

end Grows

omit [Scalar K] in
/-- Components that are attached to the root. -/
theorem grows_attachAll (b : SceneBuilder K) (cs : List (Component K)) :
    Grows b (b.attachAll 0 cs) := by
  have hone (g : SceneGraph K) (c : Component K) (id : NodeId) :
      (g.attach 0 c).size = g.size ∧ (g.attach 0 c).childrenOf id = g.childrenOf id ∧
        (id ≠ 0 → (g.attach 0 c).node? id = g.node? id) := by
    refine ⟨SceneGraph.size_attach g 0 c, ?_, ?_⟩
    · unfold SceneGraph.childrenOf SceneGraph.attach
      rw [SceneGraph.node?_modify]
      split
      · rw [Option.map_map]
        rfl
      · rfl
    · intro hroot
      unfold SceneGraph.attach
      rw [SceneGraph.node?_modify, if_neg hroot.symm]
  have hall (g : SceneGraph K) (id : NodeId) :
      (cs.foldl (fun g c => g.attach 0 c) g).size = g.size ∧
        (cs.foldl (fun g c => g.attach 0 c) g).childrenOf id = g.childrenOf id ∧
        (id ≠ 0 → (cs.foldl (fun g c => g.attach 0 c) g).node? id = g.node? id) := by
    induction cs generalizing g with
    | nil => exact ⟨rfl, rfl, fun _ => rfl⟩
    | cons c cs ih =>
        obtain ⟨hsize, hchildren, hnode⟩ := ih (g.attach 0 c)
        obtain ⟨hsize₁, hchildren₁, hnode₁⟩ := hone g c id
        exact ⟨hsize.trans hsize₁, hchildren.trans hchildren₁,
          fun hroot => (hnode hroot).trans (hnode₁ hroot)⟩
  refine ⟨Nat.le_of_eq (hall b.graph 0).1.symm, ?_, ?_, fun _ h => Or.inl h⟩
  · intro id _ hroot _
    exact (hall b.graph id).2.2 hroot
  · intro id _
    unfold attachAll
    rw [(hall b.graph id).2.1]

theorem Addition.grows (h : Addition b b' e) (hb : InRange b) : Grows b b' := by
  have same (hg : b'.graph = b.graph) (ho : ∀ top ∈ b'.open?, top ∈ b.open?) : Grows b b' := by
    refine ⟨Nat.le_of_eq (by rw [hg]), ?_, ?_, fun top htop => Or.inl (ho top htop)⟩
    · exact fun id _ _ _ => by rw [hg]
    · exact fun id _ => by rw [hg]
  cases h with
  | root source hg ho =>
      have hold {id : NodeId} (hid : id < b.graph.size) :
          b'.graph.node? id = b.graph.node? id := by
        rw [hg, SceneGraph.node?_extend_left hid]
      have hsize : b'.graph.size = b.graph.size + 1 := by
        rw [hg, SceneGraph.size_extend, List.length_singleton]
      have hlt : b.graph.size < b'.graph.size := by omega
      refine ⟨Nat.le_of_lt hlt, fun id hid _ _ => hold hid, ?_, ?_⟩
      · intro id hid
        unfold SceneGraph.childrenOf
        rw [hold hid]
      · intro top htop
        rw [ho] at htop
        rw [List.mem_singleton.mp htop]
        exact Or.inr ⟨Nat.le_refl _, hlt⟩
  | opened kind ctm parent n hparent hg ho =>
      refine .of_adopt hb hparent _ n [] hg ?_
      intro top htop
      rw [ho] at htop
      rcases List.mem_cons.mp htop with rfl | htop
      · exact Or.inr rfl
      · exact Or.inl htop
  | closed kind hg ho => exact same hg fun top htop => List.mem_of_mem_tail (ho ▸ htop)
  | placed e he parent n ns hparent hg ho =>
      exact .of_adopt hb hparent _ n ns hg fun top htop => Or.inl (ho ▸ htop)
  | nothing e he hg ho => exact same hg fun top htop => ho ▸ htop
  | finished cs hg ho =>
      have hroot := grows_attachAll b cs
      obtain ⟨hsize, hnode, hchildren, -⟩ := hroot
      rw [← hg] at hsize hnode hchildren
      exact ⟨hsize, hnode, hchildren, fun top htop => Or.inl (ho ▸ htop)⟩

theorem grows_foldlM (hb : InRange b) (h : es.foldlM (step here) b = .ok b') : Grows b b' := by
  induction es generalizing b with
  | nil =>
      cases h
      exact Grows.refl _
  | cons e es ih =>
      rw [List.foldlM_cons] at h
      obtain ⟨b₁, he, h⟩ := Success.of_bind h
      have hgrows := (addition_of_step hb he).grows hb
      exact hgrows.trans (ih (hgrows.inRange hb) h)

omit [Scalar K] in
theorem inRange_initial : InRange (initial : SceneBuilder K) :=
  fun _ h => absurd h List.not_mem_nil

/-! ## Open nodes -/

/-- Over the open nodes `below` there is one for each block that is open. -/
theorem open?_foldlM (hb : InRange b) (h : es.foldlM (step here) b = .ok b')
    (hedge : ∀ e ∈ es, e.isEdge = false) {blocks blocks' : List ScopeKind}
    (hblocks : es.foldlM Event.blocksAfter? blocks = some blocks')
    {tops below : List (NodeId × Transform K)} (ho : b.open? = tops ++ below)
    (hlength : tops.length = blocks.length) :
    ∃ tops', b'.open? = tops' ++ below ∧ tops'.length = blocks'.length := by
  induction es generalizing b blocks tops with
  | nil =>
      cases h
      cases hblocks
      exact ⟨tops, ho, hlength⟩
  | cons e es ih =>
      rw [List.foldlM_cons] at h hblocks
      obtain ⟨b₁, he, hes⟩ := Success.of_bind h
      obtain ⟨blocks₁, hblocks₁, hrow⟩ := Option.bind_eq_some_iff.mp hblocks
      obtain ⟨hedge₁, hedges⟩ := List.forall_mem_cons.mp hedge
      have hadd := addition_of_step hb he
      have hb₁ := (hadd.grows hb).inRange hb
      have level (hl : e.isLevel = true) (ho₁ : b₁.open? = b.open?) :
          ∃ tops', b'.open? = tops' ++ below ∧ tops'.length = blocks'.length := by
        rw [Event.blocksAfter?_of_level hl] at hblocks₁
        cases hblocks₁
        exact ih hb₁ hes hedges hrow (ho₁.trans ho) hlength
      cases hadd with
      | root source hg ho₁ => cases hedge₁
      | finished cs hg ho₁ => cases hedge₁
      | opened kind ctm parent n hparent hg ho₁ =>
          cases hblocks₁
          have hopen : b₁.open? = ((b.graph.size, ctm.start) :: tops) ++ below := by
            rw [ho₁, ho, List.cons_append]
          exact ih hb₁ hes hedges hrow hopen (by rw [List.length_cons, hlength, List.length_cons])
      | closed kind hg ho₁ =>
          cases blocks with
          | nil => cases hblocks₁
          | cons block rest =>
              cases tops with
              | nil => cases hlength
              | cons top tops =>
                  have hrest : rest = blocks₁ := by
                    unfold Event.blocksAfter? at hblocks₁
                    dsimp only at hblocks₁
                    split at hblocks₁
                    · exact Option.some.inj hblocks₁
                    · cases hblocks₁
                  subst hrest
                  have hopen : b₁.open? = tops ++ below := by
                    rw [ho₁, ho, List.cons_append, List.tail_cons]
                  exact ih hb₁ hes hedges hrow hopen (Nat.succ.inj hlength)
      | placed e hlevel parent n ns hparent hg ho₁ => exact level hlevel.1 ho₁
      | nothing e hlevel hg ho₁ => exact level hlevel.1 ho₁

/-- Blocks that have ended leave the open nodes as they were. -/
theorem open?_of_balanced (hb : InRange b) (h : es.foldlM (step here) b = .ok b')
    (hedge : ∀ e ∈ es, e.isEdge = false) (hblocks : BlocksBalanced es) :
    b'.open? = b.open? := by
  have hopen : b.open? = [] ++ b.open? := rfl
  obtain ⟨tops, ho, hlength⟩ := open?_foldlM hb h hedge hblocks hopen rfl
  rw [ho, List.eq_nil_of_length_eq_zero hlength, List.nil_append]

end SceneBuilder
end SceneReader
