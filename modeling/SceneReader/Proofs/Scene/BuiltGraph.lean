import SceneReader.Proofs.Scene.Forest

/-!
# Graphs that calls build

A graph begins without nodes.  A node is added alone or below a node that is there, and the id that
is answered is the place of the node; components come and go and leave the shape of the graph as it
is.  So the graph is a forest after any calls, and its walks and climbs are those of a forest.

**Results.**
* `addNode_cases`: what adding a node can do.
* `IsForest.of_grown`, `IsForest.addNode`, `IsForest.modify`: what keeps a graph a forest.
* `isForest_isLogged_built`: the graph after any calls, and what the calls have answered.
* `built_walks_climbs`: the walks and the climbs in such a graph.
-/

namespace SceneReader
namespace SceneGraph

variable {K : Type} {g : SceneGraph K}

theorem parentOf_modify {f : Node K → Node K} (hf : ∀ n, (f n).parent = n.parent)
    (g : SceneGraph K) (at' id : Nat) : (g.modify at' f).parentOf id = g.parentOf id := by
  unfold parentOf
  rw [node?_modify]
  split
  · cases g.node? id with
    | none => rfl
    | some n => exact hf n
  · rfl

theorem childrenOf_modify {f : Node K → Node K} (hf : ∀ n, (f n).children = n.children)
    (g : SceneGraph K) (at' id : Nat) : (g.modify at' f).childrenOf id = g.childrenOf id := by
  unfold childrenOf
  rw [node?_modify]
  split
  · cases g.node? id with
    | none => rfl
    | some n => exact hf n
  · rfl

theorem addNode_of_range (g : SceneGraph K) (name : String) {parent : Option Int}
    (h : ∀ p ∈ parent, 0 ≤ p ∧ p < g.size) : ∃ g', g.addNode name parent = .ok (g.size, g') := by
  unfold addNode
  cases parent with
  | none => exact ⟨_, rfl⟩
  | some p => exact ⟨_, if_pos (h p rfl)⟩

theorem addNode_of_not_range (g : SceneGraph K) (name : String) {p : Int}
    (h : ¬ (0 ≤ p ∧ p < g.size)) : g.addNode name (some p) = .error ⟨p⟩ :=
  if_neg h

/-- A node is added behind all others, alone or below one of them. -/
theorem addNode_cases {g' : SceneGraph K} {name : String} {parent : Option Int} {id : NodeId}
    (e : g.addNode name parent = .ok (id, g')) :
    id = g.size ∧ ((parent = none ∧ g' = g.extend [⟨name, none, [], []⟩]) ∨
      ∃ p : Nat, parent = some (p : Int) ∧ p < g.size ∧
        g' = g.below p [⟨name, some p, [], []⟩]) := by
  unfold addNode at e
  split at e
  · cases e
    exact ⟨rfl, Or.inl ⟨rfl, rfl⟩⟩
  · rename_i p
    split at e
    · rename_i hp
      obtain ⟨p, rfl⟩ := Int.eq_ofNat_of_zero_le hp.1
      cases e
      exact ⟨rfl, Or.inr ⟨p, rfl, Int.ofNat_lt.mp hp.2, rfl⟩⟩
    · cases e

namespace IsForest

theorem empty : IsForest (SceneGraph.empty : SceneGraph K) := by
  refine ⟨?_, fun p => rfl⟩
  intro id p h
  cases h

/-- A change of a node that keeps its parent and its children. -/
theorem modify (h : IsForest g) {f : Node K → Node K} (hparent : ∀ n, (f n).parent = n.parent)
    (hchildren : ∀ n, (f n).children = n.children) (id : Nat) : IsForest (g.modify id f) := by
  refine ⟨?_, ?_⟩
  · intro other p
    rw [parentOf_modify hparent]
    exact h.parent_lt other p
  · intro p
    simp only [childrenOf_modify hchildren, parentOf_modify hparent, size_modify]
    exact h.children p

/-- One more node, below a node or alone. -/
theorem of_grown {g' : SceneGraph K} {p : Option Nat} (h : IsForest g)
    (hsize : g'.size = g.size + 1) (hparent : ∀ q ∈ p, q < g.size)
    (hold : ∀ id < g.size, g'.parentOf id = g.parentOf id) (hnew : g'.parentOf g.size = p)
    (hchildren : ∀ q, g'.childrenOf q = g.childrenOf q ++ if p = some q then [g.size] else []) :
    IsForest g' := by
  refine ⟨?_, ?_⟩
  · intro id q hid
    have hlt := lt_size_of_parentOf hid
    rw [hsize] at hlt
    rcases Nat.lt_succ_iff_lt_or_eq.mp hlt with hlt | rfl
    · exact h.parent_lt id q (hold id hlt ▸ hid)
    · exact hparent q (hnew ▸ hid)
  · intro q
    rw [hchildren, h.children, hsize, List.range_succ, List.filter_append]
    congr 1
    · exact List.filter_congr fun id hid => by rw [hold id (List.mem_range.mp hid)]
    · by_cases hp : p = some q <;> simp [hnew, hp]

theorem addNode {g' : SceneGraph K} {name : String} {parent : Option Int} {id : NodeId}
    (h : IsForest g) (e : g.addNode name parent = .ok (id, g')) : IsForest g' := by
  obtain ⟨-, ⟨rfl, rfl⟩ | ⟨p, rfl, hp, rfl⟩⟩ := addNode_cases e
  · have hold {id : Nat} (hid : id < g.size) :
        (g.extend [⟨name, none, [], []⟩]).node? id = g.node? id := node?_extend_left hid _
    have hnew : (g.extend [⟨name, none, [], []⟩]).node? g.size = some ⟨name, none, [], []⟩ :=
      node?_extend_right g _ 0
    refine h.of_grown (p := none) (size_extend g _) (by simp) ?_ ?_ ?_
    · intro id hid
      exact congrArg (·.bind (·.parent)) (hold hid)
    · exact congrArg (·.bind (·.parent)) hnew
    · intro q
      rw [if_neg nofun, List.append_nil]
      rcases Nat.lt_trichotomy q g.size with hq | rfl | hq
      · exact congrArg (fun n => (n.map (·.children)).getD []) (hold hq)
      · rw [childrenOf_of_le (Nat.le_refl _)]
        exact congrArg (fun n => (n.map (·.children)).getD []) hnew
      · rw [childrenOf_of_le (Nat.le_of_lt hq), childrenOf_of_le]
        exact (size_extend g _).trans_le hq
  · have hrow : IsBranch p g.size (⟨name, some p, [], []⟩ : Node K) [] := ⟨rfl, rfl, by simp⟩
    refine h.of_grown (p := some p) (size_below g p _) (by simpa using hp)
      (fun id hid => parentOf_below_old hid) (parentOf_branch hrow).1 ?_
    intro q
    rw [childrenOf_branch hp hrow]
    simp

end IsForest

end SceneGraph

/-- A call on a graph: a node is added, or a component of a node is attached or taken away. -/
inductive GraphCall (K : Type) where
  | add (name : String) (parent : Option Int)
  | attach (id : NodeId) (c : Component K)
  | detach (id : NodeId) (k : ComponentKind)

/-- A graph with what was added to it: the ids that were answered, and the names and the parents
that were asked for. -/
structure BuiltGraph (K : Type) where
  graph : SceneGraph K
  ids : List NodeId
  asked : List (String × Option Int)

namespace BuiltGraph

variable {K : Type}

/-- Nothing is added yet. -/
def empty : BuiltGraph K := ⟨.empty, [], []⟩

/-- One call; a node that cannot be added changes nothing. -/
def call (b : BuiltGraph K) : GraphCall K → BuiltGraph K
  | .add name parent =>
      match b.graph.addNode name parent with
      | .ok (id, g) => ⟨g, b.ids ++ [id], b.asked ++ [(name, parent)]⟩
      | .error _ => b
  | .attach id c => { b with graph := b.graph.attach id c }
  | .detach id k => { b with graph := b.graph.modify id (·.detach k) }

/-- The graph after a row of calls. -/
def built (calls : List (GraphCall K)) : BuiltGraph K := calls.foldl call empty

/-- The log says which nodes the graph has. -/
structure IsLogged (b : BuiltGraph K) : Prop where
  ids : b.ids = List.range b.graph.size
  asked : b.asked = b.graph.nodes.map fun n => (n.name, n.parent.map Int.ofNat)

theorem map_modify {α β : Type} {f : α → α} {h : α → β} (hf : ∀ a, h (f a) = h a) (as : List α)
    (i : Nat) : (as.modify i f).map h = as.map h := by
  induction as generalizing i with
  | nil => simp
  | cons a as ih => cases i <;> simp [hf, ih]

variable {b : BuiltGraph K}

theorem IsLogged.modify (h : IsLogged b) {f : Node K → Node K}
    (hf : ∀ n, ((f n).name, (f n).parent) = (n.name, n.parent)) (id : Nat) :
    IsLogged { b with graph := b.graph.modify id f } := by
  refine ⟨?_, ?_⟩
  · rw [SceneGraph.size_modify]
    exact h.ids
  · refine h.asked.trans (map_modify (fun n => ?_) b.graph.nodes id).symm
    have hn := Prod.mk.inj (hf n)
    rw [hn.1, hn.2]

theorem IsLogged.addNode {g : SceneGraph K} {name : String} {parent : Option Int} {id : NodeId}
    (h : IsLogged b) (e : b.graph.addNode name parent = .ok (id, g)) :
    IsLogged ⟨g, b.ids ++ [id], b.asked ++ [(name, parent)]⟩ := by
  obtain ⟨rfl, hsize⟩ := SceneGraph.length_addNode e
  refine ⟨?_, ?_⟩
  · dsimp only
    rw [hsize, List.range_succ, h.ids]
  · dsimp only
    rw [h.asked]
    obtain ⟨-, ⟨rfl, rfl⟩ | ⟨p, rfl, -, rfl⟩⟩ := SceneGraph.addNode_cases e
    · unfold SceneGraph.extend
      rw [List.map_append]
      rfl
    · -- the parent has a child more, but children are not logged
      have hsame := map_modify (f := fun n : Node K =>
        { n with children := n.children ++ [b.graph.size] })
        (h := fun n => (n.name, n.parent.map Int.ofNat)) (fun _ => rfl) b.graph.nodes p
      unfold SceneGraph.below SceneGraph.extend SceneGraph.adopt SceneGraph.modify
      rw [List.map_append, hsame]
      rfl

theorem call_of_added {g : SceneGraph K} {name : String} {parent : Option Int} {id : NodeId}
    (e : b.graph.addNode name parent = .ok (id, g)) :
    b.call (.add name parent) = ⟨g, b.ids ++ [id], b.asked ++ [(name, parent)]⟩ := by
  rw [call, e]

theorem call_of_refused {name : String} {parent : Option Int} {fault : MissingNode}
    (e : b.graph.addNode name parent = .error fault) : b.call (.add name parent) = b := by
  rw [call, e]

theorem isForest_isLogged_call (hg : b.graph.IsForest) (hl : IsLogged b) (c : GraphCall K) :
    (b.call c).graph.IsForest ∧ IsLogged (b.call c) := by
  cases c with
  | add name parent =>
      rcases e : b.graph.addNode name parent with fault | ⟨id, g⟩
      · rw [call_of_refused e]
        exact ⟨hg, hl⟩
      · rw [call_of_added e]
        exact ⟨hg.addNode e, hl.addNode e⟩
  | attach id c =>
      exact ⟨hg.modify (f := (·.attach c)) (fun _ => rfl) (fun _ => rfl) id,
        hl.modify (f := (·.attach c)) (fun _ => rfl) id⟩
  | detach id k =>
      exact ⟨hg.modify (f := (·.detach k)) (fun _ => rfl) (fun _ => rfl) id,
        hl.modify (f := (·.detach k)) (fun _ => rfl) id⟩

/-- The graph is a forest after any calls, and the log says which nodes it has. -/
theorem isForest_isLogged_built (calls : List (GraphCall K)) :
    (built calls).graph.IsForest ∧ IsLogged (built calls) := by
  have key : ∀ b : BuiltGraph K, b.graph.IsForest → IsLogged b →
      (calls.foldl call b).graph.IsForest ∧ IsLogged (calls.foldl call b) := by
    induction calls with
    | nil => exact fun b hg hl => ⟨hg, hl⟩
    | cons c calls ih =>
        intro b hg hl
        obtain ⟨hg', hl'⟩ := isForest_isLogged_call hg hl c
        exact ih (b.call c) hg' hl'
  exact key empty .empty ⟨rfl, rfl⟩

/-- A graph is a forest after any calls.  Ids are places, and a call that is refused changes
nothing.  A parent is before its children and lists them once and in order.  From each node the walk
has nothing left that waits as soon as it has room for all nodes; it is the preorder of the subtree
and comes to what is below the node once, with its depth.  From each node the climb ends at a root,
from which a walk comes to the node, and the path has a name for each step of the depth and one
more. -/
theorem built_walks_climbs [Scalar K] (calls : List (GraphCall K)) :
    let b := built calls
    let g := b.graph
    (b.ids = List.range g.size ∧
      b.asked = g.nodes.map fun n => (n.name, n.parent.map Int.ofNat)) ∧
    (∀ (name : String) (parent : Option Int), (∀ p ∈ parent, 0 ≤ p ∧ p < g.size) →
      ∃ g', g.addNode name parent = .ok (g.size, g')) ∧
    (∀ (name : String) (p : Int), ¬ (0 ≤ p ∧ p < g.size) →
      g.addNode name (some p) = .error ⟨p⟩ ∧ b.call (.add name (some p)) = b) ∧
    (∀ id p : Nat, g.parentOf id = some p → p < id) ∧
    (∀ p, g.childrenOf p =
      (List.range g.size).filter fun id : Nat => decide (g.parentOf id = some p)) ∧
    (∀ r < g.size,
      (∀ room, g.size ≤ room → g.visit room [(r, 0)] = g.walk r) ∧
      (∀ out, g.Preorder 0 [r] out ↔ out = g.walk r) ∧
      (∀ id d : Nat, (id, d) ∈ g.walk r ↔ g.IsBelow r id d) ∧
      ((g.walk r).map (·.1)).Nodup) ∧
    (∀ id < g.size, ∃ ids, g.Climb id ids ∧
      (g.path id).map some = (ids.map fun i => (g.node? i).map (·.name)).reverse ∧
      g.worldMatrix id = ids.foldl (fun m i => (g.localMatrix i).mul m) .identity ∧
      (∃ root < g.size, g.parentOf root = none ∧ ∃ d, (id, d) ∈ g.walk root) ∧
      ∀ root < g.size, g.parentOf root = none →
        ∀ d, (id, d) ∈ g.walk root → (g.path id).length = d + 1) := by
  intro b g
  obtain ⟨hg, hlog⟩ := isForest_isLogged_built calls
  refine ⟨⟨hlog.ids, hlog.asked⟩, fun name parent => SceneGraph.addNode_of_range g name,
    fun name p hp => ?_, hg.parent_lt, hg.children, fun r hr => ?_, fun id hid => ?_⟩
  · have hfault := SceneGraph.addNode_of_not_range g name hp
    exact ⟨hfault, call_of_refused hfault⟩
  · have hwalk := SceneGraph.preorder_walk hg hr
    refine ⟨fun room hroom => SceneGraph.visit_eq_preorder hg hr hwalk hroom, fun out => ?_,
      fun id d => SceneGraph.mem_walk_iff hg hr, SceneGraph.nodup_of_preorder hg hwalk⟩
    constructor
    · exact fun hout => hout.unique hwalk
    · rintro rfl
      exact hwalk
  · obtain ⟨ids, hids⟩ := SceneGraph.exists_climb hg id
    have hpath := hids.path_eq hg hid
    have hlength : (g.path id).length = ids.length := by
      simpa using congrArg List.length hpath
    obtain ⟨root, d, hroot, hbelow, -⟩ := hids.exists_root
    have hlt : root < g.size := Nat.lt_of_le_of_lt (hbelow.le hg) hid
    refine ⟨ids, hids, hpath, hids.outward_eq_foldl hg .identity,
      ⟨root, hlt, hroot, d, (SceneGraph.mem_walk_iff hg hlt).mpr hbelow⟩, ?_⟩
    intro root hlt hroot d hmem
    rw [hlength]
    exact hids.length_eq hroot ((SceneGraph.mem_walk_iff hg hlt).mp hmem)

/-- Two trees, and a node for which there is no place. -/
def twoTrees : List (GraphCall Float) :=
  [.add "root" none, .add "a" (some 0), .add "orphan" (some 9), .add "a1" (some 1),
    .attach 1 (.placed "o"), .add "b" (some 0), .add "alone" none, .add "b1" (some 3)]

/-- The last node is below the last child of the first root. -/
theorem built_walks_climbs_twoTrees :
    let g := (built twoTrees).graph
    0 < g.size ∧ g.Preorder 0 [0] [(0, 0), (1, 1), (2, 2), (3, 1), (5, 2)] ∧
      g.IsBelow 0 5 2 ∧ (g.path 5).length = 3 := by
  intro g
  obtain ⟨-, -, -, -, -, hwalks, hclimbs⟩ := built_walks_climbs twoTrees
  obtain ⟨-, hpreorder, hbelow, -⟩ := hwalks 0 (by decide)
  obtain ⟨_, -, -, -, -, hpath⟩ := hclimbs 5 (by decide)
  have hmem : (5, 2) ∈ g.walk 0 := by decide
  exact ⟨by decide, (hpreorder _).mpr rfl, (hbelow 5 2).mp hmem,
    hpath 0 (by decide) rfl 2 hmem⟩

end BuiltGraph
end SceneReader
