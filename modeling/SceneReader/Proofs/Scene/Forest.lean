import SceneReader.Proofs.Scene.Walk

/-!
# Forests

In a graph where parents are before their children, loops over the graph end: a walk goes down and
a climb goes up, and neither comes to a place twice.  A walk keeps the nodes that wait in one list
and comes to the same nodes in the same order as the recursion over the subtree.

**Invariant.**  While a walk is in a row of siblings, the nodes that wait are the rest of the row
and then what waited before the row was entered (`visit_append`).

**Results.**
* `exists_preorder`, `Preorder.unique`: the preorder of a subtree is there, and only once.
* `mem_preorder_iff`, `nodup_preorder`: it holds what is below, with the depths, and nothing twice.
* `visit_eq_preorder`, `preorder_walk`: the walk is the preorder, whatever room there is beyond the
  nodes.
* `exists_climb`, `Climb.path_eq`, `Climb.outward_eq_foldl`: the ways up to the root.
-/

namespace SceneReader
namespace SceneGraph

variable {K : Type} {g : SceneGraph K}

/-- Parents are before their children, and list them in the order of the nodes. -/
structure IsForest (g : SceneGraph K) : Prop where
  parent_lt : ∀ id p : Nat, g.parentOf id = some p → p < id
  children : ∀ p, g.childrenOf p =
    (List.range g.size).filter fun id : Nat => decide (g.parentOf id = some p)

theorem lt_size_of_parentOf {id p : Nat} (h : g.parentOf id = some p) : id < g.size := by
  by_contra hid
  unfold parentOf node? at h
  rw [List.getElem?_eq_none (Nat.not_lt.mp hid)] at h
  cases h

theorem IsForest.mem_childrenOf (h : IsForest g) {p c : Nat} :
    c ∈ g.childrenOf p ↔ g.parentOf c = some p := by
  rw [h.children, List.mem_filter, List.mem_range, decide_eq_true_eq]
  exact ⟨And.right, fun hc => ⟨lt_size_of_parentOf hc, hc⟩⟩

/-! ## Nodes below a node -/

/-- The node is a number of steps below `r`. -/
inductive IsBelow (g : SceneGraph K) (r : Nat) : Nat → Nat → Prop
  | self : IsBelow g r r 0
  | child {p id depth : Nat} :
      IsBelow g r p depth → g.parentOf id = some p → IsBelow g r id (depth + 1)

namespace IsBelow

variable {r c id d : Nat}

theorem le (hg : IsForest g) (h : g.IsBelow r id d) : r ≤ id := by
  induction h with
  | self => exact Nat.le_refl r
  | child _ hparent ih => exact Nat.le_of_lt (Nat.lt_of_le_of_lt ih (hg.parent_lt _ _ hparent))

theorem lt_size (hr : r < g.size) (h : g.IsBelow r id d) : id < g.size := by
  cases h with
  | self => exact hr
  | child _ hparent => exact lt_size_of_parentOf hparent

/-- A step more on the upper side. -/
theorem of_child (hc : g.parentOf c = some r) (h : g.IsBelow c id d) : g.IsBelow r id (d + 1) := by
  induction h with
  | self => exact child self hc
  | child _ hparent ih => exact child ih hparent

/-- What is below a node is the node, or below one of its children. -/
theorem cases_top (h : g.IsBelow r id d) :
    (id = r ∧ d = 0) ∨ ∃ c e : Nat, g.parentOf c = some r ∧ g.IsBelow c id e ∧ d = e + 1 := by
  induction h with
  | self => exact Or.inl ⟨rfl, rfl⟩
  | child _ hparent ih =>
      right
      rcases ih with ⟨rfl, rfl⟩ | ⟨c, e, hc, hbelow, rfl⟩
      · exact ⟨_, 0, hparent, self, rfl⟩
      · exact ⟨c, e + 1, hc, child hbelow hparent, rfl⟩

/-- Of two nodes above the same one, one is above the other. -/
theorem total {c' d' : Nat} (h : g.IsBelow c id d) (h' : g.IsBelow c' id d') :
    (∃ e, g.IsBelow c c' e) ∨ ∃ e, g.IsBelow c' c e := by
  induction h generalizing d' with
  | self => exact Or.inr ⟨d', h'⟩
  | child hup hparent ih =>
      cases h' with
      | self => exact Or.inl ⟨_, child hup hparent⟩
      | child hup' hparent' =>
          cases hparent.symm.trans hparent'
          exact ih hup'

/-- Nothing is below two children of one node. -/
theorem eq_of_siblings {p c' d' : Nat} (hg : IsForest g) (hc : g.parentOf c = some p)
    (hc' : g.parentOf c' = some p) (h : g.IsBelow c id d) (h' : g.IsBelow c' id d') : c = c' := by
  -- a child that is below its sibling has its parent below that sibling as well
  have apart {a b e : Nat} (ha : g.parentOf a = some p) (hb : g.parentOf b = some p)
      (hab : g.IsBelow a b e) : a = b := by
    cases hab with
    | self => rfl
    | child hup hparent =>
        cases hparent.symm.trans hb
        exact absurd (hup.le hg) (Nat.not_le.mpr (hg.parent_lt _ _ ha))
  rcases h.total h' with ⟨e, h⟩ | ⟨e, h⟩
  · exact apart hc hc' h
  · exact (apart hc' hc h).symm

end IsBelow

/-! ## The preorder -/

/-- The nodes at and below the nodes of a row that is at a depth: each one is followed by what is
below it, and that by the rest of the row. -/
inductive Preorder (g : SceneGraph K) : Nat → List Nat → List (Nat × Nat) → Prop
  | nil (depth : Nat) : Preorder g depth [] []
  | cons {depth id : Nat} {ids : List Nat} {below rest : List (Nat × Nat)} :
      Preorder g (depth + 1) (g.childrenOf id) below → Preorder g depth ids rest →
      Preorder g depth (id :: ids) ((id, depth) :: (below ++ rest))

section Preorder

variable {depth : Nat} {ids : List Nat} {out : List (Nat × Nat)}

theorem Preorder.unique {out' : List (Nat × Nat)} (h : g.Preorder depth ids out)
    (h' : g.Preorder depth ids out') : out = out' := by
  induction h generalizing out' with
  | nil =>
      cases h'
      rfl
  | cons _ _ ihbelow ihrest =>
      cases h' with
      | cons hbelow hrest => rw [ihbelow hbelow, ihrest hrest]

/-- A row has a preorder if what is below each of its nodes has one. -/
theorem exists_preorder_of_children
    (h : ∀ id ∈ ids, ∃ below, g.Preorder (depth + 1) (g.childrenOf id) below) :
    ∃ out, g.Preorder depth ids out := by
  induction ids with
  | nil => exact ⟨[], .nil depth⟩
  | cons id ids ih =>
      obtain ⟨⟨below, hbelow⟩, hids⟩ := List.forall_mem_cons.mp h
      obtain ⟨rest, hrest⟩ := ih hids
      exact ⟨_, .cons hbelow hrest⟩

/-- Children are nearer to the end of the nodes than their parent, so the recursion ends. -/
theorem exists_preorder_childrenOf (hg : IsForest g) (id depth : Nat) :
    ∃ below, g.Preorder depth (g.childrenOf id) below := by
  induction hleft : g.size - id using Nat.strongRecOn generalizing id depth with
  | ind left ih =>
      refine exists_preorder_of_children fun c hc => ?_
      have hparent := hg.mem_childrenOf.mp hc
      have hlt := hg.parent_lt c id hparent
      have hsize := lt_size_of_parentOf hparent
      exact ih (g.size - c) (by omega) c (depth + 1) rfl

theorem exists_preorder (hg : IsForest g) (depth : Nat) (ids : List Nat) :
    ∃ out, g.Preorder depth ids out :=
  exists_preorder_of_children fun id _ => exists_preorder_childrenOf hg id (depth + 1)

/-- A preorder holds what is below the nodes of its row, with the depths. -/
theorem mem_preorder_iff (hg : IsForest g) (h : g.Preorder depth ids out) {id d : Nat} :
    (id, d) ∈ out ↔ ∃ top ∈ ids, ∃ e, g.IsBelow top id e ∧ d = depth + e := by
  induction h with
  | nil => simp
  | @cons depth top ids below rest _ _ ihbelow ihrest =>
      rw [List.mem_cons, List.mem_append, ihbelow, ihrest, List.exists_mem_cons_iff, ← or_assoc]
      refine or_congr_left ?_
      constructor
      · rintro (heq | ⟨c, hc, e, hbelow, rfl⟩)
        · cases heq
          exact ⟨0, .self, rfl⟩
        · exact ⟨e + 1, hbelow.of_child (hg.mem_childrenOf.mp hc), by omega⟩
      · rintro ⟨e, hbelow, rfl⟩
        rcases hbelow.cases_top with ⟨rfl, rfl⟩ | ⟨c, e, hc, hlower, rfl⟩
        · exact Or.inl rfl
        · exact Or.inr ⟨c, hg.mem_childrenOf.mpr hc, e, hlower, by omega⟩

theorem mem_map_preorder_iff (hg : IsForest g) (h : g.Preorder depth ids out) {id : Nat} :
    id ∈ out.map (·.1) ↔ ∃ top ∈ ids, ∃ e, g.IsBelow top id e := by
  rw [List.mem_map]
  constructor
  · rintro ⟨⟨_, d⟩, hmem, rfl⟩
    obtain ⟨top, htop, e, hbelow, -⟩ := (mem_preorder_iff hg h).mp hmem
    exact ⟨top, htop, e, hbelow⟩
  · rintro ⟨top, htop, e, hbelow⟩
    exact ⟨(id, depth + e), (mem_preorder_iff hg h).mpr ⟨top, htop, e, hbelow, rfl⟩, rfl⟩

/-- A preorder comes to no node twice, if nothing is below two nodes of its row. -/
theorem nodup_preorder (hg : IsForest g) (h : g.Preorder depth ids out)
    (hids : ids.Pairwise fun a b => ∀ id d e : Nat, g.IsBelow a id d → ¬ g.IsBelow b id e) :
    (out.map (·.1)).Nodup := by
  induction h with
  | nil => exact List.nodup_nil
  | @cons depth top ids below rest hbelow hrest ihbelow ihrest =>
      obtain ⟨htop, hids⟩ := List.pairwise_cons.mp hids
      have hchildren : (g.childrenOf top).Pairwise fun a b =>
          ∀ id d e : Nat, g.IsBelow a id d → ¬ g.IsBelow b id e := by
        have hsorted : (g.childrenOf top).Pairwise (· < ·) := by
          rw [hg.children]
          exact List.pairwise_lt_range.filter _
        refine hsorted.imp_of_mem fun ha hb hlt id d e hda hdb => Nat.ne_of_lt hlt ?_
        exact hda.eq_of_siblings hg (hg.mem_childrenOf.mp ha) (hg.mem_childrenOf.mp hb) hdb
      rw [List.map_cons, List.map_append, List.nodup_cons, List.nodup_append]
      refine ⟨?_, ihbelow hchildren, ihrest hids, ?_⟩
      · intro hmem
        rcases List.mem_append.mp hmem with hmem | hmem
        · -- the top is before all that is below its children
          obtain ⟨c, hc, e, hbelow⟩ := (mem_map_preorder_iff hg hbelow).mp hmem
          exact absurd (hbelow.le hg)
            (Nat.not_le.mpr (hg.parent_lt c top (hg.mem_childrenOf.mp hc)))
        · obtain ⟨other, hother, e, hbelow⟩ := (mem_map_preorder_iff hg hrest).mp hmem
          exact htop other hother top 0 e .self hbelow
      · intro a ha b hb hab
        obtain ⟨c, hc, e, hbelow⟩ := (mem_map_preorder_iff hg hbelow).mp ha
        obtain ⟨other, hother, e', hbelow'⟩ := (mem_map_preorder_iff hg hrest).mp hb
        exact htop other hother a (e + 1) e' (hbelow.of_child (hg.mem_childrenOf.mp hc))
          (hab ▸ hbelow')

theorem visit_nil (g : SceneGraph K) (room : Nat) : g.visit room [] = [] := by
  cases room <;> rfl

/-- A walk goes through the preorder of a row and then on with what waited behind the row. -/
theorem visit_append (h : g.Preorder depth ids out) (room : Nat) (waiting : List (Nat × Nat)) :
    g.visit (out.length + room) (ids.map (fun id => (id, depth)) ++ waiting) =
      out ++ g.visit room waiting := by
  induction h generalizing room waiting with
  | nil => rw [List.length_nil, Nat.zero_add, List.map_nil, List.nil_append, List.nil_append]
  | @cons depth id ids below rest _ _ ihbelow ihrest =>
      have hroom : ((id, depth) :: (below ++ rest)).length + room =
          (below.length + (rest.length + room)) + 1 := by
        rw [List.length_cons, List.length_append]
        omega
      rw [hroom, List.map_cons, List.cons_append, visit]
      change (id, depth) :: g.visit (below.length + (rest.length + room))
        ((g.childrenOf id).map (fun c => (c, depth + 1)) ++ (ids.map _ ++ waiting)) = _
      rw [ihbelow, ihrest, List.cons_append, List.append_assoc]

end Preorder

section Walk

variable {r : Nat} {out : List (Nat × Nat)}

theorem nodup_of_preorder (hg : IsForest g) (h : g.Preorder 0 [r] out) : (out.map (·.1)).Nodup :=
  nodup_preorder hg h (List.pairwise_singleton _ _)

/-- There are no more nodes below a node than nodes. -/
theorem length_preorder_le (hg : IsForest g) (hr : r < g.size) (h : g.Preorder 0 [r] out) :
    out.length ≤ g.size := by
  have hsubset : out.map (·.1) ⊆ List.range g.size := by
    intro id hid
    obtain ⟨top, htop, e, hbelow⟩ := (mem_map_preorder_iff hg h).mp hid
    rw [List.mem_singleton.mp htop] at hbelow
    exact List.mem_range.mpr (hbelow.lt_size hr)
  have hle := ((nodup_of_preorder hg h).subperm hsubset).length_le
  rwa [List.length_map, List.length_range] at hle

/-- With room for all nodes a walk has nothing left that waits. -/
theorem visit_eq_preorder (hg : IsForest g) (hr : r < g.size) (h : g.Preorder 0 [r] out)
    {room : Nat} (hroom : g.size ≤ room) : g.visit room [(r, 0)] = out := by
  obtain ⟨more, rfl⟩ := Nat.exists_eq_add_of_le ((length_preorder_le hg hr h).trans hroom)
  have hvisit := visit_append h more []
  rwa [visit_nil, List.append_nil, List.append_nil] at hvisit

theorem preorder_walk (hg : IsForest g) (hr : r < g.size) : g.Preorder 0 [r] (g.walk r) := by
  obtain ⟨out, hout⟩ := exists_preorder hg 0 [r]
  have hwalk : g.walk r = out := by
    unfold walk
    rw [if_neg (Nat.ne_of_gt (Nat.zero_lt_of_lt hr))]
    exact visit_eq_preorder hg hr hout (Nat.le_refl _)
  exact hwalk ▸ hout

theorem mem_walk_iff (hg : IsForest g) (hr : r < g.size) {id d : Nat} :
    (id, d) ∈ g.walk r ↔ g.IsBelow r id d := by
  rw [mem_preorder_iff hg (preorder_walk hg hr)]
  simp

end Walk

/-! ## Ways up -/

/-- The nodes from a node up to one that has no parent. -/
inductive Climb (g : SceneGraph K) : Nat → List Nat → Prop
  | root {id : Nat} : g.parentOf id = none → Climb g id [id]
  | step {id p : Nat} {ids : List Nat} :
      g.parentOf id = some p → Climb g p ids → Climb g id (id :: ids)

theorem exists_climb (hg : IsForest g) (id : Nat) : ∃ ids, g.Climb id ids := by
  induction id using Nat.strongRecOn with
  | ind id ih =>
      cases hparent : g.parentOf id with
      | none => exact ⟨[id], .root hparent⟩
      | some p =>
          obtain ⟨ids, hids⟩ := ih p (hg.parent_lt id p hparent)
          exact ⟨id :: ids, .step hparent hids⟩

namespace Climb

variable {id : Nat} {ids : List Nat}

/-- A climb ends at a root that the node is below, one step for each node but the root. -/
theorem exists_root (h : g.Climb id ids) :
    ∃ root d : Nat, g.parentOf root = none ∧ g.IsBelow root id d ∧ ids.length = d + 1 := by
  induction h with
  | root hparent => exact ⟨_, 0, hparent, .self, rfl⟩
  | step hparent _ ih =>
      obtain ⟨root, d, hroot, hbelow, hlength⟩ := ih
      refine ⟨root, d + 1, hroot, .child hbelow hparent, ?_⟩
      rw [List.length_cons, hlength]

theorem length_eq (h : g.Climb id ids) {root d : Nat} (hroot : g.parentOf root = none)
    (hbelow : g.IsBelow root id d) : ids.length = d + 1 := by
  induction hbelow generalizing ids with
  | self =>
      cases h with
      | root => rfl
      | step hparent _ => cases hroot.symm.trans hparent
  | child _ hparent ih =>
      cases h with
      | root hnone => cases hnone.symm.trans hparent
      | step hparent' hup =>
          cases hparent.symm.trans hparent'
          rw [List.length_cons, ih hup]

/-- The path to a node has the names of the nodes on the way up, the root first. -/
theorem path_eq (hg : IsForest g) (h : g.Climb id ids) (hid : id < g.size) :
    (g.path id).map some = (ids.map fun i => (g.node? i).map (·.name)).reverse := by
  have named {id : Nat} (hid : id < g.size) : ∃ n, g.node? id = some n ∧ g.parentOf id = n.parent :=
    ⟨g.nodes[id], List.getElem?_eq_getElem hid, by
      unfold parentOf node?
      rw [List.getElem?_eq_getElem hid]
      rfl⟩
  induction h with
  | root hparent =>
      obtain ⟨n, hn, hparent'⟩ := named hid
      rw [path, hn]
      rw [hparent'] at hparent
      simp [hparent, hn]
  | @step id p ids hparent _ ih =>
      obtain ⟨n, hn, hparent'⟩ := named hid
      have hlt := hg.parent_lt id p hparent
      rw [path, hn]
      rw [hparent'] at hparent
      simp [hparent, hn, hlt, ih (Nat.lt_trans hlt hid)]

/-- The way out of a node multiplies by the transforms of the nodes on the way up. -/
theorem outward_eq_foldl [Scalar K] (hg : IsForest g) (h : g.Climb id ids) (m : Matrix4 K) :
    g.outward id m = ids.foldl (fun m i => (g.localMatrix i).mul m) m := by
  induction h generalizing m with
  | root hparent =>
      rw [outward_unfold, hparent]
      rfl
  | step hparent _ ih =>
      rw [outward_unfold, hparent]
      dsimp only
      rw [if_pos (hg.parent_lt _ _ hparent), ih, List.foldl_cons]

end Climb

end SceneGraph
end SceneReader
