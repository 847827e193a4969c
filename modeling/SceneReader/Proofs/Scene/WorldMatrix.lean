import SceneReader.Proofs.Algebra.MatrixLaws
import SceneReader.Scene.Graph

/-!
# Transforms to the world

The transform of a node to the world depends on the local transforms and the parents of
the nodes from it up to the root only.  A graph that grows and keeps these for the nodes
that it had keeps their transforms to the world.

**Results.**
* `outward_eq`: the way out of a node goes through the transform of the node.
* `Keeps.worldMatrix`: a graph that grows keeps transforms to the world.
* `keeps_addNode`, `keeps_attach`: adding a node and attaching what is no transform.
* `worldMatrix_child`: the transform of a node below another.
-/

namespace SceneReader
namespace SceneGraph

variable {K : Type}

/-- The parent of a node. -/
def parentOf (g : SceneGraph K) (id : NodeId) : Option NodeId := (g.node? id).bind (·.parent)

section Keeps

variable [Scalar K]

/-- The second graph has the nodes of the first one with the same parents and the same
transforms. -/
structure Keeps (g h : SceneGraph K) : Prop where
  size : g.size ≤ h.size
  parentOf : ∀ id < g.size, h.parentOf id = g.parentOf id
  localMatrix : ∀ id < g.size, h.localMatrix id = g.localMatrix id

namespace Keeps

theorem refl (g : SceneGraph K) : Keeps g g :=
  ⟨Nat.le_refl _, fun _ _ => rfl, fun _ _ => rfl⟩

theorem trans {g₁ g₂ g₃ : SceneGraph K} (h₁ : Keeps g₁ g₂) (h₂ : Keeps g₂ g₃) :
    Keeps g₁ g₃ := by
  refine ⟨Nat.le_trans h₁.size h₂.size, ?_, ?_⟩
  · intro id hid
    rw [h₂.parentOf id (Nat.lt_of_lt_of_le hid h₁.size), h₁.parentOf id hid]
  · intro id hid
    rw [h₂.localMatrix id (Nat.lt_of_lt_of_le hid h₁.size), h₁.localMatrix id hid]

end Keeps

theorem outward_unfold (g : SceneGraph K) (id : NodeId) (m : Matrix4 K) :
    g.outward id m =
      match g.parentOf id with
      | none => (g.localMatrix id).mul m
      | some p => if p < id then g.outward p ((g.localMatrix id).mul m)
          else (g.localMatrix id).mul m := by
  rw [outward]
  rfl

theorem Keeps.outward {g h : SceneGraph K} (hk : Keeps g h) (id : NodeId) (m : Matrix4 K)
    (hid : id < g.size) : h.outward id m = g.outward id m := by
  induction id using Nat.strongRecOn generalizing m with
  | ind id ih =>
      rw [outward_unfold, outward_unfold, hk.parentOf id hid, hk.localMatrix id hid]
      cases g.parentOf id with
      | none => rfl
      | some p =>
          dsimp only
          split
          · rename_i hp
            exact ih p hp _ (Nat.lt_trans hp hid)
          · rfl

/-- A graph that grows keeps transforms to the world. -/
theorem Keeps.worldMatrix {g h : SceneGraph K} (hk : Keeps g h) {id : NodeId}
    (hid : id < g.size) : h.worldMatrix id = g.worldMatrix id :=
  hk.outward id .identity hid

end Keeps

/-! ## Adding and attaching -/

section Grow

theorem node?_modify (g : SceneGraph K) (at' id : NodeId) (f : Node K → Node K) :
    (g.modify at' f).node? id = if at' = id then (g.node? id).map f else g.node? id := by
  unfold modify node?
  rw [List.getElem?_modify]
  split
  · rfl
  · simp

theorem component?_attachTo_of_ne {c : Component K} {k : ComponentKind} (h : c.kind ≠ k)
    (cs : List (Component K)) :
    (Node.attachTo c cs).find? (fun d => decide (d.kind = k)) =
      cs.find? (fun d => decide (d.kind = k)) := by
  induction cs with
  | nil => simp [Node.attachTo, h]
  | cons d ds ih =>
      unfold Node.attachTo
      split
      · rename_i hd
        have hdk : d.kind ≠ k := by
          rw [hd]
          exact h
        simp [h, hdk]
      · by_cases hdk : d.kind = k
        · simp [hdk]
        · simp [hdk, ih]

theorem component?_attachTo_self (c : Component K) (cs : List (Component K)) :
    (Node.attachTo c cs).find? (fun d => decide (d.kind = c.kind)) = some c := by
  induction cs with
  | nil => simp [Node.attachTo]
  | cons d ds ih =>
      unfold Node.attachTo
      split
      · simp
      · rename_i hd
        simp [hd, ih]

variable [Scalar K]

/-- Attaching anything but a transform keeps the transform of a node. -/
theorem matrix_attach_of_ne (n : Node K) {c : Component K} (h : c.kind ≠ .transform) :
    (n.attach c).matrix = n.matrix := by
  unfold Node.matrix Node.component? Node.attach
  rw [component?_attachTo_of_ne h]

theorem matrix_attach_transform (n : Node K) (m : Matrix4 K) :
    (n.attach (.transform m)).matrix = m := by
  unfold Node.matrix Node.component? Node.attach
  have h := component?_attachTo_self (.transform m) n.components
  rw [show (Component.transform m).kind = ComponentKind.transform from rfl] at h
  rw [h]

omit [Scalar K] in
theorem parentOf_attach (g : SceneGraph K) (id : NodeId) (c : Component K) (other : NodeId) :
    (g.attach id c).parentOf other = g.parentOf other := by
  unfold parentOf attach
  rw [node?_modify]
  split
  · cases g.node? other with
    | none => rfl
    | some n => rfl
  · rfl

omit [Scalar K] in
theorem size_attach (g : SceneGraph K) (id : NodeId) (c : Component K) :
    (g.attach id c).size = g.size := by
  simp [attach, modify, size]

theorem localMatrix_attach_of_ne_id (g : SceneGraph K) {id other : NodeId} (h : id ≠ other)
    (c : Component K) : (g.attach id c).localMatrix other = g.localMatrix other := by
  unfold localMatrix attach
  rw [node?_modify, if_neg h]

/-- Attaching anything but a transform keeps everything. -/
theorem keeps_attach (g : SceneGraph K) (id : NodeId) {c : Component K}
    (h : c.kind ≠ .transform) : Keeps g (g.attach id c) := by
  refine ⟨Nat.le_of_eq (size_attach g id c).symm, ?_, ?_⟩
  · intro other _
    exact parentOf_attach g id c other
  · intro other _
    unfold localMatrix attach
    rw [node?_modify]
    split
    · cases g.node? other with
      | none => rfl
      | some n => exact matrix_attach_of_ne n h
    · rfl

theorem localMatrix_attach_transform (g : SceneGraph K) {id : NodeId} (hid : id < g.size)
    (m : Matrix4 K) : (g.attach id (.transform m)).localMatrix id = m := by
  unfold localMatrix attach
  rw [node?_modify, if_pos rfl]
  have hn : g.node? id = some g.nodes[id] := List.getElem?_eq_getElem hid
  rw [hn]
  exact matrix_attach_transform _ m

/-- Attaching to a node that a smaller graph does not have. -/
theorem Keeps.attach {g h : SceneGraph K} (hk : Keeps g h) {id : NodeId} (hid : g.size ≤ id)
    (c : Component K) : Keeps g (h.attach id c) := by
  refine ⟨?_, ?_, ?_⟩
  · rw [size_attach]
    exact hk.size
  · intro other hother
    rw [parentOf_attach, hk.parentOf other hother]
  · intro other hother
    rw [localMatrix_attach_of_ne_id h (Nat.ne_of_gt (Nat.lt_of_lt_of_le hother hid)),
      hk.localMatrix other hother]

/-- A node behind all others is alone or below its parent, and the others stay. -/
theorem keeps_push (g : SceneGraph K) (name : String) (parent : Option NodeId) :
    Keeps g ⟨g.nodes ++ [⟨name, parent, [], []⟩]⟩ ∧
      parentOf ⟨g.nodes ++ [⟨name, parent, [], []⟩]⟩ g.size = parent ∧
      localMatrix ⟨g.nodes ++ [⟨name, parent, [], []⟩]⟩ g.size = .identity := by
  have hnew : (⟨g.nodes ++ [⟨name, parent, [], []⟩]⟩ : SceneGraph K).node? g.size =
      some ⟨name, parent, [], []⟩ := by
    simp [node?, size]
  have hold : ∀ id < g.size,
      (⟨g.nodes ++ [⟨name, parent, [], []⟩]⟩ : SceneGraph K).node? id = g.node? id := by
    intro id hid
    exact List.getElem?_append_left hid
  refine ⟨⟨by simp [size], ?_, ?_⟩, ?_, ?_⟩
  · intro id hid
    unfold parentOf
    rw [hold id hid]
  · intro id hid
    unfold localMatrix
    rw [hold id hid]
  · unfold parentOf
    rw [hnew]
    rfl
  · unfold localMatrix
    rw [hnew]
    rfl

/-- Parents and transforms do not depend on the lists of children. -/
theorem keeps_modify_children (g : SceneGraph K) (p : NodeId) (f : List NodeId → List NodeId) :
    Keeps g (g.modify p (fun n => { n with children := f n.children })) := by
  refine ⟨by simp [modify, size], ?_, ?_⟩
  · intro id hid
    unfold parentOf
    rw [node?_modify]
    split
    · cases g.node? id with
      | none => rfl
      | some n => rfl
    · rfl
  · intro id hid
    unfold localMatrix
    rw [node?_modify]
    split
    · cases g.node? id with
      | none => rfl
      | some n => rfl
    · rfl

/-- What adding a node does: the new node is the last one, and the others stay. -/
theorem keeps_addNode {g h : SceneGraph K} {name : String} {parent : Option NodeId}
    {id : NodeId} (e : g.addNode name (parent.map Int.ofNat) = .ok (id, h)) :
    id = g.size ∧ h.size = g.size + 1 ∧ Keeps g h ∧ h.parentOf id = parent ∧
      h.localMatrix id = .identity ∧ (∀ p ∈ parent, p < g.size) := by
  obtain ⟨hid, hsize⟩ := length_addNode e
  subst hid
  refine ⟨rfl, hsize, ?_⟩
  unfold addNode at e
  cases parent with
  | none =>
      cases e
      obtain ⟨hkeeps, hparent, hlocal⟩ := keeps_push g name none
      exact ⟨hkeeps, hparent, hlocal, by simp⟩
  | some p =>
      dsimp only [Option.map_some] at e
      split at e
      · rename_i hp
        cases e
        have hlt : p < g.size := Int.ofNat_lt.mp hp.2
        have hchildren := keeps_modify_children g p (· ++ [g.size])
        obtain ⟨hkeeps, hparent, hlocal⟩ := keeps_push
          (g.modify p (fun n => { n with children := n.children ++ [g.size] })) name (some p)
        have hsame : (g.modify p (fun n => { n with children := n.children ++ [g.size] })).size =
            g.size := by
          simp [modify, size]
        rw [hsame] at hparent hlocal
        exact ⟨hchildren.trans hkeeps, hparent, hlocal, by simpa using hlt⟩
      · cases e

end Grow

/-! ## Nodes below nodes -/

section Product

variable [ExactScalar K]

/-- The way out of a node goes through the transform of the node. -/
theorem outward_eq (g : SceneGraph K) (id : NodeId) (m : Matrix4 K) :
    g.outward id m = (g.worldMatrix id).mul m := by
  unfold worldMatrix
  induction id using Nat.strongRecOn generalizing m with
  | ind id ih =>
      rw [outward_unfold, outward_unfold g id .identity, Matrix4.mul_identity]
      cases g.parentOf id with
      | none => rfl
      | some p =>
          dsimp only
          split
          · rename_i hp
            rw [ih p hp ((g.localMatrix id).mul m), ih p hp (g.localMatrix id),
              Matrix4.mul_assoc]
          · rfl

theorem worldMatrix_alone {g : SceneGraph K} {id : NodeId} (h : g.parentOf id = none) :
    g.worldMatrix id = g.localMatrix id := by
  unfold worldMatrix
  rw [outward_unfold, h, Matrix4.mul_identity]

/-- The transform of a node is that of its parent and then its own. -/
theorem worldMatrix_child {g : SceneGraph K} {id p : NodeId} (h : g.parentOf id = some p)
    (hp : p < id) : g.worldMatrix id = (g.worldMatrix p).mul (g.localMatrix id) := by
  rw [worldMatrix, outward_unfold, h]
  dsimp only
  rw [if_pos hp, Matrix4.mul_identity, outward_eq]

end Product

end SceneGraph
end SceneReader
