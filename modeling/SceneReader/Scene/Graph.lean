import SceneReader.Scene.Component

/-!
# The scene graph

Nodes lie in one list and refer to their parents and children by their places in it.
The first node is the root.  A node may be added only below one that is there, so every
parent comes before its children.

**Results.**
* `length_addNode`: adding a node adds one, and its place is the number of nodes before.
-/

namespace SceneReader

/-- The place of a node. -/
abbrev NodeId := Nat

/-- A named node. -/
structure Node (K : Type) where
  name : String
  parent : Option NodeId
  children : List NodeId
  /-- Components, each kind once, in the order in which the kinds first came. -/
  components : List (Component K)

namespace Node

variable {K : Type}

/-- The component of a kind. -/
def component? (n : Node K) (k : ComponentKind) : Option (Component K) :=
  n.components.find? (fun c => decide (c.kind = k))

/-- There is a component of the kind. -/
def has (n : Node K) (k : ComponentKind) : Bool := (n.component? k).isSome

/-- Components with one more, in the place of one of its kind if there is one. -/
def attachTo (c : Component K) : List (Component K) → List (Component K)
  | [] => [c]
  | d :: ds => if d.kind = c.kind then c :: ds else d :: attachTo c ds

/-- The node with a component attached. -/
def attach (n : Node K) (c : Component K) : Node K :=
  { n with components := attachTo c n.components }

/-- The node without its component of a kind. -/
def detach (n : Node K) (k : ComponentKind) : Node K :=
  { n with components := n.components.filter (fun c => decide (c.kind ≠ k)) }

/-- The transform to the parent. -/
def matrix [Scalar K] (n : Node K) : Matrix4 K :=
  match n.component? .transform with
  | some (.transform m) => m
  | _ => .identity

end Node

/-- There is no such node. -/
structure MissingNode where
  id : Int

/-- The message about a missing node. -/
def MissingNode.message (e : MissingNode) : String := "no node with id " ++ toString e.id

/-- Nodes by place. -/
structure SceneGraph (K : Type) where
  nodes : List (Node K)

namespace SceneGraph

variable {K : Type}

/-- No nodes. -/
def empty : SceneGraph K := ⟨[]⟩

/-- How many nodes there are. -/
def size (g : SceneGraph K) : Nat := g.nodes.length

/-- The node at a place. -/
def node? (g : SceneGraph K) (id : NodeId) : Option (Node K) := g.nodes[id]?

/-- The place that a number means; negative ones count from the end. -/
def placeOf? (g : SceneGraph K) (i : Int) : Option NodeId :=
  let j := if i < 0 then i + g.size else i
  if 0 ≤ j ∧ j < g.size then some j.toNat else none

/-- The graph with a node changed. -/
def modify (g : SceneGraph K) (id : NodeId) (f : Node K → Node K) : SceneGraph K :=
  ⟨g.nodes.modify id f⟩

/-- The graph with a node more: its children list is empty, and its parent has it as
the last child. -/
def addBelow (g : SceneGraph K) (name : String) (parent : NodeId) : SceneGraph K :=
  let id := g.size
  ⟨(g.modify parent (fun n => { n with children := n.children ++ [id] })).nodes ++
    [⟨name, some parent, [], []⟩]⟩

/-- Adds a node, below another one or alone. -/
def addNode (g : SceneGraph K) (name : String) (parent : Option Int) :
    Except MissingNode (NodeId × SceneGraph K) :=
  match parent with
  | none => .ok (g.size, ⟨g.nodes ++ [⟨name, none, [], []⟩]⟩)
  | some p =>
      if 0 ≤ p ∧ p < g.size then .ok (g.size, g.addBelow name p.toNat)
      else .error ⟨p⟩

theorem length_addNode {g h : SceneGraph K} {name : String} {parent : Option Int} {id : NodeId}
    (e : g.addNode name parent = .ok (id, h)) : id = g.size ∧ h.size = g.size + 1 := by
  unfold addNode at e
  split at e
  · cases e
    simp [size]
  · split at e
    · cases e
      simp [size, addBelow, modify]
    · cases e

/-- Attaches a component to a node. -/
def attach (g : SceneGraph K) (id : NodeId) (c : Component K) : SceneGraph K :=
  g.modify id (·.attach c)

/-- Visits the nodes that are waiting, each before its children and these before all
others; at most `room` nodes. -/
def visit (g : SceneGraph K) : (room : Nat) → List (NodeId × Nat) → List (NodeId × Nat)
  | 0, _ => []
  | _, [] => []
  | room + 1, (id, depth) :: waiting =>
      let children := ((g.node? id).map (·.children)).getD []
      (id, depth) :: visit g room (children.map (fun c => (c, depth + 1)) ++ waiting)

/-- The nodes at and below a place with their depths, parents first and in order. -/
def walk (g : SceneGraph K) (start : NodeId) : List (NodeId × Nat) :=
  if g.size = 0 then [] else g.visit g.size [(start, 0)]

/-- The nodes below the root that satisfy a condition, in the order of the walk. -/
def select (g : SceneGraph K) (p : Node K → Bool) : List NodeId :=
  ((g.walk 0).map (·.1)).filter (fun id => ((g.node? id).map p).getD false)

/-- The nodes with a component of a kind. -/
def find (g : SceneGraph K) (k : ComponentKind) : List NodeId := g.select (·.has k)

/-- The nodes of a name. -/
def named (g : SceneGraph K) (name : String) : List NodeId := g.select (·.name == name)

/-- The names from the root down to a node. -/
def path (g : SceneGraph K) (id : NodeId) : List String :=
  match g.node? id with
  | none => []
  | some n =>
      match n.parent with
      | none => [n.name]
      | some p => if p < id then path g p ++ [n.name] else [n.name]
  termination_by id

variable [Scalar K]

/-- The transform of a node to its parent. -/
def localMatrix (g : SceneGraph K) (id : NodeId) : Matrix4 K :=
  ((g.node? id).map Node.matrix).getD .identity

/-- A transform inside a node, seen from the world. -/
def outward (g : SceneGraph K) (id : NodeId) (m : Matrix4 K) : Matrix4 K :=
  let m := (g.localMatrix id).mul m
  match (g.node? id).bind (·.parent) with
  | none => m
  | some p => if p < id then outward g p m else m
  termination_by id

/-- The transform of a node to the world. -/
def worldMatrix (g : SceneGraph K) (id : NodeId) : Matrix4 K := g.outward id .identity

end SceneGraph

/-- A line of a tree, indented by depth. -/
def indented (depth : Nat) (text : String) : String :=
  String.ofList (List.replicate (2 * depth) ' ') ++ text

/-- The line of a component. -/
def componentLine (depth : Nat) (c : Component Float) : Except DecompositionFault String :=
  (Shown.component c).map fun text => indented depth ("  - " ++ c.kind.text ++ ": " ++ text)

/-- The lines of a node: its name, and its components below. -/
def nodeLines (showComponents : Bool) (depth : Nat) (n : Node Float) :
    Except DecompositionFault (List String) := do
  let below ← if showComponents then n.components.mapM (componentLine depth) else pure []
  return indented depth n.name :: below

/-- The tree as text. -/
def SceneGraph.treeText (g : SceneGraph Float) (showComponents : Bool) :
    Except DecompositionFault String := do
  let blocks ← (g.walk 0).mapM fun e =>
    match g.node? e.1 with
    | some n => nodeLines showComponents e.2 n
    | none => pure []
  return "\n".intercalate blocks.flatten

end SceneReader
