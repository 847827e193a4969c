import SceneReader.Engine.Statistics
import SceneReader.Proofs.Engine.Redefinition
import SceneReader.Proofs.Scene.Resolution
import SceneReader.Proofs.Scene.Walk

/-!
# Statistics and scenes agree

Statistics count the events of a run, and a scene is made from the same events.  Each shape of
an event, of a placed object as well, has a node of its own that is found below the root; its
component refers to a resource of the type that was counted.  Objects are counted when their
definitions end, and a scene has one of each name: the others were redefined, which was noted.

**Results.**
* `length_select`, `length_find`: how many nodes are found, told from the events.
* `get?_of_mem`: a resource is found by its identity.
* `agrees_of_run`: statistics and scene of a run agree.
-/

namespace SceneReader

variable {K : Type}

/-! ## Nodes and the resources they refer to -/

namespace Component

/-- The resource that a component refers to. -/
def resource? : Component K → Option ResourceId
  | .shape id _ _ _ => some id
  | .material id => id
  | .light id => some id
  | .areaLight id => some id
  | _ => none

end Component

namespace ResourceTable

/-- The type of the resource that the component of a kind refers to. -/
def typeIn (t : ResourceTable K) (k : ComponentKind) (cs : List (Component K)) : Option String :=
  (((cs.find? fun c => decide (c.kind = k)).bind Component.resource?).bind t.get?).map (·.type)

/-- The resource of an identity that no other one has. -/
theorem get?_of_mem {t : ResourceTable K} (hids : (t.declared.map (·.id)).Nodup)
    {r : Resource K} (hr : r ∈ t.declared) : t.get? r.id = some r := by
  have hall (q : Resource K) : q ∈ t.all ↔ q ∈ t.declared := by
    unfold all ofKind
    cases hk : q.kind <;> simp [ResourceKind.all, hk]
  unfold get?
  cases hfind : t.all.find? (fun q => decide (q.id = r.id)) with
  | none =>
      have hnone := List.find?_eq_none.mp hfind r ((hall r).mpr hr)
      exact absurd (decide_eq_true rfl) hnone
  | some q =>
      have hid : q.id = r.id := by simpa using List.find?_some hfind
      have hq := (hall q).mp (List.mem_of_find?_eq_some hfind)
      rw [List.inj_on_of_nodup_map hids hq hr hid]

end ResourceTable

namespace Scene

/-- The type of the resource that the component of a node refers to. -/
def typeAt (scene : Scene K) (k : ComponentKind) (id : NodeId) : Option String :=
  (scene.graph.node? id).bind fun n => scene.resources.typeIn k n.components

/-- The nodes with a component of a kind that refers to a resource of a type. -/
def findTyped (scene : Scene K) (k : ComponentKind) (type : String) : List NodeId :=
  (scene.graph.find k).filter fun id => decide (scene.typeAt k id = some type)

/-- Statistics count the nodes, the resources and the objects of a scene, and the objects that
were redefined as well. -/
structure Agrees (scene : Scene K) (s : Statistics) (redefined : Nat) : Prop where
  shapes : ∀ type, (scene.findTyped .shape type).length = (s.shapes.get? type).getD 0
  lights : ∀ type, (scene.findTyped .light type).length = (s.lights.get? type).getD 0
  instances : (scene.graph.find .placed).length = s.instances
  resources : scene.resources.counts =
    ResourceKind.all.map fun k => (k.plural, (s.resources.get? k.text).getD 0)
  objects : s.objects = scene.objects.size + redefined

end Scene

/-! ## Counting nodes -/

theorem Node.component?_eq_contents (n : Node K) {k : ComponentKind} (hk : k.refers = true) :
    n.component? k = n.contents.find? fun c => decide (c.kind = k) := by
  unfold component? contents
  rw [List.find?_filter]
  congr 1
  funext c
  by_cases hc : c.kind = k <;> simp [hc, hk]

theorem List.countP_range_getElem? {α : Type} (l : List α) (p : α → Bool) :
    (List.range l.length).countP (fun i => (l[i]?.map p).getD false) = l.countP p := by
  induction l with
  | nil => rfl
  | cons a l ih =>
      rw [List.length_cons, List.range_succ_eq_map, List.countP_cons, List.countP_map,
        List.countP_cons, ← ih]
      rfl

namespace SceneGraph

variable {g : SceneGraph K}

/-- How many nodes of a graph in order satisfy a condition on what they refer to. -/
theorem length_select (h : InOrder g) (p : List (Component K) → Bool) :
    (g.select fun n => p n.contents).length = g.contents.countP p := by
  rw [select_eq_filter h, ← List.countP_eq_length_filter, contents, List.countP_map]
  exact List.countP_range_getElem? g.nodes (p ∘ Node.contents)

theorem find_eq_select (g : SceneGraph K) {k : ComponentKind} (hk : k.refers = true) :
    g.find k = g.select fun n => (n.contents.find? fun c => decide (c.kind = k)).isSome := by
  unfold find
  congr 1
  funext n
  rw [Node.has, n.component?_eq_contents hk]

end SceneGraph

namespace Scene

variable {scene : Scene K}

/-- The nodes of a type are those whose references have the type. -/
theorem findTyped_eq_select (scene : Scene K) {k : ComponentKind} (hk : k.refers = true)
    (type : String) : scene.findTyped k type = scene.graph.select fun n =>
      decide (scene.resources.typeIn k n.contents = some type) := by
  unfold findTyped
  rw [SceneGraph.find_eq_select _ hk]
  unfold SceneGraph.select
  rw [List.filter_filter]
  congr 1
  funext id
  unfold typeAt
  cases scene.graph.node? id with
  | none => simp
  | some n =>
      have hsame : scene.resources.typeIn k n.components = scene.resources.typeIn k n.contents := by
        have hcontents := n.component?_eq_contents hk
        unfold Node.component? at hcontents
        unfold ResourceTable.typeIn
        rw [hcontents]
      simp only [Option.bind_some, Option.map_some, Option.getD_some, hsame]
      -- what has a type refers to something
      unfold ResourceTable.typeIn
      cases n.contents.find? fun c => decide (c.kind = k) <;> simp

theorem type_of_has (hids : (scene.resources.declared.map (·.id)).Nodup) {r : Resource K}
    (h : ∃ q ∈ scene.resources.declared, q.bare = r.bare) :
    (scene.resources.get? r.id).map (·.type) = some r.type := by
  obtain ⟨q, hq, hbare⟩ := h
  have hid : q.id = r.id := by
    change q.bare.id = r.bare.id
    rw [hbare]
  have htype : q.type = r.type := by
    change q.bare.type = r.bare.type
    rw [hbare]
  rw [← hid, ResourceTable.get?_of_mem hids hq, Option.map_some, htype]

/-- The component of a shape refers to a resource of its type. -/
theorem typeIn_shape (hids : (scene.resources.declared.map (·.id)).Nodup)
    {st : ShapeStatement K} (h : ∀ ref ∈ st.references, scene.Has ref) :
    scene.resources.typeIn .shape st.contents = some st.shape.type :=
  type_of_has hids (h (.shape st.shape) List.mem_cons_self).2

/-- The nodes of an event have shapes of the types that are counted for it. -/
theorem countP_shapes (hids : (scene.resources.declared.map (·.id)).Nodup) {e : Event K}
    (h : ∀ ref ∈ e.references, scene.Has ref) (type : String) :
    e.contents.countP (fun cs => decide (scene.resources.typeIn .shape cs = some type)) =
      e.shapeTypes.count type := by
  cases e with
  | shape st =>
      have hst : scene.resources.typeIn .shape st.contents = some st.shape.type :=
        typeIn_shape hids h
      simp [Event.contents, Event.shapeTypes, List.countP_cons, List.count_cons, hst]
  | placed o ctm =>
      have hshapes : ∀ st ∈ o.shapes,
          scene.resources.typeIn .shape st.contents = some st.shape.type := fun st hst =>
        typeIn_shape hids fun ref href =>
          h ref (List.mem_cons_of_mem _ (List.mem_flatMap.mpr ⟨st, hst, href⟩))
      change List.countP _ (_ :: o.shapes.map ShapeStatement.contents) =
        (o.shapes.map (·.shape.type)).count type
      rw [List.countP_cons_of_neg (by simp [ResourceTable.typeIn, Component.kind]),
        List.countP_map, List.count, List.countP_map]
      refine List.countP_congr fun st hst => ?_
      simp [hshapes st hst]
  | _ => rfl

/-- The nodes of an event have lights of the types that are counted for it. -/
theorem countP_lights (hids : (scene.resources.declared.map (·.id)).Nodup) {e : Event K}
    (h : ∀ ref ∈ e.references, scene.Has ref) (type : String) :
    e.contents.countP (fun cs => decide (scene.resources.typeIn .light cs = some type)) =
      e.lightTypes.count type := by
  have shape (st : ShapeStatement K) : scene.resources.typeIn .light st.contents = none := by
    unfold ShapeStatement.contents ResourceTable.typeIn
    cases st.areaLight <;> rfl
  cases e with
  | light r ctm =>
      have hlight : scene.resources.typeIn .light [.light r.id] = some r.type :=
        type_of_has hids (h (.light r) List.mem_cons_self).2
      simp [Event.contents, Event.lightTypes, List.countP_cons, List.count_cons, hlight]
  | shape st => simp [Event.contents, Event.lightTypes, shape]
  | placed o ctm =>
      refine List.countP_eq_zero.mpr fun cs hcs => ?_
      rcases List.mem_cons.mp hcs with rfl | hcs
      · simp [ResourceTable.typeIn, Component.kind]
      · obtain ⟨st, -, rfl⟩ := List.mem_map.mp hcs
        simp [shape]
  | _ => rfl

/-- An event has one node for a placed object if it places one. -/
theorem countP_placed (e : Event K) :
    e.contents.countP (fun cs => (cs.find? fun c => decide (c.kind = .placed)).isSome) =
      if e.placesObject then 1 else 0 := by
  have shape (st : ShapeStatement K) :
      st.contents.find? (fun c => decide (c.kind = .placed)) = none := by
    unfold ShapeStatement.contents
    cases st.areaLight <;> rfl
  cases e with
  | shape st => simp [Event.contents, Event.placesObject, shape]
  | placed o ctm =>
      change List.countP _ (_ :: o.shapes.map ShapeStatement.contents) = 1
      rw [List.countP_cons_of_pos (by simp [Component.kind]), List.countP_map]
      have hnone : o.shapes.countP ((fun cs => (cs.find? fun c : Component K =>
          decide (c.kind = .placed)).isSome) ∘ ShapeStatement.contents) = 0 :=
        List.countP_eq_zero.mpr fun st _ => by simp [shape]
      rw [hnone]
  | _ => rfl

/-! ## Counting resources -/

theorem text_injective : Function.Injective ResourceKind.text := by
  intro k k' h
  cases k <;> cases k' <;> first | rfl | exact absurd h (by decide)

variable [Scalar K] {here : Location} {es : List (Event K)}

/-- How many nodes have a reference of a type, told from the events. -/
theorem length_findTyped (h : Scene.ofEvents here es = .ok scene)
    (horder : scene.graph.InOrder) {k : ComponentKind} (hk : k.refers = true) {type : String}
    {types : Event K → List String}
    (htypes : ∀ e ∈ es, e.contents.countP (fun cs =>
      decide (scene.resources.typeIn k cs = some type)) = (types e).count type) :
    (scene.findTyped k type).length = ((Table.tally (es.flatMap types)).get? type).getD 0 := by
  have hselect := SceneGraph.length_select horder fun cs =>
    decide (scene.resources.typeIn k cs = some type)
  rw [findTyped_eq_select scene hk, hselect, (contents_ofEvents h).1,
    Table.getD_tally, List.countP_flatMap, List.count_flatMap]
  exact congrArg List.sum (List.map_congr_left htypes)

/-- How many objects are placed in a scene, told from its events. -/
theorem length_find_placed (h : Scene.ofEvents here es = .ok scene)
    (horder : scene.graph.InOrder) :
    (scene.graph.find .placed).length = es.countP Event.placesObject := by
  have hselect := SceneGraph.length_select horder fun cs =>
    (cs.find? fun c => decide (c.kind = .placed)).isSome
  rw [SceneGraph.find_eq_select _ rfl, hselect, (contents_ofEvents h).1]
  clear h horder hselect
  induction es with
  | nil => rfl
  | cons e es ih =>
      rw [List.flatMap_cons, List.countP_append, ih, countP_placed, List.countP_cons,
        Nat.add_comm]

/-- How many resources of a kind are in a scene, told from its events. -/
theorem length_ofKind (h : Scene.ofEvents here es = .ok scene) (k : ResourceKind) :
    (scene.resources.ofKind k).length =
      ((Table.tally (es.flatMap Event.declaredKinds)).get? k.text).getD 0 := by
  have hkinds (rs : List (Resource K)) :
      rs.countP (fun r => decide (r.kind = k)) = (rs.map (·.kind.text)).count k.text := by
    rw [List.count, List.countP_map]
    refine List.countP_congr fun r _ => ?_
    simp [text_injective.eq_iff]
  have hbare (rs : List (Resource K)) :
      rs.map (·.kind.text) = (rs.map Resource.bare).map (·.kind.text) := by
    rw [List.map_map]
    rfl
  have hdeclared : es.flatMap Event.declaredKinds =
      (es.filterMap Event.declared?).map (·.kind.text) := by
    rw [List.filterMap_eq_flatMap_toList, List.map_flatMap]
    congr 1
    funext e
    cases e <;> rfl
  rw [Table.getD_tally, hdeclared, hbare, ← (contents_ofEvents h).2.1, ← hbare, ← hkinds]
  exact List.countP_eq_length_filter.symm

end Scene

namespace Engine

variable [Scalar K] {c : EngineContext} {ds : List Directive} {dirs : DirectoryStack}

/-- The statistics of a run that ends without an error count what its scene has. -/
theorem agrees_of_run (h : (run (K := K) c ds (.initial dirs)).rejection = none)
    (here : Location) :
    let p := run (K := K) c ds (.initial dirs)
    ∃ scene, Scene.ofEvents here p.events = .ok scene ∧
      scene.Agrees (.ofEvents p.events) (redefinitions p.notes) := by
  intro p
  obtain ⟨scene, hscene⟩ := exists_ofEvents_run h here
  have horder := inOrder_of_run h hscene
  have hids : (scene.resources.declared.map (·.id)).Nodup := by
    rw [Scene.ids_declared hscene]
    exact nodup_declaredIds_run c ds dirs
  have hbacked := (backed_of_reachable (reachable_run (K := K) c ds dirs)).events
  have has {e : Event K} (he : e ∈ p.events) : ∀ ref ∈ e.references, scene.Has ref :=
    fun ref href => Scene.has_of_provides hscene (hbacked (List.mem_flatMap.mpr ⟨e, he, href⟩))
  refine ⟨scene, hscene, ?_, ?_, ?_, ?_, ?_⟩
  · intro type
    exact Scene.length_findTyped hscene horder rfl fun e he =>
      Scene.countP_shapes hids (has he) type
  · intro type
    exact Scene.length_findTyped hscene horder rfl fun e he =>
      Scene.countP_lights hids (has he) type
  · exact Scene.length_find_placed hscene horder
  · exact List.map_congr_left fun k _ => by rw [Scene.length_ofKind hscene]; rfl
  · rw [(Scene.contents_ofEvents hscene).2.2, ← objects_run]
    exact definitions_of_run h

/-- An object is defined twice and placed twice, next to a light. -/
def redefinedObject : List Directive :=
  [⟨.worldBegin, [], .empty, none⟩, ⟨.objectBegin, [.text "o"], .empty, none⟩,
   ⟨.shape, [.text "sphere"], .empty, none⟩, ⟨.objectEnd, [], .empty, none⟩,
   ⟨.objectInstance, [.text "o"], .empty, none⟩, ⟨.objectBegin, [.text "o"], .empty, none⟩,
   ⟨.shape, [.text "disk"], .empty, none⟩, ⟨.shape, [.text "sphere"], .empty, none⟩,
   ⟨.objectEnd, [], .empty, none⟩, ⟨.objectInstance, [.text "o"], .empty, none⟩,
   ⟨.lightSource, [.text "point"], .empty, none⟩]

theorem agrees_of_run_redefinedObject :
    let p := run (K := Float) ⟨.rooted [], [], none⟩ redefinedObject (.initial .empty)
    p.rejection = none ∧ redefinitions p.notes = 1 ∧
      ∃ scene, Scene.ofEvents [] p.events = .ok scene ∧ scene.Agrees (.ofEvents p.events) 1 := by
  intro p
  have h : p.rejection = none := rfl
  have hnotes : redefinitions p.notes = 1 := rfl
  obtain ⟨scene, hscene, hagrees⟩ := agrees_of_run h []
  rw [hnotes] at hagrees
  exact ⟨h, hnotes, scene, hscene, hagrees⟩

end Engine
end SceneReader
