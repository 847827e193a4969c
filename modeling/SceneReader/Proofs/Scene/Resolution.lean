import SceneReader.Proofs.Engine.References
import SceneReader.Proofs.Scene.Contents

/-!
# What scenes refer to is there

Nodes and the shapes of objects refer to resources by their identities, and placed objects are
referred to by their names.  What the events of a run refer to has been provided by events
before, and what events provide is in the scene that they make.  So no reference in a scene is
left open, and none is ambiguous.

**Results.**
* `has_of_provides`: what events provide is in their scene.
* `resolves_of_mem`: the nodes of an event refer to what the event refers to.
* `resolved_of_run`: a run makes a scene in which every reference has its resource or object.
-/

namespace SceneReader

variable {K : Type}

/-- A resource of the kind is declared under the identity. -/
def ResourceTable.Declares (t : ResourceTable K) (k : ResourceKind) (id : ResourceId) : Prop :=
  ∃ r ∈ t.declared, r.kind = k ∧ r.id = id

namespace Scene

/-- What a component refers to is in the scene. -/
def Resolves (scene : Scene K) : Component K → Prop
  | .shape id _ _ _ => scene.resources.Declares .shape id
  | .material (some id) => scene.resources.Declares .material id
  | .light id => scene.resources.Declares .light id
  | .areaLight id => scene.resources.Declares .light id
  | .placed name => scene.objects.contains name = true
  | _ => True

/-- What the statement of a shape refers to is in the scene. -/
structure ResolvesStatement (scene : Scene K) (st : ShapeStatement K) : Prop where
  shape : scene.resources.Declares .shape st.shape.id
  material : ∀ id, st.material = some id → scene.resources.Declares .material id
  areaLight : ∀ light, st.areaLight = some light → scene.resources.Declares .light light.id

/-- Each resource has its own identity, and what the nodes and the shapes of objects refer to is
in the scene. -/
structure IsResolved (scene : Scene K) : Prop where
  distinct : (scene.resources.declared.map (·.id)).Nodup
  nodes : ∀ n ∈ scene.graph.nodes, ∀ c ∈ n.components, scene.Resolves c
  objects : ∀ o ∈ scene.objects.values, ∀ st ∈ o.shapes, scene.ResolvesStatement st

/-- What is referred to is in the scene; the parameters of a resource may be others. -/
def Has (scene : Scene K) : Reference K → Prop
  | .shape r => r.kind = .shape ∧ ∃ q ∈ scene.resources.declared, q.bare = r.bare
  | .light r => r.kind = .light ∧ ∃ q ∈ scene.resources.declared, q.bare = r.bare
  | .material id => scene.resources.Declares .material id
  | .object name => scene.objects.contains name = true

variable {scene : Scene K}

theorem declares_of_bare {r : Resource K} {k : ResourceKind} (hk : r.kind = k)
    (h : ∃ q ∈ scene.resources.declared, q.bare = r.bare) :
    scene.resources.Declares k r.id := by
  obtain ⟨q, hq, hbare⟩ := h
  have hkind : q.bare.kind = r.bare.kind := by rw [hbare]
  have hid : q.bare.id = r.bare.id := by rw [hbare]
  exact ⟨q, hq, hkind.trans hk, hid⟩

theorem Has.shape {r : Resource K} (h : scene.Has (.shape r)) :
    scene.resources.Declares .shape r.id := declares_of_bare h.1 h.2

theorem Has.light {r : Resource K} (h : scene.Has (.light r)) :
    scene.resources.Declares .light r.id := declares_of_bare h.1 h.2

theorem resolvesStatement_of_has {st : ShapeStatement K}
    (h : ∀ ref ∈ st.references, scene.Has ref) : scene.ResolvesStatement st := by
  unfold ShapeStatement.references at h
  refine ⟨(h _ List.mem_cons_self).shape, ?_, ?_⟩
  · intro id hid
    exact h (.material id) (by simp [hid])
  · intro light hlight
    exact (h (.light light) (by simp [hlight])).light

theorem ResolvesStatement.resolves {st : ShapeStatement K} (h : scene.ResolvesStatement st)
    {c : Component K} (hc : c ∈ st.contents) : scene.Resolves c := by
  unfold ShapeStatement.contents at hc
  simp only [List.mem_append, List.mem_cons, List.not_mem_nil, or_false, List.mem_map,
    Option.mem_toList] at hc
  rcases hc with (rfl | rfl) | ⟨light, hlight, rfl⟩
  · exact h.shape
  · cases hm : st.material with
    | none => trivial
    | some id => exact h.material id hm
  · exact h.areaLight light hlight

/-- The nodes that an event adds refer to what the event refers to. -/
theorem resolves_of_mem {e : Event K} (h : ∀ ref ∈ e.references, scene.Has ref)
    {cs : List (Component K)} (hcs : cs ∈ e.contents) {c : Component K} (hc : c ∈ cs) :
    scene.Resolves c := by
  cases e with
  | shape st =>
      rw [List.mem_singleton.mp hcs] at hc
      exact (resolvesStatement_of_has h).resolves hc
  | light r ctm =>
      rw [List.mem_singleton.mp hcs] at hc
      rw [List.mem_singleton.mp hc]
      exact (h _ List.mem_cons_self).light
  | placed o ctm =>
      rcases List.mem_cons.mp hcs with rfl | hcs
      · rw [List.mem_singleton.mp hc]
        exact h (.object o.name) List.mem_cons_self
      · obtain ⟨st, hst, rfl⟩ := List.mem_map.mp hcs
        refine ResolvesStatement.resolves (resolvesStatement_of_has fun ref href => ?_) hc
        exact h ref (List.mem_cons_of_mem _ (List.mem_flatMap.mpr ⟨st, hst, href⟩))
  | begin source =>
      rw [List.mem_singleton.mp hcs] at hc
      cases hc
  | beginScope kind ctm =>
      rw [List.mem_singleton.mp hcs] at hc
      cases hc
  | _ => cases hcs

variable [Scalar K] {here : Location} {es : List (Event K)}

/-- What events provide is in the scene that they make. -/
theorem has_of_provides (h : Scene.ofEvents here es = .ok scene) {ref : Reference K}
    (href : ref ∈ es.flatMap Event.provides) : scene.Has ref := by
  obtain ⟨-, hdeclared, hobjects⟩ := contents_ofEvents h
  obtain ⟨e, he, href⟩ := List.mem_flatMap.mp href
  have declared {r : Resource K} (hr : .declare r ∈ es) :
      ∃ q ∈ scene.resources.declared, q.bare = r.bare := by
    have hmem : r.bare ∈ scene.resources.declared.map Resource.bare := by
      rw [hdeclared]
      exact List.mem_map_of_mem (List.mem_filterMap.mpr ⟨_, hr, rfl⟩)
    exact List.mem_map.mp hmem
  cases e with
  | declare r =>
      change ref ∈ r.provides at href
      unfold Resource.provides at href
      cases hk : r.kind <;> rw [hk] at href
      · rw [List.mem_singleton.mp href]
        exact ⟨hk, declared he⟩
      · rw [List.mem_singleton.mp href]
        exact declares_of_bare hk (declared he)
      · cases href
      · rw [List.mem_singleton.mp href]
        exact ⟨hk, declared he⟩
      · cases href
  | objectEnd o =>
      rw [List.mem_singleton.mp href]
      change scene.objects.contains o.name = true
      rw [hobjects]
      exact contains_of_objectEnd he
  | _ => cases href

theorem ids_declared (h : Scene.ofEvents here es = .ok scene) :
    scene.resources.declared.map (·.id) = declaredIds es := by
  obtain ⟨-, hdeclared, -⟩ := contents_ofEvents h
  have hids := congrArg (List.map (·.id)) hdeclared
  rw [List.map_map, List.map_map] at hids
  exact hids

/-- A scene of events that refer only to what events provide, and that declare nothing twice. -/
theorem isResolved_ofEvents (h : Scene.ofEvents here es = .ok scene)
    (hevents : es.flatMap Event.references ⊆ es.flatMap Event.provides)
    (hids : (declaredIds es).Nodup) : scene.IsResolved := by
  obtain ⟨hcontents, -, hobjects⟩ := contents_ofEvents h
  have has {e : Event K} (he : e ∈ es) : ∀ ref ∈ e.references, scene.Has ref := fun ref href =>
    has_of_provides h (hevents (List.mem_flatMap.mpr ⟨e, he, href⟩))
  refine ⟨?_, ?_, ?_⟩
  · rw [ids_declared h]
    exact hids
  · intro n hn c hc
    by_cases hrefers : c.kind.refers = true
    · have hmem : n.contents ∈ scene.graph.contents := List.mem_map_of_mem hn
      rw [hcontents] at hmem
      obtain ⟨e, he, hcs⟩ := List.mem_flatMap.mp hmem
      exact resolves_of_mem (has he) hcs (List.mem_filter.mpr ⟨hc, hrefers⟩)
    · -- other components refer to nothing
      cases c with
      | material id => exact absurd rfl hrefers
      | shape id r i o => exact absurd rfl hrefers
      | light id => exact absurd rfl hrefers
      | areaLight id => exact absurd rfl hrefers
      | placed name => exact absurd rfl hrefers
      | _ => trivial
  · intro o ho st hst
    rw [hobjects] at ho
    rcases mem_values_objectsAfter ho with hnone | hend
    · cases hnone
    · refine resolvesStatement_of_has fun ref href => has hend ref ?_
      exact List.mem_flatMap.mpr ⟨st, hst, href⟩

end Scene

namespace Engine

variable [Scalar K] {c : EngineContext} {ds : List Directive} {dirs : DirectoryStack}

/-- A run that ends without an error makes a scene in which every reference of a node or of a
shape of an object has its one resource or its object. -/
theorem resolved_of_run (h : (run (K := K) c ds (.initial dirs)).rejection = none)
    (here : Location) :
    ∃ scene, Scene.ofEvents here (run (K := K) c ds (.initial dirs)).events = .ok scene ∧
      scene.IsResolved := by
  obtain ⟨scene, hscene⟩ := exists_ofEvents_run h here
  have hbacked := backed_of_reachable (reachable_run (K := K) c ds dirs)
  exact ⟨scene, hscene, Scene.isResolved_ofEvents hscene hbacked.events
    (nodup_declaredIds_run c ds dirs)⟩

/-- An object takes the material of a block of attributes and is placed after the block, next
to a light and a sphere that shines. -/
def paintedObject : List Directive :=
  [⟨.worldBegin, [], .empty, none⟩, ⟨.attributeBegin, [], .empty, none⟩,
   ⟨.material, [.text "matte"], .empty, none⟩, ⟨.objectBegin, [.text "o"], .empty, none⟩,
   ⟨.shape, [.text "sphere"], .empty, none⟩, ⟨.objectEnd, [], .empty, none⟩,
   ⟨.attributeEnd, [], .empty, none⟩, ⟨.lightSource, [.text "point"], .empty, none⟩,
   ⟨.objectInstance, [.text "o"], .empty, none⟩,
   ⟨.areaLightSource, [.text "diffuse"], .empty, none⟩, ⟨.shape, [.text "sphere"], .empty, none⟩]

theorem resolved_of_run_paintedObject :
    (run (K := Float) ⟨.rooted [], [], none⟩ paintedObject (.initial .empty)).rejection = none ∧
    ∃ scene : Scene Float, Scene.ofEvents [] (run ⟨.rooted [], [], none⟩ paintedObject
      (.initial .empty)).events = .ok scene ∧ scene.IsResolved := by
  have h : (run (K := Float) ⟨.rooted [], [], none⟩ paintedObject
      (.initial .empty)).rejection = none := rfl
  exact ⟨h, resolved_of_run h []⟩

end Engine
end SceneReader
