import SceneReader.Proofs.Engine.Declared
import SceneReader.Proofs.Scene.Growth

/-!
# Runs make scenes

A scene is made of any events that come in order and declare no resource twice: the root is
there before anything is placed, a block is open for each one that was begun, and below the
open nodes there is room.  The events of a run are such events.

**Results.**
* `exists_step`: an event that comes in order is taken in.
* `exists_foldlM`: so is a row of them.
* `exists_ofEvents`, `exists_ofEvents_run`: events in order make a scene, and so does a run.
-/

namespace SceneReader
namespace SceneBuilder

variable {K : Type} [Scalar K]

/-- The identities of the resources of a scene. -/
def resourceIds {K : Type} (b : SceneBuilder K) : List ResourceId :=
  b.resources.declared.map (·.id)

variable {b : SceneBuilder K} {e : Event K} {es : List (Event K)}

omit [Scalar K] in
theorem exists_parent? (h : b.open? ≠ []) : ∃ parent, b.parent? = .ok parent := by
  unfold parent?
  cases ho : b.open? with
  | nil => exact absurd ho h
  | cons top rest => exact ⟨top, rfl⟩

omit [Scalar K] in
theorem add_eq {t : ResourceTable K} {r : Resource K} (h : r.id ∉ t.declared.map (·.id)) :
    t.add r = .ok ⟨t.declared ++ [r]⟩ := by
  unfold ResourceTable.add
  rw [if_neg]
  intro hany
  obtain ⟨q, hq, hid⟩ := List.any_eq_true.mp hany
  have hmem := (List.mem_filter.mp hq).1
  exact h (List.mem_map.mpr ⟨q, hmem, of_decide_eq_true hid⟩)

/-- An event is taken in, if something is open and what it declares is new. -/
theorem exists_step (here : Location) (hb : InRange b) (hopen : b.open? ≠ [])
    (hnew : ∀ r, e.declared? = some r → r.id ∉ b.resourceIds) :
    ∃ b', b.step here e = .ok b' ∧ b'.resourceIds = b.resourceIds ++ declaredIds [e] := by
  obtain ⟨parent, hparent⟩ := exists_parent? hopen
  have hp : parent.1 < b.graph.size := hb parent (mem_of_parent? hparent)
  have same : b.resourceIds = b.resourceIds ++ [] := (List.append_nil _).symm
  cases e with
  | beginScope kind ctm =>
      unfold step
      rw [hparent]
      change ∃ b', (b.addChild kind.text ctm parent >>= _) = _ ∧ _
      rw [addChild_eq hp]
      exact ⟨_, rfl, same⟩
  | declare r =>
      change ∃ b', (Except.mapError _ (b.resources.add r) >>= _) = _ ∧ _
      rw [add_eq (hnew r rfl)]
      refine ⟨_, rfl, ?_⟩
      unfold resourceIds
      rw [List.map_append]
      rfl
  | shape st =>
      unfold step
      rw [hparent]
      change ∃ b', b.placeShape parent st = _ ∧ _
      rw [placeShape_eq hp]
      exact ⟨_, rfl, same⟩
  | light r ctm =>
      obtain ⟨m, f, hplace⟩ := placeLight_eq hparent hp r ctm
      exact ⟨_, hplace, (declared_adjustLight _ _ f _ fun _ _ => rfl).trans same⟩
  | placed o ctm => exact ⟨_, placeObject_eq hparent hp o ctm, same⟩
  | _ => exact ⟨_, rfl, same⟩

/-- Events that come in order are taken in with all that they declare, if they declare nothing
twice. -/
theorem exists_foldlM (here : Location) (hb : InRange b)
    (hedge : ∀ e ∈ es, e.isEdge = false) {blocks : List ScopeKind}
    (hblocks : (es.foldlM Event.blocksAfter? blocks).isSome)
    {tops below : List (NodeId × Transform K)} (ho : b.open? = tops ++ below)
    (hlength : tops.length = blocks.length) (hbelow : below ≠ [])
    (hids : (b.resourceIds ++ declaredIds es).Nodup) :
    ∃ b', es.foldlM (step here) b = .ok b' ∧ b'.resourceIds = b.resourceIds ++ declaredIds es := by
  induction es generalizing b blocks tops with
  | nil => exact ⟨b, rfl, (List.append_nil _).symm⟩
  | cons e es ih =>
      obtain ⟨blocks', hrow⟩ := Option.isSome_iff_exists.mp hblocks
      rw [List.foldlM_cons] at hrow
      obtain ⟨blocks₁, hblocks₁, hrow⟩ := Option.bind_eq_some_iff.mp hrow
      obtain ⟨hedge₁, hedges⟩ := List.forall_mem_cons.mp hedge
      rw [show e :: es = [e] ++ es from rfl, declaredIds_append] at hids
      have hopen : b.open? ≠ [] := by
        rw [ho]
        exact List.append_ne_nil_of_right_ne_nil tops hbelow
      have hnew : ∀ r, e.declared? = some r → r.id ∉ b.resourceIds := by
        intro r hr hmem
        have hdeclared : r.id ∈ declaredIds [e] ++ declaredIds es := by
          simp [declaredIds, hr]
        exact (List.nodup_append.mp hids).2.2 _ hmem _ hdeclared rfl
      obtain ⟨b₁, he, hids₁⟩ := exists_step here hb hopen hnew
      have hone : [e].foldlM (step here) b = .ok b₁ := by
        rw [List.foldlM_cons, he]
        rfl
      have hread : [e].foldlM Event.blocksAfter? blocks = some blocks₁ := by
        rw [List.foldlM_cons, hblocks₁]
        rfl
      obtain ⟨tops₁, ho₁, hlength₁⟩ := open?_foldlM hb hone
        (List.forall_mem_singleton.mpr hedge₁) hread ho hlength
      have hb₁ := (grows_foldlM hb hone).inRange hb
      rw [List.foldlM_cons, he, show e :: es = [e] ++ es from rfl, declaredIds_append,
        ← List.append_assoc, ← hids₁]
      refine ih hb₁ hedges (Option.isSome_iff_exists.mpr ⟨_, hrow⟩) ho₁ hlength₁ ?_
      rw [hids₁, List.append_assoc]
      exact hids

/-- A scene that consists of its root. -/
def rooted (source : Option String) : SceneBuilder K :=
  { (initial : SceneBuilder K) with
    graph := .extend .empty [⟨"Scene", none, [], []⟩], source := source
    open? := [(0, .identity)] }

theorem inRange_rooted (source : Option String) : InRange (rooted source : SceneBuilder K) := by
  intro top htop
  rw [List.mem_singleton.mp htop]
  exact Nat.zero_lt_one

/-- Events in order that declare nothing twice make a scene. -/
theorem exists_ofEvents {source : Option String} (hedge : ∀ e ∈ es, e.isEdge = false)
    (hblocks : (es.foldlM Event.blocksAfter? []).isSome)
    (hids : (declaredIds (.begin source :: es ++ [.finish])).Nodup) (here : Location) :
    ∃ scene, Scene.ofEvents here (.begin source :: es ++ [.finish]) = .ok scene := by
  have hinner : ((rooted source : SceneBuilder K).resourceIds ++ declaredIds es).Nodup := by
    have hall : declaredIds (.begin source :: es ++ [.finish]) = declaredIds es ++ [] :=
      declaredIds_append es [.finish]
    rw [hall, List.append_nil] at hids
    exact hids
  have hopen : (rooted source : SceneBuilder K).open? = [] ++ [(0, .identity)] := rfl
  obtain ⟨b, hb, -⟩ := exists_foldlM here (inRange_rooted source) hedge hblocks hopen rfl
    (List.cons_ne_nil _ _) hinner
  have hall : (es ++ [Event.finish]).foldlM (step here) (rooted source) =
      .ok (b.attachAll 0 (b.rootComponents here)) := by
    rw [List.foldlM_append, hb]
    rfl
  exact ⟨_, congrArg (Except.map _) hall⟩

end SceneBuilder

namespace Engine

/-- A run that ends without an error makes a scene. -/
theorem exists_ofEvents_run {K : Type} [Scalar K] {c : EngineContext} {ds : List Directive}
    {dirs : DirectoryStack} (h : (run (K := K) c ds (.initial dirs)).rejection = none)
    (here : Location) :
    ∃ scene, Scene.ofEvents here (run (K := K) c ds (.initial dirs)).events = .ok scene := by
  have hids := nodup_declaredIds_run (K := K) c ds dirs
  obtain ⟨s, s', es, es', hevents, hall, htells, -⟩ := run_tells h
  obtain ⟨-, hblocks, -, -, hinner⟩ := hall.tells.trans htells
  rw [hevents] at hids ⊢
  exact SceneBuilder.exists_ofEvents hinner (Option.isSome_iff_exists.mpr ⟨_, hblocks⟩) hids here

end Engine
end SceneReader
