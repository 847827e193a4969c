import Mathlib.Data.List.Induction
import SceneReader.Proofs.Engine.PendingLight

/-!
# Which area lights light two shapes

A shape takes the pending area light, so that the next shape finds none.  But where an
attribute block begins the pending light is saved with the graphics state, and where the
block ends it is pending again, even if a shape in the block took it.  This is the only
way for a light to be the area light of two shapes: the light was pending when an
attribute block began, a shape took it inside, and after the end of the block another
shape took it again.

The proof goes along the directives of a run.  For each open block it keeps the directives
before it, so that the end of the block can say where the light that it restores comes
from.

**Results.**
* `history_started`: where saved and pending lights come from.
* `nodup_lights_iff`: every area light lights at most one shape if and only if no light is
  taken again after a block.
-/

namespace SceneReader
namespace Engine

variable {K : Type}

/-- The statements of shapes that were made so far. -/
def Progress.statements (p : Progress K) : List (ShapeStatement K) :=
  statementsOf p.events p.state

/-- The area lights of these statements. -/
def Progress.lights (p : Progress K) : List ResourceId :=
  p.statements.filterMap ShapeStatement.light?

/-- Directives whose attribute blocks are begun and ended among them. -/
inductive Balanced : List Directive → Prop
  | nil : Balanced []
  | plain {ds : List Directive} {d : Directive} (h : Balanced ds)
      (hbegin : d.name ≠ .attributeBegin) (hend : d.name ≠ .attributeEnd) : Balanced (ds ++ [d])
  | block {ds inner : List Directive} {b e : Directive} (h : Balanced ds)
      (hb : b.name = .attributeBegin) (hinner : Balanced inner) (he : e.name = .attributeEnd) :
      Balanced (ds ++ b :: inner ++ [e])

section Histories

variable [Scalar K] (K) (c : EngineContext) (dirs : DirectoryStack)

/-- The area light that is pending after directives. -/
def pendingAfter (ds : List Directive) : Option ResourceId :=
  (started (K := K) c ds dirs).state.pending?

/-- The area lights of the statements that directives make. -/
def lightsAfter (ds : List Directive) : List ResourceId := (started (K := K) c ds dirs).lights

/-- After `ds`, the directive `d` states a shape with the area light `id`. -/
def Takes (ds : List Directive) (d : Directive) (id : ResourceId) : Prop :=
  lightsAfter K c dirs (ds ++ [d]) = lightsAfter K c dirs ds ++ [id]

/-- Among `ds` is an attribute block that began while the light `id` was pending, and a
shape in the block took it. -/
def TakenInBlock (ds : List Directive) (id : ResourceId) : Prop :=
  ∃ A b B e C, ds = A ++ b :: B ++ e :: C ∧ b.name = .attributeBegin ∧ Balanced B ∧
    e.name = .attributeEnd ∧ pendingAfter K c dirs A = some id ∧
    ∃ B₁ d B₂, B = B₁ ++ d :: B₂ ∧ Takes K c dirs (A ++ b :: B₁) d id

/-- A light is taken inside an attribute block that began while it was pending, and again
after the end of the block. -/
def IsTakenAgain (ds : List Directive) : Prop :=
  ∃ P d D id, ds = P ++ d :: D ∧ TakenInBlock K c dirs P id ∧ Takes K c dirs P d id

/-- A pending light that some shape has already was taken inside a block. -/
def IsExplained (ds : List Directive) : Prop :=
  ∀ id, pendingAfter K c dirs ds = some id → id ∈ lightsAfter K c dirs ds →
    TakenInBlock K c dirs ds id

/-- The attribute blocks that are open after `ds`, with the lights that they saved, the
innermost first. -/
inductive OpenBlocks : List Directive → List (Option ResourceId) → Prop
  | bottom (ds : List Directive) : OpenBlocks ds []
  | opened {A B : List Directive} {b : Directive} {saved : List (Option ResourceId)}
      (outer : OpenBlocks A saved) (hA : IsExplained K c dirs A)
      (hb : b.name = .attributeBegin) (hB : Balanced B) :
      OpenBlocks (A ++ b :: B) (pendingAfter K c dirs A :: saved)

/-- The light is known after directives: it is pending, saved, or on a shape. -/
def IsKnown (ds : List Directive) (id : ResourceId) : Prop :=
  pendingAfter K c dirs ds = some id ∨
    some id ∈ (started (K := K) c ds dirs).state.savedLights ∨ id ∈ lightsAfter K c dirs ds

/-- Where the lights of a run come from. -/
structure History (ds : List Directive) : Prop where
  blocks : OpenBlocks K c dirs ds (started (K := K) c ds dirs).state.savedLights
  explained : IsExplained K c dirs ds
  /-- Known lights are no newer than the resource made last. -/
  known : ∀ id, IsKnown K c dirs ds id →
    ∃ n ≤ (started (K := K) c ds dirs).state.made, id = .made n

end Histories

/-! ## Blocks -/

section Blocks

variable [Scalar K] {c : EngineContext} {dirs : DirectoryStack}

theorem TakenInBlock.append {ds : List Directive} {id : ResourceId}
    (h : TakenInBlock K c dirs ds id) (tail : List Directive) :
    TakenInBlock K c dirs (ds ++ tail) id := by
  obtain ⟨A, b, B, e, C, rfl, hb, hB, he, hA, htaken⟩ := h
  refine ⟨A, b, B, e, C ++ tail, ?_, hb, hB, he, hA, htaken⟩
  simp only [List.append_assoc, List.cons_append]

theorem OpenBlocks.plain {ds : List Directive} {saved : List (Option ResourceId)}
    (h : OpenBlocks K c dirs ds saved) {d : Directive} (hbegin : d.name ≠ .attributeBegin)
    (hend : d.name ≠ .attributeEnd) : OpenBlocks K c dirs (ds ++ [d]) saved := by
  cases h with
  | bottom => exact .bottom _
  | opened outer hA hb hB =>
      rw [List.append_assoc, List.cons_append]
      exact .opened outer hA hb (hB.plain hbegin hend)

/-- A block is completed inside the block around it. -/
theorem OpenBlocks.block {A B : List Directive} {b e : Directive}
    {saved : List (Option ResourceId)} (h : OpenBlocks K c dirs A saved)
    (hb : b.name = .attributeBegin) (hB : Balanced B) (he : e.name = .attributeEnd) :
    OpenBlocks K c dirs (A ++ b :: B ++ [e]) saved := by
  cases h with
  | bottom => exact .bottom _
  | @opened A' B' b' saved' outer hA hb' hB' =>
      have hlist : A' ++ b' :: B' ++ b :: B ++ [e] = A' ++ b' :: (B' ++ b :: B ++ [e]) := by
        simp only [List.append_assoc, List.cons_append]
      rw [hlist]
      exact .opened outer hA hb' (hB'.block hb hB he)

theorem OpenBlocks.innermost {ds : List Directive} {light : Option ResourceId}
    {saved : List (Option ResourceId)} (h : OpenBlocks K c dirs ds (light :: saved)) :
    ∃ A b B, ds = A ++ b :: B ∧ light = pendingAfter K c dirs A ∧ OpenBlocks K c dirs A saved ∧
      IsExplained K c dirs A ∧ b.name = .attributeBegin ∧ Balanced B := by
  cases h with
  | opened outer hA hb hB => exact ⟨_, _, _, rfl, rfl, outer, hA, hb, hB⟩

end Blocks

/-! ## One directive more -/

section Steps

variable [Scalar K] (c : EngineContext) (dirs : DirectoryStack)

/-- One directive more is not executed, or it makes a step. -/
theorem started_concat_cases (ds : List Directive) (d : Directive) :
    ((started (K := K) c (ds ++ [d]) dirs).rejection ≠ none ∧
      (started (K := K) c (ds ++ [d]) dirs).statements =
        (started (K := K) c ds dirs).statements) ∨
    ((started (K := K) c ds dirs).rejection = none ∧
      ((started (K := K) c ds dirs).state.phase = .ended →
        (started (K := K) c (ds ++ [d]) dirs).state.phase = .ended ∧ d.name ≠ .shape) ∧
      (started (K := K) c ds dirs).state.made ≤ (started (K := K) c (ds ++ [d]) dirs).state.made ∧
      ∃ new, LightStep d (started (K := K) c ds dirs).state
          (started (K := K) c (ds ++ [d]) dirs).state new ∧
        (started (K := K) c (ds ++ [d]) dirs).statements =
          (started (K := K) c ds dirs).statements ++ new) := by
  rw [started_concat]
  obtain ⟨s, es, notes, rejection⟩ := started (K := K) c ds dirs
  cases rejection with
  | some r => exact Or.inl ⟨by simp [Progress.andThen], rfl⟩
  | none =>
      unfold Progress.andThen Progress.statements
      dsimp only
      rw [statementsOf_append]
      rcases execute_lights c d s with ⟨hr, hst⟩ | ⟨hr, hphase, hmade, new, hstep, hst⟩
      · rw [hst]
        exact Or.inl ⟨hr, rfl⟩
      · rw [hst, ← List.append_assoc]
        exact Or.inr ⟨rfl, hphase, hmade, new, hstep, rfl⟩

/-- One directive more makes no statement with a light, or it takes the pending light. -/
theorem lightsAfter_concat (ds : List Directive) (d : Directive) :
    lightsAfter K c dirs (ds ++ [d]) = lightsAfter K c dirs ds ∨
      ∃ id, Takes K c dirs ds d id ∧ pendingAfter K c dirs ds = some id ∧ d.name = .shape ∧
        (started (K := K) c ds dirs).rejection = none ∧
        (started (K := K) c ds dirs).state.phase ≠ .ended := by
  unfold Takes lightsAfter Progress.lights
  rcases started_concat_cases (K := K) c dirs ds d with ⟨-, hst⟩ | ⟨hr, hphase, -, new, hstep, hst⟩
  · rw [hst]
    exact Or.inl rfl
  · rw [hst, List.filterMap_append]
    cases hstep with
    | shaped hd st htaken hpending hsaved =>
        cases hl : st.light? with
        | none =>
            left
            simp [hl]
        | some id =>
            refine Or.inr ⟨id, ?_, htaken id hl, hd, hr, fun h => (hphase h).2 hd⟩
            simp [hl]
    | kept hbegin hend hpending hsaved => exact Or.inl (List.append_nil _)
    | lit hd n hlt hle hpending hsaved => exact Or.inl (List.append_nil _)
    | opened hd hpending hsaved => exact Or.inl (List.append_nil _)
    | closed hd hsaved => exact Or.inl (List.append_nil _)
    | bottom hd hsaved hpending hempty => exact Or.inl (List.append_nil _)
    | ended hd hphase => exact Or.inl (List.append_nil _)

/-- Statements are never lost. -/
theorem lightsAfter_prefix (P Q : List Directive) :
    lightsAfter K c dirs P <+: lightsAfter K c dirs (P ++ Q) := by
  induction Q using List.reverseRecOn with
  | nil => simp
  | append_singleton Q d ih =>
      rw [← List.append_assoc]
      rcases lightsAfter_concat (K := K) c dirs (P ++ Q) d with h | ⟨id, h, -⟩
      · rw [h]
        exact ih
      · rw [h]
        exact ih.trans (List.prefix_append _ _)

/-- A light that shapes do not have before some directives and have after them is taken by
one of these. -/
theorem exists_takes {P Q : List Directive} {id : ResourceId}
    (h : id ∈ lightsAfter K c dirs (P ++ Q)) (hP : id ∉ lightsAfter K c dirs P) :
    ∃ Q₁ d Q₂, Q = Q₁ ++ d :: Q₂ ∧ Takes K c dirs (P ++ Q₁) d id := by
  induction Q using List.reverseRecOn with
  | nil =>
      rw [List.append_nil] at h
      exact absurd h hP
  | append_singleton Q d ih =>
      by_cases hQ : id ∈ lightsAfter K c dirs (P ++ Q)
      · obtain ⟨Q₁, d', Q₂, rfl, htakes⟩ := ih hQ
        refine ⟨Q₁, d', Q₂ ++ [d], ?_, htakes⟩
        simp only [List.append_assoc, List.cons_append]
      · rw [← List.append_assoc] at h
        rcases lightsAfter_concat (K := K) c dirs (P ++ Q) d with hsame | ⟨id', htakes, -⟩
        · rw [hsame] at h
          exact absurd h hQ
        · have hnew := h
          rw [htakes] at hnew
          rcases List.mem_append.mp hnew with hnew | hnew
          · exact absurd hnew hQ
          · rw [List.mem_singleton.mp hnew]
            exact ⟨Q, d, [], rfl, htakes⟩

/-- A directive that changes neither the pending light nor those on shapes. -/
theorem IsExplained.concat {ds : List Directive} (h : IsExplained K c dirs ds) {d : Directive}
    (hpending : pendingAfter K c dirs (ds ++ [d]) = pendingAfter K c dirs ds)
    (hlights : lightsAfter K c dirs (ds ++ [d]) = lightsAfter K c dirs ds) :
    IsExplained K c dirs (ds ++ [d]) := by
  intro id hid hmem
  rw [hpending] at hid
  rw [hlights] at hmem
  exact (h id hid hmem).append [d]

/-- The light that the end of a block restores. -/
theorem isExplained_block {A B : List Directive} {b e : Directive} (hA : IsExplained K c dirs A)
    (hb : b.name = .attributeBegin) (hB : Balanced B) (he : e.name = .attributeEnd)
    (hpending : pendingAfter K c dirs (A ++ b :: B ++ [e]) = pendingAfter K c dirs A)
    (hlights : lightsAfter K c dirs (A ++ b :: B ++ [e]) = lightsAfter K c dirs (A ++ b :: B)) :
    IsExplained K c dirs (A ++ b :: B ++ [e]) := by
  intro id hid hmem
  rw [hpending] at hid
  rw [hlights] at hmem
  by_cases hbefore : id ∈ lightsAfter K c dirs A
  · -- it was taken before the block began
    rw [List.append_assoc]
    exact (hA id hid hbefore).append (b :: B ++ [e])
  · -- it was taken in the block, and not by the directive that begins it
    have hbegin : id ∉ lightsAfter K c dirs (A ++ [b]) := by
      rcases lightsAfter_concat (K := K) c dirs A b with hsame | ⟨id', -, -, hshape, -⟩
      · rw [hsame]
        exact hbefore
      · rw [hb] at hshape
        cases hshape
    have hlist : ∀ Q, A ++ b :: Q = A ++ [b] ++ Q := by simp
    rw [hlist] at hmem
    obtain ⟨B₁, d, B₂, rfl, htakes⟩ := exists_takes (K := K) c dirs hmem hbegin
    rw [← hlist] at htakes
    exact ⟨A, b, B₁ ++ d :: B₂, e, [], rfl, hb, hB, he, hid, B₁, d, B₂, rfl, htakes⟩

/-- A light that is known after a step was known before it, or the step made it. -/
theorem isKnown_concat {ds : List Directive} {d : Directive} {new : List (ShapeStatement K)}
    (hstep : LightStep d (started (K := K) c ds dirs).state
      (started (K := K) c (ds ++ [d]) dirs).state new)
    (hlights : lightsAfter K c dirs (ds ++ [d]) =
      lightsAfter K c dirs ds ++ new.filterMap ShapeStatement.light?)
    (hphase : (started (K := K) c (ds ++ [d]) dirs).state.phase ≠ .ended) {id : ResourceId}
    (h : IsKnown K c dirs (ds ++ [d]) id) :
    IsKnown K c dirs ds id ∨
      ∃ n ≤ (started (K := K) c (ds ++ [d]) dirs).state.made, id = .made n := by
  unfold IsKnown pendingAfter at h ⊢
  cases hstep with
  | kept hbegin hend hpending hsaved =>
      rw [List.filterMap_nil, List.append_nil] at hlights
      rw [hpending, hsaved, hlights] at h
      exact Or.inl h
  | lit hd n hlt hle hpending hsaved =>
      rw [List.filterMap_nil, List.append_nil] at hlights
      rw [hpending, hsaved, hlights] at h
      rcases h with h | h
      · exact Or.inr ⟨n, hle, (Option.some.inj h).symm⟩
      · exact Or.inl (Or.inr h)
  | shaped hd st htaken hpending hsaved =>
      rw [hpending, hsaved, hlights] at h
      rcases h with h | h | h
      · cases h
      · exact Or.inl (Or.inr (Or.inl h))
      · rcases List.mem_append.mp h with h | h
        · exact Or.inl (Or.inr (Or.inr h))
        · obtain ⟨st', hst', hlight⟩ := List.mem_filterMap.mp h
          rw [List.mem_singleton.mp hst'] at hlight
          exact Or.inl (Or.inl (htaken id hlight))
  | opened hd hpending hsaved =>
      rw [List.filterMap_nil, List.append_nil] at hlights
      rw [hpending, hsaved, hlights] at h
      rcases h with h | h | h
      · exact Or.inl (Or.inl h)
      · rcases List.mem_cons.mp h with h | h
        · exact Or.inl (Or.inl h.symm)
        · exact Or.inl (Or.inr (Or.inl h))
      · exact Or.inl (Or.inr (Or.inr h))
  | closed hd hsaved =>
      rw [List.filterMap_nil, List.append_nil] at hlights
      rw [hlights] at h
      rw [hsaved]
      rcases h with h | h | h
      · exact Or.inl (Or.inr (Or.inl (List.mem_cons.mpr (Or.inl h.symm))))
      · exact Or.inl (Or.inr (Or.inl (List.mem_cons_of_mem _ h)))
      · exact Or.inl (Or.inr (Or.inr h))
  | bottom hd hsaved hpending hempty =>
      rw [List.filterMap_nil, List.append_nil] at hlights
      rw [hpending, hempty, hlights] at h
      rcases h with h | h | h
      · exact Or.inl (Or.inl h)
      · cases h
      · exact Or.inl (Or.inr (Or.inr h))
  | ended hd hended => exact absurd hended hphase

/-- Where the lights of a run come from. -/
theorem history_started (ds : List Directive)
    (hr : (started (K := K) c ds dirs).rejection = none)
    (hphase : (started (K := K) c ds dirs).state.phase ≠ .ended) : History K c dirs ds := by
  induction ds using List.reverseRecOn with
  | nil =>
      refine ⟨.bottom [], ?_, ?_⟩
      · intro id hid
        cases hid
      · rintro id (hid | hid | hid)
        · cases hid
        · cases hid
        · cases hid
  | append_singleton ds d ih =>
      rcases started_concat_cases (K := K) c dirs ds d with
        ⟨hrejected, -⟩ | ⟨hr₀, hended, hmade, new, hstep, hst⟩
      · exact absurd hr hrejected
      obtain ⟨hblocks, hexplained, hknown⟩ := ih hr₀ fun h => hphase (hended h).1
      have hlights : lightsAfter K c dirs (ds ++ [d]) =
          lightsAfter K c dirs ds ++ new.filterMap ShapeStatement.light? := by
        unfold lightsAfter Progress.lights
        rw [hst, List.filterMap_append]
      have known : ∀ id, IsKnown K c dirs (ds ++ [d]) id →
          ∃ n ≤ (started (K := K) c (ds ++ [d]) dirs).state.made, id = .made n := by
        intro id hid
        rcases isKnown_concat c dirs hstep hlights hphase hid with hid | hid
        · obtain ⟨n, hn, heq⟩ := hknown id hid
          exact ⟨n, Nat.le_trans hn hmade, heq⟩
        · exact hid
      cases hstep with
      | kept hbegin hend hpending hsaved =>
          rw [List.filterMap_nil, List.append_nil] at hlights
          refine ⟨?_, hexplained.concat c dirs hpending hlights, known⟩
          rw [hsaved]
          exact hblocks.plain hbegin hend
      | lit hd n hlt hle hpending hsaved =>
          rw [List.filterMap_nil, List.append_nil] at hlights
          refine ⟨?_, ?_, known⟩
          · rw [hsaved]
            exact hblocks.plain (by rw [hd]; decide) (by rw [hd]; decide)
          · intro id hid hmem
            have hnew : some (.made n) = some id := hpending.symm.trans hid
            rw [hlights] at hmem
            -- no shape has a light that is just made
            obtain ⟨m, hm, heq⟩ := hknown id (Or.inr (Or.inr hmem))
            rw [← Option.some.inj hnew] at heq
            cases heq
            omega
      | shaped hd st htaken hpending hsaved =>
          refine ⟨?_, ?_, known⟩
          · rw [hsaved]
            exact hblocks.plain (by rw [hd]; decide) (by rw [hd]; decide)
          · intro id hid
            cases hpending.symm.trans hid
      | opened hd hpending hsaved =>
          rw [List.filterMap_nil, List.append_nil] at hlights
          refine ⟨?_, hexplained.concat c dirs hpending hlights, known⟩
          rw [hsaved]
          exact .opened hblocks hexplained hd .nil
      | closed hd hsaved =>
          rw [List.filterMap_nil, List.append_nil] at hlights
          rw [hsaved] at hblocks
          obtain ⟨A, b, B, rfl, hpending, outer, hA, hb, hB⟩ := hblocks.innermost
          refine ⟨outer.block hb hB hd, ?_, known⟩
          exact isExplained_block c dirs hA hb hB hd hpending hlights
      | bottom hd hsaved hpending hempty =>
          rw [List.filterMap_nil, List.append_nil] at hlights
          refine ⟨?_, hexplained.concat c dirs hpending hlights, known⟩
          rw [hempty]
          exact .bottom _
      | ended hd hended => exact absurd hended hphase

/-! ## Lights on two shapes -/

omit [Scalar K] in
theorem statementsOf_finish (s : EngineState K) :
    statementsOf (finish.run s).events (finish.run s).state = s.openStatements := by
  rcases finish_run s with ⟨hs, hes⟩ | ⟨es, hw, hes⟩
  · rw [hs, hes]
    rfl
  · have hnone : [Event.finish (K := K)].flatMap Event.statements = [] := rfl
    rw [hes, ← statements_ended hw]
    unfold statementsOf
    rw [List.flatMap_append, hnone, List.append_nil]

/-- Finishing makes no statements. -/
theorem lights_run (ds : List Directive) :
    (run (K := K) c ds (.initial dirs)).lights = lightsAfter K c dirs ds := by
  have hrun : run (K := K) c ds (.initial dirs) =
      (started c ds dirs).andThen (Progress.ofAction finish) := rfl
  unfold lightsAfter Progress.lights
  rw [hrun]
  congr 1
  obtain ⟨s, es, notes, rejection⟩ := started (K := K) c ds dirs
  cases rejection with
  | some r => rfl
  | none =>
      unfold Progress.andThen Progress.statements Progress.ofAction
      dsimp only
      rw [statementsOf_append, statementsOf_finish]
      rfl

theorem mem_lightsAfter_of_takenInBlock {ds : List Directive} {id : ResourceId}
    (h : TakenInBlock K c dirs ds id) : id ∈ lightsAfter K c dirs ds := by
  obtain ⟨A, b, B, e, C, rfl, -, -, -, -, B₁, d, B₂, rfl, htakes⟩ := h
  have hprefix := lightsAfter_prefix (K := K) c dirs (A ++ b :: B₁ ++ [d]) (B₂ ++ e :: C)
  have hlist : A ++ b :: B₁ ++ [d] ++ (B₂ ++ e :: C) = A ++ b :: (B₁ ++ d :: B₂) ++ e :: C := by
    simp only [List.append_assoc, List.cons_append, List.nil_append]
  rw [hlist, htakes] at hprefix
  exact hprefix.subset (by simp)

/-- Every area light is on at most one shape of the run, if and only if no light is taken
in a block that began while it was pending and again after the block. -/
theorem nodup_lights_iff (ds : List Directive) :
    (run (K := K) c ds (.initial dirs)).lights.Nodup ↔ ¬ IsTakenAgain K c dirs ds := by
  rw [lights_run]
  constructor
  · rintro hnodup ⟨P, d, D, id, rfl, hblock, htakes⟩
    have hmem := mem_lightsAfter_of_takenInBlock c dirs hblock
    have hprefix := lightsAfter_prefix (K := K) c dirs (P ++ [d]) D
    rw [List.append_assoc, List.singleton_append, htakes] at hprefix
    have htwice := hprefix.sublist.nodup hnodup
    exact (List.nodup_append.mp htwice).2.2 id hmem id List.mem_cons_self rfl
  · intro hnot
    induction ds using List.reverseRecOn with
    | nil => exact List.nodup_nil
    | append_singleton ds d ih =>
        have hbefore : ¬ IsTakenAgain K c dirs ds := by
          rintro ⟨P, d', D, id, rfl, hblock, htakes⟩
          refine hnot ⟨P, d', D ++ [d], id, ?_, hblock, htakes⟩
          simp only [List.append_assoc, List.cons_append]
        have hnodup := ih hbefore
        rcases lightsAfter_concat (K := K) c dirs ds d with
          hsame | ⟨id, htakes, hpending, -, hr, hphase⟩
        · rw [hsame]
          exact hnodup
        · have hnew : id ∉ lightsAfter K c dirs ds := by
            intro hmem
            have hblock := (history_started c dirs ds hr hphase).explained id hpending hmem
            exact hnot ⟨ds, d, [], id, rfl, hblock, htakes⟩
          rw [htakes]
          refine List.nodup_append.mpr ⟨hnodup, by simp, ?_⟩
          intro a ha b hb hab
          rw [List.mem_singleton.mp hb] at hab
          rw [hab] at ha
          exact hnew ha

end Steps

/-- A light is pending when a block begins; a shape in the block takes it, and so does a
shape after the block. -/
def takenTwice : List Directive :=
  [⟨.worldBegin, [], .empty, none⟩, ⟨.areaLightSource, [.text "diffuse"], .empty, none⟩,
   ⟨.attributeBegin, [], .empty, none⟩, ⟨.shape, [.text "sphere"], .empty, none⟩,
   ⟨.attributeEnd, [], .empty, none⟩, ⟨.shape, [.text "sphere"], .empty, none⟩]

theorem not_nodup_lights_takenTwice :
    ¬ (run (K := Float) ⟨.rooted [], [], none⟩ takenTwice (.initial .empty)).lights.Nodup := by
  have htwice : (run (K := Float) ⟨.rooted [], [], none⟩ takenTwice (.initial .empty)).lights =
      [.made 2, .made 2] := by
    decide +kernel
  rw [htwice]
  simp

end Engine
end SceneReader
