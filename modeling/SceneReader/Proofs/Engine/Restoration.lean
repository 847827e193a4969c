import Mathlib.Data.List.Induction
import Mathlib.Data.List.Infix
import SceneReader.Proofs.Engine.Accepted

/-!
# Blocks restore what they save

A block saves the current transform, and a block of attributes the graphics state as well.
Both lie on stacks until the block is closed.  Inside of the block other blocks are opened
and closed over what it saved, but nothing touches it.

**Invariant.**  `Inside s kind σ`: the stacks of `σ` are those of `s`, above them what the
block of the given kind saved at `s`, and above that what was saved since.  An object that
was open at `s` is still open, perhaps with more shapes.

**Results.**
* `stackStep_of_accepted`: what a directive does to the stacks.
* `Inside.step`, `inside_executeAll`: the invariant, for one directive and for a row.
* `Above.closedAll`: closing blocks down to those of `s`.
* `block_restores`: what is restored after a block.
-/

namespace SceneReader
namespace Engine

variable {K : Type}

/-! ## The steps of the stacks -/

/-- What a directive does to the open blocks, the saved graphics states and the open
object. -/
inductive StackStep (s s' : EngineState K) : Prop
  /-- Nothing is opened or closed. -/
  | level (hs : s'.scopes = s.scopes) (hg : s'.savedGraphics = s.savedGraphics)
      (ho : Option.Rel ObjectDefinition.Grows s.openObject s'.openObject)
  | opened (kind : ScopeKind) (hs : s'.scopes = (Engine.opened kind s).scopes)
      (hg : s'.savedGraphics = (Engine.opened kind s).savedGraphics)
      (ho : s'.openObject = s.openObject ∨ s.openObject = none)
  | closed (es : List (Event K)) (hc : Closed { s with begun := true } s' es)
  /-- The world ends. -/
  | ended (hnil : s'.scopes = []) (s₁ : EngineState K) (es : List (Event K))
      (hc : ClosedAll { s with begun := true } s₁ es) (hs' : s' = { s₁ with phase := .ended })

section Steps

variable [Scalar K] {c : EngineContext} {d : Directive} {s : EngineState K}

/-- The steps of the stacks, effect by effect. -/
theorem stackStep_of_effect {s s' : EngineState K} {es : List (Event K)}
    (hp : permit c { s with begun := true } d = .ok ())
    (he : Effect d { s with begun := true } s' es)
    (hnil : d.name = .worldEnd → s'.scopes = []) : StackStep s s' := by
  by_cases hd : isStructural d.name = true
  · have same := ObjectDefinition.Grows.refl_option s.openObject
    cases he with
    | worldBegin hn => exact .level rfl rfl same
    | directories hn dirs => exact .level rfl rfl same
    | opened kind hk hn => exact .opened kind rfl rfl (Or.inl rfl)
    | objectBegin hn =>
        exact .opened .object rfl rfl (Or.inr (openObject_of_permit_objectBegin hp hn))
    | closed kind hn s₁ es hc => exact .closed es hc
    | worldEnd hn s₁ es hc => exact .ended (hnil hn) s₁ es hc rfl
    | _ => simp_all [isStructural]
  · have hframed := framed_of_effect he (Bool.eq_false_iff.mpr hd)
    have hkept := kept_of_effect he (Bool.eq_false_iff.mpr hd)
    exact .level hframed.scopes hkept.savedGraphics hkept.grows

theorem stackStep_of_accepted (h : (execute c d s).rejection = none) :
    StackStep s (execute c d s).state := by
  obtain ⟨hp, es, he, -⟩ := effect_of_accepted h
  refine stackStep_of_effect hp he fun hd => ?_
  rw [(performed_of_accepted h).2.1, perform, hd]
  exact endWorld_scopes _ _

/-- Opening a block puts the current transform on the one stack and, for a block of
attributes, the graphics state on the other. -/
theorem stacks_of_opener {kind : ScopeKind} (h : (execute c d s).rejection = none)
    (hd : d.name = kind.opener) :
    (execute c d s).state.scopes = (Engine.opened kind s).scopes ∧
      (execute c d s).state.savedGraphics = (Engine.opened kind s).savedGraphics ∧
      (kind = .object → s.openObject = none) ∧
      (kind ≠ .object → (execute c d s).state.openObject = s.openObject) := by
  by_cases hk : kind = .object
  · subst hk
    obtain ⟨hnone, hs⟩ := state_of_objectBegin h hd
    rw [hs]
    exact ⟨rfl, rfl, fun _ => hnone, fun hne => (hne rfl).elim⟩
  · rw [state_of_opener h hk hd]
    exact ⟨rfl, rfl, fun hobject => (hk hobject).elim, fun _ => rfl⟩

end Steps

/-! ## What lies over a state -/

/-- The open blocks and the saved graphics states inside of a block that was opened at a
state: at the bottom the block with what it saved, above it what was saved since. -/
inductive Above (s : EngineState K) (kind : ScopeKind) :
    List (Scope K) → List (GraphicsState K) → Prop
  | block : Above s kind (Engine.opened kind s).scopes (Engine.opened kind s).savedGraphics
  | attributes {scope : Scope K} {rest : List (Scope K)} {saved : List (GraphicsState K)}
      (g : GraphicsState K) (hk : scope.kind = .attributes) (h : Above s kind rest saved) :
      Above s kind (scope :: rest) (g :: saved)
  | plain {scope : Scope K} {rest : List (Scope K)} {saved : List (GraphicsState K)}
      (hk : scope.kind ≠ .attributes) (h : Above s kind rest saved) :
      Above s kind (scope :: rest) saved

namespace Above

variable {s : EngineState K} {kind : ScopeKind} {scopes : List (Scope K)}
  {saved : List (GraphicsState K)}

/-- The blocks that were open before lie under an innermost one. -/
theorem suffix (h : Above s kind scopes saved) :
    ∃ scope rest, scopes = scope :: rest ∧ s.scopes <:+ rest := by
  induction h with
  | block => exact ⟨_, _, rfl, List.suffix_rfl⟩
  | attributes g hk h ih =>
      obtain ⟨scope', rest', rfl, hrest⟩ := ih
      exact ⟨_, _, rfl, hrest.trans (List.suffix_cons _ _)⟩
  | plain hk h ih =>
      obtain ⟨scope', rest', rfl, hrest⟩ := ih
      exact ⟨_, _, rfl, hrest.trans (List.suffix_cons _ _)⟩

theorem length_lt (h : Above s kind scopes saved) : s.scopes.length < scopes.length := by
  obtain ⟨scope, rest, rfl, hrest⟩ := h.suffix
  exact Nat.lt_succ_of_le hrest.length_le

theorem opened {σ : EngineState K} (h : Above s kind σ.scopes σ.savedGraphics)
    (inner : ScopeKind) :
    Above s kind (Engine.opened inner σ).scopes (Engine.opened inner σ).savedGraphics := by
  unfold Engine.opened
  by_cases hi : inner = .attributes
  · rw [if_pos hi]
    exact .attributes σ.graphics hi h
  · rw [if_neg hi]
    exact .plain hi h

end Above

/-- Closing one block inside leaves the stacks above, or it was the block itself. -/
theorem Above.closed {s σ σ' : EngineState K} {kind : ScopeKind} {es : List (Event K)}
    (h : Above s kind σ.scopes σ.savedGraphics) (hc : Closed σ σ' es)
    (hlen : s.scopes.length < σ'.scopes.length) :
    Above s kind σ'.scopes σ'.savedGraphics := by
  generalize hscopes : σ.scopes = scopes at h
  generalize hsaved : σ.savedGraphics = saved at h
  cases h with
  | block =>
      obtain ⟨-, hrest, -⟩ := hc.restores hscopes
      rw [hrest] at hlen
      exact (Nat.lt_irrefl _ hlen).elim
  | attributes g hk h =>
      obtain ⟨-, hrest, hattributes, -⟩ := hc.restores hscopes
      rw [hrest, (hattributes hk _ _ hsaved).2]
      exact h
  | plain hk h =>
      obtain ⟨-, hrest, -, hplain⟩ := hc.restores hscopes
      rw [hrest, (hplain hk).2, hsaved]
      exact h

/-! ## Closing down to the blocks of before -/

theorem Closed.length_le {σ σ' : EngineState K} {es : List (Event K)} (h : Closed σ σ' es) :
    σ'.scopes.length ≤ σ.scopes.length := by
  rw [h.scopes_eq, List.length_tail]
  exact Nat.sub_le _ 1

/-- Where no block is open there is nothing to close. -/
theorem Closed.eq_of_scopes_eq_nil {σ σ' : EngineState K} {es : List (Event K)}
    (h : Closed σ σ' es) (hs : σ.scopes = []) : σ' = σ := by
  cases h with
  | nothing hnil => rfl
  | attributes scope rest hcons hk => simp [hs] at hcons
  | object scope rest o hcons hk ho => simp [hs] at hcons
  | plain scope rest hcons hk ho => simp [hs] at hcons

theorem ClosedAll.length_le {σ σ' : EngineState K} {es : List (Event K)}
    (h : ClosedAll σ σ' es) : σ'.scopes.length ≤ σ.scopes.length := by
  induction h with
  | nil σ => exact Nat.le_refl _
  | cons first rest ih => exact Nat.le_trans ih first.length_le

/-- Closing that leaves as many blocks as there were closes nothing. -/
theorem ClosedAll.eq_of_length_eq {σ σ' : EngineState K} {es : List (Event K)}
    (h : ClosedAll σ σ' es) (hlen : σ'.scopes.length = σ.scopes.length) : σ' = σ := by
  induction h with
  | nil σ => rfl
  | cons first rest ih =>
      have hfirst := first.length_le
      have hrest := rest.length_le
      have htail := congrArg List.length first.scopes_eq
      rw [List.length_tail] at htail
      rw [ih (by omega)]
      exact first.eq_of_scopes_eq_nil (List.eq_nil_of_length_eq_zero (by omega))

/-- What a block restores, seen from inside of it.  A block of attributes restores the
graphics state; any other block leaves it to what was saved inside of it, and to the body
if nothing was. -/
structure Restored (s : EngineState K) (kind : ScopeKind) (σ σ' : EngineState K) : Prop where
  ctm : σ'.ctm = s.ctm
  scopes : σ'.scopes = s.scopes
  savedGraphics : σ'.savedGraphics = s.savedGraphics
  attributes : kind = .attributes → σ'.graphics = s.graphics
  others : kind ≠ .attributes → ∃ inner, σ.savedGraphics = inner ++ s.savedGraphics ∧
    σ'.graphics = inner.getLastD σ.graphics

/-- Closing the block itself. -/
theorem restored_of_closed {s σ σ' : EngineState K} {kind : ScopeKind} {es : List (Event K)}
    (hs : σ.scopes = (opened kind s).scopes)
    (hg : σ.savedGraphics = (opened kind s).savedGraphics) (hc : Closed σ σ' es) :
    Restored s kind σ σ' := by
  obtain ⟨hctm, hrest, hattributes, hplain⟩ := hc.restores hs
  unfold opened at hg
  by_cases hk : kind = .attributes
  · rw [if_pos hk] at hg
    obtain ⟨hgraphics, hsaved⟩ := hattributes hk _ _ hg
    exact ⟨hctm, hrest, hsaved, fun _ => hgraphics, fun hne => (hne hk).elim⟩
  · rw [if_neg hk] at hg
    obtain ⟨hgraphics, hsaved⟩ := hplain hk
    exact ⟨hctm, hrest, hsaved.trans hg, fun ha => (hk ha).elim, fun _ => ⟨[], hg, hgraphics⟩⟩

/-- Closing everything inside, and the block last. -/
theorem Above.closedAll {s σ σ' : EngineState K} {kind : ScopeKind} {es : List (Event K)}
    (h : Above s kind σ.scopes σ.savedGraphics) (hc : ClosedAll σ σ' es)
    (hlen : σ'.scopes.length = s.scopes.length) : Restored s kind σ σ' := by
  induction hc with
  | nil σ => exact (Nat.ne_of_gt h.length_lt hlen).elim
  | @cons σ σ₁ σ' es₁ es₂ first rest ih =>
      generalize hscopes : σ.scopes = scopes at h
      generalize hsaved : σ.savedGraphics = saved at h
      cases h with
      | block =>
          have hr := restored_of_closed hscopes hsaved first
          rw [rest.eq_of_length_eq (by rw [hlen, hr.scopes])]
          exact hr
      | attributes g hk h =>
          obtain ⟨-, hrest, hattributes, -⟩ := first.restores hscopes
          obtain ⟨hgraphics, hg⟩ := hattributes hk _ _ hsaved
          obtain ⟨hctm, hs, hsave, hattr, hothers⟩ := ih (by rw [hrest, hg]; exact h) hlen
          refine ⟨hctm, hs, hsave, hattr, fun hne => ?_⟩
          obtain ⟨inner, hinner, hlast⟩ := hothers hne
          refine ⟨g :: inner, ?_, ?_⟩
          · rw [hsaved, List.cons_append, ← hinner, hg]
          · rw [hlast, hgraphics, List.getLastD_cons]
      | plain hk h =>
          obtain ⟨-, hrest, -, hplain⟩ := first.restores hscopes
          obtain ⟨hgraphics, hg⟩ := hplain hk
          obtain ⟨hctm, hs, hsave, hattr, hothers⟩ := ih (by rw [hrest, hg, hsaved]; exact h) hlen
          rw [hgraphics, hg] at hothers
          exact ⟨hctm, hs, hsave, hattr, hothers⟩

/-! ## The open object -/

theorem Arranged.flag_unique {a b : Bool} {scopes : List (Scope K)} (ha : Arranged a scopes)
    (hb : Arranged b scopes) : a = b := by
  induction ha generalizing b with
  | nil =>
      cases hb
      rfl
  | told hk hr h ih =>
      cases hb with
      | told => rfl
      | object hk' => exact (hk hk').elim
      | inside hk' hr' h' => exact ih h'
  | object hk hr h ih =>
      cases hb with
      | told hk' => exact (hk' hk).elim
      | object => rfl
      | inside hk' => exact (hk' hk).elim
  | inside hk hr h ih =>
      cases hb with
      | told hk' hr' h' => exact ih h'
      | object hk' => exact (hk hk').elim
      | inside => rfl

/-- Where no object is open, none was under any of the blocks. -/
theorem Arranged.of_suffix {scopes under : List (Scope K)} (h : Arranged false scopes)
    (hs : under <:+ scopes) : Arranged false under := by
  induction scopes with
  | nil =>
      rw [List.suffix_nil.mp hs]
      exact h
  | cons scope rest ih =>
      rcases List.suffix_cons_iff.mp hs with rfl | hrest
      · exact h
      · cases h with
        | told hk hr h => exact ih h hrest

/-- The block of an object is not closed inside of a block that was opened in it. -/
theorem kind_ne_object {s σ : EngineState K} (hs : IsArranged s) (hσ : IsArranged σ)
    {scope : Scope K} {rest : List (Scope K)} (hscopes : σ.scopes = scope :: rest)
    (hrest : s.scopes <:+ rest) (ho : s.openObject.isSome) : scope.kind ≠ .object := by
  intro hk
  unfold IsArranged at hs hσ
  rw [hscopes] at hσ
  rw [ho] at hs
  generalize σ.openObject.isSome = inObject at hσ
  cases hσ with
  | told hk' => exact hk' hk
  | object hk' hr h => exact Bool.false_ne_true ((h.of_suffix hrest).flag_unique hs)
  | inside hk' => exact hk' hk

/-! ## Inside of a block -/

/-- The state is one inside of a block of the given kind that was opened at `s`: what the
block saved lies on the stacks as it was saved. -/
structure Inside (s : EngineState K) (kind : ScopeKind) (σ : EngineState K) : Prop where
  above : Above s kind σ.scopes σ.savedGraphics
  arranged : IsArranged σ
  object : s.openObject.isSome → Option.Rel ObjectDefinition.Grows s.openObject σ.openObject

theorem ObjectDefinition.Grows.trans_option {o₁ o₂ o₃ : Option (ObjectDefinition K)}
    (h₁ : Option.Rel ObjectDefinition.Grows o₁ o₂)
    (h₂ : Option.Rel ObjectDefinition.Grows o₂ o₃) :
    Option.Rel ObjectDefinition.Grows o₁ o₃ := by
  cases h₁ with
  | none => exact h₂
  | some h₁ =>
      cases h₂ with
      | some h₂ => exact .some ⟨h₂.1.trans h₁.1, h₁.2.trans h₂.2⟩

/-- The open object is still open after a block inside is closed. -/
theorem Inside.openObject_of_closed {s σ σ' : EngineState K} {kind : ScopeKind}
    (h : Inside s kind σ) (hs : IsArranged s) {es : List (Event K)}
    (hc : Closed { σ with begun := true } σ' es)
    (ho : s.openObject.isSome) : Option.Rel ObjectDefinition.Grows s.openObject σ'.openObject := by
  obtain ⟨scope, rest, hscopes, hrest⟩ := h.above.suffix
  have hkind := kind_ne_object hs h.arranged hscopes hrest ho
  rw [(hc.objects_eq hscopes hkind).1]
  exact h.object ho

section Blocks

variable [Scalar K] {c : EngineContext} {d : Directive} {s σ : EngineState K}
  {kind : ScopeKind}

/-- One directive inside of the block that does not close it. -/
theorem Inside.step (h : Inside s kind σ) (hs : IsArranged s)
    (hd : (execute c d σ).rejection = none)
    (hlen : s.scopes.length < (execute c d σ).state.scopes.length) :
    Inside s kind (execute c d σ).state := by
  have harranged := isArranged_execute h.arranged c d
  cases stackStep_of_accepted hd with
  | level hscopes hsaved ho =>
      refine ⟨?_, harranged, fun hopen => ObjectDefinition.Grows.trans_option (h.object hopen) ho⟩
      rw [hscopes, hsaved]
      exact h.above
  | opened inner hscopes hsaved ho =>
      refine ⟨?_, harranged, fun hopen => ?_⟩
      · rw [hscopes, hsaved]
        exact h.above.opened inner
      · have hrel := h.object hopen
        rcases ho with ho | ho
        · rw [ho]
          exact hrel
        · -- An object was open before the block, so one is still open here.
          rw [ho] at hrel
          generalize s.openObject = before at hopen hrel
          cases hrel
          cases hopen
  | closed es hc =>
      have habove : Above s kind { σ with begun := true }.scopes
        { σ with begun := true }.savedGraphics := h.above
      exact ⟨habove.closed hc hlen, harranged, h.openObject_of_closed hs hc⟩
  | ended hnil s₁ es hc hs' =>
      rw [hnil] at hlen
      exact (Nat.not_lt_zero _ hlen).elim

/-- One directive that leads out of the block closes it, alone or with everything else. -/
theorem Inside.closes (h : Inside s kind σ) (hd : (execute c d σ).rejection = none)
    (hlen : (execute c d σ).state.scopes.length = s.scopes.length) :
    (∃ es, Closed { σ with begun := true } (execute c d σ).state es) ∨
      (execute c d σ).state.scopes = [] ∧ ∃ s₁ es, ClosedAll { σ with begun := true } s₁ es ∧
        (execute c d σ).state = { s₁ with phase := .ended } := by
  have hlt := h.above.length_lt
  cases stackStep_of_accepted hd with
  | level hscopes hsaved ho =>
      rw [hscopes] at hlen
      exact (Nat.ne_of_gt hlt hlen).elim
  | opened inner hscopes hsaved ho =>
      rw [hscopes] at hlen
      exact (Nat.ne_of_gt (Nat.lt_succ_of_lt hlt) hlen).elim
  | closed es hc => exact Or.inl ⟨es, hc⟩
  | ended hnil s₁ es hc hs' => exact Or.inr ⟨hnil, s₁, es, hc, hs'⟩

/-- Leaving the block restores what it saved. -/
theorem Inside.restored (h : Inside s kind σ) (hd : (execute c d σ).rejection = none)
    (hlen : (execute c d σ).state.scopes.length = s.scopes.length) :
    Restored s kind σ (execute c d σ).state := by
  have habove : Above s kind { σ with begun := true }.scopes
    { σ with begun := true }.savedGraphics := h.above
  rcases h.closes hd hlen with ⟨es, hc⟩ | ⟨-, s₁, es, hc, hs'⟩
  · obtain ⟨hctm, hscopes, hsaved, hattributes, hothers⟩ :=
      habove.closedAll (.cons hc (.nil _)) hlen
    exact ⟨hctm, hscopes, hsaved, hattributes, hothers⟩
  · rw [hs'] at hlen ⊢
    obtain ⟨hctm, hscopes, hsaved, hattributes, hothers⟩ := habove.closedAll hc hlen
    exact ⟨hctm, hscopes, hsaved, hattributes, hothers⟩

/-- Leaving the block leaves the object open that was open before it, and no other. -/
theorem Inside.openObject (h : Inside s kind σ) (hs : IsArranged s)
    (hd : (execute c d σ).rejection = none)
    (hlen : (execute c d σ).state.scopes.length = s.scopes.length) :
    Option.Rel ObjectDefinition.Grows s.openObject (execute c d σ).state.openObject := by
  have harranged := isArranged_execute h.arranged c d
  have hscopes := (h.restored hd hlen).scopes
  by_cases ho : s.openObject.isSome = true
  · rcases h.closes hd hlen with ⟨es, hc⟩ | ⟨hnil, -⟩
    · exact h.openObject_of_closed hs hc ho
    · rw [openObject_of_scopes_eq_nil hs (hscopes.symm.trans hnil)] at ho
      cases ho
  · unfold IsArranged at harranged hs
    rw [hscopes] at harranged
    have hflag := harranged.flag_unique hs
    rw [Bool.not_eq_true] at ho
    rw [Option.isSome_eq_false_iff.mp ho |> Option.isNone_iff_eq_none.mp]
    rw [ho] at hflag
    rw [Option.isSome_eq_false_iff.mp hflag |> Option.isNone_iff_eq_none.mp]
    exact .none

/-- A block that is closed by its own directive leaves the graphics state to its body,
unless it is one of attributes. -/
theorem graphics_of_closer (hd : (execute c d σ).rejection = none)
    (hk : kind ≠ .attributes) (hn : d.name = kind.closer) :
    (execute c d σ).state.graphics = σ.graphics := by
  obtain ⟨scope, rest, es, hscopes, hkind, hc⟩ := closed_of_closer hd hn
  obtain ⟨-, -, -, hplain⟩ := hc.restores hscopes
  exact (hplain (by rw [hkind]; exact hk)).1

/-- A row of directives that is accepted from `s`, opens a block of the given kind with its
first directive, stays inside of it, and is back at the blocks of before after its last. -/
structure IsBlock (c : EngineContext) (kind : ScopeKind) (s : EngineState K)
    (first : Directive) (body : List Directive) (last : Directive) : Prop where
  begins : first.name = kind.opener
  accepted : (executeAll c (first :: (body ++ [last])) s).rejection = none
  inside : ∀ inner ∈ body.inits,
    s.scopes.length < (executeAll c (first :: inner) s).state.scopes.length
  ends : (executeAll c (first :: (body ++ [last])) s).state.scopes.length = s.scopes.length

namespace IsBlock

variable {first last : Directive} {body : List Directive}

/-- The first directive of the block leads inside. -/
theorem inside_first (h : IsBlock c kind s first body last) (hs : IsArranged s) :
    Inside s kind (execute c first s).state := by
  have hfirst := (accepted_cons_iff.mp h.accepted).1
  obtain ⟨hscopes, hsaved, hnone, hsame⟩ := stacks_of_opener hfirst h.begins
  refine ⟨?_, isArranged_execute hs c first, fun ho => ?_⟩
  · rw [hscopes, hsaved]
    exact .block
  · have hkind : kind ≠ .object := by
      intro hk
      rw [hnone hk] at ho
      cases ho
    rw [hsame hkind]
    exact ObjectDefinition.Grows.refl_option _

/-- Every part of the body leads to a state inside. -/
theorem inside_body (h : IsBlock c kind s first body last) (hs : IsArranged s)
    {inner : List Directive} (hinner : inner <+: body) :
    (executeAll c (first :: inner) s).rejection = none ∧
      Inside s kind (executeAll c (first :: inner) s).state := by
  induction inner using List.reverseRecOn with
  | nil =>
      rw [executeAll_singleton]
      exact ⟨(accepted_cons_iff.mp h.accepted).1, h.inside_first hs⟩
  | append_singleton inner d ih =>
      obtain ⟨hrej, hin⟩ := ih ((List.prefix_append _ _).trans hinner)
      have hlen := h.inside _ (List.mem_inits _ _ |>.mpr hinner)
      have hacc : (executeAll c (first :: (inner ++ [d])) s).rejection = none := by
        obtain ⟨rest, rfl⟩ := hinner
        have haccepted := h.accepted
        rw [List.append_assoc, ← List.cons_append] at haccepted
        exact (accepted_append_iff.mp haccepted).1
      refine ⟨hacc, ?_⟩
      rw [← List.cons_append] at hacc hlen ⊢
      rw [state_append [d] hrej, executeAll_singleton] at hlen ⊢
      have hd := (accepted_append_iff.mp hacc).2
      rw [executeAll_singleton] at hd
      exact hin.step hs hd hlen

/-- The last directive is accepted inside of the block and leads out of it. -/
theorem last_step (h : IsBlock c kind s first body last) (hs : IsArranged s) :
    (executeAll c (first :: (body ++ [last])) s).state =
        (execute c last (executeAll c (first :: body) s).state).state ∧
      (execute c last (executeAll c (first :: body) s).state).rejection = none ∧
      (execute c last (executeAll c (first :: body) s).state).state.scopes.length =
        s.scopes.length := by
  obtain ⟨hrej, -⟩ := h.inside_body hs List.prefix_rfl
  have haccepted := h.accepted
  have hends := h.ends
  rw [← List.cons_append] at haccepted hends ⊢
  have hlast := (accepted_append_iff.mp haccepted).2
  rw [state_append [last] hrej, executeAll_singleton] at hends ⊢
  rw [executeAll_singleton] at hlast
  exact ⟨rfl, hlast, hends⟩

end IsBlock

/-- After a block the current transform, the open blocks, the saved graphics states and the
open object are those of before, and for a block of attributes the graphics state is as
well.  After any other block it is the one that the body left, where the end of the world
closes the blocks of attributes that the body left open. -/
theorem block_restores {es : List (Event K)} (hr : Reachable c s es) {first last : Directive}
    {body : List Directive} (h : IsBlock c kind s first body last) :
    let left := (executeAll c (first :: body) s).state
    let after := (executeAll c (first :: (body ++ [last])) s).state
    after.ctm = s.ctm ∧
      (kind = .attributes → after.graphics = s.graphics) ∧
      (kind ≠ .attributes → last.name = kind.closer → after.graphics = left.graphics) ∧
      (kind ≠ .attributes → ∃ inner, left.savedGraphics = inner ++ s.savedGraphics ∧
        after.graphics = inner.getLastD left.graphics) ∧
      after.scopes = s.scopes ∧ after.savedGraphics = s.savedGraphics ∧
      Option.Rel ObjectDefinition.Grows s.openObject after.openObject := by
  intro left after
  have hs : IsArranged s := hr.invariant (isArranged_invariant c)
  obtain ⟨-, hin⟩ := h.inside_body hs List.prefix_rfl
  obtain ⟨hstate, hlast, hends⟩ := h.last_step hs
  have hrestored := hin.restored hlast hends
  have hobject := hin.openObject hs hlast hends
  rw [← hstate] at hrestored hobject
  refine ⟨hrestored.ctm, hrestored.attributes, fun hk hn => ?_, hrestored.others,
    hrestored.scopes, hrestored.savedGraphics, hobject⟩
  change (executeAll c (first :: (body ++ [last])) s).state.graphics = left.graphics
  rw [hstate]
  exact graphics_of_closer hlast hk hn

end Blocks

/-! ## A block with an object and another block inside of it -/

/-- A directive without arguments. -/
def bare (name : DirectiveName) : Directive := ⟨name, [], .empty, none⟩

/-- A move, an object whose shape is put back to the middle, and a face that is turned and,
inside of a block of its own, turned again. -/
def nestedBody : List Directive :=
  [⟨.translate, [.number 1.0, .number 0.0, .number 0.0], .empty, none⟩,
   ⟨.activeTransform, [.text "StartTime"], .empty, none⟩,
   ⟨.objectBegin, [.text "o"], .empty, none⟩, bare .identity,
   ⟨.shape, [.text "sphere"], .empty, none⟩, bare .objectEnd,
   bare .reverseOrientation, bare .attributeBegin, bare .reverseOrientation, bare .attributeEnd]

/-- The state where the world begins. -/
def worldStart : EngineState Float :=
  (executeAll ⟨.rooted [], [], none⟩ [bare .worldBegin] (.initial .empty)).state

/-- The face that the body leaves turned is turned back. -/
theorem block_restores_nested :
    IsBlock ⟨.rooted [], [], none⟩ .attributes worldStart (bare .attributeBegin) nestedBody
        (bare .attributeEnd) ∧
      (executeAll ⟨.rooted [], [], none⟩ (bare .attributeBegin :: nestedBody)
        worldStart).state.graphics.reversed = true ∧
      (executeAll ⟨.rooted [], [], none⟩ (bare .attributeBegin :: (nestedBody ++
        [bare .attributeEnd])) worldStart).state.graphics = worldStart.graphics := by
  have hblock : IsBlock ⟨.rooted [], [], none⟩ .attributes worldStart (bare .attributeBegin)
      nestedBody (bare .attributeEnd) :=
    ⟨rfl, by decide +kernel, by decide +kernel, by decide +kernel⟩
  have hreachable := reachable_executeAll (Reachable.initial (K := Float) .empty)
    (c := ⟨.rooted [], [], none⟩) [bare .worldBegin]
  exact ⟨hblock, by decide +kernel, (block_restores hreachable hblock).2.1 rfl⟩

end Engine
end SceneReader
