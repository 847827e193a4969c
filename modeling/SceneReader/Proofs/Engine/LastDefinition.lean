import SceneReader.Proofs.Engine.Definition

/-!
# The last definition of an object

An object may be defined again under its name, and a placement finds the last definition
that was completed.  Until an object of the name is begun again, nothing that is read
changes what the name stands for: not the blocks and shapes in between, and not the
definitions of other objects.

**Results.**
* `Closed.settled`, `settled_of_effect`: what closing blocks and one directive keep.
* `settled_executeAll`: a row of directives in which no object of the name begins.
* `exists_lastDefinition`: what begins before an accepted placement is complete by then.
* `object_of_lastDefinition`: what a name stands for after its last definition.
* `execute_instance`: the placement of an object.
-/

namespace SceneReader
namespace Engine

variable {K : Type} {s s' : EngineState K} {es : List (Event K)} {name : String}

/-- The directive begins an object of the name. -/
def beginsObject (name : String) (d : Directive) : Bool :=
  decide (d.name = .objectBegin) && decide (d.subject = name)

/-! ## What a name stands for -/

/-- The object of a name is settled: none of the name is open, and the name stands for the
object. -/
structure Settled (name : String) (found : Option (ObjectDefinition K)) (s : EngineState K) :
    Prop where
  apart : ∀ o ∈ s.openObject, o.name ≠ name
  found : s.objects.get? name = found

variable {found : Option (ObjectDefinition K)}

/-- The end of another object leaves the one of the name alone. -/
theorem Closed.settled (hc : Closed s s' es) (h : Settled name found s) :
    Settled name found s' := by
  cases hc with
  | nothing hs => exact h
  | attributes scope rest hs hk =>
      unfold restoreGraphics
      split <;> exact ⟨h.apart, h.found⟩
  | object scope rest o hs hk ho =>
      refine ⟨nofun, ?_⟩
      rw [Table.get?_put_of_ne _ (h.apart o ho).symm]
      exact h.found
  | plain scope rest hs hk ho => exact ⟨h.apart, h.found⟩

theorem ClosedAll.settled (hc : ClosedAll s s' es) (h : Settled name found s) :
    Settled name found s' := by
  induction hc with
  | nil s => exact h
  | cons first rest ih => exact ih (first.settled h)

variable {d : Directive}

theorem Kept.settled (hk : Kept d s s') (h : Settled name found s) : Settled name found s' := by
  refine ⟨fun o' ho' => ?_, by rw [hk.objects]; exact h.found⟩
  have hgrows := hk.grows
  rw [Option.mem_def] at ho'
  rw [ho'] at hgrows
  cases hs : s.openObject with
  | none =>
      rw [hs] at hgrows
      cases hgrows
  | some o =>
      rw [hs] at hgrows
      cases hgrows with
      | some hsame =>
          rw [hsame.1]
          exact h.apart o hs

variable [Scalar K] {c : EngineContext}

/-- A directive that begins no object of the name leaves the one of the name alone. -/
theorem settled_of_effect (he : Effect d s s' es) (hd : beginsObject name d = false)
    (h : Settled name found s) : Settled name found s' := by
  by_cases hstructural : isStructural d.name = true
  · cases he with
    | worldBegin hn => exact ⟨h.apart, h.found⟩
    | worldEnd hn s₁ es hc =>
        obtain ⟨hapart, hfound⟩ := hc.settled h
        exact ⟨hapart, hfound⟩
    | opened kind hk hn => exact ⟨h.apart, h.found⟩
    | closed kind hn s₁ es hc => exact hc.settled h
    | objectBegin hn =>
        refine ⟨fun o ho => ?_, h.found⟩
        rw [← Option.some.inj ho]
        simpa [beginsObject, hn] using hd
    | directories hn dirs => exact ⟨h.apart, h.found⟩
    | _ => simp_all [isStructural]
  · exact (kept_of_effect he (Bool.eq_false_iff.mpr hstructural)).settled h

theorem settled_executeAll {ds : List Directive} (h : Settled name found s)
    (hacc : (executeAll c ds s).rejection = none)
    (hnames : ∀ d ∈ ds, beginsObject name d = false) :
    Settled name found (executeAll c ds s).state := by
  induction ds generalizing s with
  | nil => exact h
  | cons d ds ih =>
      obtain ⟨hd, hds⟩ := accepted_cons_iff.mp hacc
      obtain ⟨hname, hrest⟩ := List.forall_mem_cons.mp hnames
      obtain ⟨-, es, he, -⟩ := effect_of_accepted hd
      rw [state_cons hd]
      exact ih (settled_of_effect he hname ⟨h.apart, h.found⟩) hds hrest

/-! ## The last definition -/

/-- The row of directives defines an object of the name from `first` to `last`, and does not
begin one of the name again after that. -/
structure IsLastDefinition (name : String) (ds before : List Directive) (first : Directive)
    (body : List Directive) (last : Directive) (between : List Directive) : Prop where
  row : ds = before ++ first :: (body ++ last :: between)
  complete : IsDefinition first body last
  named : first.subject = name
  final : ∀ d ∈ between, beginsObject name d = false

theorem exists_last_split {α : Type} {p : α → Bool} {xs : List α} (h : ∃ x ∈ xs, p x = true) :
    ∃ as x bs, xs = as ++ x :: bs ∧ p x = true ∧ ∀ y ∈ bs, p y = false := by
  obtain ⟨x, hx, hpx⟩ := h
  obtain ⟨y, as, bs, hbefore, hy, hrow, -⟩ :=
    List.exists_of_eraseP (List.mem_reverse.mpr hx) hpx
  refine ⟨bs.reverse, y, as.reverse, ?_, hy, ?_⟩
  · rw [← List.reverse_reverse xs, hrow]
    simp
  · intro z hz
    exact Bool.eq_false_iff.mpr (hbefore z (List.mem_reverse.mp hz))

/-- An object that begins before an accepted placement is complete there. -/
theorem exists_objectEnd {first i : Directive} {rest : List Directive}
    (hacc : (executeAll c (first :: (rest ++ [i])) s).rejection = none)
    (hfirst : first.name = .objectBegin) (hi : i.name = .objectInstance) :
    ∃ d ∈ rest, d.name = .objectEnd := by
  by_contra hnone
  obtain ⟨hbegin, hrest⟩ := accepted_cons_iff.mp hacc
  obtain ⟨hbody, hlast⟩ := accepted_append_iff.mp hrest
  obtain ⟨hin, ho, -⟩ := inBody_of_begin hbegin hfirst
  have hworld := ne_worldEnd_of_accepted hrest (by rw [hi]; rfl)
  obtain ⟨inner, sts, -, -, hopen, -⟩ := hin.executeAll hbody
    (fun d hd => ⟨fun hn => hnone ⟨d, hd, hn⟩, hworld d hd⟩) ho
  -- the object would be open where it is placed
  rw [executeAll_singleton] at hlast
  have hclosed := openObject_of_permit_objectInstance (performed_of_accepted hlast).1 hi
  rw [hopen] at hclosed
  cases hclosed

theorem exists_lastDefinition {before : List Directive} {i : Directive}
    (hacc : (executeAll c (before ++ [i]) s).rejection = none) (hi : i.name = .objectInstance)
    (hbegun : ∃ d ∈ before, beginsObject name d = true) :
    ∃ earlier first body last between,
      IsLastDefinition name before earlier first body last between := by
  obtain ⟨earlier, first, rest, rfl, hfirst, hfinal⟩ := exists_last_split hbegun
  simp only [beginsObject, Bool.and_eq_true, decide_eq_true_eq] at hfirst
  obtain ⟨hname, hsubject⟩ := hfirst
  rw [List.append_assoc, List.cons_append] at hacc
  obtain ⟨-, hrest⟩ := accepted_append_iff.mp hacc
  obtain ⟨e, he, hend⟩ := exists_objectEnd hrest hname hi
  -- the first end after the begin is that of the object
  obtain ⟨last, body, between, hbody, hlast, rfl, -⟩ :=
    List.exists_of_eraseP (p := fun d : Directive => decide (d.name = .objectEnd)) he
      (decide_eq_true hend)
  simp only [decide_eq_true_eq] at hbody hlast
  refine ⟨earlier, first, body, last, between, rfl, ⟨hname, hbody, hlast⟩, hsubject, ?_⟩
  intro d hd
  exact hfinal d (List.mem_append_right _ (List.mem_cons_of_mem _ hd))

/-- After its last definition a name stands for the shapes that are stated in it, seen from
where it began. -/
theorem object_of_lastDefinition {ds earlier body between : List Directive}
    {first last : Directive} (h : IsLastDefinition name ds earlier first body last between)
    (hacc : (executeAll c ds s).rejection = none) :
    ∃ sts, (executeAll c ds s).state.objects.get? name = some ⟨name, sts⟩ ∧
      List.Forall₂ (fun p st => Captures (executeAll c earlier s).state.ctm p.1 p.2 st)
        (statedShapes c body (executeAll c (earlier ++ [first]) s).state) sts := by
  obtain ⟨rfl, hdef, rfl, hfinal⟩ := h
  have hrow : first :: (body ++ last :: between) = first :: (body ++ [last]) ++ between := by simp
  rw [hrow] at hacc ⊢
  obtain ⟨hearlier, hrest⟩ := accepted_append_iff.mp hacc
  obtain ⟨hdefinition, hbetween⟩ := accepted_append_iff.mp hrest
  obtain ⟨sts, hput, hclosed, hsts⟩ := defined_of_accepted hdef hdefinition
  have hsettled : Settled first.subject (some ⟨first.subject, sts⟩)
      (executeAll c (first :: (body ++ [last])) (executeAll c earlier s).state).state := by
    refine ⟨by rw [hclosed]; nofun, ?_⟩
    rw [hput, Table.get?_put_self]
  refine ⟨sts, ?_, ?_⟩
  · rw [state_append _ hearlier, state_append _ hdefinition]
    exact (settled_executeAll hsettled hbetween hfinal).found
  · rw [state_append _ hearlier, executeAll_singleton]
    exact hsts

/-! ## Placements -/

/-- The placement of an object that is there is reported at the current transform, and
changes nothing. -/
theorem execute_instance {i : Directive} {o : ObjectDefinition K}
    (hacc : (execute c i s).rejection = none) (hi : i.name = .objectInstance)
    (hbegun : s.begun = true) (ho : s.objects.get? i.subject = some o) :
    (execute c i s).state = s ∧ (execute c i s).events = [.placed o s.ctm] := by
  have hsame : { s with begun := true } = s := by rw [← hbegun]
  obtain ⟨-, hstate, hevents⟩ := performed_of_accepted hacc
  have hplace : (perform c i).run s = ⟨(), s, [.placed o s.ctm], []⟩ := by
    unfold perform placeObject
    rw [hi]
    dsimp only
    rw [Action.run_state_bind, ho]
    rfl
  rw [hsame, hplace] at hstate hevents
  refine ⟨hstate, ?_⟩
  rw [hevents, (begin_run c s).2, if_pos hbegun]
  rfl

end Engine
end SceneReader
