import SceneReader.Proofs.Directive.RoundTrip

/-!
# Strict reading

A value that does not fit its declared type is an error in strict reading, and in lenient reading
it is replaced with a warning.  Nothing else depends on which of the two it is.  So both go the
same way up to the first warning, where strict reading ends with an error at the same place.

**Invariant.**  `Hardens x y`: the strict step `x` does what the lenient step `y` does if `y` has
nothing to report, and fails at the first value that `y` recovers from otherwise.

**Results.**
* `Hardens.bind`: one step after the other.
* `hardens_buildProperty`, `hardens_parameters`, `hardens_directive`, `hardens_parse`: the rules
  of the grammar.
* `strict_iff_lenient`: strict reading of a row of tokens against lenient reading.
-/

namespace SceneReader

/-- The warning is about a value that was replaced. -/
def Diagnostic.IsRecovery (n : Diagnostic) : Prop := n.code = "W101" ∨ n.code = "W102"

namespace Parser

variable {α β : Type}

/-! ## Steps in strict and in lenient reading -/

/-- The strict step is the lenient one if that has nothing to report; if it recovers from values,
the strict step fails at the first of them, whatever the lenient one comes to. -/
inductive Hardens : Reported SceneError α → Reported SceneError α → Prop
  | same (r : Except SceneError α) : Hardens ⟨[], r⟩ ⟨[], r⟩
  | recovered {e : SceneError} {n : Diagnostic} {ns : Diagnostics} (r : Except SceneError α)
      (hcode : e.fault.code = "E108") (hspan : e.span = n.span)
      (hrecovery : ∀ m ∈ n :: ns, m.IsRecovery) : Hardens ⟨[], .error e⟩ ⟨n :: ns, r⟩

namespace Hardens

variable {x y : Reported SceneError α}

theorem pure (a : α) : Hardens (Pure.pure a) (Pure.pure a) := .same (.ok a)

theorem fail (e : SceneError) : Hardens (α := α) (.fail e) (.fail e) := .same (.error e)

theorem recoveries (h : Hardens x y) : ∀ m ∈ y.notes, m.IsRecovery := by
  cases h with
  | same r => exact List.forall_mem_nil _
  | recovered r hcode hspan hrecovery => exact hrecovery

/-- One step after the other.  An error of the first strict step is an error of both, whether or
not lenient reading goes on. -/
theorem bind {f g : α → Reported SceneError β} (hx : Hardens x y)
    (hf : ∀ a, y.result = .ok a → Hardens (f a) (g a)) : Hardens (x >>= f) (y >>= g) := by
  cases hx with
  | same r =>
      cases r with
      | error e => exact .same (.error e)
      | ok a => exact hf a rfl
  | @recovered e n ns r hcode hspan hrecovery =>
      cases r with
      | error e' => exact .recovered (.error e') hcode hspan hrecovery
      | ok a =>
          have hall : ∀ m ∈ n :: (ns ++ (g a).notes), m.IsRecovery := by
            rw [← List.cons_append]
            exact List.forall_mem_append.mpr ⟨hrecovery, (hf a rfl).recoveries⟩
          exact .recovered (g a).result hcode hspan hall

end Hardens

/-! ## Values -/

section Rules

variable (lines : Option (List String))

theorem isRecovery_warning (ctx : Context) (key : String) (kind : PropertyKind) (t : Token) :
    (warning ctx key kind t).IsRecovery := by
  cases kind with
  | floats => exact Or.inl rfl
  | ints => exact Or.inl rfl
  | strings => exact Or.inl rfl
  | bools => exact Or.inr rfl

theorem hardens_buildProperty (key type : String) (values : OneOrMore Token) :
    Hardens (buildProperty (misfit ⟨lines, true⟩ key) type values)
      (buildProperty (misfit ⟨lines, false⟩ key) type values) := by
  have hlenient : (⟨lines, false⟩ : Context).strict = false := rfl
  have hrecovery := isRecovery_warning ⟨lines, false⟩ key (kindFor type values)
  rw [buildProperty_lenient hlenient]
  cases hmisfits : misfits type values with
  | nil =>
      rw [buildProperty_built key fun _ => hmisfits, hmisfits]
      exact .same _
  | cons t ts =>
      rw [buildProperty_refused key rfl hmisfits]
      exact .recovered _ rfl rfl
        (List.forall_mem_cons.mpr ⟨hrecovery t, List.forall_mem_map.mpr fun u _ => hrecovery u⟩)

/-! ## Parameters and directives -/

/-- Which tokens are values does not depend on how they are read. -/
theorem bracketedValues_strict (key : String) (ts : List Token) :
    bracketedValues ⟨lines, true⟩ key ts = bracketedValues ⟨lines, false⟩ key ts := by
  induction ts with
  | nil => rfl
  | cons t ts ih =>
      unfold bracketedValues
      rw [ih]
      rfl

theorem takeValues_strict (key : String) (t : Token) (ts : List Token) :
    takeValues ⟨lines, true⟩ key t ts = takeValues ⟨lines, false⟩ key t ts := by
  unfold takeValues
  cases ts with
  | nil => rfl
  | cons u us =>
      dsimp only
      rw [bracketedValues_strict]
      rfl

theorem hardens_parameters (params : ParamMap) (stop : Position) (ts : List Token) :
    Hardens (parameters ⟨lines, true⟩ params stop ts)
      (parameters ⟨lines, false⟩ params stop ts) := by
  fun_induction parameters ⟨lines, false⟩ params stop ts with
  | case1 params stop =>
      rw [parameters]
      exact .pure _
  | case2 params stop t ts htext =>
      rw [parameters, htext]
      exact .pure _
  | case3 params stop t ts text htext hd =>
      rw [parameters, htext]
      dsimp only
      rw [hd]
      exact .fail _
  | case4 params stop t ts text htext type name hd key hlookup =>
      rw [parameters, htext]
      dsimp only
      rw [hd]
      dsimp only
      rw [if_pos hlookup]
      exact .fail _
  | case5 params stop t ts text htext type name hd key hlookup e hv =>
      rw [← takeValues_strict] at hv
      rw [parameters, htext]
      dsimp only
      rw [hd]
      dsimp only
      rw [if_neg hlookup]
      split
      · rename_i hv'
        rw [Except.error.inj (hv.symm.trans hv')]
        exact .fail _
      · rename_i hv'
        cases hv.symm.trans hv'
  | case6 params stop t ts text htext type name hd key hlookup q hv hlt ih =>
      rw [← takeValues_strict] at hv
      rw [parameters_cons htext hd (mt ParamMap.mem_names_iff.mp hlookup) hv]
      exact (hardens_buildProperty lines key type q.value).bind fun value _ => ih value

theorem hardens_directive (ts : List Token) :
    Hardens (directive ⟨lines, true⟩ ts) (directive ⟨lines, false⟩ ts) := by
  have hname : directiveName ⟨lines, true⟩ ts = directiveName ⟨lines, false⟩ ts := rfl
  have hargs (t : Token) (shape : ArgShape) (us : List Token) :
      arguments ⟨lines, true⟩ t shape us = arguments ⟨lines, false⟩ t shape us := rfl
  unfold directive
  rw [hname]
  cases directiveName ⟨lines, false⟩ ts with
  | error e => exact .fail e
  | ok found =>
      obtain ⟨name, t⟩ := found
      dsimp only
      rw [hargs]
      cases arguments ⟨lines, false⟩ t name.signature ts.tail with
      | error e => exact .fail e
      | ok args =>
          refine Hardens.bind ?_ fun params _ => .pure _
          rw [parametersOf_eq, parametersOf_eq]
          split
          · exact hardens_parameters lines .empty args.stop args.rest
          · exact .pure _

/-! ## Whole texts -/

/-- Parsing reads a directive and goes on with what it leaves. -/
theorem parse_eq {ctx : Context} {ts : List Token} (hend : ¬ atEnd ts = true) :
    parse ctx ts = directive ctx ts >>= fun p =>
      parse ctx p.rest >>= fun ds => pure (p.value :: ds) := by
  unfold parse
  rw [read_eq hend]
  obtain ⟨notes, _ | p⟩ := directive ctx ts
  · rfl
  · rw [Reported.ok_bind]
    dsimp only
    generalize read ctx p.rest = reading
    obtain ⟨ds, notes', _ | e⟩ := reading
    · dsimp only
      rw [Reported.ok_bind]
      change Reported.mk (notes ++ notes') _ = Reported.mk (notes ++ (notes' ++ [])) _
      rw [List.append_nil]
      rfl
    · rfl

theorem hardens_parse (ts : List Token) :
    Hardens (parse ⟨lines, true⟩ ts) (parse ⟨lines, false⟩ ts) := by
  induction hn : ts.length using Nat.strongRecOn generalizing ts with
  | ind n ih =>
      subst hn
      by_cases hend : atEnd ts = true
      · unfold parse
        rw [read, read, if_pos hend, if_pos hend]
        exact .pure []
      · rw [parse_eq hend, parse_eq hend]
        refine (hardens_directive lines ts).bind fun p hp => ?_
        refine (ih _ (length_directive_lt hp) p.rest rfl).bind fun ds _ => .pure _

end Rules

/-- Strict reading is lenient reading that has nothing to recover from.  Where lenient reading
recovers, strict reading fails at the first value that it recovers from, whether lenient reading
comes to an end or not; where it fails without having recovered, strict reading fails alike. -/
theorem strict_iff_lenient (lines : Option (List String)) (ts : List Token) :
    (∀ ds, (parse ⟨lines, true⟩ ts).result = .ok ds ↔
      (parse ⟨lines, false⟩ ts).result = .ok ds ∧ (parse ⟨lines, false⟩ ts).notes = []) ∧
    (∀ n ∈ (parse ⟨lines, false⟩ ts).notes, n.code = "W101" ∨ n.code = "W102") ∧
    (∀ n ∈ (parse ⟨lines, false⟩ ts).notes.head?, ∃ e,
      (parse ⟨lines, true⟩ ts).result = .error e ∧ e.fault.code = "E108" ∧ e.span = n.span) ∧
    (∀ e, (parse ⟨lines, false⟩ ts).notes = [] → (parse ⟨lines, false⟩ ts).result = .error e →
      (parse ⟨lines, true⟩ ts).result = .error e) ∧
    (parse ⟨lines, true⟩ ts).notes = [] := by
  have h := hardens_parse lines ts
  have hrecoveries := h.recoveries
  generalize parse ⟨lines, true⟩ ts = strict at h
  generalize parse ⟨lines, false⟩ ts = lenient at h hrecoveries
  cases h with
  | same r =>
      refine ⟨fun ds => ?_, List.forall_mem_nil _, nofun, fun e _ he => he, rfl⟩
      exact (and_iff_left rfl).symm
  | recovered r hcode hspan =>
      refine ⟨fun ds => ?_, hrecoveries, ?_, nofun, rfl⟩
      · exact iff_of_false nofun nofun
      · rintro _ ⟨⟩
        exact ⟨_, rfl, hcode, hspan⟩

end Parser
end SceneReader
