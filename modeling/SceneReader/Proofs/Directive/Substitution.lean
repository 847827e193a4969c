import SceneReader.Proofs.Directive.Statements

/-!
# Values that are replaced

A value that does not fit the kind of its parameter is replaced, and none of the others is touched:
the values stand in the order of their tokens, one for each.  Whoever builds the property is asked
about each token that does not fit, once and in order, and is never refused if the answer is zero or
false.  In lenient reading to be asked is to warn, so the warnings about a text are those about the
values of its parameters that do not fit, one for each, and there are no others.  This holds up to an
error as well: what was warned of before it is the values of the parameters that were read.

**Results.**
* `parse_notes`: the warnings about a text.
* `values_keepPlaces`: values, answers and warnings, token by token.
-/

namespace SceneReader
namespace Parser

open Grammar

variable (lines : Option (List String))

/-- The warnings about a text are those about the values of the parameters that were read. -/
theorem parse_notes (ctx : Context) (ts : List Token) :
    ∃ ss front es rest,
      ts = ss.flatMap Statement.tokens ++ (front ++ (es.flatMap Entry.all ++ rest)) ∧
      List.Forall₂ Statement.Tells ss (read ctx ts).directives ∧
      (∀ e ∈ ss.flatMap Statement.entries ++ es, e.Stands) ∧
      (parse ctx ts).notes = (ss.flatMap Statement.entries ++ es).flatMap (Entry.warnings ctx) ∧
      ∀ ds, (parse ctx ts).result = .ok ds →
        ds = (read ctx ts).directives ∧ front = [] ∧ es = [] ∧ atEnd rest = true := by
  obtain ⟨ss, front, es, rest, hts, htells, haccounts, hdone⟩ := statements_before_error ctx ts
  refine ⟨ss, front, es, rest, hts, htells, haccounts.stands, haccounts.notes_eq, fun ds h => ?_⟩
  obtain ⟨herror, hds⟩ := result_parse_iff.mp h
  exact ⟨hds.symm, hdone herror⟩

/-- The values of a parameter stand in the order of their tokens, one for each: the value of the token
if it fits the kind of the parameter, and zero or false if it does not.  A caller that answers with
zero or with false is asked about each token that does not fit, once and in order, and the values are
accepted whatever else it does; so it is with one that is only told, and in lenient reading such a
token is one warning.  The warnings about a text are those about the parameters that were read: all of
them if there is no error, and else those of the statements before it and of the one that it is
in. -/
theorem values_keepPlaces (type : String) (values : OneOrMore Token) (ts : List Token) :
    let kind := kindFor type values
    let unfit := values.toList.filter fun t => (t.valueAs? kind).isNone
    let ctx : Context := ⟨lines, false⟩
    (∃ p : Property, p.kind = kind ∧
      p.values = (values.toList.map fun t => (t.valueAs? kind).getD kind.zero) ∧
      (∀ (m : Type → Type) [Monad m] [LawfulMonad m] (told : Expectation → Token → m Substitute),
        (coerce (fun e t => Substitute.value <$> told e t) type values).run =
          (unfit.forM fun t => (fun _ => ()) <$> told kind.expectation t) >>= fun _ =>
            pure (some p)) ∧
      (∀ (m : Type → Type) [Monad m] [LawfulMonad m] (told : Expectation → Token → m Unit),
        buildProperty told type values =
          unfit.forM (told kind.expectation) >>= fun _ => pure p) ∧
      ∀ key, buildProperty (misfit ctx key) type values =
        ⟨unfit.map (warning ctx key kind), .ok p⟩) ∧
    (∀ key t, (warning ctx key kind t).code = if kind = .bools then "W102" else "W101") ∧
    ∃ ss front es rest,
      ts = ss.flatMap Statement.tokens ++ (front ++ (es.flatMap Entry.all ++ rest)) ∧
      List.Forall₂ Statement.Tells ss (read ctx ts).directives ∧
      (∀ e ∈ ss.flatMap Statement.entries ++ es, e.Stands) ∧
      (parse ctx ts).notes = (ss.flatMap Statement.entries ++ es).flatMap (Entry.warnings ctx) ∧
      ∀ ds, (parse ctx ts).result = .ok ds →
        ds = (read ctx ts).directives ∧ front = [] ∧ es = [] ∧ atEnd rest = true := by
  intro kind unfit ctx
  refine ⟨⟨reading type values, kind_reading type values, values_reading type values, ?_, ?_, ?_⟩,
    ?_, parse_notes ctx ts⟩
  · intro m _ _ told
    rw [run_coerce, buildProperty_eq, map_bind, map_pure]
    rfl
  · exact fun m _ _ told => buildProperty_eq type values told
  · exact fun key => buildProperty_lenient rfl key type values
  · intro key t
    cases kind <;> rfl

/-- Integers, with a word that is no number and a fraction among them. -/
def mixedIntegers : OneOrMore Token :=
  ⟨⟨.number 1.0, "1", .unknown⟩, [⟨.malformedNumber, "2x", .unknown⟩,
    ⟨.number 2.5, "2.5", .unknown⟩, ⟨.number 3.0, "3", .unknown⟩]⟩

/-- A caller that writes down what it is asked about, and answers now false and now zero. -/
def writesDown (_ : Expectation) (t : Token) : StateM (List String) Substitute := do
  modify (· ++ [t.lexeme])
  pure (if t.lexeme = "2x" then .no else .zero)

/-- The caller is asked twice and the values are integers; the lenient parser warns twice. -/
theorem values_keepPlaces_mixedIntegers :
    (coerce (fun e t => Substitute.value <$> writesDown e t) "integer" mixedIntegers).run.run [] =
        (some (.ints ⟨1, [0, 0, 3]⟩), ["2x", "2.5"]) ∧
      (buildProperty (misfit ⟨none, false⟩ "integer n") "integer" mixedIntegers).notes.map
        (·.code) = ["W101", "W101"] := by
  have hfirst : Number.integer? 1.0 = some 1 := by decide +kernel
  have hfraction : Number.integer? 2.5 = none := by decide +kernel
  have hlast : Number.integer? 3.0 = some 3 := by decide +kernel
  have hkindFor : kindFor "integer" mixedIntegers = .ints := by simp [kindFor]
  obtain ⟨⟨p, hkind, hvalues, hasked, -, hwarned⟩, -⟩ :=
    values_keepPlaces none "integer" mixedIntegers []
  rw [hkindFor] at hkind hvalues hasked hwarned
  have hp : p = .ints ⟨1, [0, 0, 3]⟩ := by
    have hints : p.values = [.int 1, .int 0, .int 0, .int 3] := by
      rw [hvalues]
      simp [mixedIntegers, OneOrMore.toList, Token.valueAs?, Token.integer?, Token.number?, hfirst,
        hfraction, hlast, PropertyKind.zero]
    have hchecked := Property.ofValues_values p
    rw [hkind, hints] at hchecked
    exact (Except.ok.inj hchecked).symm
  have hunfit : mixedIntegers.toList.filter (fun t => (t.valueAs? .ints).isNone) =
      [⟨.malformedNumber, "2x", .unknown⟩, ⟨.number 2.5, "2.5", .unknown⟩] := by
    simp [mixedIntegers, OneOrMore.toList, Token.valueAs?, Token.integer?, Token.number?, hfirst,
      hfraction, hlast]
  rw [hunfit] at hasked hwarned
  refine ⟨?_, ?_⟩
  · rw [hasked, hp]
    rfl
  · rw [hwarned]
    rfl

end Parser
end SceneReader
