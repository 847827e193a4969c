import SceneReader.Proofs.Directive.Splitting
import SceneReader.Proofs.Directive.Strictness
import SceneReader.Proofs.Param.Coercion

/-!
# Statements among tokens

A directive as it stands among the tokens of a text: its name, its arguments and its parameters, each
of these a declaration and a value.  Reading goes from statement to statement, and where it ends in an
error it has read some parameters of the statement in which the error is.

**Invariant.**  `Accounts`: all that was reported are the warnings about values of the parameters
that were read, one for each value that does not fit, and in strict reading there is no such value.

**Results.**
* `entries_of_parameters`, `statement_of_directive`, `statements_before_error`: what was read, token by
  token, and what was reported of it.
-/

namespace SceneReader

/-- The token can be read as a value of the kind. -/
def Token.Fits (t : Token) : PropertyKind → Prop
  | .strings => True
  | .bools => t.bool?.isSome = true
  | .ints => t.integer?.isSome = true
  | .floats => t.number?.isSome = true

theorem Token.fits_iff {t : Token} {kind : PropertyKind} :
    t.Fits kind ↔ (t.valueAs? kind).isSome = true := by
  cases kind <;> simp [Fits, valueAs?]

theorem misfits_eq_nil_iff {type : String} {values : OneOrMore Token} :
    misfits type values = [] ↔ ∀ t ∈ values.toList, t.Fits (kindFor type values) := by
  simp [misfits, Token.fits_iff, Option.isSome_iff_ne_none]

namespace Grammar

open SceneReader.Parser (Context)

/-! ## What stands among the tokens -/

/-- A parameter as it stands among tokens. -/
structure Entry where
  declaration : Token
  type : String
  name : String
  /-- The value, with its brackets if it is a list. -/
  tokens : List Token
  values : OneOrMore Token

/-- A directive as it stands among tokens. -/
structure Statement where
  name : Token
  args : List Token
  entries : List Entry

namespace Entry

/-- The tokens of the parameter. -/
def all (e : Entry) : List Token := e.declaration :: e.tokens

/-- The parameter that is stored. -/
def param (e : Entry) : Param := ⟨e.type, e.name, reading e.type e.values⟩

/-- The declaration declares type and name, and the tokens are the value. -/
structure Stands (e : Entry) : Prop where
  declares : ∃ text, e.declaration.kind = .string text ∧ Declares text e.type e.name
  values : Values e.tokens e.values

/-- Every value token can be read as what the parameter holds. -/
def IsRead (e : Entry) : Prop := ∀ t ∈ e.values.toList, t.Fits (kindFor e.type e.values)

/-- The warnings about the values that do not fit, in order. -/
def warnings (ctx : Context) (e : Entry) : Diagnostics :=
  (misfits e.type e.values).map
    (Parser.warning ctx (makeKey e.type e.name) (kindFor e.type e.values))

end Entry

namespace Statement

/-- The tokens of the directive. -/
def tokens (s : Statement) : List Token := s.name :: (s.args ++ s.entries.flatMap Entry.all)

/-- The tokens are those of the directive. -/
structure Tells (s : Statement) (d : Directive) : Prop where
  name : s.name.kind = .identifier ∧ s.name.lexeme = d.name.text
  args : Arguments d.name.signature s.args d.args
  entries : ∀ e ∈ s.entries, e.Stands
  params : d.params = ⟨s.entries.map Entry.param⟩

end Statement

/-- The parameters stand among the tokens, and the reports are the warnings about their values.  In
strict reading there is nothing to warn of. -/
structure Accounts (ctx : Context) (es : List Entry) (notes : Diagnostics) : Prop where
  stands : ∀ e ∈ es, e.Stands
  strict : ctx.strict = true → ∀ e ∈ es, e.IsRead
  notes_eq : notes = es.flatMap (Entry.warnings ctx)

namespace Accounts

variable {ctx : Context} {es fs : List Entry} {notes more : Diagnostics}

theorem nil (ctx : Context) : Accounts ctx [] [] :=
  ⟨List.forall_mem_nil _, fun _ => List.forall_mem_nil _, rfl⟩

theorem append (h : Accounts ctx es notes) (hmore : Accounts ctx fs more) :
    Accounts ctx (es ++ fs) (notes ++ more) where
  stands := List.forall_mem_append.mpr ⟨h.stands, hmore.stands⟩
  strict hstrict := List.forall_mem_append.mpr ⟨h.strict hstrict, hmore.strict hstrict⟩
  notes_eq := by rw [h.notes_eq, hmore.notes_eq, List.flatMap_append]

theorem cons {e : Entry} (hstands : e.Stands) (hstrict : ctx.strict = true → e.IsRead)
    (h : Accounts ctx es notes) : Accounts ctx (e :: es) (e.warnings ctx ++ notes) where
  stands := List.forall_mem_cons.mpr ⟨hstands, h.stands⟩
  strict hctx := List.forall_mem_cons.mpr ⟨hstrict hctx, h.strict hctx⟩
  notes_eq := by rw [h.notes_eq, List.flatMap_cons]

end Accounts

end Grammar

namespace Parser

open Grammar

variable {ctx : Context} {ts : List Token}

/-! ## Parameters, directives and texts -/

/-- Parameters as they stand among the tokens, up to the last one or to an error. -/
theorem entries_of_parameters (ctx : Context) (params : ParamMap) (stop : Position)
    (ts : List Token) : ∃ es rest, ts = es.flatMap Entry.all ++ rest ∧
      Accounts ctx es (parameters ctx params stop ts).notes ∧
      ∀ p, (parameters ctx params stop ts).result = .ok p →
        rest = p.rest ∧ p.value = ⟨params.entries ++ es.map Entry.param⟩ := by
  have hfail (params : ParamMap) (ts : List Token) (e : SceneError) :
      ∃ es rest, ts = es.flatMap Entry.all ++ rest ∧ Accounts ctx es [] ∧
        ∀ p : Parsed ParamMap, Except.error e = Except.ok p →
          rest = p.rest ∧ p.value = ⟨params.entries ++ es.map Entry.param⟩ :=
    ⟨[], ts, rfl, .nil ctx, nofun⟩
  have hdone (params : ParamMap) (stop : Position) (ts : List Token) :
      ∃ es rest, ts = es.flatMap Entry.all ++ rest ∧ Accounts ctx es [] ∧
        ∀ p, (Except.ok ⟨params, stop, ts⟩ : Except SceneError (Parsed ParamMap)) = .ok p →
          rest = p.rest ∧ p.value = ⟨params.entries ++ es.map Entry.param⟩ := by
    refine ⟨[], ts, rfl, .nil ctx, ?_⟩
    rintro _ ⟨⟩
    exact ⟨rfl, by rw [List.map_nil, List.append_nil]⟩
  fun_induction parameters ctx params stop ts with
  | case1 params stop => exact hdone params stop []
  | case2 params stop t ts hnone => exact hdone params stop (t :: ts)
  | case3 params stop t ts => exact hfail params (t :: ts) _
  | case4 params stop t ts => exact hfail params (t :: ts) _
  | case5 params stop t ts => exact hfail params (t :: ts) _
  | case6 params stop t ts text htext type name hd key hlookup q hq hlt ih =>
      rcases buildProperty_cases ctx key type q.value with ⟨u, -, hbuild⟩ | ⟨hstrict, hbuild⟩
      · rw [hbuild]
        exact hfail params (t :: ts) _
      · have hnew := mt ParamMap.mem_names_iff.mp hlookup
        have hset : (params.set ⟨type, name, reading type q.value⟩).entries =
            params.entries ++ [⟨type, name, reading type q.value⟩] := ParamMap.entries_set hnew
        obtain ⟨es, rest, hes, haccounts, hparams⟩ := ih (reading type q.value)
        obtain ⟨us, htakes, hvalues⟩ := takeValues_sound (stopOf t) hq
        have hstands : Entry.Stands ⟨t, type, name, us, q.value⟩ :=
          ⟨⟨text, Token.string?_eq_some_iff.mp htext, declaration?_iff.mp hd⟩, hvalues⟩
        rw [hbuild, Reported.ok_bind]
        refine ⟨⟨t, type, name, us, q.value⟩ :: es, rest, ?_,
          .cons hstands (fun h => misfits_eq_nil_iff.mp (hstrict h)) haccounts, fun p hp => ?_⟩
        · rw [List.flatMap_cons, List.append_assoc, ← hes]
          exact congrArg (t :: ·) htakes.tokens
        · obtain ⟨hrest, hvalue⟩ := hparams p hp
          refine ⟨hrest, ?_⟩
          rw [hvalue, hset, List.append_assoc]
          rfl

/-- A directive as it stands among the tokens, or its parameters up to an error. -/
theorem statement_of_directive (ctx : Context) (ts : List Token) :
    ∃ front es rest, ts = front ++ (es.flatMap Entry.all ++ rest) ∧
      Accounts ctx es (directive ctx ts).notes ∧
      ∀ p, (directive ctx ts).result = .ok p → rest = p.rest ∧
        ∃ s : Statement, s.tokens = front ++ es.flatMap Entry.all ∧ s.entries = es ∧
          s.Tells p.value := by
  unfold directive
  split
  · exact ⟨[], [], ts, rfl, .nil ctx, nofun⟩
  · rename_i name t hname
    obtain ⟨hts, hkind, hlexeme⟩ := directiveName_sound hname
    split
    · exact ⟨[], [], ts, rfl, .nil ctx, nofun⟩
    · rename_i args hargs
      obtain ⟨us, htakes, hus⟩ := arguments_sound hargs
      obtain ⟨es, rest, hes, haccounts, hparams⟩ : ∃ es rest,
          args.rest = es.flatMap Entry.all ++ rest ∧
            Accounts ctx es (parametersOf ctx name.signature args.stop args.rest).notes ∧
            ∀ p, (parametersOf ctx name.signature args.stop args.rest).result = .ok p →
              rest = p.rest ∧ p.value = ⟨es.map Entry.param⟩ := by
        rw [parametersOf_eq]
        split
        · exact entries_of_parameters ctx .empty args.stop args.rest
        · refine ⟨[], args.rest, rfl, .nil ctx, ?_⟩
          rintro _ ⟨⟩
          exact ⟨rfl, rfl⟩
      refine ⟨t :: us, es, rest, ?_, ?_, fun p hp => ?_⟩
      · rw [hts, htakes.tokens, hes, List.cons_append]
      · cases hresult : (parametersOf ctx name.signature args.stop args.rest).result with
        | error e =>
            rw [Reported.bind_of_error hresult]
            exact haccounts
        | ok p =>
            rw [Reported.notes_bind hresult]
            exact (List.append_nil _).symm ▸ haccounts
      · obtain ⟨params, hresult, hp⟩ := Success.of_result_bind hp
        cases hp
        obtain ⟨hrest, hvalue⟩ := hparams params hresult
        exact ⟨hrest, ⟨t, us, es⟩, rfl, rfl, ⟨hkind, hlexeme⟩, hus, haccounts.stands, hvalue⟩

/-- A text is read statement by statement, up to its end or to an error behind some parameters of
the statement in which the error is. -/
theorem statements_before_error (ctx : Context) (ts : List Token) :
    ∃ ss front es rest,
      ts = ss.flatMap Statement.tokens ++ (front ++ (es.flatMap Entry.all ++ rest)) ∧
      List.Forall₂ Statement.Tells ss (read ctx ts).directives ∧
      Accounts ctx (ss.flatMap Statement.entries ++ es) (read ctx ts).notes ∧
      ((read ctx ts).error = none → front = [] ∧ es = [] ∧ atEnd rest = true) := by
  fun_induction read ctx ts with
  | case1 ts hend => exact ⟨[], [], [], ts, rfl, .nil, .nil ctx, fun _ => ⟨rfl, rfl, hend⟩⟩
  | case2 ts hend _ e hd =>
      obtain ⟨front, es, rest, hts, haccounts, -⟩ := statement_of_directive ctx ts
      refine ⟨[], front, es, rest, hts, .nil, haccounts, fun h => ?_⟩
      exact absurd h (Option.some_ne_none e)
  | case3 ts hend _ p hd _ _ ih =>
      obtain ⟨front, es, rest, hts, haccounts, hread⟩ := statement_of_directive ctx ts
      obtain ⟨rfl, s, htokens, rfl, htells⟩ := hread p hd
      obtain ⟨ss, front', es, rest, hrest, hss, hmore, hdone⟩ := ih
      refine ⟨s :: ss, front', es, rest, ?_, .cons htells hss, ?_, hdone⟩
      · rw [List.flatMap_cons, List.append_assoc, ← hrest, htokens, List.append_assoc, hts]
      · rw [List.flatMap_cons, List.append_assoc]
        exact haccounts.append hmore

end Parser
end SceneReader
