import SceneReader.Proofs.Directive.Recognition

/-!
# What the parser complains of

All errors of the parser are errors of the grammar.  An error, and a warning about a value that
does not fit, is about one of the tokens and shows the line of this token.  What is missing
at the end of the input is told without a line.

The parser may have taken tokens before it complains, and the rules are followed with all tokens
of the text in view: what a rule is given are some of them.

**Results.**
* `Tells.bind`: what steps in sequence tell of.
* `tells_buildProperty`: complaints of the values of a parameter.
* `tells_parameters`, `tells_directive`: complaints of parameters and of directives.
* `faults_read`: the parser has no other errors than those of the grammar.
* `tells_parse`: all complaints about a text.
-/

namespace SceneReader

/-! ## What steps tell of -/

/-- The error of a result satisfies a condition, if there is an error. -/
def Errs {ε α : Type} (E : ε → Prop) (r : Except ε α) : Prop := ∀ e, r = .error e → E e

namespace Errs

variable {ε α β : Type} {E : ε → Prop}

theorem ok (a : α) : Errs E (.ok a) := nofun

theorem error {e : ε} (h : E e) : Errs E (.error e : Except ε α) := by
  rintro _ ⟨⟩
  exact h

theorem map {r : Except ε α} (h : Errs E r) (f : α → β) : Errs E (r.map f) :=
  fun e he => h e (Success.map_eq_error_iff.mp he)

end Errs

namespace Reported

/-- All that a step reports satisfies a condition, and the error that it ends in another one. -/
structure Tells {ε α : Type} (N : Diagnostic → Prop) (E : ε → Prop) (x : Reported ε α) :
    Prop where
  notes : ∀ n ∈ x.notes, N n
  error : Errs E x.result

namespace Tells

variable {ε α β : Type} {N : Diagnostic → Prop} {E : ε → Prop}

theorem pure (a : α) : Tells N E (Pure.pure a : Reported ε α) := ⟨List.forall_mem_nil _, .ok a⟩

theorem fail {e : ε} (h : E e) : Tells N E (Reported.fail e : Reported ε α) :=
  ⟨List.forall_mem_nil _, .error h⟩

theorem bind {x : Reported ε α} {f : α → Reported ε β} (hx : Tells N E x)
    (hf : ∀ a, x.result = .ok a → Tells N E (f a)) : Tells N E (x >>= f) := by
  cases hresult : x.result with
  | error e =>
      rw [bind_of_error hresult]
      exact ⟨hx.notes, .error (hx.error e hresult)⟩
  | ok a =>
      have ha := hf a hresult
      refine ⟨fun n hn => ?_, fun e he => ha.error e ((result_bind hresult).symm.trans he)⟩
      rw [notes_bind hresult] at hn
      exact (List.mem_append.mp hn).elim (hx.notes n) (ha.notes n)

end Tells

end Reported

namespace Parser

open Grammar

/-! ## Complaints -/

section Complaints

variable (ctx : Context) (ts : List Token)

/-- The span is that of one of the tokens, and the line is the line of this token, or there is
no line. -/
def AboutToken (span : Span) (line : Option String) : Prop :=
  line = none ∨ ∃ t ∈ ts, t.kind ≠ .endOfInput ∧ span = t.span ∧ line = ctx.lineOf t

/-- The warning is about one of the tokens. -/
def IsWarning (n : Diagnostic) : Prop := AboutToken ctx ts n.span n.sourceLine

/-- The error is one of the grammar, and about one of the tokens or about the end of the input. -/
structure IsComplaint (e : SceneError) : Prop where
  grammatical : e.fault.kind = .grammatical
  about : AboutToken ctx ts e.span e.sourceLine

end Complaints

variable {ctx : Context} {all ts : List Token} {t : Token} {key : String}

theorem isComplaint_error (ht : t ∈ all) (hkind : t.kind ≠ .endOfInput) {f : Fault}
    (hf : f.kind = .grammatical) : IsComplaint ctx all (ctx.error f t) :=
  ⟨hf, Or.inr ⟨t, ht, hkind, rfl, rfl⟩⟩

theorem isComplaint_expected (what : String) (hts : ts ⊆ all) :
    IsComplaint ctx all (ctx.expected what ts) := by
  cases ts with
  | nil => exact ⟨rfl, Or.inl rfl⟩
  | cons t ts =>
      unfold Context.expected
      dsimp only
      split
      · exact ⟨rfl, Or.inl rfl⟩
      · rename_i hend
        exact isComplaint_error (hts List.mem_cons_self) (mt Token.isEnd_iff.mpr hend) rfl

/-! ## Arguments -/

/-- Arguments that do not fit are told of where the directive is. -/
theorem errs_arguments (ht : t ∈ all) (hkind : t.kind ≠ .endOfInput) (shape : ArgShape)
    (ts : List Token) : Errs (IsComplaint ctx all) (arguments ctx t shape ts) := by
  have hrefuse (expected : String) : IsComplaint ctx all (ctx.wrongArguments t expected) :=
    isComplaint_error ht hkind rfl
  have hstrings (least most : Nat) (expected : String) :
      Errs (IsComplaint ctx all) (strings ctx t least most expected ts) := by
    unfold strings
    dsimp only
    split
    · exact .ok _
    · exact .error (hrefuse expected)
  cases shape with
  | nothing => exact .ok _
  | numbers count =>
      unfold arguments numbers
      dsimp only
      split
      · exact .ok _
      · exact .error (hrefuse _)
  | matrix =>
      unfold arguments matrix
      dsimp only
      split
      · exact .error (hrefuse _)
      · split
        · split
          · split
            · exact .ok _
            · exact .error (hrefuse _)
          · exact .error (hrefuse _)
        · split
          · exact .ok _
          · exact .error (hrefuse _)
  | keyword =>
      unfold arguments keyword
      dsimp only
      split
      · exact .error (hrefuse _)
      · split
        · split
          · exact .ok _
          · exact .error (hrefuse _)
        · exact .error (hrefuse _)
  | name => exact hstrings 1 1 _
  | oneOrTwoNames => exact hstrings 1 2 _
  | named => exact hstrings 1 1 _
  | texture => exact hstrings 3 3 _

/-! ## Values -/

theorem errs_bracketedValues (hts : ts ⊆ all) :
    Errs (IsComplaint ctx all) (bracketedValues ctx key ts) := by
  induction ts with
  | nil => exact .error (isComplaint_expected _ hts)
  | cons t ts ih =>
      unfold bracketedValues
      split
      · exact .ok _
      · exact .error (isComplaint_expected _ hts)
      · exact .error (isComplaint_expected _ hts)
      · exact (ih (List.cons_subset.mp hts).2).map _

theorem errs_takeValues (ht : t ∈ all) (hkind : t.kind ≠ .endOfInput) (hts : ts ⊆ all) :
    Errs (IsComplaint ctx all) (takeValues ctx key t ts) := by
  unfold takeValues
  dsimp only
  split
  · exact .error (isComplaint_expected _ hts)
  · split
    · split
      · rename_i e he
        exact .error (errs_bracketedValues (List.cons_subset.mp hts).2 e he)
      · split
        · exact .ok _
        · exact .error (isComplaint_error ht hkind rfl)
    · split
      · exact .ok _
      · exact .error (isComplaint_expected _ hts)

/-- Values that do not fit are told of where they are. -/
theorem tells_buildProperty (type : String) {values : OneOrMore Token}
    (hvalues : ∀ u ∈ values.toList, u ∈ all ∧ u.kind ≠ .endOfInput) :
    (buildProperty (misfit ctx key) type values).Tells (IsWarning ctx all)
      (IsComplaint ctx all) := by
  have hmisfits : ∀ u ∈ misfits type values, u ∈ all ∧ u.kind ≠ .endOfInput :=
    fun u hu => hvalues u (List.mem_of_mem_filter hu)
  rcases buildProperty_cases ctx key type values with ⟨u, hu, hbuild⟩ | ⟨-, hbuild⟩
  · obtain ⟨hmem, hkind⟩ := hmisfits u hu
    rw [hbuild]
    exact .fail (isComplaint_error hmem hkind rfl)
  · rw [hbuild]
    refine ⟨List.forall_mem_map.mpr fun u hu => ?_, .ok _⟩
    obtain ⟨hmem, hkind⟩ := hmisfits u hu
    exact Or.inr ⟨u, hmem, hkind, rfl, rfl⟩

/-! ## Parameters and directives -/

theorem rest_subset {us rest : List Token} (h : ts = us ++ rest) (hts : ts ⊆ all) :
    rest ⊆ all := fun _ ht => hts (h ▸ List.mem_append_right us ht)

theorem Values.mem_tokens {us : List Token} {values : OneOrMore Token} (h : Values us values) :
    ∀ u ∈ values.toList, u ∈ us ∧ u.kind ≠ .endOfInput := by
  have hend := h.not_end
  intro u hu
  suffices hmem : u ∈ us from ⟨hmem, hend u hmem⟩
  cases h with
  | literal => exact hu
  | list => exact List.mem_cons_of_mem _ (List.mem_append_left _ hu)

theorem tells_parameters (params : ParamMap) (stop : Position) (hts : ts ⊆ all) :
    (parameters ctx params stop ts).Tells (IsWarning ctx all) (IsComplaint ctx all) := by
  have hstring {t : Token} {text : String} (h : t.string? = some text) :
      t.kind ≠ .endOfInput := by
    rw [Token.string?_eq_some_iff.mp h]
    exact nofun
  fun_induction parameters ctx params stop ts with
  | case1 => exact .pure _
  | case2 => exact .pure _
  | case3 params stop t ts text hs =>
      exact .fail (isComplaint_error (hts List.mem_cons_self) (hstring hs) rfl)
  | case4 params stop t ts text hs =>
      exact .fail (isComplaint_error (hts List.mem_cons_self) (hstring hs) rfl)
  | case5 params stop t ts text hs type name hd key hlookup e hv =>
      obtain ⟨ht, hts⟩ := List.cons_subset.mp hts
      exact .fail (errs_takeValues ht (hstring hs) hts e hv)
  | case6 params stop t ts text hs type name hd key hlookup q hv hlt ih =>
      obtain ⟨-, hts⟩ := List.cons_subset.mp hts
      obtain ⟨us, htakes, hvalues⟩ := takeValues_sound stop hv
      refine (tells_buildProperty type fun u hu => ?_).bind fun value _ =>
        ih value (rest_subset htakes.tokens hts)
      obtain ⟨hmem, hkind⟩ := Values.mem_tokens hvalues u hu
      exact ⟨hts (htakes.tokens ▸ List.mem_append_left q.rest hmem), hkind⟩

theorem tells_directive (ctx : Context) (hts : ts ⊆ all) :
    (directive ctx ts).Tells (IsWarning ctx all) (IsComplaint ctx all) := by
  have hname : Errs (IsComplaint ctx all) (directiveName ctx ts) := by
    unfold directiveName
    split
    · exact .error (isComplaint_expected _ hts)
    · split
      · exact .error (isComplaint_expected _ hts)
      · rename_i word hword
        split
        · refine .error (isComplaint_error (hts List.mem_cons_self) ?_ rfl)
          rw [(Token.identifier?_eq_some_iff.mp hword).1]
          rintro ⟨⟩
        · exact .ok _
  unfold directive
  split
  · rename_i e he
    exact .fail (hname e he)
  · rename_i name t hfound
    obtain ⟨htokens, hkind, -⟩ := directiveName_sound hfound
    rw [htokens] at hts
    obtain ⟨ht, htail⟩ := List.cons_subset.mp hts
    have hnotEnd : t.kind ≠ .endOfInput := by
      rw [hkind]
      rintro ⟨⟩
    split
    · rename_i e he
      exact .fail (errs_arguments ht hnotEnd name.signature ts.tail e he)
    · rename_i args hargs
      obtain ⟨us, htakes, -⟩ := arguments_sound hargs
      refine Reported.Tells.bind ?_ fun _ _ => .pure _
      rw [parametersOf_eq]
      split
      · exact tells_parameters .empty _ (rest_subset htakes.tokens htail)
      · exact .pure _

/-! ## Whole texts -/

/-- All complaints about a text, the error that ends it and the warnings before. -/
theorem tells_read (ctx : Context) (hts : ts ⊆ all) :
    (∀ n ∈ (read ctx ts).notes, IsWarning ctx all n) ∧
      ∀ e, (read ctx ts).error = some e → IsComplaint ctx all e := by
  fun_induction read ctx ts with
  | case1 =>
      refine ⟨List.forall_mem_nil _, ?_⟩
      rintro _ ⟨⟩
  | case2 ts hend _ e hd =>
      have htells := tells_directive ctx hts
      refine ⟨htells.notes, ?_⟩
      rintro _ ⟨⟩
      exact htells.error e hd
  | case3 ts hend _ p hd _ _ ih =>
      obtain ⟨us, htokens, -⟩ := directive_sound hd
      obtain ⟨hnotes, herror⟩ := ih (rest_subset htokens hts)
      refine ⟨fun n hn => ?_, herror⟩
      exact (List.mem_append.mp hn).elim ((tells_directive ctx hts).notes n) (hnotes n)

/-- The parser has no other errors than those of the grammar. -/
theorem faults_read (ctx : Context) (ts : List Token) :
    ∀ e, (read ctx ts).error = some e → e.fault.kind = .grammatical := fun e he =>
  ((tells_read ctx (List.Subset.refl ts)).2 e he).grammatical

/-- All complaints about a text are about its tokens. -/
theorem tells_parse (ctx : Context) (ts : List Token) :
    (parse ctx ts).Tells (IsWarning ctx ts) (IsComplaint ctx ts) := by
  obtain ⟨hnotes, herror⟩ := tells_read ctx (List.Subset.refl ts)
  refine ⟨hnotes, ?_⟩
  unfold parse
  dsimp only
  cases h : (read ctx ts).error with
  | none => exact .ok _
  | some e => exact .error (herror e h)

end Parser
end SceneReader
