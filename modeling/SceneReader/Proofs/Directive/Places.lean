import SceneReader.Engine.Admission
import SceneReader.Proofs.Directive.Splitting

/-!
# The parser and the places of tokens

The places of tokens get into the spans of directives, into diagnostics and into errors, and the
parser looks at them for nothing else.  Nor does it look further than to the next token behind a
directive, and this only to see that it is no string.  So the tokens of directives may stand
elsewhere, and other directives may follow them.

The grammar says which tokens a rule takes.  Here each rule is followed once more for the warnings
that it gives, and in strict reading as well.

**Results.**
* `Arguments.moved`, `Values.moved`: rules derive the same from tokens at other places.
* `misfits_moved`, `reading_moved`: values mean the same, and the same ones do not fit.
* `repeats_buildProperty`: the values of a parameter mean the same, with the same warnings.
* `parameters_exchange`, `directive_exchange`: so do parameters and a directive, whatever follows.
* `read_exchange`: so do directives, whatever other directives follow.
* `repeats_parse_moved`: so do the directives of a whole text.
* `repeats_parse`: directives between two more marks of a directory.
-/

namespace SceneReader

/-- The diagnostic without where it points. -/
def Diagnostic.unplaced (n : Diagnostic) : Diagnostic :=
  { n with span := .unknown, sourceLine := none }

/-- The directive without where it was read. -/
def Directive.unplaced (d : Directive) : Directive := { d with span := none }

namespace Directive

variable (d : Directive)

@[simp] theorem name_unplaced : d.unplaced.name = d.name := rfl

@[simp] theorem params_unplaced : d.unplaced.params = d.params := rfl

@[simp] theorem numbers_unplaced : d.unplaced.numbers = d.numbers := rfl

@[simp] theorem texts_unplaced : d.unplaced.texts = d.texts := rfl

@[simp] theorem subject_unplaced : d.unplaced.subject = d.subject := rfl

end Directive

/-! ## Steps that give the same warnings -/

namespace Reported

variable {ε α β γ δ : Type}

/-- If the first step has a value, so has the second one, the values are related, and the same is
reported but for the places. -/
def Repeats (R : α → β → Prop) (x : Reported ε α) (x' : Reported ε β) : Prop :=
  ∀ a, x.result = .ok a → ∃ a', x'.result = .ok a' ∧ R a a' ∧
    x'.notes.map Diagnostic.unplaced = x.notes.map Diagnostic.unplaced

namespace Repeats

variable {R : α → β → Prop} {S : γ → δ → Prop}

theorem pure {a : α} {b : β} (h : R a b) :
    Repeats R (Pure.pure a : Reported ε α) (Pure.pure b) := by
  rintro _ ⟨⟩
  exact ⟨b, rfl, h, rfl⟩

theorem fail {e : ε} {x' : Reported ε β} : Repeats R (Reported.fail e) x' := by
  rintro _ ⟨⟩

theorem note {n n' : Diagnostic} (h : n'.unplaced = n.unplaced) :
    Repeats (fun _ _ => True) (Reported.note n : Reported ε Unit) (Reported.note n') := by
  rintro _ ⟨⟩
  exact ⟨(), rfl, trivial, congrArg ([·]) h⟩

theorem ofExcept {r : Except ε α} {r' : Except ε β}
    (h : ∀ a, r = .ok a → ∃ b, r' = .ok b ∧ R a b) :
    Repeats R (Reported.ofExcept r) (Reported.ofExcept r') := by
  intro a ha
  obtain ⟨b, hb, hab⟩ := h a ha
  exact ⟨b, hb, hab, rfl⟩

theorem mapError {ε' : Type} {x : Reported ε α} {x' : Reported ε β} (h : Repeats R x x')
    (f : ε → ε') : Repeats R (x.mapError f) (x'.mapError f) := by
  intro a ha
  obtain ⟨b, hb, hab, hnotes⟩ := h a (Success.of_mapError ha)
  exact ⟨b, congrArg (Except.mapError f) hb, hab, hnotes⟩

/-- One step after the other. -/
theorem bind {x : Reported ε α} {x' : Reported ε β} {f : α → Reported ε γ}
    {f' : β → Reported ε δ} (hx : Repeats R x x')
    (hf : ∀ a b, x.result = .ok a → R a b → Repeats S (f a) (f' b)) :
    Repeats S (x >>= f) (x' >>= f') := by
  intro c hc
  obtain ⟨a, ha, hc⟩ := Success.of_result_bind hc
  obtain ⟨b, hb, hab, hnotes⟩ := hx a ha
  obtain ⟨d, hd, hcd, hnotes'⟩ := hf a b ha hab c hc
  refine ⟨d, (Reported.result_bind hb).trans hd, hcd, ?_⟩
  simp only [Reported.notes_bind ha, Reported.notes_bind hb, List.map_append, hnotes, hnotes']

end Repeats

end Reported

/-! ## Tokens at other places -/

/-- The same tokens at other places. -/
def Moved (ts ts' : List Token) : Prop := ts'.map Token.piece = ts.map Token.piece

/-- The function does not look at the place of a token. -/
def Placeless {α : Type} (f : Token → α) : Prop :=
  ∀ t span, f { t with span := span } = f t

namespace Moved

variable {t : Token} {ts us ts' : List Token}

theorem cons_cases (h : Moved (t :: ts) ts') :
    ∃ t' us', ts' = t' :: us' ∧ t'.piece = t.piece ∧ Moved ts us' :=
  List.map_eq_cons_iff.mp h

theorem append_cases (h : Moved (ts ++ us) ts') :
    ∃ us' vs', ts' = us' ++ vs' ∧ Moved ts us' ∧ Moved us vs' :=
  List.map_eq_append_iff.mp (h.trans List.map_append)

theorem eq_nil (h : Moved [] ts') : ts' = [] := List.map_eq_nil_iff.mp h

theorem length_eq (h : Moved ts ts') : ts'.length = ts.length := by
  simpa using congrArg List.length h

theorem map_eq {α : Type} {f : Token → α} (h : Moved ts ts') (hf : Placeless f) :
    ts'.map f = ts.map f := by
  have hpieces (ts : List Token) :
      ts.map f = (ts.map Token.piece).map fun p => f ⟨p.kind, p.lexeme, .unknown⟩ := by
    rw [List.map_map]
    exact List.map_congr_left fun t _ => (hf t .unknown).symm
  rw [hpieces, hpieces, h]

theorem kinds (h : Moved ts ts') : ts'.map Token.kind = ts.map Token.kind :=
  h.map_eq fun _ _ => rfl

theorem filter {p : Token → Bool} (h : Moved ts ts') (hp : Placeless p) :
    Moved (ts.filter p) (ts'.filter p) := by
  have hpieces (ts : List Token) : (ts.filter p).map Token.piece =
      (ts.map Token.piece).filter fun q => p ⟨q.kind, q.lexeme, .unknown⟩ := by
    rw [List.filter_map]
    exact congrArg _ (List.filter_congr fun t _ => (hp t .unknown).symm)
  rw [Moved, hpieces, hpieces, h]

end Moved

/-- A token at another place. -/
theorem Token.eq_of_piece {t t' : Token} (h : t'.piece = t.piece) :
    t' = { t with span := t'.span } := by
  obtain ⟨kind, lexeme, span⟩ := t'
  obtain ⟨rfl, rfl⟩ := Lexer.Piece.mk.inj h
  rfl

namespace Grammar

variable {us us' : List Token} {args : List Argument}

theorem forall₂_moved {P : TokenKind → Argument → Prop}
    (h : List.Forall₂ (fun t a => P t.kind a) us args) (hmoved : Moved us us') :
    List.Forall₂ (fun t a => P t.kind a) us' args := by
  have hkinds : List.Forall₂ P (us.map Token.kind) args := List.forall₂_map_left_iff.mpr h
  rw [← hmoved.kinds] at hkinds
  exact List.forall₂_map_left_iff.mp hkinds

theorem Numbers.moved (h : Numbers us args) (hmoved : Moved us us') : Numbers us' args :=
  forall₂_moved (P := fun k a => ∃ x, k = .number x ∧ a = .number x) h hmoved

theorem Strings.moved (h : Strings us args) (hmoved : Moved us us') : Strings us' args :=
  forall₂_moved (P := fun k a => ∃ s, k = .string s ∧ a = .text s) h hmoved

/-- Arguments at other places are the same arguments. -/
theorem Arguments.moved {shape : ArgShape} (h : Arguments shape us args)
    (hmoved : Moved us us') : Arguments shape us' args := by
  have hlength := hmoved.length_eq
  cases h with
  | nothing =>
      obtain rfl := hmoved.eq_nil
      exact .nothing
  | numbers hcount h => exact .numbers (hlength.trans hcount) (h.moved hmoved)
  | bareMatrix hcount h => exact .bareMatrix (hlength.trans hcount) (h.moved hmoved)
  | matrix hl hcount h hr =>
      obtain ⟨l', rest, rfl, hl', hrest⟩ := hmoved.cons_cases
      obtain ⟨ts', rs', rfl, hts, hrs⟩ := hrest.append_cases
      obtain ⟨r', _, rfl, hr', hnil⟩ := hrs.cons_cases
      obtain rfl := hnil.eq_nil
      exact .matrix ((congrArg Lexer.Piece.kind hl').trans hl) (hts.length_eq.trans hcount)
        (h.moved hts) ((congrArg Lexer.Piece.kind hr').trans hr)
  | @keyword t hkind hword =>
      obtain ⟨t', _, rfl, ht, hnil⟩ := hmoved.cons_cases
      obtain rfl := hnil.eq_nil
      have hlexeme : t'.lexeme = t.lexeme := congrArg Lexer.Piece.lexeme ht
      rw [← hlexeme] at hword ⊢
      exact .keyword ((congrArg Lexer.Piece.kind ht).trans hkind) hword
  | name hcount h => exact .name (hlength.trans hcount) (h.moved hmoved)
  | oneOrTwoNames hcount h => exact .oneOrTwoNames (hlength ▸ hcount) (h.moved hmoved)
  | named hcount h => exact .named (hlength.trans hcount) (h.moved hmoved)
  | texture hcount h => exact .texture (hlength.trans hcount) (h.moved hmoved)

theorem Literal.moved {t t' : Token} (h : Literal t) (ht : t'.piece = t.piece) : Literal t' := by
  rw [Token.eq_of_piece ht]
  cases h with
  | number x h => exact .number x h
  | malformed h => exact .malformed h
  | string s h => exact .string s h
  | truth h hword => exact .truth h hword

/-- Values at other places are the same values. -/
theorem Values.moved {values : OneOrMore Token} (h : Values us values) (hmoved : Moved us us') :
    ∃ values', Values us' values' ∧ Moved values.toList values'.toList := by
  cases h with
  | literal h =>
      obtain ⟨t', _, rfl, ht, hnil⟩ := hmoved.cons_cases
      obtain rfl := hnil.eq_nil
      exact ⟨⟨t', []⟩, .literal (h.moved ht), congrArg ([·]) ht⟩
  | list values hl h hr =>
      obtain ⟨l', rest, rfl, hl', hrest⟩ := hmoved.cons_cases
      obtain ⟨vs', rs', rfl, hvs, hrs⟩ := hrest.append_cases
      obtain ⟨r', _, rfl, hr', hnil⟩ := hrs.cons_cases
      obtain rfl := hnil.eq_nil
      obtain ⟨head, tail, rfl, hhead, htail⟩ := hvs.cons_cases
      refine ⟨⟨head, tail⟩, .list ⟨head, tail⟩ ((congrArg Lexer.Piece.kind hl').trans hl) ?_
        ((congrArg Lexer.Piece.kind hr').trans hr), hvs⟩
      have hkinds : ∀ k ∈ values.toList.map Token.kind, Parser.isValue k = true :=
        List.forall_mem_map.mpr h
      rw [← hvs.kinds] at hkinds
      exact List.forall_mem_map.mp hkinds

end Grammar

namespace Parser

open Grammar

variable {ctx ctx' : Context}

/-! ## Values -/

theorem kindFor_moved (type : String) {values values' : OneOrMore Token}
    (hmoved : Moved values.toList values'.toList) : kindFor type values' = kindFor type values := by
  have hall : values'.toList.all (fun t => t.number?.isSome) =
      values.toList.all fun t => t.number?.isSome := by
    have hnumbers : values'.toList.map (·.number?) = values.toList.map (·.number?) :=
      hmoved.map_eq fun _ _ => rfl
    have h := congrArg (List.all · Option.isSome) hnumbers
    rwa [List.all_map, List.all_map] at h
  have hhead : untypedKind values'.head = untypedKind values.head := by
    rw [Token.eq_of_piece (List.cons.inj hmoved).1]
    rfl
  unfold kindFor
  rw [hall, hhead]

theorem placeless_valueAs? (kind : PropertyKind) : Placeless (Token.valueAs? kind) := by
  intro t span
  cases kind <;> rfl

theorem misfits_moved (type : String) {values values' : OneOrMore Token}
    (hmoved : Moved values.toList values'.toList) :
    Moved (misfits type values) (misfits type values') := by
  unfold misfits
  rw [kindFor_moved type hmoved]
  exact hmoved.filter fun t span => congrArg Option.isNone (placeless_valueAs? _ t span)

theorem reading_moved (type : String) {values values' : OneOrMore Token}
    (hmoved : Moved values.toList values'.toList) :
    reading type values' = reading type values := by
  have hkind := kindFor_moved type hmoved
  refine Property.eq_of_values ?_ ?_
  · rw [kind_reading, kind_reading, hkind]
  · rw [values_reading, values_reading, hkind]
    exact hmoved.map_eq fun t span =>
      congrArg (Option.getD · (kindFor type values).zero) (placeless_valueAs? _ t span)

/-- Values at other places make the same property, with the same warnings. -/
theorem repeats_buildProperty (hstrict : ctx'.strict = ctx.strict) (key type : String)
    {values values' : OneOrMore Token} (hmoved : Moved values.toList values'.toList) :
    Reported.Repeats Eq (buildProperty (misfit ctx key) type values)
      (buildProperty (misfit ctx' key) type values') := by
  have hmisfits := misfits_moved type hmoved
  have hunplaced (ctx : Context) (kind : PropertyKind) : Placeless fun t =>
      (warning ctx key kind t).unplaced := by
    intro t span
    cases kind <;> rfl
  rcases buildProperty_cases ctx key type values with ⟨t, -, hbuild⟩ | ⟨hnone, hbuild⟩
  · rw [hbuild]
    exact .fail
  · have hnone' : ctx'.strict = true → misfits type values' = [] := by
      intro h
      rw [hnone (hstrict ▸ h)] at hmisfits
      exact hmisfits.eq_nil
    rw [hbuild, buildProperty_built key hnone', reading_moved type hmoved,
      kindFor_moved type hmoved]
    rintro _ ⟨⟩
    refine ⟨_, rfl, rfl, ?_⟩
    dsimp only
    rw [List.map_map, List.map_map]
    exact hmisfits.map_eq (hunplaced ctx _)

/-! ## Parameters -/

variable {ts : List Token}

/-- What is read as parameters is read from the same tokens elsewhere, with the same warnings,
whatever follows that is no string. -/
theorem parameters_exchange (hstrict : ctx'.strict = ctx.strict) {params : ParamMap}
    {stop : Position} {p : Parsed ParamMap}
    (h : (parameters ctx params stop ts).result = .ok p) :
    ∃ us, ts = us ++ p.rest ∧ ∀ us' rest' stop', Moved us us' →
      (∀ t ∈ rest'.head?, t.string? = none) →
      Reported.Repeats (fun q q' => q'.value = q.value ∧ q'.rest = rest')
        (parameters ctx params stop ts) (parameters ctx' params stop' (us' ++ rest')) := by
  fun_induction parameters ctx params stop ts with
  | case1 params stop =>
      cases h
      refine ⟨[], rfl, fun us' rest' stop' hmoved hrest => ?_⟩
      rw [hmoved.eq_nil, List.nil_append, parameters_of_noString hrest]
      exact .pure ⟨rfl, rfl⟩
  | case2 params stop t ts hs =>
      cases h
      refine ⟨[], rfl, fun us' rest' stop' hmoved hrest => ?_⟩
      rw [hmoved.eq_nil, List.nil_append, parameters_of_noString hrest]
      exact .pure ⟨rfl, rfl⟩
  | case3 => cases h
  | case4 => cases h
  | case5 => cases h
  | case6 params stop t ts text hs type name hd key hlookup q hv hlt ih =>
      obtain ⟨value, hvalue, h⟩ := Success.of_result_bind h
      obtain ⟨us, hus, hexchange⟩ := ih value h
      obtain ⟨vs, htakes, hvs⟩ := takeValues_sound (stopOf t) hv
      refine ⟨t :: (vs ++ us), ?_, fun us' rest' stop' hmoved hrest => ?_⟩
      · rw [List.cons_append, List.append_assoc, ← hus, ← htakes.tokens]
      · obtain ⟨t', tail, rfl, ht, htail⟩ := hmoved.cons_cases
        obtain ⟨vs', us', rfl, hvs', hus'⟩ := htail.append_cases
        obtain ⟨values', hvalues', hsame⟩ := hvs.moved hvs'
        have hs' : t'.string? = some text := by
          rw [Token.eq_of_piece ht]
          exact hs
        have hnew := mt ParamMap.mem_names_iff.mp hlookup
        have hv' : takeValues ctx' key t' (vs' ++ (us' ++ rest')) =
            .ok ⟨values', stopAfter stop' vs', us' ++ rest'⟩ := takeValues_complete hvalues' stop'
        rw [List.cons_append, List.append_assoc, parameters_cons hs' hd hnew hv']
        refine (repeats_buildProperty hstrict key type hsame).bind ?_
        rintro v _ hv rfl
        obtain rfl := Except.ok.inj (hv.symm.trans hvalue)
        exact hexchange us' rest' _ hus' hrest

/-- What is read as the parameters of a shape is read from the same tokens elsewhere. -/
theorem parametersOf_exchange (hstrict : ctx'.strict = ctx.strict) {shape : ArgShape}
    {stop : Position} {p : Parsed ParamMap}
    (h : (parametersOf ctx shape stop ts).result = .ok p) :
    ∃ us, ts = us ++ p.rest ∧ (shape = .oneOrTwoNames → us = []) ∧
      ∀ us' rest' stop', Moved us us' → (∀ t ∈ rest'.head?, t.string? = none) →
        Reported.Repeats (fun q q' => q'.value = q.value ∧ q'.rest = rest')
          (parametersOf ctx shape stop ts) (parametersOf ctx' shape stop' (us' ++ rest')) := by
  simp only [parametersOf_eq] at h ⊢
  cases hshape : shape.hasParams with
  | true =>
      rw [if_pos hshape] at h
      obtain ⟨us, hts, hexchange⟩ := parameters_exchange hstrict h
      refine ⟨us, hts, ?_, hexchange⟩
      rintro rfl
      cases hshape
  | false =>
      rw [hshape] at h
      cases h
      refine ⟨[], rfl, fun _ => rfl, fun us' rest' stop' hmoved _ => ?_⟩
      rw [hmoved.eq_nil]
      exact .pure ⟨rfl, rfl⟩

/-! ## Directives -/

/-- A directive is read from the same tokens elsewhere, with the same warnings, whatever follows
that is no string. -/
theorem directive_exchange (hstrict : ctx'.strict = ctx.strict) {p : Parsed Directive}
    (h : (directive ctx ts).result = .ok p) :
    ∃ us, ts = us ++ p.rest ∧ Block us p.value ∧ ∀ us' rest', Moved us us' →
      (∀ t ∈ rest'.head?, t.string? = none) →
      Reported.Repeats (fun q q' => q'.value.unplaced = q.value.unplaced ∧ q'.rest = rest')
        (directive ctx ts) (directive ctx' (us' ++ rest')) := by
  obtain ⟨us, hts, hblock⟩ := directive_sound h
  refine ⟨us, hts, hblock, fun us' rest' hmoved hrest => ?_⟩
  unfold directive at h
  split at h
  · cases h
  · rename_i name t hname
    split at h
    · cases h
    · rename_i args hargs
      obtain ⟨params, hparams, h⟩ := Success.of_result_bind h
      cases h
      obtain ⟨htokens, hkind, hlexeme⟩ := directiveName_sound hname
      obtain ⟨as, htakes, has⟩ := arguments_sound hargs
      obtain ⟨ps, hps, hnone, hexchange⟩ := parametersOf_exchange hstrict hparams
      obtain rfl : us = t :: (as ++ ps) := by
        refine List.append_cancel_right (hts.symm.trans ?_)
        rw [List.cons_append, List.append_assoc, ← hps, ← htakes.tokens, ← htokens]
      obtain ⟨t', tail, rfl, ht, htail⟩ := hmoved.cons_cases
      obtain ⟨as', ps', rfl, has', hps'⟩ := htail.append_cases
      have ht' : t'.kind = .identifier ∧ t'.lexeme = name.text := by
        rw [Token.eq_of_piece ht]
        exact ⟨hkind, hlexeme⟩
      have hnext : name.signature = .oneOrTwoNames →
          ∀ u ∈ (ps' ++ rest').head?, u.string? = none := by
        intro hshape
        obtain rfl := hnone hshape
        rw [hps'.eq_nil]
        exact hrest
      rw [List.cons_append, List.append_assoc, directive_eq ht'.1 ht'.2 (has.moved has') hnext]
      unfold directive
      rw [hname]
      dsimp only
      rw [hargs]
      refine (hexchange ps' rest' _ hps' hrest).bind ?_
      rintro q q' - ⟨hvalue, hrest'⟩
      refine .pure ⟨?_, hrest'⟩
      dsimp only [Directive.unplaced]
      rw [hvalue]

/-! ## Whole texts -/

/-- What begins with no string still does at other places. -/
theorem noString_moved {us us' more : List Token} (hmoved : Moved us us')
    (hus : ∀ t ∈ us.head?, t.string? = none) (hmore : ∀ t ∈ more.head?, t.string? = none) :
    ∀ t ∈ (us' ++ more).head?, t.string? = none := by
  cases us with
  | nil =>
      rw [hmoved.eq_nil]
      exact hmore
  | cons u us =>
      obtain ⟨u', us', rfl, hu, -⟩ := hmoved.cons_cases
      rintro _ ⟨⟩
      rw [Token.eq_of_piece hu]
      exact hus u rfl

/-- What is read to the end is read from the same tokens elsewhere, with the same warnings, whatever
directives follow. -/
theorem read_exchange (hstrict : ctx'.strict = ctx.strict) (h : (read ctx ts).error = none) :
    ∃ body rest, ts = body ++ rest ∧ atEnd rest = true ∧ (∀ t ∈ body, t.kind ≠ .endOfInput) ∧
      (∀ t ∈ body.head?, t.string? = none) ∧
      ∀ body' more, Moved body body' → (∀ t ∈ more.head?, t.string? = none) →
        ∃ ds notes, read ctx' (body' ++ more) =
            ⟨ds ++ (read ctx' more).directives, notes ++ (read ctx' more).notes,
              (read ctx' more).error⟩ ∧
          ds.map Directive.unplaced = (read ctx ts).directives.map Directive.unplaced ∧
          notes.map Diagnostic.unplaced = (read ctx ts).notes.map Diagnostic.unplaced := by
  fun_induction read ctx ts with
  | case1 ts hend =>
      refine ⟨[], ts, rfl, hend, List.forall_mem_nil _,
        fun t ht => (Option.not_mem_none t ht).elim, fun body' more hmoved _ => ?_⟩
      rw [hmoved.eq_nil]
      exact ⟨[], [], rfl, rfl, rfl⟩
  | case2 => cases h
  | case3 ts hend d p hd hlt r ih =>
      obtain ⟨us, hts, hblock, hone⟩ := directive_exchange hstrict hd
      obtain ⟨body, rest, hbody, hatEnd, hnotEnd, hhead, hmany⟩ := ih h
      obtain ⟨u, us, rfl, hkind⟩ := hblock.front
      refine ⟨u :: us ++ body, rest, ?_, hatEnd,
        List.forall_mem_append.mpr ⟨hblock.not_end, hnotEnd⟩, ?_, ?_⟩
      · rw [List.append_assoc, ← hbody, ← hts]
      · rintro _ ⟨⟩
        simp [Token.string?, hkind]
      · intro body' more hmoved hmore
        obtain ⟨us', body', rfl, hus, hmoved⟩ := hmoved.append_cases
        obtain ⟨q, hq, ⟨hvalue, hrest⟩, hnotes⟩ :=
          hone us' (body' ++ more) hus (noString_moved hmoved hhead hmore) p hd
        obtain ⟨ds, notes, hread, hds, hnotes'⟩ := hmany body' more hmoved hmore
        obtain ⟨u', us', rfl, hu, -⟩ := hus.cons_cases
        have hnotEnd' : ¬ atEnd (u' :: us' ++ (body' ++ more)) = true := by
          rw [Token.eq_of_piece hu]
          simp [atEnd, Token.isEnd, hkind]
        refine ⟨q.value :: ds, (directive ctx' (u' :: us' ++ (body' ++ more))).notes ++ notes,
          ?_, ?_, ?_⟩
        · rw [List.append_assoc, read_eq hnotEnd', hq]
          dsimp only
          rw [hrest, hread, List.append_assoc]
          rfl
        · rw [List.map_cons, List.map_cons, hvalue, hds]
        · rw [List.map_append, List.map_append, hnotes, hnotes']

theorem atEnd_moved {ts ts' : List Token} (hmoved : Moved ts ts') : atEnd ts' = atEnd ts := by
  cases ts with
  | nil => rw [hmoved.eq_nil]
  | cons t ts =>
      obtain ⟨t', us', rfl, ht, -⟩ := hmoved.cons_cases
      rw [Token.eq_of_piece ht]
      rfl

/-- The directives of a text are those of the same tokens elsewhere, with the same warnings. -/
theorem repeats_parse_moved (hstrict : ctx'.strict = ctx.strict) {ts ts' : List Token}
    (hmoved : Moved ts ts') :
    Reported.Repeats (fun ds ds' => ds'.map Directive.unplaced = ds.map Directive.unplaced)
      (parse ctx ts) (parse ctx' ts') := by
  intro ds h
  obtain ⟨herror, rfl⟩ := result_parse_iff.mp h
  obtain ⟨body, rest, rfl, hatEnd, -, -, hexchange⟩ := read_exchange hstrict herror
  obtain ⟨body', rest', rfl, hbody, hrest⟩ := hmoved.append_cases
  have hatEnd' : atEnd rest' = true := (atEnd_moved hrest).trans hatEnd
  have hnone : ∀ t ∈ rest'.head?, t.string? = none := by
    intro t ht
    cases rest' with
    | nil => cases ht
    | cons u us =>
        obtain rfl : u = t := Option.some.inj ht
        rw [Token.string?, Token.isEnd_iff.mp hatEnd']
  obtain ⟨ds, notes, hread, hds, hnotes⟩ := hexchange body' rest' hbody hnone
  have hend : read ctx' rest' = ⟨[], [], none⟩ := by
    rw [read, if_pos hatEnd']
  rw [hend, List.append_nil, List.append_nil] at hread
  refine ⟨ds, ?_, hds, ?_⟩
  · rw [result_parse_iff, hread]
    exact ⟨rfl, rfl⟩
  · change (read ctx' _).notes.map Diagnostic.unplaced = (read ctx _).notes.map Diagnostic.unplaced
    rw [hread, hnotes]

/-! ## Between two more marks -/

theorem read_workDirBegin (ctx : Context) {b q : Token} {dir : String}
    (hb : b.piece = ⟨.identifier, "WorkDirBegin"⟩) (hq : q.kind = .string dir) (rest : List Token) :
    ∃ d, d.name = .workDirBegin ∧ d.subject = dir ∧
      read ctx (b :: q :: rest) =
        ⟨d :: (read ctx rest).directives, (read ctx rest).notes, (read ctx rest).error⟩ := by
  have hkind : b.kind = .identifier := congrArg Lexer.Piece.kind hb
  have hname : b.lexeme = DirectiveName.workDirBegin.text := congrArg Lexer.Piece.lexeme hb
  have hargs : Arguments DirectiveName.workDirBegin.signature [q] [.text dir] :=
    .name rfl (.cons ⟨dir, hq, rfl⟩ .nil)
  have hdirective : directive ctx (b :: ([q] ++ rest)) = _ :=
    directive_eq hkind hname hargs nofun
  have hnotEnd : ¬ atEnd (b :: q :: rest) = true := by simp [atEnd, Token.isEnd, hkind]
  rw [List.cons_append, List.nil_append] at hdirective
  rw [read_eq hnotEnd, hdirective]
  exact ⟨_, rfl, rfl, rfl⟩

theorem read_workDirEnd (ctx : Context) {e : Token}
    (he : e.piece = ⟨.identifier, "WorkDirEnd"⟩) (rest : List Token) :
    ∃ d, d.name = .workDirEnd ∧ read ctx (e :: rest) =
      ⟨d :: (read ctx rest).directives, (read ctx rest).notes, (read ctx rest).error⟩ := by
  have hkind : e.kind = .identifier := congrArg Lexer.Piece.kind he
  have hname : e.lexeme = DirectiveName.workDirEnd.text := congrArg Lexer.Piece.lexeme he
  have hargs : Arguments DirectiveName.workDirEnd.signature [] [] := .nothing
  have hdirective : directive ctx (e :: ([] ++ rest)) = _ :=
    directive_eq hkind hname hargs nofun
  have hnotEnd : ¬ atEnd (e :: rest) = true := by simp [atEnd, Token.isEnd, hkind]
  rw [List.nil_append] at hdirective
  rw [read_eq hnotEnd, hdirective]
  exact ⟨_, rfl, rfl⟩

/-- Directives that were read elsewhere stand between two more marks of a directory. -/
def IsEnclosed (dir : String) (ds ds' : List Directive) : Prop :=
  ∃ b inner e, ds' = b :: (inner ++ [e]) ∧ (b.name = .workDirBegin ∧ b.subject = dir) ∧
    e.name = .workDirEnd ∧ inner.map Directive.unplaced = ds.map Directive.unplaced

/-- Tokens that stand elsewhere, between two more marks of a directory. -/
theorem repeats_parse (hstrict : ctx'.strict = ctx.strict) {body body' : List Token}
    {last b q e last' : Token} {dir : String} (hbody : ∀ t ∈ body, t.kind ≠ .endOfInput)
    (hlast : last.kind = .endOfInput) (hb : b.piece = ⟨.identifier, "WorkDirBegin"⟩)
    (hq : q.kind = .string dir) (hmoved : Moved body body')
    (he : e.piece = ⟨.identifier, "WorkDirEnd"⟩) (hlast' : last'.kind = .endOfInput) :
    Reported.Repeats (IsEnclosed dir) (parse ctx (body ++ [last]))
      (parse ctx' (b :: q :: (body' ++ [e, last']))) := by
  intro ds h
  obtain ⟨herror, rfl⟩ := result_parse_iff.mp h
  obtain ⟨front, rest, hts, hatEnd, hfront, -, hexchange⟩ := read_exchange hstrict herror
  obtain ⟨rfl, rfl⟩ := body_unique hts hbody hfront hlast hatEnd
  have hnext : ∀ t ∈ [e, last'].head?, t.string? = none := by
    rintro _ ⟨⟩
    have hkind : e.kind = .identifier := congrArg Lexer.Piece.kind he
    simp [Token.string?, hkind]
  obtain ⟨inner, notes, hread, hinner, hnotes⟩ := hexchange body' [e, last'] hmoved hnext
  obtain ⟨d, hd, hdir, hfirst⟩ := read_workDirBegin ctx' hb hq (body' ++ [e, last'])
  obtain ⟨d', hd', hsecond⟩ := read_workDirEnd ctx' he [last']
  have hend : read ctx' [last'] = ⟨[], [], none⟩ := by
    rw [read, if_pos (by simp [atEnd, Token.isEnd, hlast'])]
  rw [hend] at hsecond
  rw [hread, hsecond] at hfirst
  refine ⟨d :: (inner ++ [d']), ?_, ⟨d, inner, d', rfl, ⟨hd, hdir⟩, hd', hinner⟩, ?_⟩
  · rw [result_parse_iff, hfirst]
    exact ⟨rfl, rfl⟩
  · change (read ctx' _).notes.map Diagnostic.unplaced = (read ctx _).notes.map Diagnostic.unplaced
    rw [hfirst]
    dsimp only
    rw [List.append_nil, hnotes]

end Parser

end SceneReader
