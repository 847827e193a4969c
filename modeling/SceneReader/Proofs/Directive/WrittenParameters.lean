import SceneReader.Proofs.Directive.WrittenArguments

/-!
# Parameters that are read back

A parameter is written as its key, in quotes, and its values between brackets.  The parser
reads the same parameter again unless something in it cannot be read: a key or a text that
runs over its end, a number that is written as a word, or truth values without a declared
type, which are texts for whoever reads them.

**Results.**
* `buildProperty_eq_pure_iff`: what a row of tokens is read as without a warning.
* `readsBack_value`: the values of a parameter are read back when they are legible.
* `readsBack_parameters`: so is a list of parameters.
-/

namespace SceneReader

open Lexer (Tokens Cut Quotable spaced)

/-- The values are written in a way that can be read. -/
def Property.Legible : Property → Prop
  | floats xs => ∀ x ∈ xs.toList, Number.isWord x = false
  | strings ss => ∀ s ∈ ss.toList, Quotable s
  | _ => True

/-- The numbers with a fraction among the values. -/
def Property.numbers : Property → List Float
  | floats xs => xs.toList
  | _ => []

/-- The parameter is written in a way that can be read. -/
structure Param.Legible (p : Param) : Prop where
  key : Quotable p.key
  value : p.value.Legible
  typed : p.type = "" → p.value.kind ≠ .bools

/-- The words that a parameter is written in. -/
def Param.words (p : Param) : List String :=
  Text.quote p.key :: "[" :: (p.value.items ++ ["]"])

/-- The tokens that values are written as. -/
def Property.WrittenAs (us : List Token) : Property → Prop
  | floats xs => List.Forall₂ (fun u x => u.kind = numberToken x) us xs.toList
  | ints is =>
      List.Forall₂ (fun u i => u.kind = Lexer.numberKind (Number.integerText i).toList) us is.toList
  | strings ss => List.Forall₂ (fun u s => u.kind = .string s) us ss.toList
  | bools bs => List.Forall₂ (fun u b => u.kind = .string (boolText b)) us bs.toList

/-- The tokens that values are read from without a warning. -/
def Property.ReadFrom (us : List Token) : Property → Prop
  | floats xs => List.Forall₂ (fun u x => u.number? = some x) us xs.toList
  | ints is => List.Forall₂ (fun u i => u.integer? = some i) us is.toList
  | strings ss => us.map Token.asText = ss.toList
  | bools bs => List.Forall₂ (fun u b => u.bool? = some b) us bs.toList

theorem lexes_integerText {i : Int} (h : ∃ x, Number.integer? x = some i) :
    Lexer.Lexes (Number.integerText i) (Lexer.numberKind (Number.integerText i).toList) := by
  obtain ⟨x, hx⟩ := h
  obtain ⟨y, hy, -⟩ := Number.denotes_integerText hx
  rw [Lexer.numberKind_of_denotes hy]
  exact .number hy

theorem lexes_boolText (b : Bool) :
    Lexer.Lexes (Text.quote (boolText b)) (.string (boolText b)) := by
  have hquotable : ∀ b, Quotable (boolText b) := by decide
  exact .quote (hquotable b)

/-- The words of a legible parameter are one token each. -/
theorem lexes_paramWords {p : Param} (hp : p.Declared)
    (hexact : ∀ x ∈ p.value.numbers, Number.Exact x) (hlegible : p.Legible) :
    ∀ w ∈ p.words, ∃ kind, Lexer.Lexes w kind := by
  have hitems : ∀ w ∈ p.value.items, ∃ kind, Lexer.Lexes w kind := by
    have hints := hp.integers
    have hvalue := hlegible.value
    generalize p.value = v at *
    cases v with
    | floats xs => exact List.forall_mem_map.mpr fun x hx => ⟨_, lexes_numberText (hexact x hx)⟩
    | ints is =>
        exact List.forall_mem_map.mpr fun i hi => ⟨_, lexes_integerText (hints is rfl i hi)⟩
    | strings ss => exact List.forall_mem_map.mpr fun s hs => ⟨_, .quote (hvalue s hs)⟩
    | bools bs => exact List.forall_mem_map.mpr fun b _ => ⟨_, lexes_boolText b⟩
  rw [Param.words, List.forall_mem_cons, List.forall_mem_cons, List.forall_mem_append,
    List.forall_mem_singleton]
  exact ⟨⟨_, .quote hlegible.key⟩, ⟨_, Lexer.lexes_leftBracket⟩, hitems,
    _, Lexer.lexes_rightBracket⟩

namespace Parser

variable {ctx : Context} {key type : String} {values : OneOrMore Token}

/-! ## What tokens are read as -/

theorem misfit_ne_pure (expected : Expectation) (t : Token) (u : Unit) :
    misfit ctx key expected t ≠ pure u := by
  unfold misfit
  intro h
  split at h
  · cases h
  · cases h

theorem valueOr_eq_pure_iff {α : Type} (ctx : Context) (key : String) (expected : Expectation)
    (substitute : α) {read? : Token → Option α} {t : Token} {a : α} :
    valueOr (misfit ctx key) expected substitute read? t = pure a ↔ read? t = some a := by
  unfold valueOr
  cases read? t with
  | none =>
      refine iff_of_false (fun h => ?_) (Option.some_ne_none a).symm
      obtain ⟨u, hu, -⟩ := Success.of_bind_eq_pure h
      exact absurd hu (misfit_ne_pure expected t u)
  | some b =>
      refine ⟨fun h => ?_, ?_⟩
      · cases h
        rfl
      · rintro ⟨⟩
        rfl

theorem mapM_valueOr_eq_pure_iff {α : Type} {expected : Expectation} {substitute : α}
    {read? : Token → Option α} {as : OneOrMore α} :
    values.mapM (valueOr (misfit ctx key) expected substitute read?) = pure as ↔
      List.Forall₂ (fun u a => read? u = some a) values.toList as.toList := by
  obtain ⟨t, ts⟩ := values
  obtain ⟨a, as⟩ := as
  simp only [OneOrMore.toList, List.forall₂_cons,
    ← valueOr_eq_pure_iff ctx key expected substitute, ← Success.mapM_eq_pure_iff]
  constructor
  · intro h
    obtain ⟨b, hb, h⟩ := Success.of_bind_eq_pure h
    obtain ⟨bs, hbs, h⟩ := Success.of_bind_eq_pure h
    cases h
    exact ⟨hb, hbs⟩
  · rintro ⟨ha, has⟩
    unfold OneOrMore.mapM
    rw [ha, pure_bind, has, pure_bind]

/-- What a row of tokens is read as without a warning. -/
theorem buildProperty_eq_pure_iff {v : Property} :
    buildProperty (misfit ctx key) type values = pure v ↔
      kindFor type values = v.kind ∧ v.ReadFrom values.toList := by
  have map_eq_pure_iff : ∀ {α : Type} {x : Reported SceneError α} {f : α → Property},
      (x >>= fun a => pure (f a)) = pure v ↔ ∃ a, x = pure a ∧ f a = v := by
    intro α x f
    constructor
    · intro h
      obtain ⟨a, ha, h⟩ := Success.of_bind_eq_pure h
      cases h
      exact ⟨a, ha, rfl⟩
    · rintro ⟨a, rfl, rfl⟩
      rfl
  unfold buildProperty
  split
  all_goals
    rename_i hkind
    rw [hkind]
  · cases v with
    | strings ss =>
        simp only [Property.kind, Property.ReadFrom, true_and]
        constructor
        · intro h
          cases h
          rfl
        · intro h
          obtain ⟨s, rest⟩ := ss
          obtain ⟨rfl, rfl⟩ := List.cons.inj h
          rfl
    | floats | ints | bools =>
        constructor
        · intro h
          cases h
        · rintro ⟨h, -⟩
          cases h
  all_goals
    rw [map_eq_pure_iff]
    cases v with
    | floats | ints | strings | bools =>
        simp [Property.kind, Property.ReadFrom, mapM_valueOr_eq_pure_iff]

/-! ## What written values are read as -/

theorem kindFor_floats (htype : PropertyKind.floats ∈ kindsOf type)
    (hvalues : ∀ t ∈ values.toList, t.number?.isSome = true) :
    kindFor type values = .floats := by
  have hall : values.toList.all (fun t => t.number?.isSome) = true := List.all_eq_true.mpr hvalues
  have hhead : untypedKind values.head = .floats := by
    have hnumber := hvalues values.head List.mem_cons_self
    unfold Token.number? at hnumber
    unfold untypedKind
    split at hnumber
    · rename_i hkind
      rw [hkind]
    · cases hnumber
  unfold kindsOf at htype
  unfold kindFor
  split_ifs at htype with h1 h2 h3 h4 h5 <;> simp_all

theorem kindFor_ints (htype : PropertyKind.ints ∈ kindsOf type) :
    kindFor type values = .ints := by
  unfold kindsOf at htype
  unfold kindFor
  split_ifs at htype with h1 h2 h3 h4 h5 <;> simp_all

theorem kindFor_strings (htype : PropertyKind.strings ∈ kindsOf type) {s : String}
    (hhead : values.head.kind = .string s) : kindFor type values = .strings := by
  have hall : values.toList.all (fun t => t.number?.isSome) = false := by
    simp [OneOrMore.toList, Token.number?, hhead]
  have huntyped : untypedKind values.head = .strings := by
    rw [untypedKind, hhead]
  unfold kindsOf at htype
  unfold kindFor
  split_ifs at htype with h1 h2 h3 h4 h5 <;> simp_all

/-- Without a type, truth values in quotes are texts. -/
theorem kindFor_bools (htype : PropertyKind.bools ∈ kindsOf type) {s : String}
    (hhead : values.head.kind = .string s) : kindFor type values = .bools ↔ type ≠ "" := by
  have huntyped : untypedKind values.head = .strings := by
    rw [untypedKind, hhead]
  unfold kindsOf at htype
  unfold kindFor
  split_ifs at htype with h1 h2 h3 h4 h5 <;> simp_all

theorem forall₂_number?_iff {us : List Token} {xs : List Float}
    (hus : List.Forall₂ (fun u x => u.kind = numberToken x) us xs) :
    List.Forall₂ (fun u x => u.number? = some x) us xs ↔ ∀ x ∈ xs, Number.isWord x = false := by
  induction hus with
  | nil => simp
  | cons hu _ ih =>
      rw [List.forall₂_cons, List.forall_mem_cons, ih, number?_of_numberToken hu]
      simp

/-- Written values are read as they were exactly when they are legible. -/
theorem readFrom_iff {us : List Token} {v : Property}
    (hints : ∀ is, v = .ints is → ∀ i ∈ is.toList, ∃ x, Number.integer? x = some i)
    (htexts : ∀ ss, v = .strings ss → v.Legible) (hvalues : v.WrittenAs us) :
    v.ReadFrom us ↔ v.Legible := by
  cases v with
  | floats xs => exact forall₂_number?_iff hvalues
  | ints is =>
      refine iff_of_true ?_ trivial
      simp only [Property.WrittenAs, Property.ReadFrom] at *
      have hboth := (List.forall₂_and_left _ _).mpr ⟨hints is rfl, hvalues.flip⟩
      refine (hboth.imp fun i u hiu => ?_).flip
      obtain ⟨⟨x, hx⟩, hu⟩ := hiu
      obtain ⟨y, hdenotes, hy⟩ := Number.denotes_integerText hx
      simp only [flip] at hu ⊢
      rw [Lexer.numberKind_of_denotes hdenotes] at hu
      simp [Token.integer?, Token.number?, hu, hy]
  | strings ss =>
      refine iff_of_true ?_ (htexts ss rfl)
      simp only [Property.WrittenAs, Property.ReadFrom] at *
      rw [← List.forall₂_eq_eq_eq, List.forall₂_map_left_iff]
      exact hvalues.imp fun u s hu => by simp [Token.asText, Token.string?, hu]
  | bools bs =>
      refine iff_of_true (hvalues.imp fun u b hu => ?_) trivial
      have hword : ∀ b, boolWord? (boolText b) = some b := by decide
      rw [Token.bool?, hu]
      exact hword b

theorem buildProperty_written_iff {p : Param} (hp : p.Declared)
    (htexts : ∀ ss, p.value = .strings ss → p.value.Legible)
    (hvalues : p.value.WrittenAs values.toList) :
    buildProperty (misfit ctx key) p.type values = pure p.value ↔
      p.value.Legible ∧ (p.type = "" → p.value.kind ≠ .bools) := by
  obtain ⟨-, htype, hints⟩ := hp
  rw [buildProperty_eq_pure_iff, readFrom_iff hints htexts hvalues, and_comm, and_congr_right_iff]
  generalize p.value = v at *
  intro hlegible
  have hread := (readFrom_iff hints htexts hvalues).mpr hlegible
  cases v with
  | floats xs =>
      refine iff_of_true (kindFor_floats htype ?_) fun _ => nofun
      exact ((List.forall₂_and_left _ _).mp (hread.imp fun u x hu =>
        (⟨by rw [hu]; rfl, hu⟩ : u.number?.isSome = true ∧ u.number? = some x))).1
  | ints is => exact iff_of_true (kindFor_ints htype) fun _ => nofun
  | strings ss =>
      refine iff_of_true ?_ fun _ => nofun
      cases hvalues with
      | cons hhead => exact kindFor_strings htype hhead
  | bools bs =>
      cases hvalues with
      | cons hhead =>
          rw [show (Property.bools bs).kind = .bools from rfl, kindFor_bools htype hhead]
          simp

/-! ## Values between brackets -/

/-- A token of the kind may stand between the brackets of a value. -/
def isValue : TokenKind → Bool
  | .leftBracket => false
  | .rightBracket => false
  | .endOfInput => false
  | _ => true

theorem isValue_numberToken (x : Float) : isValue (numberToken x) = true := by
  unfold numberToken
  split <;> rfl

theorem isValue_numberKind (word : List Char) : isValue (Lexer.numberKind word) = true := by
  unfold Lexer.numberKind
  split
  · rfl
  · split <;> rfl

theorem bracketedValues_cons {t : Token} (h : isValue t.kind = true) (ts : List Token) :
    bracketedValues ctx key (t :: ts) =
      (bracketedValues ctx key ts).map fun p => ⟨t :: p.value, p.stop, p.rest⟩ := by
  rw [bracketedValues]
  split
  · rename_i hkind
    simp [hkind, isValue] at h
  · rename_i hkind
    simp [hkind, isValue] at h
  · rename_i hkind
    simp [hkind, isValue] at h
  · rfl

theorem bracketedValues_append {us rest : List Token} {r : Token}
    (hus : ∀ u ∈ us, isValue u.kind = true) (hr : r.kind = .rightBracket) :
    bracketedValues ctx key (us ++ r :: rest) = .ok ⟨us, stopOf r, rest⟩ := by
  induction us with
  | nil => simp only [List.nil_append, bracketedValues, hr]
  | cons u us ih =>
      obtain ⟨hu, hrest⟩ := List.forall_mem_cons.mp hus
      rw [List.cons_append, bracketedValues_cons hu, ih hrest]
      rfl

theorem takeValues_bracketed {l r declaration : Token} {rest : List Token}
    (hl : l.kind = .leftBracket) (hvalues : ∀ u ∈ values.toList, isValue u.kind = true)
    (hr : r.kind = .rightBracket) :
    takeValues ctx key declaration (l :: (values.toList ++ r :: rest)) =
      .ok ⟨values, stopOf r, rest⟩ := by
  unfold takeValues
  simp only [hl, bracketedValues_append hvalues hr]
  rfl

/-- The values behind a left bracket come from a list. -/
theorem bracketedValues_of_takeValues {l declaration : Token} {rest : List Token}
    {q : Parsed (OneOrMore Token)} (hl : l.kind = .leftBracket)
    (h : takeValues ctx key declaration (l :: rest) = .ok q) :
    ∃ p, bracketedValues ctx key rest = .ok p ∧ p.value = q.value.toList := by
  unfold takeValues at h
  simp only [hl] at h
  split at h
  · cases h
  · rename_i p hp
    refine ⟨p, hp, ?_⟩
    cases hvalue : p.value with
    | nil => simp [hvalue, OneOrMore.ofList?] at h
    | cons t ts =>
        simp only [hvalue, OneOrMore.ofList?] at h
        cases h
        rfl

variable {after : List Char} {ts : List Token}

/-- A quoted text among the values is read as itself only if it does not run over its
end. -/
theorem quotable_of_bracketedValues {ss : List String} {ws : List String} {p : Parsed (List Token)}
    (h : Tokens (spaced (ss.map Text.quote ++ ws) ++ after) ts)
    (hp : bracketedValues ctx key ts = .ok p) (hss : ss <+: p.value.map Token.asText) :
    ∀ s ∈ ss, Quotable s := by
  induction ss generalizing ts p with
  | nil => exact List.forall_mem_nil _
  | cons s ss ih =>
      obtain ⟨t, rest, value, rfl, hkind, hvalue⟩ := h.frontQuoted
      have htext : t.asText = value := by
        simp [Token.asText, Token.string?, hkind]
      rw [bracketedValues_cons (by rw [hkind]; rfl)] at hp
      obtain ⟨q, hq, rfl⟩ := Success.of_map hp
      rw [List.map_cons, htext, List.cons_prefix_cons] at hss
      rcases hvalue with ⟨hs, -, hrest⟩ | hover
      · exact List.forall_mem_cons.mpr ⟨hs, ih hrest hq hss.2⟩
      · exact absurd hss.1.symm hover.ne

/-- The items of a value give the tokens that they are written as. -/
theorem tokens_items {v : Property} (hexact : ∀ x ∈ v.numbers, Number.Exact x)
    (hints : ∀ is, v = .ints is → ∀ i ∈ is.toList, ∃ x, Number.integer? x = some i)
    (htexts : ∀ ss, v = .strings ss → v.Legible) (hafter : Cut after)
    (h : Tokens (spaced v.items ++ after) ts) :
    ∃ us vs, ts = us ++ vs ∧ v.WrittenAs us ∧ Tokens after vs := by
  cases v with
  | floats xs => exact h.split (fun x hx => lexes_numberText (hexact x hx)) hafter
  | ints is => exact h.split (fun i hi => lexes_integerText (hints is rfl i hi)) hafter
  | strings ss => exact h.split (fun s hs => .quote (htexts ss rfl s hs)) hafter
  | bools bs => exact h.split (fun b _ => lexes_boolText b) hafter

/-- There is a token, and no token is a bracket or the end. -/
theorem values_of_writtenAs {v : Property} {us : List Token} (h : v.WrittenAs us) :
    ∃ values : OneOrMore Token, us = values.toList ∧ ∀ u ∈ us, isValue u.kind = true := by
  have hvalues : ∀ {α : Type} {as : OneOrMore α} {kind : α → TokenKind},
      (∀ a, isValue (kind a) = true) → List.Forall₂ (fun u a => u.kind = kind a) us as.toList →
      ∃ values : OneOrMore Token, us = values.toList ∧ ∀ u ∈ us, isValue u.kind = true := by
    intro α as kind hkind hus
    have hall := ((List.forall₂_and_left _ _).mp (hus.imp fun u a hu =>
      (⟨by rw [hu]; exact hkind a, hu⟩ : isValue u.kind = true ∧ u.kind = kind a))).1
    cases hus with
    | cons => exact ⟨⟨_, _⟩, rfl, hall⟩
  cases v with
  | floats xs => exact hvalues isValue_numberToken h
  | ints is => exact hvalues (fun i => isValue_numberKind _) h
  | strings ss => exact hvalues (fun _ => rfl) h
  | bools bs => exact hvalues (fun _ => rfl) h

/-- The values of a parameter are read back exactly when they are legible. -/
theorem readsBack_value (ctx : Context) (key : String) (declaration : Token) {p : Param}
    (hp : p.Declared)
    (hexact : ∀ x ∈ p.value.numbers, Number.Exact x) (hafter : Cut after)
    (h : Tokens (spaced ("[" :: (p.value.items ++ ["]"])) ++ after) ts) :
    (p.value.Legible ∧ (p.type = "" → p.value.kind ≠ .bools) →
      ∃ q, takeValues ctx key declaration ts = .ok q ∧
        buildProperty (misfit ctx key) p.type q.value = pure p.value) ∧
    ∀ q, takeValues ctx key declaration ts = .ok q →
      buildProperty (misfit ctx key) p.type q.value = pure p.value →
      (p.value.Legible ∧ (p.type = "" → p.value.kind ≠ .bools)) ∧ Tokens after q.rest := by
  obtain ⟨l, ls, rfl, hl, htokens⟩ := h.front Lexer.lexes_leftBracket hafter
  have hleft : l.kind = .leftBracket := congrArg Lexer.Piece.kind hl
  by_cases htexts : ∀ ss, p.value = .strings ss → p.value.Legible
  · rw [Lexer.spaced_append, List.append_assoc] at htokens
    obtain ⟨us, vs, rfl, hus, hvs⟩ :=
      tokens_items hexact hp.integers htexts (Lexer.cut_spaced hafter _) htokens
    obtain ⟨r, rs, rfl, hr, hrs⟩ := hvs.front Lexer.lexes_rightBracket hafter
    obtain ⟨values, rfl, hvalues⟩ := values_of_writtenAs hus
    have htake : takeValues ctx key declaration (l :: (values.toList ++ r :: rs)) =
        .ok ⟨values, stopOf r, rs⟩ :=
      takeValues_bracketed hleft hvalues (congrArg Lexer.Piece.kind hr)
    have hbuild : buildProperty (misfit ctx key) p.type values = pure p.value ↔ _ :=
      buildProperty_written_iff hp htexts hus
    rw [htake]
    constructor
    · exact fun hlegible => ⟨_, rfl, hbuild.mpr hlegible⟩
    · intro q hq hvalue
      cases hq
      exact ⟨hbuild.mp hvalue, hrs⟩
  · push Not at htexts
    obtain ⟨ss, hss, hillegible⟩ := htexts
    refine ⟨fun hlegible => absurd hlegible.1 hillegible, fun q hq hvalue => ?_⟩
    exfalso
    apply hillegible
    rw [hss] at hvalue htokens ⊢
    obtain ⟨u, hu, hvalues⟩ := bracketedValues_of_takeValues hleft hq
    have hread : q.value.toList.map Token.asText = ss.toList :=
      (buildProperty_eq_pure_iff.mp hvalue).2
    refine quotable_of_bracketedValues htokens hu ⟨[], ?_⟩
    rw [List.append_nil, hvalues, hread]

/-! ## Lists of parameters -/

variable {params : ParamMap} {stop : Position} {t : Token} {text : String}

theorem parameters_of_noString (h : ∀ t ∈ ts.head?, t.string? = none) :
    parameters ctx params stop ts = pure ⟨params, stop, ts⟩ := by
  cases ts with
  | nil => rw [parameters]
  | cons t ts =>
      rw [parameters]
      split
      · rfl
      · rename_i text hs
        rw [h t rfl] at hs
        cases hs

theorem parameters_cons {name : String} {q : Parsed (OneOrMore Token)}
    (hs : t.string? = some text) (hd : declaration? text = some (type, name))
    (hname : name ∉ params.names) (hq : takeValues ctx (makeKey type name) t ts = .ok q) :
    parameters ctx params stop (t :: ts) =
      buildProperty (misfit ctx (makeKey type name)) type q.value >>= fun value =>
        parameters ctx (params.set ⟨type, name, value⟩) q.stop q.rest := by
  rw [parameters]
  split
  · rename_i hnone
    rw [hs] at hnone
    cases hnone
  · rename_i text' hs'
    rw [hs] at hs'
    cases hs'
    rw [hd]
    dsimp only
    split
    · rename_i hlookup
      exact absurd (ParamMap.mem_names_iff.mpr hlookup) hname
    · split
      · rename_i hv
        rw [hq] at hv
        cases hv
      · rename_i hv
        rw [hq] at hv
        cases hv
        rfl

/-- What a list of parameters without a warning begins with. -/
theorem of_parameters_cons {p : Parsed ParamMap} (hs : t.string? = some text)
    (h : parameters ctx params stop (t :: ts) = pure p) :
    ∃ type name q value, declaration? text = some (type, name) ∧ name ∉ params.names ∧
      takeValues ctx (makeKey type name) t ts = .ok q ∧
      buildProperty (misfit ctx (makeKey type name)) type q.value = pure value ∧
      parameters ctx (params.set ⟨type, name, value⟩) q.stop q.rest = pure p := by
  rw [parameters] at h
  split at h
  · rename_i hnone
    rw [hs] at hnone
    cases hnone
  · rename_i text' hs'
    rw [hs] at hs'
    cases hs'
    split at h
    · cases h
    · rename_i type name hd
      dsimp only at h
      split at h
      · cases h
      · rename_i hlookup
        split at h
        · cases h
        · rename_i q hq
          obtain ⟨value, hvalue, h⟩ := Success.of_bind_eq_pure h
          exact ⟨type, name, q, value, hd, mt ParamMap.mem_names_iff.mp hlookup, hq, hvalue, h⟩

/-- The parameters already read stay in front. -/
theorem prefix_of_parameters {p : Parsed ParamMap}
    (h : (parameters ctx params stop ts).result = .ok p) : params.entries <+: p.value.entries := by
  fun_induction parameters ctx params stop ts with
  | case1 =>
      cases h
      exact List.prefix_rfl
  | case2 =>
      cases h
      exact List.prefix_rfl
  | case3 => cases h
  | case4 => cases h
  | case5 => cases h
  | case6 params stop t ts text hs type name hd key hlookup q hv hlt ih =>
      obtain ⟨value, hvalue, h⟩ := Success.of_result_bind h
      have hprefix := ih value h
      rw [ParamMap.entries_set (mt ParamMap.mem_names_iff.mp hlookup)] at hprefix
      exact (List.prefix_append _ _).trans hprefix

/-- The first parameter of those that are read. -/
theorem first_of_parameters {p : Param} {ps : List Param} {q : Parsed ParamMap}
    (hs : t.string? = some text) (h : parameters ctx params stop (t :: ts) = pure q)
    (hentries : q.value.entries = params.entries ++ p :: ps) :
    declaration? text = some (p.type, p.name) ∧
      ∃ v, takeValues ctx p.key t ts = .ok v ∧
        buildProperty (misfit ctx p.key) p.type v.value = pure p.value ∧
        parameters ctx (params.set p) v.stop v.rest = pure q := by
  obtain ⟨type, name, v, value, hd, hname, hv, hvalue, hrest⟩ := of_parameters_cons hs h
  have hprefix := prefix_of_parameters (congrArg Reported.result hrest)
  rw [ParamMap.entries_set hname, hentries, List.prefix_append_right_inj,
    List.cons_prefix_cons] at hprefix
  obtain rfl := hprefix.1
  exact ⟨hd, v, hv, hvalue, hrest⟩

/-- A list of parameters is read back exactly when each of them is legible. -/
theorem readsBack_parameters {ps : List Param}
    (hwell : ParamMap.WellDeclared ⟨params.entries ++ ps⟩)
    (hexact : ∀ p ∈ ps, ∀ x ∈ p.value.numbers, Number.Exact x) (hafter : Cut after)
    (hnext : NoString after) (h : Tokens (spaced (ps.flatMap Param.words) ++ after) ts) :
    ReadsBack (parameters ctx params stop ts) (fun m => m.entries = params.entries ++ ps)
      (∀ p ∈ ps, p.Legible) after := by
  induction ps generalizing params ts stop with
  | nil =>
      rw [parameters_of_noString (hnext ts h)]
      refine ⟨fun _ => ⟨_, rfl, (List.append_nil _).symm⟩, fun q hq _ => ?_⟩
      cases hq
      exact ⟨List.forall_mem_nil _, h⟩
  | cons p ps ih =>
      obtain ⟨hp, hps⟩ := List.forall_mem_cons.mp hexact
      have hdeclared : p.Declared := hwell.declared p (by simp)
      have hname : p.name ∉ params.names := by
        have hdistinct := hwell.distinct
        simp only [ParamMap.names, List.map_append, List.map_cons, List.nodup_append] at hdistinct
        exact fun hmem => hdistinct.2.2 _ hmem _ List.mem_cons_self rfl
      have hset : (params.set p).entries ++ ps = params.entries ++ p :: ps := by
        rw [ParamMap.entries_set hname, List.append_assoc, List.singleton_append]
      have hwords : spaced ((p :: ps).flatMap Param.words) ++ after =
          spaced (p.words) ++ (spaced (ps.flatMap Param.words) ++ after) := by
        rw [List.flatMap_cons, Lexer.spaced_append, List.append_assoc]
      rw [hwords] at h
      obtain ⟨t, rest, text, rfl, hkind, htext⟩ := h.frontQuoted
      have hstring : t.string? = some text := Token.string?_eq_some_iff.mpr hkind
      rw [List.forall_mem_cons]
      rcases htext with ⟨hkey, rfl, hrest⟩ | hover
      · obtain ⟨hfinds, hleaves⟩ :=
          readsBack_value ctx p.key t hdeclared hp (Lexer.cut_spaced hafter _) hrest
        rw [← hset] at hwell ⊢
        constructor
        · rintro ⟨hlegible, hall⟩
          obtain ⟨v, hv, hvalue⟩ := hfinds ⟨hlegible.value, hlegible.typed⟩
          obtain ⟨-, htokens⟩ := hleaves v hv hvalue
          rw [parameters_cons hstring hdeclared.declaration hname hv]
          change ∃ q, (buildProperty (misfit ctx p.key) p.type v.value >>= _) = pure q ∧ _
          rw [hvalue, pure_bind]
          exact (ih hwell hps htokens).finds hall
        · intro q hq hentries
          obtain ⟨-, v, hv, hvalue, hrest⟩ := first_of_parameters hstring hq (hentries.trans hset)
          obtain ⟨⟨hlegible, htyped⟩, htokens⟩ := hleaves v hv hvalue
          obtain ⟨hall, hafter⟩ := (ih hwell hps htokens).leaves q hrest hentries
          exact ⟨⟨⟨hkey, hlegible, htyped⟩, hall⟩, hafter⟩
      · refine ⟨fun hall => absurd hall.1.key hover.not_quotable, fun q hq hentries => ?_⟩
        obtain ⟨hd, -⟩ := first_of_parameters hstring hq hentries
        exact absurd hover (not_overruns_of_declaration? hdeclared.declaration hd)

end Parser
end SceneReader
