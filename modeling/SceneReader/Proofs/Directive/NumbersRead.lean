import SceneReader.Proofs.Directive.Statements

/-!
# Which values are read as numbers

A word that looks like a number and is none may stand among the values of a parameter.  In strict
reading it is an error, unless the parameter holds texts.  The declared type says so for most
parameters, and the first value for a bare name.  A spectrum is a name or a row of numbers, and
which of the two it is goes by all of its values: a single word among them that is no number makes
texts of all, without an error.

**Results.**
* `statements_of_read`: what was read in strict reading, token by token.
* `sifted_iff`: a parameter that was read in strict reading keeps its numbers, but for spectra.
* `sifted_iff_of_strict`: the same for whole texts.
-/

namespace SceneReader

namespace Token

/-- The token looks like a number, whether it is one or not. -/
def IsNumberLike (t : Token) : Prop := t.number?.isSome = true ∨ t.kind = .malformedNumber

variable {t : Token}

theorem IsNumberLike.bool?_eq_none (h : t.IsNumberLike) : t.bool? = none := by
  rcases h with h | h
  · obtain ⟨x, hx⟩ := Option.isSome_iff_exists.mp h
    simp [bool?, number?_eq_some_iff.mp hx]
  · simp [bool?, h]

theorem number?_of_malformed (h : t.kind = .malformedNumber) : t.number? = none := by
  simp [number?, h]

end Token

namespace Grammar

theorem Arguments.not_malformed {shape : ArgShape} {ts : List Token} {args : List Argument}
    (h : Arguments shape ts args) : ∀ t ∈ ts, t.kind ≠ .malformedNumber := by
  have hnumbers : ∀ {ts args}, Numbers ts args → ∀ t ∈ ts, t.kind ≠ .malformedNumber := by
    intro ts args h t ht
    obtain ⟨x, hkind⟩ := h.exists_kind t ht
    simp [hkind]
  have hstrings : ∀ {ts args}, Strings ts args → ∀ t ∈ ts, t.kind ≠ .malformedNumber := by
    intro ts args h t ht
    obtain ⟨s, hkind⟩ := h.exists_kind t ht
    simp [hkind]
  cases h with
  | nothing => exact List.forall_mem_nil _
  | numbers _ h => exact hnumbers h
  | bareMatrix _ h => exact hnumbers h
  | matrix hl _ h hr =>
      refine List.forall_mem_cons.mpr ⟨by simp [hl], List.forall_mem_append.mpr ⟨hnumbers h, ?_⟩⟩
      exact List.forall_mem_singleton.mpr (by simp [hr])
  | keyword hkind _ => exact List.forall_mem_singleton.mpr (by simp [hkind])
  | name _ h => exact hstrings h
  | oneOrTwoNames _ h => exact hstrings h
  | named _ h => exact hstrings h
  | texture _ h => exact hstrings h

/-- Brackets are no malformed numbers. -/
theorem Values.mem_of_malformed {us : List Token} {values : OneOrMore Token} (h : Values us values)
    {t : Token} (ht : t ∈ us) (hkind : t.kind = .malformedNumber) : t ∈ values.toList := by
  cases h with
  | literal => exact ht
  | list values hl _ hr =>
      rcases List.mem_cons.mp ht with rfl | ht
      · simp [hl] at hkind
      rcases List.mem_append.mp ht with ht | ht
      · exact ht
      · obtain rfl := List.mem_singleton.mp ht
        simp [hr] at hkind

/-- In a directive malformed numbers stand among the values of parameters only. -/
theorem Statement.Tells.exists_entry {s : Statement} {d : Directive} (h : s.Tells d) {t : Token}
    (ht : t ∈ s.tokens) (hkind : t.kind = .malformedNumber) :
    ∃ e ∈ s.entries, t ∈ e.values.toList := by
  rcases List.mem_cons.mp ht with rfl | ht
  · simp [h.name.1] at hkind
  rcases List.mem_append.mp ht with ht | ht
  · exact absurd hkind (h.args.not_malformed t ht)
  obtain ⟨e, he, ht⟩ := List.mem_flatMap.mp ht
  obtain ⟨⟨text, htext, -⟩, hvalues⟩ := h.entries e he
  rcases List.mem_cons.mp ht with rfl | ht
  · simp [htext] at hkind
  · exact ⟨e, he, hvalues.mem_of_malformed ht hkind⟩

/-! ## Texts and numbers -/

/-- The value is stored at the place as the number that the token is. -/
def HoldsNumber (v : Property) (i : Nat) (t : Token) : Prop :=
  (∃ xs x, v = .floats xs ∧ xs.toList[i]? = some x ∧ t.number? = some x) ∨
    ∃ ks k, v = .ints ks ∧ ks.toList[i]? = some k ∧ t.integer? = some k

theorem HoldsNumber.ne_malformed {v : Property} {i : Nat} {t : Token} (h : HoldsNumber v i t) :
    t.kind ≠ .malformedNumber := by
  intro hkind
  have hnone := Token.number?_of_malformed hkind
  rcases h with ⟨_, _, _, _, h⟩ | ⟨_, _, _, _, h⟩ <;> simp [Token.integer?, hnone] at h

namespace Entry

/-- The parameter is one of texts: it is declared so, or it is a bare name with a string as its
first value. -/
def IsText (e : Entry) : Prop :=
  e.type = "string" ∨ e.type = "texture" ∨
    e.type = "" ∧ ∃ s, e.values.head.kind = .string s

/-- All values that look like numbers are stored as numbers. -/
def ReadsNumbers (e : Entry) : Prop :=
  ∀ i t, e.values.toList[i]? = some t → t.IsNumberLike → HoldsNumber e.param.value i t

/-- Malformed numbers are among texts only, and all other parameters have their numbers read. -/
structure Sifted (e : Entry) : Prop where
  text : ∀ t ∈ e.values.toList, t.kind = .malformedNumber → e.IsText
  numbers : ¬ e.IsText → e.ReadsNumbers

variable {e : Entry}

/-- Texts are held by parameters of texts and by spectra that are no rows of numbers. -/
theorem kindFor_eq_strings_iff : kindFor e.type e.values = .strings ↔
    e.IsText ∨ e.type = "spectrum" ∧ ¬ ∀ t ∈ e.values.toList, t.number?.isSome = true := by
  unfold kindFor IsText
  by_cases hspectrum : e.type = "spectrum"
  · simp [hspectrum]
  by_cases htext : e.type = "string" ∨ e.type = "texture"
  · rcases htext with h | h <;> simp [h]
  obtain ⟨hstring, htexture⟩ := not_or.mp htext
  by_cases hbool : e.type = "bool"
  · simp [hbool]
  by_cases hinteger : e.type = "integer"
  · simp [hinteger]
  by_cases hbare : e.type = ""
  · have hhead : untypedKind e.values.head = .strings ↔
        ∃ s, e.values.head.kind = .string s := by
      unfold untypedKind
      cases e.values.head.kind with
      | string s => simp
      | identifier => by_cases hword : (boolWord? e.values.head.lexeme).isSome <;> simp [hword]
      | _ => simp
    simpa [hbare] using hhead
  · simp [hspectrum, hstring, htexture, hbool, hinteger, hbare]

/-- What is no text is stored as numbers, if it looks like numbers. -/
theorem readsNumbers_of_ne_strings (h : e.IsRead) (hkind : kindFor e.type e.values ≠ .strings) :
    e.ReadsNumbers := by
  intro i t hi hlike
  have hfits := h t (List.mem_of_getElem? hi)
  have hvalue : e.param.value = reading e.type e.values := rfl
  rw [hvalue]
  unfold reading
  cases hk : kindFor e.type e.values with
  | strings => exact absurd hk hkind
  | floats =>
      rw [hk] at hfits
      obtain ⟨x, hx⟩ := Option.isSome_iff_exists.mp hfits
      refine Or.inl ⟨_, x, rfl, ?_, hx⟩
      simp [OneOrMore.toList_map, hi, hx]
  | ints =>
      rw [hk] at hfits
      obtain ⟨k, hk'⟩ := Option.isSome_iff_exists.mp hfits
      refine Or.inr ⟨_, k, rfl, ?_, hk'⟩
      simp [OneOrMore.toList_map, hi, hk']
  | bools =>
      rw [hk] at hfits
      have hsome : t.bool?.isSome = true := hfits
      simp [hlike.bool?_eq_none] at hsome

/-- A parameter that was read keeps its numbers, unless it is a spectrum with numbers and other
words among its values. -/
theorem sifted_iff (h : e.IsRead) : e.Sifted ↔ (e.type = "spectrum" →
    (∀ t ∈ e.values.toList, t.number?.isSome = true) ∨
      ∀ t ∈ e.values.toList, ¬ t.IsNumberLike) := by
  constructor
  · intro hsifted hspectrum
    refine or_iff_not_imp_left.mpr fun hmixed t ht hlike => ?_
    have htext : ¬ e.IsText := by simp [IsText, hspectrum]
    obtain ⟨i, hi⟩ := List.getElem?_of_mem ht
    -- A mixed spectrum holds texts, and no number is stored in it.
    have hholds := hsifted.numbers htext i t hi hlike
    have hvalue : e.param.value = .strings (e.values.map Token.asText) := by
      have hkind := kindFor_eq_strings_iff.mpr (Or.inr ⟨hspectrum, hmixed⟩)
      simp [param, reading, hkind]
    simp [HoldsNumber, hvalue] at hholds
  · intro hspectra
    have hnumbers : ¬ e.IsText → e.ReadsNumbers := by
      intro htext
      by_cases hkind : kindFor e.type e.values = .strings
      · obtain ⟨hspectrum, hmixed⟩ := (kindFor_eq_strings_iff.mp hkind).resolve_left htext
        intro i t hi hlike
        have hnone := (hspectra hspectrum).resolve_left hmixed
        exact absurd hlike (hnone t (List.mem_of_getElem? hi))
      · exact readsNumbers_of_ne_strings h hkind
    refine ⟨fun t ht hmalformed => ?_, hnumbers⟩
    by_contra htext
    obtain ⟨i, hi⟩ := List.getElem?_of_mem ht
    exact (hnumbers htext i t hi (Or.inr hmalformed)).ne_malformed hmalformed

end Entry
end Grammar

namespace Parser

open Grammar

variable {ctx : Context} {ts : List Token}

/-! ## Strict reading -/

theorem exists_of_forall₂ {α β : Type} {R : α → β → Prop} {as : List α} {bs : List β}
    (h : List.Forall₂ R as bs) : ∀ a ∈ as, ∃ b ∈ bs, R a b := by
  induction h with
  | nil => exact List.forall_mem_nil _
  | cons hab _ ih =>
      refine List.forall_mem_cons.mpr ⟨⟨_, List.mem_cons_self, hab⟩, fun a ha => ?_⟩
      obtain ⟨b, hb, hab⟩ := ih a ha
      exact ⟨b, List.mem_cons_of_mem _ hb, hab⟩

/-- A text that was read to its end in strict reading. -/
theorem statements_of_read (hstrict : ctx.strict = true) (h : (read ctx ts).error = none) :
    ∃ ss rest, ts = ss.flatMap Statement.tokens ++ rest ∧ atEnd rest = true ∧
      List.Forall₂ Statement.Tells ss (read ctx ts).directives ∧
      ∀ s ∈ ss, (∃ d, s.Tells d) ∧ ∀ e ∈ s.entries, e.IsRead := by
  obtain ⟨ss, front, es, rest, hts, htells, haccounts, hdone⟩ := statements_before_error ctx ts
  obtain ⟨rfl, rfl, hend⟩ := hdone h
  refine ⟨ss, rest, hts, hend, htells, fun s hs => ?_⟩
  obtain ⟨d, -, hd⟩ := exists_of_forall₂ htells s hs
  refine ⟨⟨d, hd⟩, fun e he => haccounts.strict hstrict e ?_⟩
  exact List.mem_append_left _ (List.mem_flatMap.mpr ⟨s, hs, he⟩)

/-- What is grammatical is read alike in strict reading, or refused for a value. -/
theorem strict_or_malformed (lines : Option (List String)) {ds : List Directive}
    (h : (parse ⟨lines, false⟩ ts).result = .ok ds) :
    (parse ⟨lines, true⟩ ts).result = .ok ds ∨
      ∃ e, (parse ⟨lines, true⟩ ts).result = .error e ∧ e.fault.code = "E108" := by
  have hhardens := hardens_parse lines ts
  generalize parse ⟨lines, true⟩ ts = strict at hhardens
  generalize parse ⟨lines, false⟩ ts = lenient at h hhardens
  cases hhardens with
  | same r => exact Or.inl h
  | recovered r hcode => exact Or.inr ⟨_, rfl, hcode⟩

/-- What strict reading accepts is directive after directive, and malformed numbers stand among the
values of parameters only.  No value is replaced, and a parameter holds texts, as its type or the
first value of a bare name says, or has all of its numbers read, unless it is a spectrum with
numbers and other words among its values.  What is grammatical and not accepted is refused for a
malformed value. -/
theorem sifted_iff_of_strict (lines : Option (List String)) (ts : List Token) :
    (∀ ds, (parse ⟨lines, true⟩ ts).result = .ok ds →
      ∃ ss rest, ts = ss.flatMap Statement.tokens ++ rest ∧ atEnd rest = true ∧
        List.Forall₂ Statement.Tells ss ds ∧ ∀ s ∈ ss,
          (∀ t ∈ s.tokens, t.kind = .malformedNumber → ∃ e ∈ s.entries, t ∈ e.values.toList) ∧
          ∀ e ∈ s.entries, e.IsRead ∧ (e.Sifted ↔ (e.type = "spectrum" →
            (∀ t ∈ e.values.toList, t.number?.isSome = true) ∨
              ∀ t ∈ e.values.toList, ¬ t.IsNumberLike))) ∧
    ∀ ds, (parse ⟨lines, false⟩ ts).result = .ok ds →
      (parse ⟨lines, true⟩ ts).result = .ok ds ∨
        ∃ e, (parse ⟨lines, true⟩ ts).result = .error e ∧ e.fault.code = "E108" := by
  refine ⟨fun ds h => ?_, fun ds h => strict_or_malformed lines h⟩
  obtain ⟨herror, rfl⟩ := result_parse_iff.mp h
  obtain ⟨ss, rest, hts, hatEnd, htells, hread⟩ := statements_of_read rfl herror
  refine ⟨ss, rest, hts, hatEnd, htells, fun s hs => ⟨fun t ht hkind => ?_, fun e he => ?_⟩⟩
  · obtain ⟨⟨d, hd⟩, -⟩ := hread s hs
    exact hd.exists_entry ht hkind
  · have he := (hread s hs).2 e he
    exact ⟨he, Entry.sifted_iff he⟩

/-- The tokens of a film with a spectrum of a number and a malformed one. -/
def mixedSpectrum : List Token :=
  [⟨.identifier, "Film", ⟨none, onFirstLine 0, onFirstLine 4⟩⟩,
   ⟨.string "a", "\"a\"", ⟨none, onFirstLine 5, onFirstLine 8⟩⟩,
   ⟨.string "spectrum s", "\"spectrum s\"", ⟨none, onFirstLine 9, onFirstLine 21⟩⟩,
   ⟨.leftBracket, "[", ⟨none, onFirstLine 22, onFirstLine 23⟩⟩,
   ⟨.number 300.0, "300", ⟨none, onFirstLine 24, onFirstLine 27⟩⟩,
   ⟨.malformedNumber, "2x", ⟨none, onFirstLine 28, onFirstLine 30⟩⟩,
   ⟨.rightBracket, "]", ⟨none, onFirstLine 31, onFirstLine 32⟩⟩,
   ⟨.endOfInput, "", ⟨none, onFirstLine 32, onFirstLine 32⟩⟩]

/-- The film as it is read, with two texts for its spectrum. -/
def filmWithTexts : Directive :=
  ⟨.film, [.text "a"], ⟨[⟨"spectrum", "s", .strings ⟨"300", ["2x"]⟩⟩]⟩,
    some ⟨none, onFirstLine 0, onFirstLine 32⟩⟩

/-- The spectrum as it stands among the tokens. -/
def mixedEntry : Entry :=
  ⟨⟨.string "spectrum s", "\"spectrum s\"", ⟨none, onFirstLine 9, onFirstLine 21⟩⟩, "spectrum", "s",
    (mixedSpectrum.drop 3).take 4,
    ⟨⟨.number 300.0, "300", ⟨none, onFirstLine 24, onFirstLine 27⟩⟩,
      [⟨.malformedNumber, "2x", ⟨none, onFirstLine 28, onFirstLine 30⟩⟩]⟩⟩

/-- In strict reading a malformed number among the numbers of a spectrum is no error, and it makes
texts of all of them. -/
theorem not_sifted_mixedSpectrum :
    Lexer.tokenize "Film \"a\" \"spectrum s\" [ 300 2x ]" none = .ok mixedSpectrum ∧
      parse ⟨none, true⟩ mixedSpectrum = pure [filmWithTexts] ∧
      ∃ s : Statement, mixedSpectrum.dropLast = s.tokens ∧ s.Tells filmWithTexts ∧
        ∃ e ∈ s.entries, ¬ e.Sifted := by
  have hts : Lexer.tokenize "Film \"a\" \"spectrum s\" [ 300 2x ]" none = .ok mixedSpectrum :=
    (Lexer.tokenize_ok_iff.mpr ⟨_, .token rfl rfl rfl rfl (.token rfl rfl rfl rfl
      (.token rfl rfl rfl rfl (.token rfl rfl rfl rfl (.token rfl rfl rfl rfl
        (.token rfl rfl rfl rfl (.token rfl rfl rfl rfl (.done rfl)))))))⟩).trans rfl
  have hd : declaration? "spectrum s" = some ("spectrum", "s") := by decide +kernel
  have hvalue : buildProperty (misfit ⟨none, true⟩ (makeKey "spectrum" "s")) "spectrum"
      mixedEntry.values = pure (.strings ⟨"300", ["2x"]⟩) := rfl
  have hparams (stop : Position) : parameters ⟨none, true⟩ .empty stop (mixedSpectrum.drop 2) =
      pure ⟨filmWithTexts.params, onFirstLine 32, mixedSpectrum.drop 7⟩ := by
    change parameters _ _ _ (_ :: _) = _
    rw [parameters_cons rfl hd List.not_mem_nil rfl]
    change buildProperty _ _ mixedEntry.values >>= _ = _
    rw [hvalue, pure_bind, parameters_of_noString (by rintro _ ⟨⟩; rfl)]
    rfl
  have hdirective : directive ⟨none, true⟩ mixedSpectrum =
      pure ⟨filmWithTexts, onFirstLine 32, mixedSpectrum.drop 7⟩ := by
    change parameters _ _ _ (mixedSpectrum.drop 2) >>= _ = _
    rw [hparams]
    rfl
  have hparse : parse ⟨none, true⟩ mixedSpectrum = pure [filmWithTexts] := by
    have hend : parse ⟨none, true⟩ (mixedSpectrum.drop 7) = pure [] := by
      unfold parse
      rw [read]
      rfl
    have hmore : ¬ atEnd mixedSpectrum = true := Bool.false_ne_true
    rw [parse_eq hmore, hdirective, pure_bind]
    dsimp only
    rw [hend]
    rfl
  have hvalues : Values mixedEntry.tokens mixedEntry.values :=
    .list mixedEntry.values rfl (by simp [mixedEntry, OneOrMore.toList, isValue]) rfl
  have hstands : mixedEntry.Stands := ⟨⟨_, rfl, declaration?_iff.mp hd⟩, hvalues⟩
  have htext : ¬ mixedEntry.IsText := by simp [Entry.IsText, mixedEntry]
  have htells : Statement.Tells ⟨⟨.identifier, "Film", ⟨none, onFirstLine 0, onFirstLine 4⟩⟩,
      (mixedSpectrum.drop 1).take 1, [mixedEntry]⟩ filmWithTexts :=
    ⟨⟨rfl, rfl⟩, .named rfl (.cons ⟨"a", rfl, rfl⟩ .nil),
      List.forall_mem_singleton.mpr hstands, rfl⟩
  refine ⟨hts, hparse, _, rfl, htells, mixedEntry, List.mem_cons_self, fun hsifted => ?_⟩
  exact htext (hsifted.text _ (List.mem_cons_of_mem _ List.mem_cons_self) rfl)

end Parser
end SceneReader
