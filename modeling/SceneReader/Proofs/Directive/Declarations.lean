import SceneReader.Proofs.Directive.Arguments
import SceneReader.Proofs.Param.Coercion
import SceneReader.Proofs.Token.Words

/-!
# The parameters of parsed directives

A declaration is one word, the name, or two, the type and the name.  What the parser makes
of a list of parameters could have been declared: the key of every parameter is read as
its type and name again, the value is of a kind that the type can have, every integer is
the value of a number, and no name comes twice.

**Results.**
* `declaration?_key`: type and name of a declaration make up a key that declares them.
* `not_overruns_of_declaration?`: a key that runs over its end declares something else.
* `Directive.Parsed.wellDeclared`: the parameters of parsed directives.
-/

namespace SceneReader

namespace Text

/-! ## Words -/

theorem takeWord_append (cs : List Char) : (takeWord cs).1 ++ (takeWord cs).2 = cs := by
  induction cs with
  | nil => rfl
  | cons c cs ih =>
      unfold takeWord
      split
      · rfl
      · rw [List.cons_append, ih]

/-- A word ends where a blank follows it, and at the end of the text. -/
theorem takeWord_word {w cs : List Char} (hw : ∀ c ∈ w, isBlank c = false)
    (hcs : ∀ c ∈ cs.head?, isBlank c = true) : takeWord (w ++ cs) = (w, cs) := by
  induction w with
  | nil =>
      cases cs with
      | nil => rfl
      | cons c cs => rw [List.nil_append, takeWord, if_pos (hcs c rfl)]
  | cons c w ih =>
      obtain ⟨hc, hrest⟩ := List.forall_mem_cons.mp hw
      rw [List.cons_append, takeWord, if_neg (by simp [hc]), ih hrest]

theorem wordsOf_word {w : List Char} (hne : w ≠ []) (hw : ∀ c ∈ w, isBlank c = false)
    {cs : List Char} (hcs : ∀ c ∈ cs.head?, isBlank c = true) :
    wordsOf (w ++ cs) = w :: wordsOf cs := by
  obtain ⟨c, w, rfl⟩ := List.exists_cons_of_ne_nil hne
  obtain ⟨hc, hrest⟩ := List.forall_mem_cons.mp hw
  rw [List.cons_append, wordsOf, if_neg (by simp [hc]), takeWord_word hrest hcs]

/-- The words of a text are its characters without the blanks. -/
theorem flatten_wordsOf (cs : List Char) :
    (wordsOf cs).flatten = cs.filter (fun c => !isBlank c) := by
  fun_induction wordsOf cs with
  | case1 => rfl
  | case2 c cs hc ih => simp [hc, ih]
  | case3 c cs hc ih =>
      have hword : (takeWord cs).1.filter (fun c => !isBlank c) = (takeWord cs).1 :=
        List.filter_eq_self.mpr fun d hd => by simp [isBlank_eq_false_of_mem_takeWord hd]
      have hcs : cs.filter (fun c => !isBlank c) =
          (takeWord cs).1 ++ (takeWord cs).2.filter (fun c => !isBlank c) := by
        conv_lhs => rw [← takeWord_append cs, List.filter_append, hword]
      rw [List.flatten_cons, ih, List.filter_cons, if_pos (by simp [hc]), hcs]
      rfl

/-- A word as it comes from a text. -/
def IsWord (w : String) : Prop :=
  w.toList ≠ [] ∧ ∀ c ∈ w.toList, isBlank c = false

-- By name, as the search may find the instance that goes through all characters there are.
instance (w : String) : Decidable (IsWord w) :=
  @instDecidableAnd _ _ inferInstance (List.decidableBAll _ w.toList)

theorem isWord_of_mem_words {w s : String} (h : w ∈ words s) : IsWord w := by
  obtain ⟨cs, hcs, rfl⟩ := List.mem_map.mp h
  rw [IsWord, String.toList_ofList]
  exact ⟨words_ne_nil hcs, fun _ hc => isBlank_eq_false_of_mem_words hcs hc⟩

theorem words_word {w : String} (h : IsWord w) : words w = [w] := by
  have hwords : wordsOf (w.toList ++ []) = w.toList :: wordsOf [] := wordsOf_word h.1 h.2 nofun
  rw [List.append_nil] at hwords
  rw [words, hwords]
  simp [wordsOf]

theorem words_pair {v w : String} (hv : IsWord v) (hw : IsWord w) :
    words (v ++ " " ++ w) = [v, w] := by
  have htext : (v ++ " " ++ w).toList = v.toList ++ ' ' :: w.toList := by simp
  have hrest : wordsOf (' ' :: w.toList) = wordsOf w.toList := by
    rw [wordsOf, if_pos (by decide)]
  have hwords : wordsOf (v.toList ++ ' ' :: w.toList) = v.toList :: wordsOf (' ' :: w.toList) :=
    wordsOf_word hv.1 hv.2 (by simp; decide)
  have hlast := words_word hw
  rw [words, htext, hwords, hrest, List.map_cons, String.ofList_toList]
  exact congrArg (v :: ·) hlast

end Text

namespace Parser

/-! ## Declarations -/

open Text (IsWord)

/-- What a declaration can declare: a name, behind a type or without one. -/
theorem declaration?_cases {text type name : String}
    (h : declaration? text = some (type, name)) :
    IsWord name ∧ (Text.words text = [name] ∧ type = "" ∨ Text.words text = [type, name] ∧
      IsWord type) := by
  have hmem : ∀ w ∈ Text.words text, IsWord w := fun w => Text.isWord_of_mem_words
  unfold declaration? at h
  split at h
  · rename_i hwords
    cases h
    rw [hwords] at hmem ⊢
    exact ⟨hmem _ (by simp), Or.inl ⟨rfl, rfl⟩⟩
  · rename_i hwords
    cases h
    rw [hwords] at hmem ⊢
    exact ⟨hmem _ (by simp), Or.inr ⟨rfl, hmem _ (by simp)⟩⟩
  · cases h

/-- Type and name of a declaration make up a key that declares them. -/
theorem declaration?_key {text type name : String}
    (h : declaration? text = some (type, name)) :
    declaration? (makeKey type name) = some (type, name) := by
  obtain ⟨hname, ⟨-, rfl⟩ | ⟨-, htype⟩⟩ := declaration?_cases h
  · rw [makeKey, if_pos (by rfl), declaration?, Text.words_word hname]
  · have hne : ¬ type.isEmpty = true := by
      rw [String.isEmpty_iff]
      rintro rfl
      exact htype.1 rfl
    rw [makeKey, if_neg hne, declaration?, Text.words_pair htype hname]

/-- A declaration is made of its type and its name, and of blanks. -/
theorem filter_of_declaration? {text type name : String}
    (h : declaration? text = some (type, name)) :
    text.toList.filter (fun c => !Text.isBlank c) = type.toList ++ name.toList := by
  rw [← Text.flatten_wordsOf]
  have hflatten : ∀ ws : List String, Text.words text = ws →
      (Text.wordsOf text.toList).flatten = (ws.map String.toList).flatten := by
    rintro ws rfl
    simp [Text.words]
  obtain ⟨-, ⟨hwords, rfl⟩ | ⟨hwords, -⟩⟩ := declaration?_cases h
  · rw [hflatten _ hwords]
    simp
  · rw [hflatten _ hwords]
    simp

/-- A key that runs over its end declares something else. -/
theorem not_overruns_of_declaration? {text value type name : String}
    (h : declaration? text = some (type, name)) (hvalue : declaration? value = some (type, name)) :
    ¬ Lexer.Overruns text value := by
  rintro ⟨body, more, htext, hover⟩
  have heq := (filter_of_declaration? h).trans (filter_of_declaration? hvalue).symm
  rw [htext, hover, List.filter_append, List.filter_append, List.append_cancel_left_eq,
    List.filter_cons, if_pos (by decide), List.filter_cons, if_pos (by decide)] at heq
  cases heq

end Parser

/-! ## Values -/

/-- The kinds of values that a declared type can have. -/
def kindsOf (type : String) : List PropertyKind :=
  if type = "spectrum" then [.floats, .strings]
  else if type = "string" ∨ type = "texture" then [.strings]
  else if type = "bool" then [.bools]
  else if type = "integer" then [.ints]
  else if type = "" then [.floats, .strings, .bools]
  else [.floats]

theorem untypedKind_mem (t : Token) : untypedKind t ∈ [.floats, .strings, .bools] := by
  unfold untypedKind
  split
  · simp
  · split <;> simp
  · simp

theorem kindFor_mem_kindsOf (type : String) (values : OneOrMore Token) :
    kindFor type values ∈ kindsOf type := by
  unfold kindFor kindsOf
  split
  · split <;> simp
  · split
    · simp
    · split
      · simp
      · split
        · simp
        · split
          · exact untypedKind_mem values.head
          · simp

namespace Parser

variable {ctx : Context} {key type : String} {values : OneOrMore Token} {value : Property}

/-- A built value is of the kind that its type and tokens ask for. -/
theorem kind_of_result_buildProperty
    (h : (buildProperty (misfit ctx key) type values).result = .ok value) :
    value.kind = kindFor type values := by
  rw [buildProperty_sound h]
  exact kind_reading type values

/-- A built integer is the value of a number, the substitute included. -/
theorem integer?_of_result_buildProperty {is : OneOrMore Int}
    (h : (buildProperty (misfit ctx key) type values).result = .ok (.ints is)) :
    ∀ i ∈ is.toList, ∃ x, Number.integer? x = some i := by
  have hzero : Number.integer? 0.0 = some 0 := by decide +kernel
  have hread := buildProperty_sound h
  have hkind : kindFor type values = .ints := (kind_of_result_buildProperty h).symm
  rw [Grammar.reading, hkind] at hread
  obtain rfl := Property.ints.inj hread
  intro i hi
  rw [OneOrMore.toList_map] at hi
  obtain ⟨t, -, rfl⟩ := List.mem_map.mp hi
  cases ht : t.integer? with
  | none => exact ⟨0.0, hzero⟩
  | some i =>
      obtain ⟨x, -, hx⟩ := Option.bind_eq_some_iff.mp ht
      exact ⟨x, hx⟩

end Parser

/-! ## Parameters -/

/-- The parameter could have been declared. -/
structure Param.Declared (p : Param) : Prop where
  declaration : Parser.declaration? p.key = some (p.type, p.name)
  kind : p.value.kind ∈ kindsOf p.type
  integers : ∀ is, p.value = .ints is → ∀ i ∈ is.toList, ∃ x, Number.integer? x = some i

/-- The parameters could have been declared one after the other. -/
structure ParamMap.WellDeclared (params : ParamMap) : Prop where
  declared : ∀ p ∈ params.entries, p.Declared
  distinct : params.names.Nodup

namespace ParamMap

theorem wellDeclared_empty : WellDeclared .empty := ⟨nofun, List.nodup_nil⟩

theorem mem_names_iff {params : ParamMap} {name : String} :
    name ∈ params.names ↔ (params.lookup? name).isSome = true := by
  simp [names, lookup?, List.find?_isSome]

theorem entries_set {params : ParamMap} {p : Param} (h : p.name ∉ params.names) :
    (params.set p).entries = params.entries ++ [p] :=
  setIn_of_not_mem h

theorem WellDeclared.set {params : ParamMap} {p : Param} (h : params.WellDeclared)
    (hp : p.Declared) (hname : p.name ∉ params.names) : (params.set p).WellDeclared where
  declared := by
    intro q hq
    rw [entries_set hname, List.mem_append, List.mem_singleton] at hq
    rcases hq with hq | rfl
    · exact h.declared q hq
    · exact hp
  distinct := by
    rw [names_set_of_not_mem hname, List.nodup_append]
    refine ⟨h.distinct, by simp, ?_⟩
    rintro name hmem _ hlast rfl
    exact hname (List.mem_singleton.mp hlast ▸ hmem)

end ParamMap

theorem Parser.wellDeclared_parameters {ctx : Context} {params : ParamMap} {stop : Position}
    {ts : List Token} {p : Parsed ParamMap}
    (h : (parameters ctx params stop ts).result = .ok p) (hparams : params.WellDeclared) :
    p.value.WellDeclared := by
  fun_induction parameters ctx params stop ts with
  | case1 =>
      cases h
      exact hparams
  | case2 =>
      cases h
      exact hparams
  | case3 => cases h
  | case4 => cases h
  | case5 => cases h
  | case6 params stop t ts text hs type name hd key hlookup q hv hlt ih =>
      obtain ⟨value, hvalue, h⟩ := Success.of_result_bind h
      have hnew := mt ParamMap.mem_names_iff.mp hlookup
      refine ih value h (hparams.set ⟨declaration?_key hd, ?_, ?_⟩ hnew)
      · rw [kind_of_result_buildProperty hvalue]
        exact kindFor_mem_kindsOf type q.value
      · rintro is rfl
        exact integer?_of_result_buildProperty hvalue

/-- The shape has a list of parameters. -/
def ArgShape.hasParams : ArgShape → Bool
  | named => true
  | texture => true
  | _ => false

theorem Parser.parametersOf_eq (ctx : Context) (shape : ArgShape) (stop : Position)
    (ts : List Token) : parametersOf ctx shape stop ts =
      if shape.hasParams then parameters ctx .empty stop ts else pure ⟨.empty, stop, ts⟩ := by
  cases shape <;> rfl

/-- The parameters of a parsed directive could have been declared, and it has none where
its name does not ask for them. -/
theorem Directive.Parsed.wellDeclared {d : Directive} (h : d.Parsed) :
    d.params.WellDeclared ∧ (d.name.signature.hasParams = false → d.params = .empty) := by
  obtain ⟨ctx, ts, stop, rest, hd⟩ := h
  unfold Parser.directive at hd
  split at hd
  · cases hd
  · split at hd
    · cases hd
    · obtain ⟨params, hparams, hpure⟩ := Success.of_result_bind hd
      cases hpure
      rw [Parser.parametersOf_eq] at hparams
      split at hparams
      · rename_i hshape
        exact ⟨Parser.wellDeclared_parameters hparams ParamMap.wellDeclared_empty,
          fun hnone => absurd (hshape.symm.trans hnone) (by decide)⟩
      · cases hparams
        exact ⟨ParamMap.wellDeclared_empty, fun _ => rfl⟩

/-- Every directive of a text was parsed. -/
theorem Parser.parsed_of_mem_read {ctx : Context} {ts : List Token} {d : Directive}
    (h : d ∈ (read ctx ts).directives) : d.Parsed := by
  fun_induction read ctx ts with
  | case1 => cases h
  | case2 => cases h
  | case3 ts hend _ p hd _ _ ih =>
      rcases List.mem_cons.mp h with rfl | hmem
      · exact ⟨ctx, ts, p.stop, p.rest, hd⟩
      · exact ih hmem

theorem Parser.parsed_of_mem_parse {ctx : Context} {ts : List Token} {ds : List Directive}
    (h : (parse ctx ts).result = .ok ds) {d : Directive} (hd : d ∈ ds) : d.Parsed := by
  unfold parse at h
  dsimp only at h
  split at h
  · cases h
  · cases h
    exact parsed_of_mem_read hd

end SceneReader
