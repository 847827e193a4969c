import SceneReader.Proofs.Directive.Grammar
import SceneReader.Proofs.Directive.RoundTrip

/-!
# Rules of the grammar and their readers

Each rule of the grammar has a function that reads it.  What the function reads are the first
tokens, and they are derived by the rule; in strict reading as well, where it reads less.
The other way round the function reads what the rule derives, whatever follows, as long as
that does not go on with the rule: no number after numbers, no string after names and
parameters.  For parameters this holds in lenient reading only.

**Results.**
* `arguments_sound`, `arguments_complete`: the arguments of a shape.
* `takeValues_sound`, `takeValues_complete`: the value tokens of a parameter.
* `parameters_sound`, `parameters_complete`: lists of parameters.
* `directive_sound`, `directive_complete`: directives.
-/

namespace SceneReader
namespace Parser

open Grammar

/-! ## What rules take -/

/-- The place after some tokens, which is the one before them if there are none. -/
def stopAfter (stop : Position) (ts : List Token) : Position :=
  ts.foldl (fun _ t => stopOf t) stop

theorem stopAfter_append (stop : Position) (us ts : List Token) :
    stopAfter stop (us ++ ts) = stopAfter (stopAfter stop us) ts :=
  List.foldl_append

theorem stopAfter_eq_getLast (t : Token) (ts : List Token) :
    stopAfter (stopOf t) ts = ((t :: ts).getLast (List.cons_ne_nil t ts)).span.stop := by
  induction ts generalizing t with
  | nil => rfl
  | cons u us ih =>
      rw [List.getLast_cons (List.cons_ne_nil u us), ← ih u]
      rfl

/-- What was read are the first tokens, and the place behind is theirs. -/
structure Takes {α : Type} (ts : List Token) (stop : Position) (p : Parsed α)
    (us : List Token) : Prop where
  tokens : ts = us ++ p.rest
  stop : p.stop = stopAfter stop us

theorem Takes.cons {α β : Type} {t : Token} {ts us : List Token} {stop : Position}
    {p : Parsed α} {q : Parsed β} (h : Takes ts (stopOf t) p us) (hstop : q.stop = p.stop)
    (hrest : q.rest = p.rest) : Takes (t :: ts) stop q (t :: us) :=
  ⟨by rw [hrest, List.cons_append, ← h.tokens], hstop.trans h.stop⟩

/-! ## Arguments -/

theorem takeNumbers_sound (count : Nat) (stop : Position) (ts : List Token) :
    ∃ us, Takes ts stop (takeNumbers count stop ts) us ∧
      Numbers us (takeNumbers count stop ts).value := by
  induction count generalizing stop ts with
  | zero => exact ⟨[], ⟨rfl, rfl⟩, .nil⟩
  | succ count ih =>
      cases ts with
      | nil => exact ⟨[], ⟨rfl, rfl⟩, .nil⟩
      | cons t ts =>
          unfold takeNumbers
          split
          · exact ⟨[], ⟨rfl, rfl⟩, .nil⟩
          · rename_i x hx
            obtain ⟨us, htakes, hus⟩ := ih (stopOf t) ts
            exact ⟨t :: us, htakes.cons rfl rfl,
              .cons ⟨x, Token.number?_eq_some_iff.mp hx, rfl⟩ hus⟩

theorem takeStrings_sound (count : Nat) (stop : Position) (ts : List Token) :
    ∃ us, Takes ts stop (takeStrings count stop ts) us ∧
      Strings us (takeStrings count stop ts).value := by
  induction count generalizing stop ts with
  | zero => exact ⟨[], ⟨rfl, rfl⟩, .nil⟩
  | succ count ih =>
      cases ts with
      | nil => exact ⟨[], ⟨rfl, rfl⟩, .nil⟩
      | cons t ts =>
          unfold takeStrings
          split
          · exact ⟨[], ⟨rfl, rfl⟩, .nil⟩
          · rename_i s hs
            obtain ⟨us, htakes, hus⟩ := ih (stopOf t) ts
            exact ⟨t :: us, htakes.cons rfl rfl,
              .cons ⟨s, Token.string?_eq_some_iff.mp hs, rfl⟩ hus⟩

/-- Numbers are taken as long as there are some, up to the count. -/
theorem takeNumbers_complete {us rest : List Token} {args : List Argument} {count : Nat}
    (h : Numbers us args) (hcount : us.length ≤ count)
    (hrest : us.length = count ∨ ∀ t ∈ rest.head?, t.number? = none) (stop : Position) :
    takeNumbers count stop (us ++ rest) = ⟨args, stopAfter stop us, rest⟩ := by
  induction h generalizing count stop with
  | nil =>
      cases count with
      | zero => rfl
      | succ count =>
          have hnone := hrest.resolve_left (Nat.succ_ne_zero count).symm
          cases rest with
          | nil => rfl
          | cons t rest => rw [List.nil_append, takeNumbers, hnone t rfl]; rfl
  | @cons t a us args ht _ ih =>
      obtain ⟨x, hkind, rfl⟩ := ht
      cases count with
      | zero => cases hcount
      | succ count =>
          have hih := ih (Nat.le_of_succ_le_succ hcount) (hrest.imp_left Nat.succ.inj) (stopOf t)
          rw [List.cons_append, takeNumbers, Token.number?_eq_some_iff.mpr hkind]
          dsimp only
          rw [hih]
          rfl

/-- Strings are taken as long as there are some, up to the count. -/
theorem takeStrings_complete {us rest : List Token} {args : List Argument} {count : Nat}
    (h : Strings us args) (hcount : us.length ≤ count)
    (hrest : us.length = count ∨ ∀ t ∈ rest.head?, t.string? = none) (stop : Position) :
    takeStrings count stop (us ++ rest) = ⟨args, stopAfter stop us, rest⟩ := by
  induction h generalizing count stop with
  | nil =>
      cases count with
      | zero => rfl
      | succ count =>
          exact takeStrings_of_noString _ _ (hrest.resolve_left (Nat.succ_ne_zero _).symm)
  | @cons t a us args ht _ ih =>
      obtain ⟨s, hkind, rfl⟩ := ht
      cases count with
      | zero => cases hcount
      | succ count =>
          have hih := ih (Nat.le_of_succ_le_succ hcount) (hrest.imp_left Nat.succ.inj) (stopOf t)
          rw [List.cons_append, takeStrings, Token.string?_eq_some_iff.mpr hkind]
          dsimp only
          rw [hih]
          rfl

section Arguments

variable {ctx : Context} {d : Token} {ts us rest : List Token} {args : List Argument}
  {p : Parsed (List Argument)}

theorem numbers_sound {count : Nat} (h : numbers ctx d count ts = .ok p) :
    ∃ us, Takes ts (stopOf d) p us ∧ us.length = count ∧ Numbers us p.value := by
  obtain ⟨us, htakes, hus⟩ := takeNumbers_sound count (stopOf d) ts
  unfold numbers at h
  dsimp only at h
  split at h
  · rename_i hcount
    cases h
    exact ⟨us, htakes, hus.length_eq.trans hcount, hus⟩
  · cases h

theorem strings_sound {least most : Nat} {expected : String}
    (h : strings ctx d least most expected ts = .ok p) :
    ∃ us, Takes ts (stopOf d) p us ∧ (least ≤ us.length ∧ us.length ≤ most) ∧
      Strings us p.value := by
  obtain ⟨us, htakes, hus⟩ := takeStrings_sound most (stopOf d) ts
  obtain ⟨ss, hmost, hss⟩ := exists_takeStrings most (stopOf d) ts
  unfold strings at h
  dsimp only at h
  split at h
  · rename_i hleast
    cases h
    have hlength := hus.length_eq
    refine ⟨us, htakes, ⟨hlength ▸ hleast, ?_⟩, hus⟩
    rw [hlength, hss, List.length_map]
    exact hmost
  · cases h

theorem matrix_sound (h : matrix ctx d ts = .ok p) :
    ∃ us, Takes ts (stopOf d) p us ∧ Arguments .matrix us p.value := by
  unfold matrix at h
  dsimp only at h
  split at h
  · split at h
    · rename_i hcount
      cases hcount
    · cases h
  · rename_i l ts
    split at h
    · rename_i hl
      obtain ⟨us, htakes, hus⟩ := takeNumbers_sound ts.length (stopOf l) ts
      split at h
      · rename_i stop after hr
        split at h
        · rename_i hcount
          cases h
          unfold rightBracket? at hr
          split at hr
          · cases hr
          · rename_i r rest hrest
            split at hr
            · rename_i hkind
              cases hr
              refine ⟨l :: (us ++ [r]), ⟨?_, ?_⟩, .matrix hl (hus.length_eq.trans hcount) hus hkind⟩
              · rw [List.cons_append, List.append_assoc]
                exact congrArg (l :: ·) (htakes.tokens.trans (congrArg (us ++ ·) hrest))
              · change stopOf r = stopAfter (stopOf l) (us ++ [r])
                rw [stopAfter_append]
                rfl
            · cases hr
        · cases h
      · cases h
    · obtain ⟨us, htakes, hus⟩ := takeNumbers_sound 16 (stopOf d) (l :: ts)
      split at h
      · rename_i hcount
        cases h
        exact ⟨us, htakes, .bareMatrix (hus.length_eq.trans hcount) hus⟩
      · cases h

theorem keyword_sound (h : keyword ctx d ts = .ok p) :
    ∃ us, Takes ts (stopOf d) p us ∧ Arguments .keyword us p.value := by
  unfold keyword at h
  dsimp only at h
  split at h
  · cases h
  · split at h
    · rename_i word hword
      split at h
      · rename_i hmem
        cases h
        obtain ⟨hkind, rfl⟩ := Token.identifier?_eq_some_iff.mp hword
        exact ⟨[_], ⟨rfl, rfl⟩, .keyword hkind hmem⟩
      · cases h
    · cases h

/-- What is read for a shape are arguments of the shape. -/
theorem arguments_sound {shape : ArgShape} (h : arguments ctx d shape ts = .ok p) :
    ∃ us, Takes ts (stopOf d) p us ∧ Arguments shape us p.value := by
  cases shape with
  | nothing =>
      cases h
      exact ⟨[], ⟨rfl, rfl⟩, .nothing⟩
  | numbers count =>
      obtain ⟨us, htakes, hcount, hus⟩ := numbers_sound h
      exact ⟨us, htakes, .numbers hcount hus⟩
  | matrix => exact matrix_sound h
  | keyword => exact keyword_sound h
  | name =>
      obtain ⟨us, htakes, hcount, hus⟩ := strings_sound h
      exact ⟨us, htakes, .name (by omega) hus⟩
  | oneOrTwoNames =>
      obtain ⟨us, htakes, hcount, hus⟩ := strings_sound h
      exact ⟨us, htakes, .oneOrTwoNames (by omega) hus⟩
  | named =>
      obtain ⟨us, htakes, hcount, hus⟩ := strings_sound h
      exact ⟨us, htakes, .named (by omega) hus⟩
  | texture =>
      obtain ⟨us, htakes, hcount, hus⟩ := strings_sound h
      exact ⟨us, htakes, .texture (by omega) hus⟩

theorem strings_complete {least most : Nat} (h : Strings us args) (hleast : least ≤ us.length)
    (hmost : us.length ≤ most) (hrest : us.length = most ∨ ∀ t ∈ rest.head?, t.string? = none)
    (expected : String) :
    strings ctx d least most expected (us ++ rest) = .ok ⟨args, stopAfter (stopOf d) us, rest⟩ := by
  unfold strings
  rw [takeStrings_complete h hmost hrest]
  exact if_pos (h.length_eq ▸ hleast)

theorem matrix_complete (h : Arguments .matrix us args) :
    matrix ctx d (us ++ rest) = .ok ⟨args, stopAfter (stopOf d) us, rest⟩ := by
  cases h with
  | bareMatrix hcount h =>
      have hlength : args.length = 16 := h.length_eq ▸ hcount
      have htake : takeNumbers 16 (stopOf d) (us ++ rest) = ⟨args, stopAfter (stopOf d) us, rest⟩ :=
        takeNumbers_complete h (Nat.le_of_eq hcount) (Or.inl hcount) (stopOf d)
      cases h with
      | nil => cases hcount
      | @cons t a us args ht h =>
          obtain ⟨x, hkind, -⟩ := ht
          rw [List.cons_append] at htake ⊢
          unfold matrix
          simp only [hkind, htake]
          exact if_pos hlength
  | @matrix l r us args hl hcount h hr =>
      have htake : takeNumbers (us ++ [r] ++ rest).length (stopOf l) (us ++ [r] ++ rest) =
          ⟨args, stopAfter (stopOf l) us, r :: rest⟩ := by
        rw [List.append_assoc]
        refine takeNumbers_complete h ?_ (Or.inr ?_) (stopOf l)
        · rw [List.length_append]
          exact Nat.le_add_right _ _
        · rintro _ ⟨⟩
          simp [Token.number?, hr]
      have hbracket : rightBracket? (r :: rest) = some (stopOf r, rest) := by
        simp [rightBracket?, hr]
      rw [List.cons_append]
      unfold matrix
      simp only [hl, htake, hbracket]
      rw [if_pos (h.length_eq ▸ hcount), stopAfter, List.foldl_cons, List.foldl_append]
      rfl

/-- Arguments of a shape are read for it, unless another name could go on with them. -/
theorem arguments_complete {shape : ArgShape} (h : Arguments shape us args)
    (hrest : shape = .oneOrTwoNames → ∀ t ∈ rest.head?, t.string? = none) :
    arguments ctx d shape (us ++ rest) = .ok ⟨args, stopAfter (stopOf d) us, rest⟩ := by
  cases h with
  | nothing => rfl
  | numbers hcount h =>
      subst hcount
      unfold arguments numbers
      dsimp only
      rw [takeNumbers_complete h (Nat.le_refl _) (Or.inl rfl)]
      exact if_pos h.length_eq.symm
  | bareMatrix hcount h => exact matrix_complete (.bareMatrix hcount h)
  | matrix hl hcount h hr => exact matrix_complete (.matrix hl hcount h hr)
  | keyword hkind hword =>
      unfold arguments keyword
      simp [Token.identifier?, hkind, hword, stopAfter]
  | name hcount h => exact strings_complete h (by omega) (by omega) (Or.inl hcount) _
  | oneOrTwoNames hcount h =>
      exact strings_complete h (by omega) (by omega) (Or.inr (hrest rfl)) _
  | named hcount h => exact strings_complete h (by omega) (by omega) (Or.inl hcount) _
  | texture hcount h => exact strings_complete h (by omega) (by omega) (Or.inl hcount) _

end Arguments

/-! ## Values -/

section Values

variable {ctx : Context} {key type text : String} {d : Token} {ts us rest : List Token}
  {values : OneOrMore Token}

theorem literal_iff {t : Token} : isLiteral t = true ↔ Literal t := by
  unfold isLiteral
  constructor
  · intro h
    split at h
    · rename_i x hkind
      exact .number x hkind
    · rename_i s hkind
      exact .string s hkind
    · rename_i hkind
      exact .malformed hkind
    · rename_i hkind
      exact .truth hkind h
    · cases h
  · intro h
    cases h with
    | number x h => simp [h]
    | malformed h => simp [h]
    | string s h => simp [h]
    | truth h hword => simpa [h] using hword

theorem bracketedValues_sound {p : Parsed (List Token)} (h : bracketedValues ctx key ts = .ok p) :
    ∃ r, ts = p.value ++ r :: p.rest ∧ r.kind = .rightBracket ∧ p.stop = stopOf r ∧
      ∀ u ∈ p.value, isValue u.kind = true := by
  induction ts generalizing p with
  | nil => cases h
  | cons t ts ih =>
      by_cases hvalue : isValue t.kind = true
      · rw [bracketedValues_cons hvalue] at h
        obtain ⟨q, hq, rfl⟩ := Success.of_map h
        obtain ⟨r, rfl, hr, hstop, hmem⟩ := ih hq
        exact ⟨r, rfl, hr, hstop, List.forall_mem_cons.mpr ⟨hvalue, hmem⟩⟩
      · unfold bracketedValues at h
        split at h
        · rename_i hkind
          cases h
          exact ⟨t, rfl, hkind, rfl, List.forall_mem_nil _⟩
        · cases h
        · cases h
        · rename_i h₁ h₂ h₃
          refine absurd ?_ hvalue
          unfold isValue
          split <;> simp_all

theorem takeValues_sound (stop : Position) {p : Parsed (OneOrMore Token)}
    (h : takeValues ctx key d ts = .ok p) :
    ∃ us, Takes ts stop p us ∧ Values us p.value := by
  unfold takeValues at h
  dsimp only at h
  split at h
  · cases h
  · rename_i t ts
    split at h
    · rename_i hl
      split at h
      · cases h
      · rename_i q hq
        obtain ⟨r, rfl, hr, hstop, hmem⟩ := bracketedValues_sound hq
        cases hlist : q.value with
        | nil => simp [hlist, OneOrMore.ofList?] at h
        | cons u us =>
            simp only [hlist, OneOrMore.ofList?] at h
            cases h
            rw [hlist] at hmem
            refine ⟨t :: (u :: us ++ [r]), ⟨by simp, ?_⟩, .list ⟨u, us⟩ hl hmem hr⟩
            rw [stopAfter, List.foldl_cons, List.foldl_append]
            exact hstop
    · split at h
      · rename_i hliteral
        cases h
        exact ⟨[t], ⟨rfl, rfl⟩, .literal (literal_iff.mp hliteral)⟩
      · cases h

theorem takeValues_complete (h : Values us values) (stop : Position) :
    takeValues ctx key d (us ++ rest) = .ok ⟨values, stopAfter stop us, rest⟩ := by
  cases h with
  | @literal t h =>
      have hliteral := literal_iff.mpr h
      have hkind : t.kind ≠ .leftBracket := by
        intro hl
        rw [isLiteral, hl] at hliteral
        cases hliteral
      unfold takeValues
      dsimp only [List.cons_append, List.nil_append]
      split
      · rename_i hl
        exact absurd hl hkind
      · exact if_pos hliteral
  | list values hl h hr =>
      rw [List.cons_append, List.append_assoc]
      refine (takeValues_bracketed hl h hr).trans ?_
      rw [stopAfter, List.foldl_cons, List.foldl_append]
      rfl

/-! ## Parameters -/

theorem declaration?_iff {name : String} :
    declaration? text = some (type, name) ↔ Declares text type name := by
  constructor
  · intro h
    rcases (declaration?_cases h).2 with ⟨hwords, rfl⟩ | ⟨hwords, -⟩
    · exact .name hwords
    · exact .typed hwords
  · intro h
    unfold declaration?
    cases h with
    | name h => rw [h]
    | typed h => rw [h]

/-- What is read as parameters is a list of parameters with new names, and no string follows. -/
theorem parameters_sound {params : ParamMap} {stop : Position} {p : Parsed ParamMap}
    (h : (parameters ctx params stop ts).result = .ok p) (hnames : params.names.Nodup) :
    ∃ us ps, Takes ts stop p us ∧ Parameters us ps ∧ p.value = ⟨params.entries ++ ps⟩ ∧
      p.value.names.Nodup := by
  fun_induction parameters ctx params stop ts with
  | case1 params stop =>
      cases h
      exact ⟨[], [], ⟨rfl, rfl⟩, .nil, by rw [List.append_nil], hnames⟩
  | case2 params stop t ts hs =>
      cases h
      exact ⟨[], [], ⟨rfl, rfl⟩, .nil, by rw [List.append_nil], hnames⟩
  | case3 => cases h
  | case4 => cases h
  | case5 => cases h
  | case6 params stop t ts text hs type name hd key hlookup q hv hlt ih =>
      obtain ⟨value, hvalue, h⟩ := Success.of_result_bind h
      have hnew := mt ParamMap.mem_names_iff.mp hlookup
      have hset : (params.set ⟨type, name, value⟩).entries =
          params.entries ++ [⟨type, name, value⟩] := ParamMap.entries_set hnew
      have hnames' : (params.set ⟨type, name, value⟩).names.Nodup := by
        rw [ParamMap.names_set_of_not_mem hnew]
        exact (List.nodup_cons.mpr ⟨hnew, hnames⟩).perm (List.perm_append_singleton _ _).symm
      obtain ⟨us, ps, htakes, hps, hvalues, hnodup⟩ := ih value h hnames'
      obtain ⟨vs, htakes', hvs⟩ := takeValues_sound (stopOf t) hv
      obtain rfl := buildProperty_sound hvalue
      refine ⟨t :: (vs ++ us), ⟨type, name, reading type q.value⟩ :: ps, ⟨?_, ?_⟩,
        .cons (Token.string?_eq_some_iff.mp hs) (declaration?_iff.mp hd) hvs hps, ?_, hnodup⟩
      · rw [List.cons_append, List.append_assoc, ← htakes.tokens, ← htakes'.tokens]
      · rw [htakes.stop, htakes'.stop, ← stopAfter_append]
        rfl
      · rw [hvalues, hset, List.append_assoc]
        rfl

/-- In lenient reading a list of parameters with new names is read as such, unless a string
follows. -/
theorem parameters_complete (hlenient : ctx.strict = false) {ps : List Param}
    (h : Parameters us ps) {params : ParamMap}
    (hnames : (params.names ++ ps.map (·.name)).Nodup)
    (hrest : ∀ t ∈ rest.head?, t.string? = none) (stop : Position) :
    (parameters ctx params stop (us ++ rest)).result =
      .ok ⟨⟨params.entries ++ ps⟩, stopAfter stop us, rest⟩ := by
  induction h generalizing params stop with
  | nil =>
      rw [List.nil_append, parameters_of_noString hrest, List.append_nil]
      rfl
  | @cons t text type name values vs us ps hkind hdecl hvalues _ ih =>
      have hnew : name ∉ params.names := by
        intro hmem
        exact (List.nodup_append.mp hnames).2.2 name hmem name List.mem_cons_self rfl
      have hset : (params.set ⟨type, name, reading type values⟩).entries =
          params.entries ++ [⟨type, name, reading type values⟩] := ParamMap.entries_set hnew
      have hvs : takeValues ctx (makeKey type name) t (vs ++ (us ++ rest)) =
          .ok ⟨values, stopAfter (stopOf t) vs, us ++ rest⟩ := takeValues_complete hvalues _
      rw [List.cons_append, List.append_assoc,
        parameters_cons (Token.string?_eq_some_iff.mpr hkind) (declaration?_iff.mpr hdecl) hnew hvs,
        buildProperty_lenient hlenient, Reported.ok_bind, ih]
      · rw [hset, List.append_assoc, ← stopAfter_append]
        rfl
      · rw [ParamMap.names_set_of_not_mem hnew, List.append_assoc]
        exact hnames

end Values

/-! ## Directives -/

section Directives

variable {ctx : Context} {ts us rest : List Token} {d : Directive}

theorem ofText?_eq_some_iff {word : String} {name : DirectiveName} :
    DirectiveName.ofText? word = some name ↔ word = name.text := by
  constructor
  · intro h
    unfold DirectiveName.ofText? at h
    have hfound := List.find?_some h
    exact (beq_iff_eq.mp hfound).symm
  · rintro rfl
    exact name.ofText?_text

theorem directiveName_sound {name : DirectiveName} {t : Token}
    (h : directiveName ctx ts = .ok (name, t)) :
    ts = t :: ts.tail ∧ t.kind = .identifier ∧ t.lexeme = name.text := by
  unfold directiveName at h
  split at h
  · cases h
  · split at h
    · cases h
    · rename_i word hword
      split at h
      · cases h
      · rename_i hname
        cases h
        obtain ⟨hkind, hlexeme⟩ := Token.identifier?_eq_some_iff.mp hword
        exact ⟨rfl, hkind, hlexeme.trans (ofText?_eq_some_iff.mp hname)⟩

theorem parametersOf_sound {shape : ArgShape} {stop : Position} {p : Parsed ParamMap}
    (h : (parametersOf ctx shape stop ts).result = .ok p) :
    ∃ us, Takes ts stop p us ∧ ParametersOf shape us p.value := by
  rw [parametersOf_eq] at h
  split at h
  · rename_i hshape
    obtain ⟨us, ps, htakes, hps, hvalue, hnames⟩ := parameters_sound h List.nodup_nil
    rw [hvalue] at hnames ⊢
    exact ⟨us, htakes, .list hshape hps hnames⟩
  · rename_i hshape
    cases h
    exact ⟨[], ⟨rfl, rfl⟩, .nothing (Bool.eq_false_iff.mpr hshape)⟩

/-- A directive that is read is a block of the first tokens. -/
theorem directive_sound {p : Parsed Directive} (h : (directive ctx ts).result = .ok p) :
    ∃ us, ts = us ++ p.rest ∧ Block us p.value := by
  unfold directive at h
  split at h
  · cases h
  · rename_i name t hname
    split at h
    · cases h
    · rename_i args hargs
      obtain ⟨params, hparams, h⟩ := Success.of_result_bind h
      cases h
      obtain ⟨hts, hkind, hlexeme⟩ := directiveName_sound hname
      obtain ⟨us, htakes, hus⟩ := arguments_sound hargs
      obtain ⟨vs, htakes', hvs⟩ := parametersOf_sound hparams
      have hstop : params.stop = (spanOver t (us ++ vs)).stop := by
        rw [htakes'.stop, htakes.stop, ← stopAfter_append, stopAfter_eq_getLast]
        rfl
      refine ⟨t :: (us ++ vs), ?_, ?_⟩
      · rw [List.cons_append, List.append_assoc, ← htakes'.tokens, ← htakes.tokens, ← hts]
      · dsimp only
        rw [hstop]
        exact .directive hkind hlexeme hus hvs

theorem parametersOf_complete (hlenient : ctx.strict = false) {shape : ArgShape}
    {params : ParamMap} (h : ParametersOf shape us params)
    (hrest : ∀ t ∈ rest.head?, t.string? = none) (stop : Position) :
    (parametersOf ctx shape stop (us ++ rest)).result =
      .ok ⟨params, stopAfter stop us, rest⟩ := by
  rw [parametersOf_eq]
  cases h with
  | nothing hshape =>
      rw [hshape]
      rfl
  | list hshape h hnames =>
      have hempty : (ParamMap.empty.names ++ _).Nodup := hnames
      rw [if_pos hshape, parameters_complete hlenient h hempty hrest]
      rfl

/-- A name and its arguments are read, and what follows for parameters. -/
theorem directive_eq {t : Token} {name : DirectiveName} {args : List Argument}
    (hkind : t.kind = .identifier) (hname : t.lexeme = name.text)
    (hargs : Arguments name.signature us args)
    (hnext : name.signature = .oneOrTwoNames → ∀ u ∈ rest.head?, u.string? = none) :
    directive ctx (t :: (us ++ rest)) =
      parametersOf ctx name.signature (stopAfter (stopOf t) us) rest >>= fun params =>
        pure ⟨⟨name, args, params.value, some ⟨t.span.file, t.span.start, params.stop⟩⟩,
          params.stop, params.rest⟩ := by
  have hdirective : directiveName ctx (t :: (us ++ rest)) = .ok (name, t) := by
    rw [directiveName, Token.identifier?_eq_some_iff.mpr ⟨hkind, hname⟩]
    dsimp only
    rw [DirectiveName.ofText?_text]
  have harguments : arguments ctx t name.signature (us ++ rest) =
      .ok ⟨args, stopAfter (stopOf t) us, rest⟩ := arguments_complete hargs hnext
  unfold directive
  rw [hdirective]
  dsimp only [List.tail_cons]
  rw [harguments]

/-- A string behind the arguments is taken for one of them only where a second name may stand, and
there no parameters follow. -/
theorem noString_of_parametersOf {shape : ArgShape} {params : ParamMap}
    (h : ParametersOf shape us params) (hrest : ∀ t ∈ rest.head?, t.string? = none) :
    shape = .oneOrTwoNames → ∀ t ∈ (us ++ rest).head?, t.string? = none := by
  rintro rfl
  cases h with
  | nothing => exact hrest
  | list hnone => cases hnone

/-- In lenient reading a block is read as its directive, unless a string follows. -/
theorem directive_complete (hlenient : ctx.strict = false) (h : Block us d)
    (hrest : ∀ t ∈ rest.head?, t.string? = none) :
    ∃ stop, (directive ctx (us ++ rest)).result = .ok ⟨d, stop, rest⟩ := by
  cases h with
  | @directive t name us vs args params hkind hname hargs hparams =>
      refine ⟨stopAfter (stopAfter (stopOf t) us) vs, ?_⟩
      rw [List.cons_append, List.append_assoc,
        directive_eq hkind hname hargs (noString_of_parametersOf hparams hrest),
        Reported.result_bind (parametersOf_complete hlenient hparams hrest _),
        ← stopAfter_append, stopAfter_eq_getLast]
      rfl

end Directives

end Parser
end SceneReader
