import SceneReader.Directive.Parser
import SceneReader.Proofs.Success

/-!
# Values in their places

The value tokens of a parameter become values of one kind, each in the place of its token.  Every
token can be a text; for the other kinds a token may not fit, and then the caller is asked for a
substitute, which is brought to the kind.  A caller that answers with zero or with false is never
refused, and which of the two it answers makes no difference: the value is the zero of the kind.  So
all that is left of the answers is what else the caller does when it is asked, and it is asked about
the tokens that do not fit, about each of them once and in their order.

This is said in any monad: what the caller does may be to report, to count or to fail.  The parser
warns of the tokens that do not fit, or in strict reading it refuses the first of them.

**Results.**
* `Property.ofValues_values`: the values of a property are accepted as its values.
* `values_reading`: the values that tokens stand for, token by token.
* `buildProperty_eq`: the property that is built, and what is done on the way.
* `buildProperty_cases`: what the parser does on the way.
* `run_coerce`: so it is with a caller that answers, and with the values checked.
-/

namespace SceneReader

/-! ## Values -/

/-- What is found again is found in its place. -/
theorem mapM_map_ok {ε α β : Type} {f : α → β} {g : β → Except ε α} (h : ∀ a, g (f a) = .ok a)
    (as : List α) : (as.map f).mapM g = .ok as := by
  have hid : g ∘ f = fun a => pure (id a) := funext h
  rw [List.mapM_map, hid, List.mapM_pure, List.map_id]
  rfl

theorem OneOrMore.toList_map {α β : Type} (f : α → β) (xs : OneOrMore α) :
    (xs.map f).toList = xs.toList.map f := rfl

namespace Property

/-- The values in order, each with its type. -/
def values : Property → List Value
  | floats xs => xs.toList.map .float
  | ints is => is.toList.map .int
  | strings ss => ss.toList.map .string
  | bools bs => bs.toList.map .bool

/-- The values of a property are accepted as its values: they are of its kind, and there is one. -/
theorem ofValues_values (p : Property) : ofValues p.kind p.values = .ok p := by
  have hmapM {α : Type} (f : α → Value) {g : Value → Except PropertyFault α}
      (h : ∀ a, g (f a) = .ok a) (as : OneOrMore α) :
      (⟨f as.head, as.tail.map f⟩ : OneOrMore Value).mapM g = .ok as := by
    unfold OneOrMore.mapM
    rw [h, mapM_map_ok h]
    rfl
  cases p with
  | floats xs => exact congrArg (floats <$> ·) (hmapM .float (fun _ => rfl) xs)
  | ints is => exact congrArg (ints <$> ·) (hmapM .int (fun _ => rfl) is)
  | strings ss => exact congrArg (strings <$> ·) (hmapM .string (fun _ => rfl) ss)
  | bools bs => exact congrArg (bools <$> ·) (hmapM .bool (fun _ => rfl) bs)

/-- Properties of one kind with the same values are the same. -/
theorem eq_of_values {p q : Property} (hkind : p.kind = q.kind) (hvalues : p.values = q.values) :
    p = q := by
  have h := ofValues_values p
  rw [hkind, hvalues, ofValues_values] at h
  exact (Except.ok.inj h).symm

end Property

namespace PropertyKind

/-- What stands in the place of a value that does not fit; among texts there is none. -/
def zero : PropertyKind → Value
  | floats => .float 0.0
  | ints => .int 0
  | strings => .string ""
  | bools => .bool false

/-- What a token should have been that does not fit; among texts there is none. -/
def expectation : PropertyKind → Expectation
  | bools => .bool
  | ints => .integer
  | _ => .number

end PropertyKind

/-- The value of a token as one of the kind, if the token fits. -/
def Token.valueAs? (kind : PropertyKind) (t : Token) : Option Value :=
  match kind with
  | .floats => t.number?.map .float
  | .ints => t.integer?.map .int
  | .strings => some (.string t.asText)
  | .bools => t.bool?.map .bool

/-- The tokens that do not fit the kind of property that they are to be, in order. -/
def misfits (type : String) (values : OneOrMore Token) : List Token :=
  values.toList.filter fun t => (t.valueAs? (kindFor type values)).isNone

/-- What value tokens stand for under a declared type.  A token that does not fit is replaced
by zero or false. -/
def Grammar.reading (type : String) (values : OneOrMore Token) : Property :=
  match kindFor type values with
  | .strings => .strings (values.map Token.asText)
  | .bools => .bools (values.map fun t => t.bool?.getD false)
  | .ints => .ints (values.map fun t => t.integer?.getD 0)
  | .floats => .floats (values.map fun t => t.number?.getD 0.0)

section Reading

open Grammar (reading)

variable (type : String) (values : OneOrMore Token)

theorem kind_reading : (reading type values).kind = kindFor type values := by
  unfold reading
  cases kindFor type values <;> rfl

/-- One value for each token, in the order of the tokens: its own value if it fits, and the zero of
the kind if it does not. -/
theorem values_reading : (reading type values).values =
    values.toList.map fun t => (t.valueAs? (kindFor type values)).getD (kindFor type values).zero := by
  have hmap {α : Type} (f : α → Value) (read? : Token → Option α) (substitute : α) :
      ((values.map fun t => (read? t).getD substitute).toList.map f) =
        values.toList.map fun t => ((read? t).map f).getD (f substitute) := by
    change ((values.toList.map fun t => (read? t).getD substitute).map f) = _
    rw [List.map_map]
    refine List.map_congr_left fun t _ => ?_
    dsimp only [Function.comp]
    cases read? t <;> rfl
  unfold reading
  cases kindFor type values with
  | floats => exact hmap _ _ _
  | ints => exact hmap _ _ _
  | strings => exact (List.map_map : (values.toList.map Token.asText).map Value.string = _)
  | bools => exact hmap _ _ _

/-! ## A caller that is told -/

variable {m : Type → Type} [Monad m] [LawfulMonad m]

/-- Of the tokens that are read one after the other, the caller is told of those that cannot be
read. -/
theorem mapM_valueOr {α : Type} (misfit : Expectation → Token → m Unit) (expected : Expectation)
    (substitute : α) (read? : Token → Option α) (ts : List Token) :
    ts.mapM (valueOr misfit expected substitute read?) =
      ((ts.filter fun t => (read? t).isNone).forM (misfit expected) >>= fun _ =>
        pure (ts.map fun t => (read? t).getD substitute)) := by
  induction ts with
  | nil => simp
  | cons t ts ih =>
      rw [List.mapM_cons, ih]
      unfold valueOr
      cases h : read? t with
      | some a => simp [h]
      | none => simp [h]

theorem mapM_valueOr_oneOrMore {α : Type} (misfit : Expectation → Token → m Unit)
    (expected : Expectation) (substitute : α) (read? : Token → Option α) :
    values.mapM (valueOr misfit expected substitute read?) =
      ((values.toList.filter fun t => (read? t).isNone).forM (misfit expected) >>= fun _ =>
        pure (values.map fun t => (read? t).getD substitute)) := by
  unfold OneOrMore.mapM
  rw [mapM_valueOr, OneOrMore.toList]
  unfold valueOr
  cases h : read? values.head with
  | some a => simp [h, OneOrMore.map]
  | none => simp [h, OneOrMore.map]

/-- The property that is built does not depend on the caller, and the caller is told of the tokens
that do not fit, once of each and in order. -/
theorem buildProperty_eq (misfit : Expectation → Token → m Unit) :
    buildProperty misfit type values =
      ((misfits type values).forM (misfit (kindFor type values).expectation) >>= fun _ =>
        pure (reading type values)) := by
  unfold buildProperty misfits reading
  cases kindFor type values with
  | floats => simp [mapM_valueOr_oneOrMore, Token.valueAs?, PropertyKind.expectation]
  | ints => simp [mapM_valueOr_oneOrMore, Token.valueAs?, PropertyKind.expectation]
  | strings => simp [Token.valueAs?]
  | bools => simp [mapM_valueOr_oneOrMore, Token.valueAs?, PropertyKind.expectation]

/-! ## A caller that answers -/

/-- An integer or a truth value brought to a kind.  Truth values are zero and one, and what is not
zero is true. -/
def Value.convert? : PropertyKind → Value → Option Value
  | .floats, .int i => some (.float (Float.ofInt i))
  | .floats, .bool b => some (.float (if b then 1.0 else 0.0))
  | .ints, .int i => some (.int i)
  | .ints, .bool b => some (.int (if b then 1 else 0))
  | .bools, .int i => some (.bool (decide (i ≠ 0)))
  | .bools, .bool b => some (.bool b)
  | _, _ => none

/-- What a caller may answer: the integer zero or the truth value false. -/
inductive Substitute where
  | zero
  | no

/-- The answer as a value. -/
def Substitute.value : Substitute → Value
  | zero => .int 0
  | no => .bool false

/-- The value of a token as one of the kind, or the answer of the caller brought to it. -/
def coerceToken (answer : Expectation → Token → m Value) (kind : PropertyKind) (t : Token) :
    OptionT m Value :=
  match t.valueAs? kind with
  | some v => pure v
  | none => do
      let v ← OptionT.lift (answer kind.expectation t)
      OptionT.mk (pure (v.convert? kind))

/-- The property of the values of the tokens, each of which is checked. -/
def coerce (answer : Expectation → Token → m Value) (type : String) (values : OneOrMore Token) :
    OptionT m Property := do
  let vs ← values.toList.mapM (coerceToken answer (kindFor type values))
  OptionT.mk (pure (Property.ofValues (kindFor type values) vs).toOption)

theorem Substitute.convert?_value (s : Substitute) {kind : PropertyKind} (h : kind ≠ .strings) :
    s.value.convert? kind = some kind.zero := by
  cases kind with
  | floats => cases s <;> rfl
  | ints => cases s <;> rfl
  | strings => exact absurd rfl h
  | bools => cases s <;> rfl

theorem mapM_coerceToken (told : Expectation → Token → m Substitute) (kind : PropertyKind)
    (ts : List Token) :
    (ts.mapM (coerceToken (fun e t => Substitute.value <$> told e t) kind)).run =
      ((ts.filter fun t => (t.valueAs? kind).isNone).forM fun t =>
        (fun _ => ()) <$> told kind.expectation t) >>= fun _ =>
          pure (some (ts.map fun t => (t.valueAs? kind).getD kind.zero)) := by
  induction ts with
  | nil => simp
  | cons t ts ih =>
      rw [List.mapM_cons, OptionT.run_bind]
      cases h : t.valueAs? kind with
      | some v => simp [coerceToken, h, ih]
      | none =>
          have hkind : kind ≠ .strings := by
            rintro rfl
            cases h
          simp [coerceToken, h, ih, Substitute.convert?_value _ hkind]

/-- A caller that answers with zero or with false gets the same property. -/
theorem run_coerce (told : Expectation → Token → m Substitute) :
    (coerce (fun e t => Substitute.value <$> told e t) type values).run =
      some <$> buildProperty (fun e t => (fun _ => ()) <$> told e t) type values := by
  have hchecked : (Property.ofValues (kindFor type values) ((values.toList.map fun t =>
      (t.valueAs? (kindFor type values)).getD (kindFor type values).zero))).toOption =
        some (reading type values) := by
    rw [← values_reading, ← kind_reading, Property.ofValues_values]
    rfl
  unfold coerce
  rw [buildProperty_eq, OptionT.run_bind, mapM_coerceToken]
  simp [hchecked, misfits]

end Reading

/-! ## The parser as the caller -/

theorem Reported.forM_note {ε α : Type} (f : α → Diagnostic) (as : List α) :
    (as.forM fun a => note (f a)) = (⟨as.map f, .ok ()⟩ : Reported ε Unit) := by
  induction as with
  | nil => rfl
  | cons a as ih =>
      change (note (f a) >>= fun _ => as.forM fun a => note (f a)) = _
      rw [ih]
      rfl

namespace Parser

open Grammar (reading)

variable {ctx : Context} {key type : String} {values : OneOrMore Token}

/-- The warning about a value that does not fit the kind of its parameter. -/
def warning (ctx : Context) (key : String) (kind : PropertyKind) (t : Token) : Diagnostic :=
  let caution : Caution := match kind with
    | .bools => .malformedBool key t.lexeme
    | _ => .malformedNumber key t.lexeme
  caution.diagnostic t.span (ctx.lineOf t)

/-- The error about a value that does not fit the kind of its parameter, in strict reading. -/
def refusal (ctx : Context) (key : String) (kind : PropertyKind) (t : Token) : SceneError :=
  ctx.error (.malformedValue key t.lexeme kind.expectation.text) t

/-- Strict reading refuses the first value that does not fit. -/
theorem buildProperty_refused (key : String) (hstrict : ctx.strict = true) {t : Token}
    {ts : List Token} (h : misfits type values = t :: ts) :
    buildProperty (misfit ctx key) type values =
      .fail (refusal ctx key (kindFor type values) t) := by
  have hmisfit : misfit ctx key (kindFor type values).expectation t =
      .fail (refusal ctx key (kindFor type values) t) := if_pos hstrict
  rw [buildProperty_eq, h]
  change (misfit ctx key _ t >>= fun _ => ts.forM _) >>= _ = _
  rw [hmisfit]
  rfl

/-- Lenient reading warns of each value that does not fit, and strict reading goes on if there is
none. -/
theorem buildProperty_built (key : String) (h : ctx.strict = true → misfits type values = []) :
    buildProperty (misfit ctx key) type values =
      ⟨(misfits type values).map (warning ctx key (kindFor type values)),
        .ok (reading type values)⟩ := by
  rw [buildProperty_eq]
  cases hstrict : ctx.strict with
  | true =>
      rw [h hstrict]
      rfl
  | false =>
      have hmisfit : misfit ctx key (kindFor type values).expectation =
          fun t => .note (warning ctx key (kindFor type values) t) := by
        funext t
        unfold misfit
        rw [hstrict]
        cases kindFor type values <;> rfl
      rw [hmisfit, Reported.forM_note, Reported.ok_bind]
      exact congrArg (Reported.mk · _) (List.append_nil _)

/-- In lenient reading a property is built of any values. -/
theorem buildProperty_lenient (hlenient : ctx.strict = false) (key type : String)
    (values : OneOrMore Token) :
    buildProperty (misfit ctx key) type values =
      ⟨(misfits type values).map (warning ctx key (kindFor type values)),
        .ok (reading type values)⟩ :=
  buildProperty_built key fun hstrict => Bool.noConfusion (hlenient.symm.trans hstrict)

/-- Values that do not fit are warned of, each once and in order, or the first of them is an error
in strict reading. -/
theorem buildProperty_cases (ctx : Context) (key type : String) (values : OneOrMore Token) :
    (∃ t ∈ misfits type values, buildProperty (misfit ctx key) type values =
        .fail (refusal ctx key (kindFor type values) t)) ∨
      (ctx.strict = true → misfits type values = []) ∧
        buildProperty (misfit ctx key) type values =
          ⟨(misfits type values).map (warning ctx key (kindFor type values)),
            .ok (reading type values)⟩ := by
  by_cases h : ctx.strict = true → misfits type values = []
  · exact Or.inr ⟨h, buildProperty_built key h⟩
  · obtain ⟨hstrict, hne⟩ := Classical.not_imp.mp h
    obtain ⟨t, ts, hmisfits⟩ := List.exists_cons_of_ne_nil hne
    exact Or.inl ⟨t, hmisfits ▸ List.mem_cons_self, buildProperty_refused key hstrict hmisfits⟩

/-- A property that is built is what its tokens stand for. -/
theorem buildProperty_sound {v : Property}
    (h : (buildProperty (misfit ctx key) type values).result = .ok v) :
    v = reading type values := by
  rcases buildProperty_cases ctx key type values with ⟨t, -, hbuild⟩ | ⟨-, hbuild⟩
  · rw [hbuild] at h
    cases h
  · rw [hbuild] at h
    cases h
    rfl

end Parser
end SceneReader
