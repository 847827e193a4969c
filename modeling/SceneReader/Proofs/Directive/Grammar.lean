import SceneReader.Proofs.Directive.WrittenParameters

/-!
# The grammar of directives

Which rows of tokens are directives, given by rules that no reader has a part in: a name,
the arguments that the name asks for and, for some names, a list of parameters whose names
are all different.  A parameter is declared by a string of one or two words, and has as its
value one literal or a list between brackets that has a member and no list inside.

A row of directives splits tokens into blocks, one for each directive, in front of the token
that ends them.

**Results.**
* `Block.front`, `string?_of_blocks`: what blocks begin with.
* `Block.not_end`: no token of a block is the end of the input.
-/

namespace SceneReader
namespace Grammar

/-! ## Arguments -/

/-- Number tokens with the numbers that they are. -/
def Numbers (ts : List Token) (args : List Argument) : Prop :=
  List.Forall₂ (fun t a => ∃ x, t.kind = .number x ∧ a = .number x) ts args

/-- String tokens with the texts that they are. -/
def Strings (ts : List Token) (args : List Argument) : Prop :=
  List.Forall₂ (fun t a => ∃ s, t.kind = .string s ∧ a = .text s) ts args

/-- The positional arguments of a shape. -/
inductive Arguments : ArgShape → List Token → List Argument → Prop
  | nothing : Arguments .nothing [] []
  | numbers {count : Nat} {ts : List Token} {args : List Argument} (hcount : ts.length = count)
      (h : Numbers ts args) : Arguments (.numbers count) ts args
  | bareMatrix {ts : List Token} {args : List Argument} (hcount : ts.length = 16)
      (h : Numbers ts args) : Arguments .matrix ts args
  | matrix {l r : Token} {ts : List Token} {args : List Argument} (hl : l.kind = .leftBracket)
      (hcount : ts.length = 16) (h : Numbers ts args) (hr : r.kind = .rightBracket) :
      Arguments .matrix (l :: (ts ++ [r])) args
  | keyword {t : Token} (hkind : t.kind = .identifier) (hword : t.lexeme ∈ activeKeywords) :
      Arguments .keyword [t] [.text t.lexeme]
  | name {ts : List Token} {args : List Argument} (hcount : ts.length = 1) (h : Strings ts args) :
      Arguments .name ts args
  | oneOrTwoNames {ts : List Token} {args : List Argument}
      (hcount : ts.length = 1 ∨ ts.length = 2) (h : Strings ts args) :
      Arguments .oneOrTwoNames ts args
  | named {ts : List Token} {args : List Argument} (hcount : ts.length = 1) (h : Strings ts args) :
      Arguments .named ts args
  | texture {ts : List Token} {args : List Argument} (hcount : ts.length = 3)
      (h : Strings ts args) : Arguments .texture ts args

/-! ## Parameters -/

/-- A declaration is one word, the name, or two, the type and the name. -/
inductive Declares (text : String) : String → String → Prop
  | name {name : String} (h : Text.words text = [name]) : Declares text "" name
  | typed {type name : String} (h : Text.words text = [type, name]) : Declares text type name

/-- The token is a value by itself: a number, even a malformed one, a string, or a word for a
truth value. -/
inductive Literal (t : Token) : Prop
  | number (x : Float) (h : t.kind = .number x)
  | malformed (h : t.kind = .malformedNumber)
  | string (s : String) (h : t.kind = .string s)
  | truth (h : t.kind = .identifier) (hword : (boolWord? t.lexeme).isSome)

/-- One literal, or a list between brackets that has a member and no list inside. -/
inductive Values : List Token → OneOrMore Token → Prop
  | literal {t : Token} (h : Literal t) : Values [t] ⟨t, []⟩
  | list {l r : Token} (values : OneOrMore Token) (hl : l.kind = .leftBracket)
      (h : ∀ u ∈ values.toList, Parser.isValue u.kind = true) (hr : r.kind = .rightBracket) :
      Values (l :: (values.toList ++ [r])) values

/-- One parameter after the other: a declaration and a value. -/
inductive Parameters : List Token → List Param → Prop
  | nil : Parameters [] []
  | cons {t : Token} {text type name : String} {values : OneOrMore Token} {us ts : List Token}
      {ps : List Param} (hkind : t.kind = .string text) (hdecl : Declares text type name)
      (hvalues : Values us values) (h : Parameters ts ps) :
      Parameters (t :: (us ++ ts)) (⟨type, name, reading type values⟩ :: ps)

/-- The parameters of a shape: for some shapes a list in which no name comes twice, and for the
others nothing. -/
inductive ParametersOf : ArgShape → List Token → ParamMap → Prop
  | nothing {shape : ArgShape} (hshape : shape.hasParams = false) : ParametersOf shape [] .empty
  | list {shape : ArgShape} {ts : List Token} {ps : List Param} (hshape : shape.hasParams = true)
      (h : Parameters ts ps) (hnames : (ps.map (·.name)).Nodup) : ParametersOf shape ts ⟨ps⟩

/-! ## Directives -/

/-- From the start of a token to the end of the last of those that follow it. -/
def spanOver (t : Token) (ts : List Token) : Span :=
  ⟨t.span.file, t.span.start, ((t :: ts).getLast (List.cons_ne_nil t ts)).span.stop⟩

/-- The tokens of one directive. -/
inductive Block : List Token → Directive → Prop
  | directive {t : Token} {name : DirectiveName} {ts us : List Token} {args : List Argument}
      {params : ParamMap} (hkind : t.kind = .identifier) (hname : t.lexeme = name.text)
      (hargs : Arguments name.signature ts args)
      (hparams : ParametersOf name.signature us params) :
      Block (t :: (ts ++ us)) ⟨name, args, params, some (spanOver t (ts ++ us))⟩

/-- The tokens are those of the directives, block by block, and one that ends them. -/
structure Split (ts : List Token) (blocks : List (List Token)) (ds : List Directive) : Prop where
  tokens : ∃ last : Token, last.kind = .endOfInput ∧ ts = blocks.flatten ++ [last]
  blocks : List.Forall₂ Block blocks ds

/-! ## What blocks are made of -/

theorem Numbers.exists_kind {ts : List Token} {args : List Argument} (h : Numbers ts args) :
    ∀ t ∈ ts, ∃ x, t.kind = .number x := by
  induction h with
  | nil => exact List.forall_mem_nil _
  | cons ht _ ih =>
      obtain ⟨x, hkind, -⟩ := ht
      exact List.forall_mem_cons.mpr ⟨⟨x, hkind⟩, ih⟩

theorem Strings.exists_kind {ts : List Token} {args : List Argument} (h : Strings ts args) :
    ∀ t ∈ ts, ∃ s, t.kind = .string s := by
  induction h with
  | nil => exact List.forall_mem_nil _
  | cons ht _ ih =>
      obtain ⟨s, hkind, -⟩ := ht
      exact List.forall_mem_cons.mpr ⟨⟨s, hkind⟩, ih⟩

theorem Numbers.not_end {ts : List Token} {args : List Argument} (h : Numbers ts args) :
    ∀ t ∈ ts, t.kind ≠ .endOfInput := by
  intro t ht
  obtain ⟨x, hkind⟩ := h.exists_kind t ht
  simp [hkind]

theorem Strings.not_end {ts : List Token} {args : List Argument} (h : Strings ts args) :
    ∀ t ∈ ts, t.kind ≠ .endOfInput := by
  intro t ht
  obtain ⟨s, hkind⟩ := h.exists_kind t ht
  simp [hkind]

theorem Arguments.not_end {shape : ArgShape} {ts : List Token} {args : List Argument}
    (h : Arguments shape ts args) : ∀ t ∈ ts, t.kind ≠ .endOfInput := by
  cases h with
  | nothing => exact List.forall_mem_nil _
  | numbers _ h => exact h.not_end
  | bareMatrix _ h => exact h.not_end
  | matrix hl _ h hr =>
      refine List.forall_mem_cons.mpr ⟨by simp [hl], List.forall_mem_append.mpr ⟨h.not_end, ?_⟩⟩
      exact List.forall_mem_singleton.mpr (by simp [hr])
  | keyword hkind _ => exact List.forall_mem_singleton.mpr (by simp [hkind])
  | name _ h => exact h.not_end
  | oneOrTwoNames _ h => exact h.not_end
  | named _ h => exact h.not_end
  | texture _ h => exact h.not_end

theorem Values.not_end {ts : List Token} {values : OneOrMore Token} (h : Values ts values) :
    ∀ t ∈ ts, t.kind ≠ .endOfInput := by
  cases h with
  | literal h =>
      refine List.forall_mem_singleton.mpr ?_
      cases h with
      | number x h => simp [h]
      | malformed h => simp [h]
      | string s h => simp [h]
      | truth h _ => simp [h]
  | list values hl h hr =>
      refine List.forall_mem_cons.mpr ⟨by simp [hl], List.forall_mem_append.mpr ⟨?_, ?_⟩⟩
      · intro u hu hend
        have hvalue := h u hu
        rw [hend] at hvalue
        cases hvalue
      · exact List.forall_mem_singleton.mpr (by simp [hr])

theorem Parameters.not_end {ts : List Token} {ps : List Param} (h : Parameters ts ps) :
    ∀ t ∈ ts, t.kind ≠ .endOfInput := by
  induction h with
  | nil => exact List.forall_mem_nil _
  | cons hkind _ hvalues _ ih =>
      exact List.forall_mem_cons.mpr
        ⟨by simp [hkind], List.forall_mem_append.mpr ⟨hvalues.not_end, ih⟩⟩

namespace Block

variable {ts : List Token} {d : Directive}

/-- A block begins with the name of its directive. -/
theorem front (h : Block ts d) : ∃ t rest, ts = t :: rest ∧ t.kind = .identifier := by
  cases h with
  | directive hkind => exact ⟨_, _, rfl, hkind⟩

/-- No token of a block is the end of the input. -/
theorem not_end (h : Block ts d) : ∀ t ∈ ts, t.kind ≠ .endOfInput := by
  cases h with
  | directive hkind hname hargs hparams =>
      refine List.forall_mem_cons.mpr
        ⟨by simp [hkind], List.forall_mem_append.mpr ⟨hargs.not_end, ?_⟩⟩
      cases hparams with
      | nothing => exact List.forall_mem_nil _
      | list _ h _ => exact h.not_end

end Block

theorem not_end_of_blocks {blocks : List (List Token)} {ds : List Directive}
    (h : List.Forall₂ Block blocks ds) : ∀ t ∈ blocks.flatten, t.kind ≠ .endOfInput := by
  induction h with
  | nil => exact List.forall_mem_nil _
  | cons hblock _ ih => exact List.forall_mem_append.mpr ⟨hblock.not_end, ih⟩

/-- What blocks and the end of the input begin with is no string. -/
theorem string?_of_blocks {blocks : List (List Token)} {ds : List Directive}
    (h : List.Forall₂ Block blocks ds) {last : Token} (hlast : last.kind = .endOfInput) :
    ∀ t ∈ (blocks.flatten ++ [last]).head?, t.string? = none := by
  cases h with
  | nil =>
      rintro _ ⟨⟩
      simp [Token.string?, hlast]
  | cons hblock _ =>
      obtain ⟨t, rest, rfl, hkind⟩ := hblock.front
      rintro _ ⟨⟩
      simp [Token.string?, hkind]

end Grammar
end SceneReader
