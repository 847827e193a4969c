import SceneReader.Proofs.Directive.Complaints

/-!
# The parser accepts the grammar

A text is parsed in lenient reading exactly if its tokens split into the blocks of directives,
and there is one way at most to split them: a block is what the reader of directives takes
from the front, whichever split the block comes from.  What is not split is refused by an
error of the grammar, and by no other.

**Results.**
* `read_sound`, `read_complete`: what is read to the end is block after block.
* `blocks_unique`: tokens split into blocks in one way.
* `parse_iff_split`: the parser accepts exactly the grammar.
-/

namespace SceneReader
namespace Parser

open Grammar

variable {ctx : Context} {ts us rest : List Token} {d : Directive}

/-! ## Whole texts -/

theorem result_parse_iff {ds : List Directive} :
    (parse ctx ts).result = .ok ds ↔
      (read ctx ts).error = none ∧ (read ctx ts).directives = ds := by
  unfold parse
  dsimp only
  cases (read ctx ts).error with
  | none => simp
  | some e => simp

/-- What is read to the end is block after block. -/
theorem read_sound (h : (read ctx ts).error = none) :
    ∃ blocks rest, ts = blocks.flatten ++ rest ∧ atEnd rest = true ∧
      List.Forall₂ Block blocks (read ctx ts).directives := by
  fun_induction read ctx ts with
  | case1 ts hend => exact ⟨[], ts, rfl, hend, .nil⟩
  | case2 => cases h
  | case3 ts hend _ p hd _ _ ih =>
      obtain ⟨us, hts, hblock⟩ := directive_sound hd
      obtain ⟨blocks, rest, hrest, hatEnd, hblocks⟩ := ih h
      refine ⟨us :: blocks, rest, ?_, hatEnd, .cons hblock hblocks⟩
      rw [List.flatten_cons, List.append_assoc, ← hrest, ← hts]

/-- In lenient reading blocks are read to their end. -/
theorem read_complete (hlenient : ctx.strict = false) {blocks : List (List Token)}
    {ds : List Directive} (h : List.Forall₂ Block blocks ds) {last : Token}
    (hlast : last.kind = .endOfInput) :
    (read ctx (blocks.flatten ++ [last])).error = none ∧
      (read ctx (blocks.flatten ++ [last])).directives = ds := by
  induction h with
  | nil =>
      have hend : atEnd [last] = true := by simp [atEnd, Token.isEnd, hlast]
      rw [List.flatten_nil, List.nil_append, read, if_pos hend]
      exact ⟨rfl, rfl⟩
  | @cons us d blocks ds hblock hblocks ih =>
      obtain ⟨t, rest, rfl, hkind⟩ := hblock.front
      obtain ⟨stop, hd⟩ := directive_complete hlenient hblock (string?_of_blocks hblocks hlast)
      have hnotEnd : ¬ atEnd (t :: rest ++ (blocks.flatten ++ [last])) = true := by
        simp [atEnd, Token.isEnd, hkind]
      rw [List.flatten_cons, List.append_assoc, read_eq hnotEnd, hd]
      exact ⟨ih.1, congrArg (d :: ·) ih.2⟩

/-- A text is read up to its last token, which is the only end in it. -/
theorem body_unique {body front : List Token} {last : Token} (h : body ++ [last] = front ++ rest)
    (hbody : ∀ t ∈ body, t.kind ≠ .endOfInput) (hfront : ∀ t ∈ front, t.kind ≠ .endOfInput)
    (hlast : last.kind = .endOfInput) (hrest : atEnd rest = true) :
    front = body ∧ rest = [last] := by
  rcases List.append_eq_append_iff.mp h with ⟨beyond, rfl, hlast'⟩ | ⟨left, rfl, rfl⟩
  · cases beyond with
    | nil => exact ⟨List.append_nil body, hlast'.symm⟩
    | cons u beyond =>
        obtain ⟨rfl, -⟩ := List.cons.inj hlast'
        exact absurd hlast (hfront last (List.mem_append_right _ List.mem_cons_self))
  · cases left with
    | nil => exact ⟨(List.append_nil front).symm, rfl⟩
    | cons u left =>
        have hend : u.kind = .endOfInput := Token.isEnd_iff.mp hrest
        exact absurd hend (hbody u (List.mem_append_right _ List.mem_cons_self))

/-- Every directive of a text takes the tokens of its block. -/
theorem exists_split_of_parse {ds : List Directive} (h : (parse ctx ts).result = .ok ds)
    {body : List Token} {last : Token} (hts : ts = body ++ [last])
    (hbody : ∀ t ∈ body, t.kind ≠ .endOfInput) (hlast : last.kind = .endOfInput) :
    ∃ blocks, Split ts blocks ds := by
  obtain ⟨herror, rfl⟩ := result_parse_iff.mp h
  obtain ⟨blocks, rest, hrest, hatEnd, hblocks⟩ := read_sound herror
  obtain ⟨hfront, -⟩ :=
    body_unique (hts.symm.trans hrest) hbody (not_end_of_blocks hblocks) hlast hatEnd
  exact ⟨blocks, ⟨last, hlast, by rw [hfront, ← hts]⟩, hblocks⟩

/-! ## One way to split -/

/-- Tokens split into blocks in one way. -/
theorem blocks_unique {blocks blocks' : List (List Token)} {ds ds' : List Directive}
    (h : List.Forall₂ Block blocks ds) (h' : List.Forall₂ Block blocks' ds') {last last' : Token}
    (hlast : last.kind = .endOfInput) (hlast' : last'.kind = .endOfInput)
    (heq : blocks.flatten ++ [last] = blocks'.flatten ++ [last']) :
    blocks = blocks' ∧ ds = ds' := by
  induction h generalizing blocks' ds' with
  | nil =>
      cases h' with
      | nil => exact ⟨rfl, rfl⟩
      | cons hblock _ =>
          obtain ⟨t, rest, rfl, hkind⟩ := hblock.front
          obtain ⟨rfl, -⟩ := List.cons.inj heq
          rw [hlast] at hkind
          cases hkind
  | @cons us d blocks ds hblock hblocks ih =>
      cases h' with
      | nil =>
          obtain ⟨t, rest, rfl, hkind⟩ := hblock.front
          obtain ⟨rfl, -⟩ := List.cons.inj heq
          rw [hlast'] at hkind
          cases hkind
      | @cons us' d' blocks' ds' hblock' hblocks' =>
          -- both blocks are what the reader takes from the same tokens
          rw [List.flatten_cons, List.flatten_cons, List.append_assoc, List.append_assoc] at heq
          have hlenient : (⟨none, false⟩ : Context).strict = false := rfl
          obtain ⟨stop, hd⟩ :=
            directive_complete hlenient hblock (string?_of_blocks hblocks hlast)
          obtain ⟨stop', hd'⟩ :=
            directive_complete hlenient hblock' (string?_of_blocks hblocks' hlast')
          rw [heq, hd'] at hd
          obtain ⟨rfl, -, hrest⟩ := Parsed.mk.inj (Except.ok.inj hd)
          obtain ⟨rfl, rfl⟩ := ih hblocks' hrest.symm
          rw [hrest] at heq
          exact ⟨congrArg (· :: _) (List.append_cancel_right heq), rfl⟩

/-! ## The parser and the grammar -/

/-- The tokens of a text: the end of the input is the last of them, and no other. -/
theorem exists_body_of_tokenize {source : String} {file : Option String}
    (h : Lexer.tokenize source file = .ok ts) :
    ∃ body last, ts = body ++ [last] ∧ last.kind = .endOfInput ∧
      ∀ t ∈ body, t.kind ≠ .endOfInput := by
  obtain ⟨ps, hrow⟩ := Lexer.tokenize_ok_iff.mp h
  generalize Position.start = place at hrow
  generalize source.toList = cs at hrow
  clear h
  induction hrow with
  | done => exact ⟨[], _, rfl, rfl, List.forall_mem_nil _⟩
  | token _ htoken _ _ _ ih =>
      obtain ⟨body, last, hts, hlast, hbody⟩ := ih
      exact ⟨_ :: body, last, congrArg (_ :: ·) hts, hlast,
        List.forall_mem_cons.mpr ⟨Lexer.kind_ne_endOfInput htoken, hbody⟩⟩

/-- In lenient reading the parser accepts exactly the grammar: it has directives for the tokens
of a text if these split into the blocks of the directives, which they do in one way at most.
All other texts it refuses with an error of the grammar. -/
theorem parse_iff_split {source : String} {file : Option String}
    (hts : Lexer.tokenize source file = .ok ts) (hlenient : ctx.strict = false) :
    (∀ ds, (parse ctx ts).result = .ok ds ↔ ∃ blocks, Split ts blocks ds) ∧
      (∀ blocks blocks' ds ds', Split ts blocks ds → Split ts blocks' ds' →
        blocks = blocks' ∧ ds = ds') ∧
      ((¬ ∃ blocks ds, Split ts blocks ds) →
        ∃ e, (parse ctx ts).result = .error e ∧ e.fault.kind = .grammatical) := by
  obtain ⟨body, last, hbody, hlast, hnotEnd⟩ := exists_body_of_tokenize hts
  have haccepts : ∀ ds, (parse ctx ts).result = .ok ds ↔ ∃ blocks, Split ts blocks ds := by
    intro ds
    refine ⟨fun h => exists_split_of_parse h hbody hnotEnd hlast, ?_⟩
    rintro ⟨blocks, ⟨last', hlast', htokens⟩, hblocks⟩
    rw [result_parse_iff, htokens]
    exact read_complete hlenient hblocks hlast'
  refine ⟨haccepts, ?_, ?_⟩
  · rintro blocks blocks' ds ds' ⟨⟨last₁, h₁, htokens⟩, hblocks⟩ ⟨⟨last₂, h₂, htokens'⟩, hblocks'⟩
    exact blocks_unique hblocks hblocks' h₁ h₂ (htokens.symm.trans htokens')
  · intro hnone
    cases herror : (read ctx ts).error with
    | none =>
        obtain ⟨blocks, hsplit⟩ := (haccepts _).mp (result_parse_iff.mpr ⟨herror, rfl⟩)
        exact absurd ⟨blocks, _, hsplit⟩ hnone
    | some e =>
        refine ⟨e, ?_, faults_read ctx ts e herror⟩
        unfold parse
        dsimp only
        rw [herror]

/-- The place on the first line behind some characters. -/
def onFirstLine (offset : Nat) : Position := ⟨1, offset + 1, offset⟩

/-- The tokens of a world with a sphere that has one tag. -/
def taggedSphere : List Token :=
  [⟨.identifier, "WorldBegin", ⟨none, onFirstLine 0, onFirstLine 10⟩⟩,
   ⟨.identifier, "Shape", ⟨none, onFirstLine 11, onFirstLine 16⟩⟩,
   ⟨.string "sphere", "\"sphere\"", ⟨none, onFirstLine 17, onFirstLine 25⟩⟩,
   ⟨.string "string tags", "\"string tags\"", ⟨none, onFirstLine 26, onFirstLine 39⟩⟩,
   ⟨.leftBracket, "[", ⟨none, onFirstLine 40, onFirstLine 41⟩⟩,
   ⟨.string "a", "\"a\"", ⟨none, onFirstLine 42, onFirstLine 45⟩⟩,
   ⟨.rightBracket, "]", ⟨none, onFirstLine 46, onFirstLine 47⟩⟩,
   ⟨.endOfInput, "", ⟨none, onFirstLine 47, onFirstLine 47⟩⟩]

/-- The start of the world is one block, and the sphere with its tag is another one. -/
theorem parse_iff_split_taggedSphere :
    Lexer.tokenize "WorldBegin Shape \"sphere\" \"string tags\" [ \"a\" ]" none =
        .ok taggedSphere ∧
      (parse ⟨none, false⟩ taggedSphere).result = .ok
        [⟨.worldBegin, [], .empty, some ⟨none, onFirstLine 0, onFirstLine 10⟩⟩,
         ⟨.shape, [.text "sphere"], ⟨[⟨"string", "tags", .strings ⟨"a", []⟩⟩]⟩,
          some ⟨none, onFirstLine 11, onFirstLine 47⟩⟩] := by
  have hts : Lexer.tokenize "WorldBegin Shape \"sphere\" \"string tags\" [ \"a\" ]" none =
      .ok taggedSphere :=
    (Lexer.tokenize_ok_iff.mpr ⟨_, .token rfl rfl rfl rfl (.token rfl rfl rfl rfl
      (.token rfl rfl rfl rfl (.token rfl rfl rfl rfl (.token rfl rfl rfl rfl
        (.token rfl rfl rfl rfl (.token rfl rfl rfl rfl (.done rfl)))))))⟩).trans rfl
  have hworld : Block (taggedSphere.take 1)
      ⟨.worldBegin, [], .empty, some ⟨none, onFirstLine 0, onFirstLine 10⟩⟩ := by
    have hargs : Arguments DirectiveName.worldBegin.signature [] [] := .nothing
    have hparams : ParametersOf DirectiveName.worldBegin.signature [] .empty := .nothing rfl
    exact Block.directive rfl rfl hargs hparams
  have hshape : Block ((taggedSphere.drop 1).take 6)
      ⟨.shape, [.text "sphere"], ⟨[⟨"string", "tags", .strings ⟨"a", []⟩⟩]⟩,
        some ⟨none, onFirstLine 11, onFirstLine 47⟩⟩ := by
    have hargs : Arguments DirectiveName.shape.signature ((taggedSphere.drop 2).take 1)
        [.text "sphere"] := .named rfl (.cons ⟨"sphere", rfl, rfl⟩ .nil)
    have hdecl : Declares "string tags" "string" "tags" := .typed (by decide +kernel)
    have hvalues : Values ((taggedSphere.drop 4).take 3) ⟨⟨.string "a", "\"a\"",
        ⟨none, onFirstLine 42, onFirstLine 45⟩⟩, []⟩ :=
      .list ⟨_, []⟩ rfl (List.forall_mem_singleton.mpr rfl) rfl
    have hparams : ParametersOf DirectiveName.shape.signature ((taggedSphere.drop 3).take 4)
        ⟨[⟨"string", "tags", .strings ⟨"a", []⟩⟩]⟩ :=
      .list rfl (.cons rfl hdecl hvalues .nil) (by decide)
    exact Block.directive rfl rfl hargs hparams
  exact ⟨hts, ((parse_iff_split hts rfl).1 _).mpr
    ⟨_, ⟨_, rfl, rfl⟩, .cons hworld (.cons hshape .nil)⟩⟩

end Parser
end SceneReader
