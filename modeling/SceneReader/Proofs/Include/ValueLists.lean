import SceneReader.Proofs.Directive.Grammar
import SceneReader.Proofs.Include.Origin

/-!
# Lists of values and the marks in them

A mark between the brackets of a list is parsed as a value of the list, so that nobody who
executes directives comes to it.  This does no harm while lists are closed in the text in
which they were opened, since then both marks of a text are values or none is.

**Results.**
* `ParametersOf.inner`, `Arguments.inner`: behind the name of a directive there are marks in
  lists of values only.
* `Walk.closeList`: a list of values ends in the text in which it began.
* `Walk.inner`: behind its name a directive begins and ends no text.
-/

namespace SceneReader

namespace Lexer

/-- The piece opens a list of values. -/
def Piece.opens (p : Piece) : Bool :=
  match p.kind with
  | .leftBracket => true
  | _ => false

end Lexer

open Lexer

/-! ## Behind the name of a directive -/

namespace Grammar

/-- The piece is no bracket. -/
def IsInline (p : Piece) : Prop := p.opens = false ∧ p.closes = false

/-- The piece is neither a bracket nor the name of a mark. -/
structure IsPlain (p : Piece) : Prop where
  inline : IsInline p
  noBegin : p ≠ .dirBegin
  noEnd : p ≠ .dirEnd

/-- Pieces in which names of marks are between brackets only. -/
inductive Inner : List Piece → Prop
  | nil : Inner []
  | plain {p : Piece} {ps : List Piece} (hp : IsPlain p) (h : Inner ps) : Inner (p :: ps)
  | list {l r : Piece} {values ps : List Piece} (hl : l.opens = true)
      (hvalues : ∀ v ∈ values, IsInline v) (hr : r.closes = true) (h : Inner ps) :
      Inner (l :: (values ++ r :: ps))

theorem Inner.append {ps qs : List Piece} (h : Inner ps) (h' : Inner qs) : Inner (ps ++ qs) := by
  induction h with
  | nil => exact h'
  | plain hp _ ih => exact .plain hp ih
  | list hl hvalues hr _ ih =>
      rw [List.cons_append, List.append_assoc]
      exact .list hl hvalues hr ih

theorem inner_of_plain {ps : List Piece} (h : ∀ p ∈ ps, IsPlain p) : Inner ps := by
  induction ps with
  | nil => exact .nil
  | cons p ps ih =>
      obtain ⟨hp, hps⟩ := List.forall_mem_cons.mp h
      exact .plain hp (ih hps)

theorem isPlain_of_kind {t : Token} (hname : t.kind ≠ .identifier)
    (hleft : t.kind ≠ .leftBracket) (hright : t.kind ≠ .rightBracket) : IsPlain t.piece := by
  have hinline : IsInline t.piece := by
    unfold IsInline Piece.opens Piece.closes Token.piece
    cases hkind : t.kind <;> simp_all
  exact ⟨hinline, fun h => hname (congrArg Piece.kind h), fun h => hname (congrArg Piece.kind h)⟩

theorem isPlain_of_word {t : Token} (hkind : t.kind = .identifier)
    (hbegin : t.lexeme ≠ "WorkDirBegin") (hend : t.lexeme ≠ "WorkDirEnd") : IsPlain t.piece := by
  have hinline : IsInline t.piece := by
    simp [IsInline, Piece.opens, Piece.closes, Token.piece, hkind]
  exact ⟨hinline, fun h => hbegin (congrArg Piece.lexeme h),
    fun h => hend (congrArg Piece.lexeme h)⟩

theorem Numbers.isPlain {ts : List Token} {args : List Argument} (h : Numbers ts args) :
    ∀ p ∈ ts.map Token.piece, IsPlain p := by
  refine List.forall_mem_map.mpr fun t ht => ?_
  obtain ⟨x, hkind⟩ := h.exists_kind t ht
  refine isPlain_of_kind ?_ ?_ ?_ <;> simp [hkind]

theorem Strings.isPlain {ts : List Token} {args : List Argument} (h : Strings ts args) :
    ∀ p ∈ ts.map Token.piece, IsPlain p := by
  refine List.forall_mem_map.mpr fun t ht => ?_
  obtain ⟨s, hkind⟩ := h.exists_kind t ht
  refine isPlain_of_kind ?_ ?_ ?_ <;> simp [hkind]

theorem Arguments.inner {shape : ArgShape} {ts : List Token} {args : List Argument}
    (h : Arguments shape ts args) : Inner (ts.map Token.piece) := by
  cases h with
  | nothing => exact .nil
  | numbers _ h => exact inner_of_plain h.isPlain
  | bareMatrix _ h => exact inner_of_plain h.isPlain
  | matrix hl _ h hr =>
      rw [List.map_cons, List.map_append]
      refine .list ?_ (fun v hv => (h.isPlain v hv).inline) ?_ .nil
      · simp [Piece.opens, Token.piece, hl]
      · simp [Piece.closes, Token.piece, hr]
  | @keyword t hkind hword =>
      have hother : ∀ w ∈ activeKeywords, w ≠ "WorkDirBegin" ∧ w ≠ "WorkDirEnd" := by decide
      obtain ⟨hbegin, hend⟩ := hother t.lexeme hword
      exact .plain (isPlain_of_word hkind hbegin hend) .nil
  | name _ h => exact inner_of_plain h.isPlain
  | oneOrTwoNames _ h => exact inner_of_plain h.isPlain
  | named _ h => exact inner_of_plain h.isPlain
  | texture _ h => exact inner_of_plain h.isPlain

theorem Literal.isPlain {t : Token} (h : Literal t) : IsPlain t.piece := by
  cases h with
  | number x h => refine isPlain_of_kind ?_ ?_ ?_ <;> simp [h]
  | malformed h => refine isPlain_of_kind ?_ ?_ ?_ <;> simp [h]
  | string s h => refine isPlain_of_kind ?_ ?_ ?_ <;> simp [h]
  | truth h hword =>
      refine isPlain_of_word h ?_ ?_
      · intro hbegin
        rw [hbegin] at hword
        exact absurd hword (by decide)
      · intro hend
        rw [hend] at hword
        exact absurd hword (by decide)

theorem Values.inner {ts : List Token} {values : OneOrMore Token} (h : Values ts values) :
    Inner (ts.map Token.piece) := by
  cases h with
  | literal h => exact .plain h.isPlain .nil
  | list values hl h hr =>
      rw [List.map_cons, List.map_append]
      refine .list ?_ ?_ ?_ .nil
      · simp [Piece.opens, Token.piece, hl]
      · intro v hv
        obtain ⟨u, hu, rfl⟩ := List.mem_map.mp hv
        have hvalue := h u hu
        unfold IsInline Piece.opens Piece.closes Token.piece
        cases hkind : u.kind <;> simp_all [Parser.isValue]
      · simp [Piece.closes, Token.piece, hr]

theorem Parameters.inner {ts : List Token} {ps : List Param} (h : Parameters ts ps) :
    Inner (ts.map Token.piece) := by
  induction h with
  | nil => exact .nil
  | cons hkind _ hvalues _ ih =>
      rw [List.map_cons, List.map_append]
      refine .plain (isPlain_of_kind ?_ ?_ ?_) (hvalues.inner.append ih) <;> simp [hkind]

theorem ParametersOf.inner {shape : ArgShape} {ts : List Token} {params : ParamMap}
    (h : ParametersOf shape ts params) : Inner (ts.map Token.piece) := by
  cases h with
  | nothing => exact .nil
  | list _ h _ => exact h.inner

end Grammar

/-! ## From mark to mark -/

namespace Include

open Grammar

/-- A list of values is closed in the text in which it was opened, and so are the texts that
begin in it.  Outside of lists there is no depth; in a list it is the number of texts that
have begun in the list and not ended. -/
def closesLists : Option Nat → List Sited → Bool
  | _, [] => true
  | none, .own _ p :: row => closesLists (if p.opens then some 0 else none) row
  | none, _ :: row => closesLists none row
  | some depth, .own _ p :: row =>
      if p.closes then depth == 0 && closesLists none row else closesLists (some depth) row
  | some depth, .opening :: row => closesLists (some (depth + 1)) row
  | some depth, .directory _ :: row => closesLists (some depth) row
  | some 0, .closing :: _ => false
  | some (depth + 1), .closing :: row => closesLists (some depth) row

variable {ss : List Standing} {row : List Sited}

theorem Walk.cons_cases {x : Sited} (h : Walk ss (x :: row)) :
    (∃ s rest p, ss = s :: rest ∧ x = .own s p ∧ (p ≠ .dirBegin ∧ p ≠ .dirEnd) ∧
      Walk (s :: rest) row) ∨
    (∃ s d row', x = .opening ∧ row = .directory d :: row' ∧
      s.dirs = (dirsOf ss).push (Path.ofText (Location.text d)) ∧ Walk (s :: ss) row') ∨
    (∃ s rest p, ss = s :: rest ∧ x = .closing ∧ s.dirs = (dirsOf rest).push p ∧
      Walk rest row) := by
  cases h with
  | own hp h => exact Or.inl ⟨_, _, _, rfl, rfl, hp, h⟩
  | enter hdirs h => exact Or.inr (Or.inl ⟨_, _, _, rfl, rfl, hdirs, h⟩)
  | leave hdirs h => exact Or.inr (Or.inr ⟨_, _, _, rfl, rfl, hdirs, h⟩)

/-- A list of values ends in the text in which it began, whatever texts are in it. -/
theorem Walk.closeList (inside : List Standing) {values : List Sited} {r : Sited}
    (h : Walk (inside ++ ss) (values ++ r :: row))
    (hclosed : closesLists (some inside.length) (values ++ r :: row) = true)
    (hvalues : ∀ v ∈ values, IsInline v.piece) (hr : r.piece.closes = true) :
    Walk ss row ∧ closesLists none row = true := by
  generalize hstack : inside ++ ss = stack at h
  generalize hrow : values ++ r :: row = whole at h hclosed
  induction h generalizing inside values with
  | done => simp at hrow
  | @own s rest p after _ h ih =>
      cases values with
      | nil =>
          obtain ⟨rfl, rfl⟩ := List.cons.inj hrow
          have hp : p.closes = true := hr
          rw [closesLists, if_pos hp, Bool.and_eq_true, beq_iff_eq] at hclosed
          obtain ⟨hlength, hclosed⟩ := hclosed
          obtain rfl := List.length_eq_zero_iff.mp hlength
          obtain rfl : ss = s :: rest := hstack
          exact ⟨h, hclosed⟩
      | cons v values =>
          obtain ⟨rfl, rfl⟩ := List.cons.inj hrow
          obtain ⟨⟨-, hv⟩, hvalues⟩ := List.forall_mem_cons.mp hvalues
          rw [closesLists, if_neg (by rw [← Bool.not_eq_true] at hv; exact hv)] at hclosed
          exact ih inside hvalues hstack rfl hclosed
  | @enter s stack d after _ h ih =>
      cases values with
      | nil =>
          obtain ⟨rfl, -⟩ := List.cons.inj hrow
          cases hr
      | cons v values =>
          obtain ⟨rfl, hafter⟩ := List.cons.inj hrow
          cases values with
          | nil =>
              obtain ⟨rfl, -⟩ := List.cons.inj hafter
              cases hr
          | cons v' values =>
              obtain ⟨rfl, rfl⟩ := List.cons.inj hafter
              have hrest := (List.forall_mem_cons.mp (List.forall_mem_cons.mp hvalues).2).2
              rw [closesLists, closesLists] at hclosed
              exact ih (s :: inside) hrest (congrArg (s :: ·) hstack) rfl hclosed
  | @leave s rest p after _ h ih =>
      cases values with
      | nil =>
          obtain ⟨rfl, -⟩ := List.cons.inj hrow
          cases hr
      | cons v values =>
          obtain ⟨rfl, rfl⟩ := List.cons.inj hrow
          cases inside with
          | nil =>
              rw [List.length_nil, closesLists] at hclosed
              cases hclosed
          | cons s' inside =>
              have hbelow := (List.cons.inj hstack).2
              rw [List.length_cons, closesLists] at hclosed
              exact ih inside (List.forall_mem_cons.mp hvalues).2 hbelow rfl hclosed

/-- Behind its name a directive begins and ends no text. -/
theorem Walk.inner {ps : List Piece} (hps : Inner ps) {part : List Sited}
    (hpart : part.map Sited.piece = ps) (h : Walk ss (part ++ row))
    (hclosed : closesLists none (part ++ row) = true) :
    Walk ss row ∧ closesLists none row = true := by
  induction hps generalizing part with
  | nil =>
      obtain rfl := List.map_eq_nil_iff.mp hpart
      exact ⟨h, hclosed⟩
  | @plain p ps hp _ ih =>
      obtain ⟨x, part, rfl, rfl, hrest⟩ := List.map_eq_cons_iff.mp hpart
      rcases h.cons_cases with ⟨s, rest, p, rfl, rfl, -, h⟩ | ⟨_, _, _, rfl, -⟩ |
        ⟨_, _, _, -, rfl, -⟩
      · have hopens : ¬ p.opens = true := by simp [show p.opens = false from hp.inline.1]
        rw [List.cons_append, closesLists, if_neg hopens] at hclosed
        exact ih hrest h hclosed
      · exact absurd rfl hp.noBegin
      · exact absurd rfl hp.noEnd
  | @list l r values ps hl hvalues hr _ ih =>
      obtain ⟨x, part, rfl, rfl, hrest⟩ := List.map_eq_cons_iff.mp hpart
      obtain ⟨vs, tail, rfl, rfl, htail⟩ := List.map_eq_append_iff.mp hrest
      obtain ⟨y, part, rfl, rfl, hafter⟩ := List.map_eq_cons_iff.mp htail
      rcases h.cons_cases with ⟨s, rest, p, rfl, rfl, -, h⟩ | ⟨_, _, _, rfl, -⟩ |
        ⟨_, _, _, -, rfl, -⟩
      · have hopens : p.opens = true := hl
        rw [List.cons_append, closesLists, if_pos hopens] at hclosed
        rw [List.append_eq, List.append_assoc] at h
        rw [List.append_assoc] at hclosed
        have hinline : ∀ v ∈ vs, IsInline v.piece := fun v hv =>
          hvalues _ (List.mem_map_of_mem hv)
        obtain ⟨h, hclosed⟩ := h.closeList [] hclosed hinline hr
        exact ih hafter h hclosed
      · cases hl
      · cases hl

end Include
end SceneReader
