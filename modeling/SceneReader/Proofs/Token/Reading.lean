import SceneReader.Proofs.Token.Boundary

/-!
# What a text spells

The tokens of a text without their places are what the text spells.  Tokenizing gives
them together with their places and the end of the input behind them.

**Results.**
* `Row.scanFrom_eq`, `exists_row`: a scan without a fault is a row of tokens.
* `tokenize_inFile`: the name of the file gets into the places of tokens only.
* `spells_iff`: tokenizing a text gives the pieces that it spells.
* `Spells.unique`: a text spells one row of pieces.
* `Scans.spells`: a text spells the tokens of its parts one after the other.
-/

namespace SceneReader

/-- A token without its place. -/
def Token.piece (t : Token) : Lexer.Piece := ⟨t.kind, t.lexeme⟩

/-- The token in a file of another name. -/
def Token.inFile (file : Option String) (t : Token) : Token :=
  { t with span := { t.span with file := file } }

namespace Lexer

/-- The end of the input. -/
def Piece.atEnd : Piece := ⟨.endOfInput, ""⟩

/-- The text consists of the pieces. -/
def Spells (cs : List Char) (ps : List Piece) : Prop :=
  ∃ u, Scans cs ps u ∧ (takeGap false u).2 = []

/-! ## Spelling -/

/-- A gap in front of a text has no part in what the text spells. -/
theorem Spells.congr {cs ds : List Char} {ps : List Piece} (h : Spells cs ps)
    (hgap : (takeGap false ds).2 = (takeGap false cs).2) : Spells ds ps := by
  obtain ⟨u, hscans, hend⟩ := h
  cases hscans with
  | nil => exact ⟨ds, .nil ds, hgap.trans hend⟩
  | cons hcs htoken hscans =>
      have hds := hgap.trans (congrArg Prod.snd hcs)
      exact ⟨u, .cons (Prod.ext rfl hds) htoken hscans, hend⟩

theorem Scans.spells {cs u : List Char} {ps qs : List Piece} (h : Scans cs ps u)
    (hu : Spells u qs) : Spells cs (ps ++ qs) := by
  obtain ⟨v, hscans, hend⟩ := hu
  exact ⟨v, h.trans hscans, hend⟩

/-! ## Rows of tokens -/

/-- The tokens of a text that stands at a place, the end of the input behind them. -/
inductive Row (file : Option String) : Position → List Char → List Piece → List Token → Prop
  | done {place : Position} {cs gap : List Char} (hgap : takeGap false cs = (gap, [])) :
      Row file place cs []
        [⟨.endOfInput, "", ⟨file, place.advanceAll gap, place.advanceAll gap⟩⟩]
  | token {place start stop : Position} {cs gap rest lexeme after : List Char} {c : Char}
      {kind : TokenKind} {ps : List Piece} {ts : List Token}
      (hgap : takeGap false cs = (gap, c :: rest))
      (htoken : scanToken c rest = .token kind lexeme after)
      (hstart : start = place.advanceAll gap) (hstop : stop = start.advanceAll lexeme)
      (h : Row file stop after ps ts) :
      Row file place cs (⟨kind, String.ofList lexeme⟩ :: ps)
        (⟨kind, String.ofList lexeme, ⟨file, start, stop⟩⟩ :: ts)

namespace Row

variable {file : Option String} {place : Position} {cs : List Char} {ps : List Piece}
  {ts : List Token}

theorem map_piece (h : Row file place cs ps ts) : ts.map Token.piece = ps ++ [.atEnd] := by
  induction h with
  | done => rfl
  | token _ _ _ _ _ ih =>
      rw [List.map_cons, ih]
      rfl

theorem spells (h : Row file place cs ps ts) : Spells cs ps := by
  induction h with
  | @done _ cs _ hgap => exact ⟨cs, .nil cs, congrArg Prod.snd hgap⟩
  | token hgap htoken _ _ _ ih =>
      exact Scans.spells (.cons hgap htoken (.nil _)) ih

theorem inFile (h : Row file place cs ps ts) (file' : Option String) :
    Row file' place cs ps (ts.map (Token.inFile file')) := by
  induction h with
  | done hgap => exact .done hgap
  | token hgap htoken hstart hstop _ ih => exact .token hgap htoken hstart hstop ih

/-- A row of tokens is what the scanner finds. -/
theorem scanFrom_eq (lines : List String) (h : Row file place cs ps ts) :
    scanFrom file lines place cs = ⟨ts, none⟩ := by
  induction h with
  | done hgap =>
      unfold scanFrom
      split
      · rw [hgap]
      · rename_i hcs
        rw [hgap] at hcs
        cases hcs
  | @token place start stop cs gap rest lexeme after c kind ps ts hgap htoken hstart hstop _ ih =>
      obtain rfl : (takeGap false cs).1 = gap := congrArg Prod.fst hgap
      subst hstart hstop
      unfold scanFrom
      split
      · rename_i hcs
        rw [hgap] at hcs
        cases hcs
      · rename_i hcs
        rw [hgap] at hcs
        cases hcs
        split
        · rename_i hscan
          rw [htoken] at hscan
          cases hscan
          change Scan.cons _ (scanFrom _ _ _ _) = _
          rw [ih]
          rfl
        · rename_i hscan
          rw [htoken] at hscan
          cases hscan
        · rename_i hscan
          rw [htoken] at hscan
          cases hscan

end Row

/-- What the scanner finds without a fault is a row of tokens. -/
theorem exists_row {file : Option String} {lines : List String} {place : Position}
    {cs : List Char} {ts : List Token} (h : scanFrom file lines place cs = ⟨ts, none⟩) :
    ∃ ps, Row file place cs ps ts := by
  fun_induction scanFrom file lines place cs generalizing ts with
  | case1 =>
      rename_i hgap
      cases h
      exact ⟨[], .done (Prod.ext rfl hgap)⟩
  | case2 =>
      rename_i hgap _ _ _ htoken _ _ ih
      generalize scanFrom file lines _ _ = found at h ih
      obtain ⟨tokens, error⟩ := found
      cases h
      obtain ⟨ps, hrow⟩ := ih rfl
      exact ⟨_, .token (Prod.ext rfl hgap) htoken rfl rfl hrow⟩
  | case3 => cases h
  | case4 => cases h

theorem Spells.exists_row {cs : List Char} {ps : List Piece} (h : Spells cs ps)
    (file : Option String) (place : Position) : ∃ ts, Row file place cs ps ts := by
  obtain ⟨u, hscans, hend⟩ := h
  induction hscans generalizing place with
  | nil cs => exact ⟨_, .done (Prod.ext rfl hend)⟩
  | cons hgap htoken _ ih =>
      obtain ⟨ts, hrow⟩ := ih _ hend
      exact ⟨_, .token hgap htoken rfl rfl hrow⟩

/-- A text spells one row of pieces. -/
theorem Spells.unique {cs : List Char} {ps qs : List Piece} (h : Spells cs ps)
    (h' : Spells cs qs) : ps = qs := by
  obtain ⟨ts, hrow⟩ := h.exists_row none .start
  obtain ⟨ts', hrow'⟩ := h'.exists_row none .start
  have hts : ts = ts' :=
    congrArg Scan.tokens ((hrow.scanFrom_eq []).symm.trans (hrow'.scanFrom_eq []))
  have hpieces := hrow.map_piece
  rw [hts, hrow'.map_piece] at hpieces
  exact (List.append_cancel_right hpieces).symm

/-- Tokenizing succeeds with the tokens of a row. -/
theorem tokenize_ok_iff {source : String} {file : Option String} {ts : List Token} :
    tokenize source file = .ok ts ↔ ∃ ps, Row file .start source.toList ps ts := by
  unfold tokenize scan
  constructor
  · intro h
    split at h
    · rename_i ts' hscan
      cases h
      exact exists_row hscan
    · cases h
  · rintro ⟨ps, hrow⟩
    rw [hrow.scanFrom_eq]

/-- The name of the file gets into the places of tokens only. -/
theorem tokenize_inFile {source : String} {file : Option String} {ts : List Token}
    (h : tokenize source file = .ok ts) (file' : Option String) :
    tokenize source file' = .ok (ts.map (Token.inFile file')) := by
  obtain ⟨ps, hrow⟩ := tokenize_ok_iff.mp h
  exact tokenize_ok_iff.mpr ⟨ps, hrow.inFile file'⟩

/-- Tokenizing a text gives the pieces that it spells, and an end. -/
theorem spells_iff {cs : List Char} {ps : List Piece} (file : Option String) :
    Spells cs ps ↔ ∃ ts, tokenize (String.ofList cs) file = .ok ts ∧
      ts.map Token.piece = ps ++ [.atEnd] := by
  constructor
  · intro h
    obtain ⟨ts, hrow⟩ := h.exists_row file .start
    refine ⟨ts, tokenize_ok_iff.mpr ⟨ps, ?_⟩, hrow.map_piece⟩
    rwa [String.toList_ofList]
  · rintro ⟨ts, hts, hpieces⟩
    obtain ⟨ps', hrow⟩ := tokenize_ok_iff.mp hts
    rw [hrow.map_piece] at hpieces
    rw [String.toList_ofList] at hrow
    rw [← List.append_cancel_right hpieces]
    exact hrow.spells

end Lexer
end SceneReader
