import SceneReader.Proofs.Include.Frame
import SceneReader.Proofs.Success

/-!
# What an expansion should be

The pieces of a file with every include in them replaced by the framed pieces of its
target.  No text is cut here and no place is counted; a target may be any file that its
name leads to, however deep the includes are.

**Results.**
* `holds_iff`: a file holds the pieces that its text spells.
* `Expands.unique`: a row of pieces has one expansion.
* `IsExpansion.unique`: so has a file.
-/

namespace SceneReader

namespace Lexer

/-- The name that an include begins with. -/
def Piece.include : Piece := ⟨.identifier, "Include"⟩

/-- The piece is a string. -/
def Piece.isString (p : Piece) : Bool :=
  match p.kind with
  | .string _ => true
  | _ => false

/-- The piece closes a list of values. -/
def Piece.closes (p : Piece) : Bool :=
  match p.kind with
  | .rightBracket => true
  | _ => false

end Lexer

namespace Include

open Lexer

/-! ## Parameters -/

/-- Pieces behind the value of a parameter: a list of values, a single one or none. -/
def dropValue : List Piece → List Piece
  | [] => []
  | p :: ps =>
      match p.kind with
      | .leftBracket => (ps.dropWhile (fun q => !q.closes)).drop 1
      | .identifier => if (boolWord? p.lexeme).isSome then ps else p :: ps
      | _ => ps

theorem length_dropValue_le (ps : List Piece) : (dropValue ps).length ≤ ps.length := by
  unfold dropValue
  split
  · exact Nat.le_refl _
  · rename_i p ps
    split
    · have h := (List.dropWhile_sublist (fun q : Piece => !q.closes) (l := ps)).length_le
      simp only [List.length_drop, List.length_cons]
      omega
    · split <;> simp
    · simp

/-- Pieces behind a list of parameters. -/
def dropParameters : List Piece → List Piece
  | [] => []
  | p :: ps => if p.isString then dropParameters (dropValue ps) else p :: ps
  termination_by ps => ps.length
  decreasing_by
    have h := length_dropValue_le ps
    simp only [List.length_cons]
    omega

theorem dropParameters_nil : dropParameters [] = [] := by
  rw [dropParameters]

theorem dropParameters_string {p : Piece} (h : p.isString = true) (ps : List Piece) :
    dropParameters (p :: ps) = dropParameters (dropValue ps) := by
  rw [dropParameters, if_pos h]

theorem dropParameters_other {p : Piece} (h : p.isString = false) (ps : List Piece) :
    dropParameters (p :: ps) = p :: ps := by
  rw [dropParameters, if_neg (by simp [h])]

/-! ## Expansion -/

/-- The pieces of a file without its comments. -/
def Holds (files : FileTree) (o : Options) (l : Location) (ps : List Piece) : Prop :=
  ∃ text tokens, readStripped files o l = .ok text ∧
    tokenize (String.ofList text) (some (Location.text l)) = .ok tokens ∧
    tokens.map Token.piece = ps ++ [.atEnd]

/-- Every include in a row of pieces, with its path and its parameters, is replaced by the
framed expansion of the file that the path leads to. -/
inductive Expands (files : FileTree) (o : Options) :
    DirectoryStack → List Piece → List Piece → Prop
  | done (dirs : DirectoryStack) : Expands files o dirs [] []
  | keep {dirs : DirectoryStack} {p : Piece} {ps out : List Piece} (hp : p ≠ .include)
      (h : Expands files o dirs ps out) : Expands files o dirs (p :: ps) (p :: out)
  | replace {dirs : DirectoryStack} {path lexeme : String} {l : Location}
      {ps inner body out : List Piece} (hfile : dirs.find? files (Path.ofText path) = some l)
      (hinner : Holds files o l inner)
      (hbody : Expands files o (dirs.push (Path.ofLocation l.dropLast)) inner body)
      (h : Expands files o dirs (dropParameters ps) out) :
      Expands files o dirs (.include :: ⟨.string path, lexeme⟩ :: ps)
        (frame l.dropLast body ++ out)

/-- The expansion of the file at a path, between its marks. -/
def IsExpansion (files : FileTree) (o : Options) (path : String) (out : List Piece) : Prop :=
  ∃ l inner body, files.isFile (Path.ofText path) = true ∧ l = files.resolve (Path.ofText path) ∧
    Holds files o l inner ∧ Expands files o (.ofList [Path.ofLocation l.dropLast]) inner body ∧
    out = frame l.dropLast body

/-- No directory that holds a file ends in a backslash, which would take the quote behind
its name along. -/
def PlainDirectories (files : FileTree) : Prop :=
  ∀ l bytes, files.node? l = some (.file bytes) →
    (Location.text l.dropLast).toList.getLast? ≠ some '\\'

variable {files : FileTree} {o : Options}

theorem mem_nodes {l : Location} {n : FileNode} (h : files.node? l = some n) :
    (l, n) ∈ files.nodes := by
  obtain ⟨before, after, hnodes, -⟩ := List.lookup_eq_some_iff.mp h
  rw [hnodes]
  exact List.mem_append_right _ List.mem_cons_self

theorem plainDirectories_of_nodes
    (h : ∀ e ∈ files.nodes, (Location.text e.1.dropLast).toList.getLast? ≠ some '\\') :
    PlainDirectories files :=
  fun l bytes hnode => h (l, .file bytes) (mem_nodes hnode)

theorem holds_iff {l : Location} {text : List Char} {ps : List Piece}
    (h : readStripped files o l = .ok text) : Holds files o l ps ↔ Spells text ps := by
  rw [spells_iff (some (Location.text l))]
  constructor
  · rintro ⟨text', tokens, htext, htokens⟩
    rw [h] at htext
    cases htext
    exact ⟨tokens, htokens⟩
  · rintro ⟨tokens, htokens⟩
    exact ⟨text, tokens, h, htokens⟩

/-- What a file holds is what its text spells, if the text can be read. -/
theorem holds_of_spells {l : Location} {text : List Char} {ps : List Piece}
    (h : (readStripped files o l).toOption = some text) (hps : Spells text ps) :
    Holds files o l ps :=
  (holds_iff (Success.of_toOption h)).mpr hps

theorem Holds.unique {l : Location} {ps qs : List Piece} (h : Holds files o l ps)
    (h' : Holds files o l qs) : ps = qs := by
  obtain ⟨text, _, htext, -⟩ := id h
  exact ((holds_iff htext).mp h).unique ((holds_iff htext).mp h')

/-- A row of pieces has one expansion. -/
theorem Expands.unique {dirs : DirectoryStack} {ps out out' : List Piece}
    (h : Expands files o dirs ps out) (h' : Expands files o dirs ps out') : out = out' := by
  induction h generalizing out' with
  | done dirs =>
      cases h'
      rfl
  | keep hp _ ih =>
      cases h' with
      | keep _ h' => rw [ih h']
      | replace => exact absurd rfl hp
  | replace hfile hinner _ _ ihbody ih =>
      cases h' with
      | keep hp' => exact absurd rfl hp'
      | replace hfile' hinner' hbody' h' =>
          rw [hfile] at hfile'
          cases hfile'
          cases hinner.unique hinner'
          rw [ihbody hbody', ih h']

theorem IsExpansion.unique {path : String} {out out' : List Piece}
    (h : IsExpansion files o path out) (h' : IsExpansion files o path out') : out = out' := by
  obtain ⟨l, inner, body, -, rfl, hinner, hbody, rfl⟩ := h
  obtain ⟨l, inner', body', -, rfl, hinner', hbody', rfl⟩ := h'
  cases hinner.unique hinner'
  rw [hbody.unique hbody']

end Include
end SceneReader
