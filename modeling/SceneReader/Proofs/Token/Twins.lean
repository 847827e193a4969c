import SceneReader.Proofs.Token.Stripping
import SceneReader.Text.Naming

/-!
# Texts without two backslashes in a row

Where no two backslashes stand side by side, stripping a text and scanning it agree about its
literals.  This property goes from a text to the stripped text, since where a comment was there
is the line feed that ended it, and to the lexemes of its pieces.

**Results.**
* `not_hasTwin_strip`: stripping puts no two backslashes side by side.
* `not_hasTwin_lexeme`: nor does a lexeme have any that its text has not.
* `not_hasTwin_quote`: quoting a text without backslashes makes none.
* `spells_strip`: stripping shows in no piece if no lexeme has two in a row.
-/

namespace SceneReader
namespace Lexer

variable {cs : List Char}

instance (cs : List Char) : Decidable (HasTwin cs) :=
  inferInstanceAs (Decidable (['\\', '\\'] <:+: cs))

theorem hasTwin_cons {c : Char} :
    HasTwin (c :: cs) ↔ (c = '\\' ∧ cs.head? = some '\\') ∨ HasTwin cs := by
  unfold HasTwin
  rw [List.infix_cons_iff, List.cons_prefix_cons]
  refine or_congr_left (and_congr eq_comm ?_)
  cases cs with
  | nil => simp
  | cons d ds => simp [List.cons_prefix_cons, eq_comm]

theorem not_hasTwin_of_not_mem (h : '\\' ∉ cs) : ¬ HasTwin cs :=
  fun htwin => h (htwin.subset List.mem_cons_self)

theorem not_hasTwin_nil : ¬ HasTwin [] := not_hasTwin_of_not_mem List.not_mem_nil

/-! ## Stripped texts -/

/-- What is left behind the start of a comment begins with the line feed that ends it. -/
theorem head_stripFrom_comment {c : Char} (h : (Comment.stripFrom .comment cs).head? = some c) :
    c = '\n' := by
  induction cs with
  | nil => cases h
  | cons d cs ih =>
      unfold Comment.stripFrom at h
      split at h
      · rename_i hkeeps
        cases h
        exact beq_iff_eq.mp hkeeps
      · rename_i hkeeps
        have hafter : Comment.Region.comment.after d = .comment := by
          have hd : ¬ d = '\n' := fun heq => hkeeps (beq_iff_eq.mpr heq)
          exact if_neg hd
        rw [hafter] at h
        exact ih h

theorem head_stripFrom {r : Comment.Region} (h : (Comment.stripFrom r cs).head? = some '\\') :
    cs.head? = some '\\' := by
  cases cs with
  | nil => exact h
  | cons c cs =>
      by_cases hr : r = .comment
      · subst hr
        exact absurd (head_stripFrom_comment h) (by decide)
      · unfold Comment.stripFrom at h
        split at h
        · exact h
        · rename_i hkeeps
          have hafter : r.after c = .comment :=
            Decidable.not_not.mp fun hne => hkeeps ((Comment.Region.keeps_iff hr).mpr hne)
          rw [hafter] at h
          exact absurd (head_stripFrom_comment h) (by decide)

theorem not_hasTwin_stripFrom (h : ¬ HasTwin cs) (r : Comment.Region) :
    ¬ HasTwin (Comment.stripFrom r cs) := by
  induction cs generalizing r with
  | nil => exact h
  | cons c cs ih =>
      have hrest := ih (not_hasTwin_tail h) (r.after c)
      unfold Comment.stripFrom
      split
      · rw [hasTwin_cons]
        rintro (⟨rfl, hhead⟩ | htwin)
        · exact h (hasTwin_cons.mpr (Or.inl ⟨rfl, head_stripFrom hhead⟩))
        · exact hrest htwin
      · exact hrest

/-- Stripping puts no two backslashes side by side. -/
theorem not_hasTwin_strip (h : ¬ HasTwin cs) : ¬ HasTwin (Comment.strip cs) :=
  not_hasTwin_stripFrom h .plain

/-! ## Pieces -/

theorem Scans.lexeme_infix {ps : List Piece} {u : List Char} (h : Scans cs ps u) :
    ∀ p ∈ ps, p.lexeme.toList <:+: cs := by
  induction h with
  | nil => exact List.forall_mem_nil _
  | @cons cs gap rest lexeme after u c kind ps hgap htoken _ ih =>
      rw [← gap_append_token hgap htoken]
      refine List.forall_mem_cons.mpr ⟨?_, fun p hp => ?_⟩
      · rw [String.toList_ofList]
        exact ⟨gap, after, List.append_assoc _ _ _⟩
      · rw [← List.append_assoc]
        exact (ih p hp).trans (List.suffix_append _ _).isInfix

/-- A lexeme has no two backslashes side by side if its text has none. -/
theorem not_hasTwin_lexeme {ps : List Piece} (h : Spells cs ps) (htwin : ¬ HasTwin cs) :
    ∀ p ∈ ps, ¬ HasTwin p.lexeme.toList := by
  obtain ⟨u, hscans, -⟩ := h
  exact fun p hp ht => htwin (ht.trans (hscans.lexeme_infix p hp))

/-- Quoting a text without backslashes puts no two of them side by side. -/
theorem not_hasTwin_quote {s : String} (h : '\\' ∉ s.toList) :
    ¬ HasTwin (Text.quote s).toList := by
  rw [Text.quote, String.toList_ofList, List.cons_append]
  generalize s.toList = cs at h
  have hinner : ¬ HasTwin (cs.flatMap (fun c => if c = '"' then ['\\', '"'] else [c]) ++ ['"']) := by
    induction cs with
    | nil => simp [hasTwin_cons, not_hasTwin_nil]
    | cons c cs ih =>
        obtain ⟨hc, hcs⟩ := List.ne_and_not_mem_of_not_mem_cons h
        have hrest := ih hcs
        rw [List.flatMap_cons, List.append_assoc]
        split
        · simp [hasTwin_cons, hrest]
        · simp [hasTwin_cons, hrest, Ne.symm hc]
  simp [hasTwin_cons, hinner]

/-- Stripping shows in no piece if no lexeme has two backslashes side by side. -/
theorem spells_strip {ps : List Piece} (h : Spells cs ps)
    (htwin : ∀ p ∈ ps, ¬ HasTwin p.lexeme.toList) : Spells (Comment.strip cs) ps := by
  obtain ⟨ts, hts, hpieces⟩ := (spells_iff none).mp h
  have htokens : ∀ t ∈ ts, ¬ HasTwin t.lexeme.toList := by
    intro t ht
    have hmem : t.piece ∈ ps ++ [.atEnd] := hpieces ▸ List.mem_map_of_mem ht
    rcases List.mem_append.mp hmem with hmem | hmem
    · exact htwin _ hmem
    · have hend : t.lexeme = "" := congrArg Piece.lexeme (List.mem_singleton.mp hmem)
      rw [hend]
      exact not_hasTwin_nil
  obtain ⟨ts', hts', halike⟩ := tokenize_stripText_of_not_hasTwin hts htokens
  rw [Comment.stripText, String.toList_ofList] at hts'
  refine (spells_iff none).mpr ⟨ts', hts', ?_⟩
  have hpiece (ts : List Token) : ts.map Token.piece =
      (ts.map Token.standing).map fun x => ⟨x.1, x.2.1⟩ := by
    rw [List.map_map]
    rfl
  rw [← hpieces, hpiece, hpiece, halike]

end Lexer
end SceneReader
