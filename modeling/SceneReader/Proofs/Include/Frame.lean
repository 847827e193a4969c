import SceneReader.Include.Expansion
import SceneReader.Proofs.Token.Words

/-!
# Frames as rows of tokens

The marks around an expanded text, and the line feeds that keep it apart from what stands
around it, are there so that its tokens stay what they are.

**Results.**
* `spells_opening`: the mark in front of a text is two tokens.
* `spells_terminated`: a text that ends its last line does not touch what follows.
* `spells_framed`: a framed text spells its frame around its own pieces.
* `exists_spells_of_framed`: so the text spells something if it does in its frame.
* `spells_separated`: neither does a text that is cut off before a name.
-/

namespace SceneReader
namespace Include

open Lexer

/-- The pieces of a file in a directory between their marks. -/
def frame (directory : Location) (ps : List Piece) : List Piece :=
  ⟨.identifier, "WorkDirBegin"⟩ :: ⟨.string directory.text, Text.quote directory.text⟩ ::
    (ps ++ [⟨.identifier, "WorkDirEnd"⟩])

/-! ## Marks -/

/-- The name in the mark in front of a text. -/
theorem scans_opening (directory : Location) (cs : List Char) :
    Scans (opening directory ++ cs) [⟨.identifier, "WorkDirBegin"⟩]
      (' ' :: ((Text.quote directory.text).toList ++ '\n' :: cs)) := by
  have htext : opening directory ++ cs = 'W' :: ("orkDirBegin".toList ++
      ' ' :: ((Text.quote directory.text).toList ++ '\n' :: cs)) := by
    simp [opening]
  rw [htext]
  exact scans_name 'W' "orkDirBegin".toList
    (' ' :: ((Text.quote directory.text).toList ++ '\n' :: cs))
    (by decide) (by decide) (by decide) (by decide) (by simp [isDelimiter])

theorem spells_opening {directory : Location} {cs : List Char} {ps : List Piece}
    (hdirectory : directory.text.toList.getLast? ≠ some '\\') (h : Spells cs ps) :
    Spells (opening directory ++ cs) (⟨.identifier, "WorkDirBegin"⟩ ::
      ⟨.string directory.text, Text.quote directory.text⟩ :: ps) := by
  have hrest : Spells ('\n' :: cs) ps := h.congr (takeGap_blank_cons isBlank_newline cs)
  have hpath := (scans_quote hdirectory ('\n' :: cs)).spells hrest
  exact (scans_opening directory cs).spells (hpath.congr (takeGap_blank_cons (by decide) _))

/-- What follows the mark in front of a text spells something if all of it does. -/
theorem exists_spells_of_opening {directory : Location} {cs : List Char} {qs : List Piece}
    (hdirectory : directory.text.toList.getLast? ≠ some '\\')
    (h : Spells (opening directory ++ cs) qs) : ∃ ps, Spells cs ps := by
  obtain ⟨qs', -, hpath⟩ := h.uncons (scans_opening directory cs)
  have hblank := takeGap_blank_cons (by decide : Text.isBlank ' ' = true)
    ((Text.quote directory.text).toList ++ '\n' :: cs)
  obtain ⟨ps, -, hps⟩ := (hpath.congr hblank.symm).uncons (scans_quote hdirectory ('\n' :: cs))
  exact ⟨ps, hps.congr (takeGap_blank_cons isBlank_newline cs).symm⟩

theorem spells_closing {cs : List Char} {ps : List Piece} (h : Spells cs ps) :
    Spells (closing ++ cs) (⟨.identifier, "WorkDirEnd"⟩ :: ps) := by
  have hname := scans_name 'W' "orkDirEnd".toList ('\n' :: cs)
    (by decide) (by decide) (by decide) (by decide) (by simp [isDelimiter])
  exact hname.spells (h.congr (takeGap_blank_cons isBlank_newline cs))

/-! ## Ends of texts -/

/-- A line feed behind a text ends the gap it ends in. -/
theorem spells_newline {core u ds : List Char} {ps qs : List Piece} (h : Scans (core ++ u) ps u)
    (hend : (takeGap false u).2 = []) (hafter : Spells ds qs) :
    Spells (core ++ (u ++ '\n' :: ds)) (ps ++ qs) := by
  have hexchange : Exchanges u (u ++ '\n' :: ds) := by
    cases u with
    | nil => exact Or.inr (by simp [isDelimiter])
    | cons c u => exact Or.inl rfl
  exact (h.exchange hexchange).spells (hafter.congr (takeGap_newline hend ds))

/-- A text that ends its last line does not touch what follows. -/
theorem spells_terminated {cs ds : List Char} {ps qs : List Piece} (h : Spells cs ps)
    (hafter : Spells ds qs) : Spells (terminated cs ++ ds) (ps ++ qs) := by
  obtain ⟨u, hscans, hend⟩ := h
  obtain ⟨core, rfl⟩ := hscans.exists_core
  unfold terminated
  split
  · rename_i hlast
    obtain ⟨rfl, rfl⟩ := List.append_eq_nil_iff.mp (List.getLast?_eq_none_iff.mp hlast)
    rcases hscans.boundary with ⟨-, rfl⟩ | ⟨body, last, hbody, -⟩
    · exact hafter
    · simp at hbody
  · rename_i c hlast
    split
    · rename_i hc
      subst hc
      rcases List.eq_nil_or_concat u with rfl | ⟨v, d, hu⟩
      · -- no token ends with a line feed
        rcases hscans.boundary with ⟨rfl, -⟩ | ⟨body, last, rfl, hends⟩
        · simp at hlast
        · obtain rfl : last = '\n' := by simpa using hlast
          simp [EndsToken, isDelimiter] at hends
      · rw [List.concat_eq_append] at hu
        subst hu
        obtain rfl : d = '\n' := by simpa using hlast
        have hhead : Exchanges (v ++ ['\n']) (v ++ ['\n'] ++ ds) := by
          cases v <;> exact Or.inl rfl
        have hgap : (takeGap false (v ++ ['\n'] ++ ds)).2 = (takeGap false ds).2 := by
          rw [List.append_assoc]
          exact takeGap_newline (takeGap_left hend) ds
        rw [List.append_assoc]
        exact (hscans.exchange hhead).spells (hafter.congr hgap)
    · have hall := spells_newline hscans hend hafter
      simpa only [List.append_assoc, List.cons_append, List.nil_append] using hall

theorem spells_framed {directory : Location} {cs ds : List Char} {ps qs : List Piece}
    (hdirectory : directory.text.toList.getLast? ≠ some '\\') (h : Spells cs ps)
    (hafter : Spells ds qs) : Spells (framed directory cs ++ ds) (frame directory ps ++ qs) := by
  have hbody := spells_terminated h (spells_closing hafter)
  have hall := spells_opening hdirectory hbody
  simpa only [framed, frame, List.append_assoc, List.cons_append, List.nil_append] using hall

/-- A text that is cut off before a name, and separated, does not touch what follows. -/
theorem spells_separated {core u gap rest ds : List Char} {c : Char} {ps qs : List Piece}
    (h : Scans (core ++ u) ps u) (hgap : takeGap false u = (gap, c :: rest))
    (hname : isDelimiter c = false) (hafter : Spells ds qs) :
    Spells (separated (core ++ gap) ++ ds) (ps ++ qs) := by
  have hu : u = gap ++ c :: rest := by
    have h := takeGap_append false u
    rw [hgap] at h
    exact h.symm
  have hclosed : ∀ cs, (takeGap false (gap ++ cs)).2 = (takeGap false cs).2 := by
    intro cs
    rw [hu] at hgap
    rw [takeGap_closed hgap]
  -- the text behind the gap begins a new line, or goes on where a blank ends the gap
  have newline : Spells (core ++ (gap ++ '\n' :: ds)) (ps ++ qs) := by
    have hexchange : Exchanges u (gap ++ '\n' :: ds) := by
      cases gap with
      | nil => exact Or.inr (by simp [isDelimiter])
      | cons d gap => exact Or.inl (by rw [hu]; rfl)
    refine (h.exchange hexchange).spells (hafter.congr ?_)
    rw [hclosed, takeGap_newline_cons]
  unfold separated
  split
  · rename_i hlast
    obtain ⟨rfl, rfl⟩ := List.append_eq_nil_iff.mp (List.getLast?_eq_none_iff.mp hlast)
    rcases h.boundary with ⟨-, rfl⟩ | ⟨body, last, hbody, -⟩
    · exact hafter
    · simp at hbody
  · rename_i d hlast
    split
    · rename_i hblank
      cases gap with
      | nil =>
          -- before the name is a quote or a bracket, since no delimiter is between them
          rw [List.append_nil] at hlast
          rcases h.boundary with ⟨rfl, -⟩ | ⟨body, last, rfl, hends⟩
          · simp at hlast
          · obtain rfl : last = d := by simpa using hlast
            have hnext : isDelimiter c ≠ true := by simp [hname]
            rcases hends with rfl | rfl | rfl | ⟨-, hdelimiter⟩
            · exact absurd hblank (by decide)
            · exact absurd hblank (by decide)
            · exact absurd hblank (by decide)
            · exact absurd (hdelimiter c (by rw [hu]; rfl)) hnext
      | cons e gap =>
          have hexchange : Exchanges u (e :: gap ++ ds) := Or.inl (by rw [hu]; rfl)
          rw [List.append_assoc]
          exact (h.exchange hexchange).spells (hafter.congr (hclosed ds))
    · simpa only [List.append_assoc, List.cons_append, List.nil_append] using newline

/-! ## Texts in front of a line feed -/

/-- A token that begins in front of a line feed ends in front of it, unless a quote behind
the line feed closes it. -/
theorem exists_after_of_newline {rest ds lexeme after : List Char} {c : Char} {kind : TokenKind}
    (hquote : '"' ∉ ds) (h : scanToken c (rest ++ '\n' :: ds) = .token kind lexeme after) :
    ∃ left, after = left ++ '\n' :: ds := by
  have htext : lexeme ++ after = c :: rest ++ '\n' :: ds := Lexed.lexeme_append h
  rcases List.append_eq_append_iff.mp htext with ⟨left, -, hafter⟩ | ⟨beyond, hlexeme, hds⟩
  · exact ⟨left, hafter⟩
  · cases beyond with
    | nil => exact ⟨[], hds.symm⟩
    | cons d beyond =>
        -- the token would go over the line feed
        rw [List.cons_append] at hds
        obtain ⟨rfl, hbeyond⟩ := List.cons.inj hds
        exfalso
        rcases scanToken_cases h with ⟨l, -, hl, -, hstring, -⟩ | ⟨-, -, hbracket, -⟩ |
          ⟨-, -, hbracket, -⟩ | ⟨-, hbare, -⟩
        · obtain ⟨body, hbody⟩ := Literal.exists_body hl
          have hlast : (c :: rest ++ '\n' :: beyond).getLast? = some '"' := by
            rw [← hlexeme, hstring, hbody, ← List.cons_append, List.getLast?_concat]
          rw [List.getLast?_append_of_ne_nil _ (List.cons_ne_nil _ _)] at hlast
          have hmem := List.mem_of_getLast? hlast
          rcases List.mem_cons.mp hmem with hmem | hmem
          · cases hmem
          · rw [hbeyond] at hquote
            exact hquote (List.mem_append_left _ hmem)
        · simp [hbracket] at hlexeme
        · simp [hbracket] at hlexeme
        · rw [hbare] at hlexeme
          have hword := (List.cons.inj hlexeme).2
          obtain ⟨-, hplain, -⟩ := takeBare_spec (rest ++ '\n' :: ds)
          have hnewline := hplain '\n' (by rw [hword]; simp)
          exact absurd hnewline (by decide)

/-- A text in front of a line feed spells something on its own, if no quote behind the line
feed could close a literal of the text. -/
theorem exists_spells_of_newline {cs ds : List Char} {qs : List Piece} (hquote : '"' ∉ ds)
    (h : Spells (cs ++ '\n' :: ds) qs) : ∃ ps, Spells cs ps := by
  induction hn : cs.length using Nat.strongRecOn generalizing cs qs with
  | ind n ih =>
      subst hn
      rcases hgap : takeGap false cs with ⟨gap, _ | ⟨c, rest⟩⟩
      · exact ⟨[], cs, .nil cs, congrArg Prod.snd hgap⟩
      · have hcs : cs = gap ++ c :: rest := by
          have h := takeGap_append false cs
          rw [hgap] at h
          exact h.symm
        obtain ⟨hblank, hmark⟩ := mark_of_takeGap hgap
        have hgap' : takeGap false (cs ++ '\n' :: ds) = (gap, c :: (rest ++ '\n' :: ds)) := by
          rw [hcs] at hgap ⊢
          rw [List.append_assoc, takeGap_closed hgap, List.cons_append, takeGap_mark hblank hmark]
          simp
        obtain ⟨u, hscans, hend⟩ := h
        cases hscans with
        | nil =>
            rw [hgap'] at hend
            cases hend
        | @cons _ gap' rest' lexeme after _ c' kind qs hgap'' htoken hscans =>
            rw [hgap'] at hgap''
            obtain ⟨rfl, hrest⟩ := Prod.mk.inj hgap''
            obtain ⟨rfl, rfl⟩ := List.cons.inj hrest
            obtain ⟨left, rfl⟩ := exists_after_of_newline hquote htoken
            have hexchange : Exchanges (left ++ '\n' :: ds) left := by
              cases left with
              | nil => exact Or.inr nofun
              | cons d left => exact Or.inl rfl
            obtain ⟨body, rfl, htoken'⟩ := scanToken_exchange htoken hexchange
            have hbody : rest = body ++ left := by
              have htext := Lexed.lexeme_append htoken
              rw [List.cons_append, ← List.append_assoc] at htext
              exact (List.append_cancel_right (List.cons.inj htext).2).symm
            subst hbody
            have hlength : left.length < cs.length := by
              rw [hcs]
              simp only [List.length_append, List.length_cons]
              omega
            obtain ⟨ps, hps⟩ := ih _ hlength ⟨u, hscans, hend⟩ rfl
            exact ⟨_, Scans.spells (.cons hgap htoken' (.nil left)) hps⟩

/-- A text spells something on its own if it does between the marks. -/
theorem exists_spells_of_framed {directory : Location} {cs : List Char} {qs : List Piece}
    (hdirectory : directory.text.toList.getLast? ≠ some '\\')
    (h : Spells (framed directory cs) qs) : ∃ ps, Spells cs ps := by
  have hquote : '"' ∉ closing := by decide
  rw [framed, List.append_assoc] at h
  obtain ⟨qs', hbody⟩ := exists_spells_of_opening hdirectory h
  unfold terminated at hbody
  split at hbody
  · rename_i hlast
    rw [List.getLast?_eq_none_iff.mp hlast]
    exact ⟨[], [], .nil [], rfl⟩
  · rename_i c hlast
    split at hbody
    · rename_i hc
      subst hc
      obtain ⟨front, rfl⟩ := List.getLast?_eq_some_iff.mp hlast
      rw [List.append_assoc] at hbody
      obtain ⟨ps, u, hscans, hend⟩ := exists_spells_of_newline hquote hbody
      obtain ⟨core, rfl⟩ := hscans.exists_core
      have hnone : Spells [] [] := ⟨[], .nil [], rfl⟩
      have hall := spells_newline hscans hend hnone
      rw [← List.append_assoc] at hall
      exact ⟨_, hall⟩
    · rw [List.append_assoc] at hbody
      exact exists_spells_of_newline hquote hbody

end Include
end SceneReader
