import SceneReader.Proofs.Include.Origin
import SceneReader.Proofs.Include.UnreadFile
import SceneReader.Proofs.Token.Twins

/-!
# Expanding an expanded text

The text that an expansion gives can be expanded again, as a text at hand in the directory of
the file.  There is nothing left to replace in it, and if neither the files nor the names of
directories bring two backslashes together, there is no comment that stripping could find.  So
the second expansion gives the first one between two more marks.

**Results.**
* `IsTrace.arises`: what a trace consists of.
* `IsTrace.not_hasTwin`: no piece of a trace has two backslashes side by side.
* `expand_of_noInclude`: a text without includes is its own expansion.
* `expandText_of_trace`: the expansion of an expanded text.
* `notes_expandFile`: an expansion warns of parameters behind includes only.
-/

namespace SceneReader

namespace Reported

variable {ε α β : Type} {P : Diagnostic → Prop}

/-- All that is reported has the property. -/
def Notes (P : Diagnostic → Prop) (x : Reported ε α) : Prop := ∀ n ∈ x.notes, P n

namespace Notes

theorem pure (a : α) : Notes P (Pure.pure a : Reported ε α) := List.forall_mem_nil _

theorem fail (e : ε) : Notes P (Reported.fail e : Reported ε α) := List.forall_mem_nil _

theorem ofExcept (r : Except ε α) : Notes P (Reported.ofExcept r) := List.forall_mem_nil _

theorem note {d : Diagnostic} (h : P d) : Notes P (Reported.note d : Reported ε Unit) :=
  List.forall_mem_singleton.mpr h

theorem bind {x : Reported ε α} {f : α → Reported ε β} (hx : Notes P x)
    (hf : ∀ a, Notes P (f a)) : Notes P (x >>= f) := by
  intro n hn
  cases hresult : x.result with
  | error e =>
      rw [bind_of_error hresult] at hn
      exact hx n hn
  | ok a =>
      rw [notes_bind hresult] at hn
      rcases List.mem_append.mp hn with hn | hn
      · exact hx n hn
      · exact hf a n hn

end Notes

end Reported

namespace Include

open Lexer

variable {files : FileTree} {o : Options}

/-! ## What a trace consists of -/

/-- A piece that may come out of the expansion of a text: a piece of a file that is looked up in
all directories of the text, or a piece of a mark of a file. -/
inductive Arises (files : FileTree) (o : Options) (s : Standing) : Sited → Prop
  | own {s' : Standing} {p : Piece} (hp : o.expandIncludes = true → p ≠ .include)
      (hdirs : s.dirs.dirs ⊆ s'.dirs.dirs) : Arises files o s (.own s' p)
  | opening : Arises files o s .opening
  | directory {l : Location} {bytes : List UInt8} (hnode : files.node? l = some (.file bytes)) :
      Arises files o s (.directory l.dropLast)
  | closing : Arises files o s .closing

variable {s : Standing} {ps : List Piece} {row : List Sited} {l : Location} {bytes : List UInt8}

/-- What arises inside of a file arises from where the file is included. -/
theorem Arises.of_enter {x : Sited} (h : Arises files o (s.enter l) x) : Arises files o s x := by
  cases h with
  | own hp hdirs => exact .own hp fun p hp => hdirs (List.mem_cons_of_mem _ hp)
  | opening => exact .opening
  | directory hnode => exact .directory hnode
  | closing => exact .closing

theorem arises_enclosed (hnode : files.node? l = some (.file bytes))
    (h : ∀ x ∈ row, Arises files o s x) : ∀ x ∈ enclosed l.dropLast row, Arises files o s x :=
  List.forall_mem_cons.mpr ⟨.opening, List.forall_mem_cons.mpr ⟨.directory hnode,
    List.forall_mem_append.mpr ⟨h, List.forall_mem_singleton.mpr .closing⟩⟩⟩

theorem Unfolds.arises (h : Unfolds files o s ps row) : ∀ x ∈ row, Arises files o s x := by
  induction h with
  | done => exact List.forall_mem_nil _
  | keep hp _ ih => exact List.forall_mem_cons.mpr ⟨.own (fun _ => hp) (List.Subset.refl _), ih⟩
  | replace hfile _ _ _ ihbody ih =>
      obtain ⟨bytes, hnode⟩ := node?_of_find? hfile
      have hbody := arises_enclosed hnode fun x hx => (ihbody x hx).of_enter
      exact List.forall_mem_append.mpr ⟨hbody, ih⟩

theorem Fills.arises (h : Fills files o s ps row) : ∀ x ∈ row, Arises files o s x := by
  cases h with
  | expanded _ h => exact h.arises
  | asItIs ho =>
      refine List.forall_mem_map.mpr fun p _ => .own (fun ho' => ?_) (List.Subset.refl _)
      cases ho.symm.trans ho'

/-- What a trace consists of, seen from where its file is read. -/
theorem IsTrace.arises {path : String} (h : IsTrace files o path row) :
    ∀ x ∈ row, Arises files o (.root (files.resolve (Path.ofText path))) x := by
  obtain ⟨l, inner, body, hfile, rfl, -, hbody, rfl⟩ := h
  obtain ⟨bytes, hnode⟩ := node?_of_isFile hfile
  exact arises_enclosed hnode hbody.arises

/-! ## Backslashes -/

/-- No file has two backslashes side by side. -/
def Untwinned (files : FileTree) (o : Options) : Prop :=
  ∀ l bytes text, files.node? l = some (.file bytes) →
    files.readScene (Path.ofLocation l) o.encoding = .ok text → ¬ HasTwin text.toList

/-- No directory that holds a file has a backslash in its name. -/
def ClearDirectories (files : FileTree) : Prop :=
  ∀ l bytes, files.node? l = some (.file bytes) → '\\' ∉ (Location.text l.dropLast).toList

theorem ClearDirectories.plain (h : ClearDirectories files) : PlainDirectories files :=
  fun l bytes hnode hlast => h l bytes hnode (List.mem_of_getLast? hlast)

theorem untwinned_of_nodes
    (h : ∀ e ∈ files.nodes, ∀ text ∈ (files.readScene (Path.ofLocation e.1) o.encoding).toOption,
      ¬ HasTwin text.toList) : Untwinned files o := by
  intro l bytes text hnode htext
  have hmem : text ∈ (files.readScene (Path.ofLocation l) o.encoding).toOption := by
    rw [htext]
    rfl
  exact h (l, .file bytes) (mem_nodes hnode) text hmem

theorem clearDirectories_of_nodes
    (h : ∀ e ∈ files.nodes, '\\' ∉ (Location.text e.1.dropLast).toList) : ClearDirectories files :=
  fun l bytes hnode => h (l, .file bytes) (mem_nodes hnode)

theorem Holds.not_hasTwin (htwins : Untwinned files o)
    (hnode : files.node? l = some (.file bytes)) (h : Holds files o l ps) :
    ∀ p ∈ ps, ¬ HasTwin p.lexeme.toList := by
  obtain ⟨stripped, _, hstripped, -⟩ := id h
  obtain ⟨text, htext, rfl⟩ := Success.of_map hstripped
  have hstrip := not_hasTwin_strip (htwins l bytes text hnode htext)
  rw [Comment.stripText, String.toList_ofList] at hstripped
  exact not_hasTwin_lexeme ((holds_iff hstripped).mp h) hstrip

/-- No piece of a trace has two backslashes side by side. -/
theorem IsTrace.not_hasTwin {path : String} (htwins : Untwinned files o)
    (hclear : ClearDirectories files) (h : IsTrace files o path row) :
    ∀ p ∈ row.map Sited.piece, ¬ HasTwin p.lexeme.toList := by
  refine List.forall_mem_map.mpr fun x hx => ?_
  cases h.arises x hx with
  | own =>
      obtain ⟨l, bytes, ps, -, hnode, hholds, hp⟩ := (h.stands _ _ hx).file
      exact hholds.not_hasTwin htwins hnode _ hp
  | opening => exact not_hasTwin_of_not_mem (by decide)
  | directory hnode => exact not_hasTwin_quote (hclear _ _ hnode)
  | closing => exact not_hasTwin_of_not_mem (by decide)

/-! ## Nothing to replace -/

theorem splice_of_noInclude {lines : List String}
    {replace : Request → Reported ReadError (List Char)} {offset : Nat} {cs : List Char}
    {ts : List Token} (h : ∀ t ∈ ts, isInclude t = false) :
    splice lines replace offset cs ts = pure cs := by
  induction ts with
  | nil => rw [splice]
  | cons t ts ih =>
      obtain ⟨ht, hts⟩ := List.forall_mem_cons.mp h
      rw [splice_other ht, ih hts]

/-- A text without includes is its own expansion. -/
theorem expand_of_noInclude {cs : List Char} (hcs : Spells cs ps) (h : .include ∉ ps)
    (room : Nat) : expand files o room s cs = pure cs := by
  obtain ⟨ts, hts, hpieces⟩ := (spells_iff s.file).mp hcs
  have hnone : ∀ t ∈ ts, isInclude t = false := by
    intro t ht
    have hmem : t.piece ∈ ps ++ [.atEnd] := hpieces ▸ List.mem_map_of_mem ht
    refine Bool.eq_false_iff.mpr fun hinclude => ?_
    have hpiece : t.piece = .include := isInclude_iff.mp hinclude
    rw [hpiece] at hmem
    rcases List.mem_append.mp hmem with hmem | hmem
    · exact h hmem
    · cases List.mem_singleton.mp hmem
  rw [expand_eq, hts]
  exact splice_of_noInclude hnone

/-- The expansion of an expanded text stands between two more marks. -/
theorem expandText_of_trace {path text : String} (htwins : Untwinned files o)
    (hclear : ClearDirectories files) (htrace : IsTrace files o path row)
    (htext : Spells text.toList (row.map Sited.piece)) {base : Path}
    (hbase : files.resolve base = (files.resolve (Path.ofText path)).dropLast)
    (file : Option String) :
    ∃ again, expandText files o base file text = pure again ∧
      Spells again.toList
        (frame (files.resolve (Path.ofText path)).dropLast (row.map Sited.piece)) := by
  have hstrip := spells_strip htext (htrace.not_hasTwin htwins hclear)
  obtain ⟨l, -, -, hfile, rfl, -, -, -⟩ := id htrace
  obtain ⟨bytes, hnode⟩ := node?_of_isFile hfile
  have hnone : Spells [] [] := ⟨[], .nil [], rfl⟩
  have hall := spells_framed (hclear.plain _ bytes hnode) hstrip hnone
  rw [List.append_nil, List.append_nil] at hall
  refine ⟨String.ofList (framed (files.resolve (Path.ofText path)).dropLast
    (Comment.strip text.toList)), ?_, ?_⟩
  · unfold expandText
    rw [hbase, Comment.stripText, String.toList_ofList]
    cases hincludes : o.expandIncludes with
    | false => rfl
    | true =>
        have hkept : .include ∉ row.map Sited.piece := by
          intro hmem
          obtain ⟨x, hx, hpiece⟩ := List.mem_map.mp hmem
          cases htrace.arises x hx with
          | own hp => exact hp hincludes hpiece
          | opening => exact absurd (congrArg Piece.lexeme hpiece) (by decide)
          | directory => cases hpiece
          | closing => exact absurd (congrArg Piece.lexeme hpiece) (by decide)
        simp only [if_true]
        rw [expand_of_noInclude hstrip hkept]
        rfl
  · rw [String.toList_ofList]
    exact hall

/-! ## Warnings -/

/-- The warning is one of parameters behind an include. -/
def OfInclude (n : Diagnostic) : Prop := n.code = "W212"

theorem notes_splice {lines : List String}
    {replace : Request → Reported ReadError (List Char)}
    (hreplace : ∀ r, (replace r).Notes OfInclude) (offset : Nat) (cs : List Char)
    (ts : List Token) : (splice lines replace offset cs ts).Notes OfInclude := by
  induction hn : ts.length using Nat.strongRecOn generalizing offset cs ts with
  | ind n ih =>
      subst hn
      cases ts with
      | nil =>
          rw [splice]
          exact .pure cs
      | cons t ts =>
          cases ht : isInclude t with
          | false =>
              rw [splice_other ht]
              exact ih _ (Nat.lt_succ_self _) _ _ _ rfl
          | true =>
              rw [splice, if_pos ht]
              cases ts with
              | nil => exact .fail _
              | cons target after =>
                  dsimp only
                  split
                  · exact .fail _
                  · have hlength := length_skipParameters_lt t target after target.span.stop
                    have hrest := ih _ hlength
                    split
                    · refine .bind (.note rfl) fun _ => ?_
                      refine .bind (hreplace _) fun _ => ?_
                      exact .bind (hrest _ _ _ rfl) fun _ => .pure _
                    · refine .bind (hreplace _) fun _ => ?_
                      exact .bind (hrest _ _ _ rfl) fun _ => .pure _

theorem notes_expand (room : Nat) (s : Standing) (cs : List Char) :
    (expand files o room s cs).Notes OfInclude := by
  induction room generalizing s cs with
  | zero =>
      rw [expand_eq]
      refine .bind (.ofExcept _) fun tokens => notes_splice (fun r => ?_) _ _ _
      exact .bind (.ofExcept _) fun _ => .fail _
  | succ room ih =>
      rw [expand_eq]
      refine .bind (.ofExcept _) fun tokens => notes_splice (fun r => ?_) _ _ _
      refine .bind (.ofExcept _) fun _ => .bind (.ofExcept _) fun _ => ?_
      exact .bind (ih _ _) fun _ => .pure _

/-- An expansion warns of parameters behind includes only. -/
theorem notes_expandFile (path : String) : (expandFile files o path).Notes OfInclude := by
  unfold expandFile
  dsimp only
  split
  · exact .fail _
  · refine .bind (.ofExcept _) fun text => ?_
    split
    · exact .bind (notes_expand _ _ _) fun _ => .pure _
    · exact .bind (.pure _) fun _ => .pure _

/-- Paths that are read alike are expanded alike. -/
theorem expandFile_congr {path path' : String} (h : Path.ofText path' = Path.ofText path)
    (hfile : files.isFile (Path.ofText path) = true) :
    expandFile files o path' = expandFile files o path := by
  unfold expandFile
  simp only [h, hfile, Bool.not_true, Bool.false_eq_true, if_false]

end Include
end SceneReader
