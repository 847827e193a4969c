import SceneReader.Proofs.Token.Words
import SceneReader.Include.Directories

/-!
# Paths and their texts

The text of a place names it: read as a path, it leads to the place again.  This needs that
the names of the place are names a file may have, as they are for all places to which paths
lead if they are for the current directory.

**Results.**
* `ofText_text`: the text of a place is read as the path of the place.
* `ofText_text_path`: the text of a path is read as the path.
* `hasNames_resolve`: paths lead to places with names.
* `resolve_ofLocation`: the path of a place leads to the place.
-/

namespace SceneReader
namespace Path

/-- A name that a file or a directory may have. -/
def IsName (part : String) : Prop :=
  part ≠ "" ∧ part ≠ "." ∧ '/' ∉ part.toList

instance (part : String) : Decidable (IsName part) := inferInstanceAs (Decidable (_ ∧ _ ∧ _))

/-- All parts are names. -/
def HasNames (parts : List String) : Prop :=
  ∀ part ∈ parts, IsName part

instance (parts : List String) : Decidable (HasNames parts) :=
  inferInstanceAs (Decidable (∀ part ∈ parts, IsName part))

/-! ## Reading the text of a place -/

theorem splitSlashes_append {cs : List Char} (h : '/' ∉ cs) (piece ds : List Char) :
    splitSlashes piece (cs ++ ds) = splitSlashes (cs.reverse ++ piece) ds := by
  induction cs generalizing piece with
  | nil => rfl
  | cons c cs ih =>
      obtain ⟨hc, hcs⟩ := List.ne_and_not_mem_of_not_mem_cons h
      rw [List.cons_append, splitSlashes, if_neg (Ne.symm hc), ih hcs, List.reverse_cons,
        List.append_assoc]
      rfl

/-- The pieces of names between slashes are the names. -/
theorem splitSlashes_names {ns : List String} (h : HasNames ns) (piece : List Char) :
    splitSlashes piece (ns.flatMap fun n => '/' :: n.toList) =
      String.ofList piece.reverse :: ns := by
  induction ns generalizing piece with
  | nil => rfl
  | cons n ns ih =>
      obtain ⟨⟨-, -, hslash⟩, hns⟩ := List.forall_mem_cons.mp h
      rw [List.flatMap_cons, List.cons_append, splitSlashes, if_pos rfl,
        splitSlashes_append hslash, List.append_nil, ih hns, List.reverse_reverse,
        String.ofList_toList]

theorem toList_text_cons (n : String) (l : Location) :
    (Location.text (n :: l)).toList = (n :: l).flatMap fun n => '/' :: n.toList := by
  rw [Location.text, String.toList_append, Lexer.toList_intercalate_cons]
  rfl

/-- Names are kept as the parts of a text. -/
theorem filter_names {ns : List String} (h : HasNames ns) :
    ns.filter (fun n => n != "" && n != ".") = ns := by
  refine List.filter_eq_self.mpr fun n hn => ?_
  obtain ⟨hempty, hdot, -⟩ := h n hn
  simp [hempty, hdot]

theorem partsOf_text {l : Location} (h : HasNames l) : partsOf (Location.text l).toList = l := by
  cases l with
  | nil => rfl
  | cons n l =>
      rw [partsOf, toList_text_cons, splitSlashes_names h, List.filter_cons_of_neg (by simp)]
      exact filter_names h

theorem rootOf_text {l : Location} (h : HasNames l) : rootOf (Location.text l).toList = .slash := by
  cases l with
  | nil => rfl
  | cons n l =>
      obtain ⟨hempty, -, hslash⟩ := h n List.mem_cons_self
      obtain ⟨c, cs, hn⟩ := List.exists_cons_of_ne_nil (mt String.toList_eq_nil_iff.mp hempty)
      rw [hn] at hslash
      obtain ⟨hc, -⟩ := List.ne_and_not_mem_of_not_mem_cons hslash
      rw [rootOf, toList_text_cons, List.flatMap_cons, hn, leadingSlashes]
      simp [Ne.symm hc]

/-- The text of a place is read as the path of the place. -/
theorem ofText_text {l : Location} (h : HasNames l) : ofText (Location.text l) = ofLocation l := by
  rw [ofText, partsOf_text h, rootOf_text h, ofLocation]

/-! ## Reading the text of a path -/

/-- Slashes in front of a text have no part in its parts. -/
theorem partsOf_root (root : PathRoot) (cs : List Char) :
    partsOf (root.text.toList ++ cs) = partsOf cs := by
  cases root <;> rfl

theorem rootOf_append {cs : List Char} (h : cs.head? ≠ some '/') (root : PathRoot) :
    rootOf (root.text.toList ++ cs) = root := by
  have hnone : cs.takeWhile (· == '/') = [] := by
    cases cs with
    | nil => rfl
    | cons c cs =>
        have hc : c ≠ '/' := fun heq => h (congrArg some heq)
        exact List.takeWhile_cons_of_neg (by simp [hc])
  cases root <;> simp [rootOf, leadingSlashes, PathRoot.text, hnone]

/-- The text of a path is read as the path. -/
theorem ofText_text_path {p : Path} (h : HasNames p.parts) : ofText p.text = p := by
  obtain ⟨root, parts⟩ := p
  cases parts with
  | nil => cases root <;> rfl
  | cons n ns =>
      obtain ⟨⟨hempty, hdot, hslash⟩, hns⟩ := List.forall_mem_cons.mp h
      have htext : (text ⟨root, n :: ns⟩).toList =
          root.text.toList ++ (n.toList ++ ns.flatMap fun n => '/' :: n.toList) := by
        rw [text, if_neg (fun h => List.cons_ne_nil _ _ h.2), String.toList_append,
          Lexer.toList_intercalate_cons]
        rfl
      have hhead : (n.toList ++ ns.flatMap fun n => '/' :: n.toList).head? ≠ some '/' := by
        obtain ⟨c, cs, hn⟩ := List.exists_cons_of_ne_nil (mt String.toList_eq_nil_iff.mp hempty)
        rw [hn] at hslash ⊢
        rintro ⟨⟩
        exact hslash List.mem_cons_self
      rw [ofText, htext, rootOf_append hhead, partsOf_root, partsOf, splitSlashes_append hslash,
        splitSlashes_names hns, List.append_nil, List.reverse_reverse, String.ofList_toList]
      exact congrArg (Path.mk root) (filter_names h)

/-! ## Where paths lead -/

theorem slash_not_mem_of_splitSlashes {piece cs : List Char} (h : '/' ∉ piece) :
    ∀ part ∈ splitSlashes piece cs, '/' ∉ part.toList := by
  induction cs generalizing piece with
  | nil => simpa [splitSlashes] using h
  | cons c cs ih =>
      rw [splitSlashes]
      split
      · exact List.forall_mem_cons.mpr ⟨by simpa using h, ih List.not_mem_nil⟩
      · rename_i hc
        exact ih (List.not_mem_cons_of_ne_of_not_mem (Ne.symm hc) h)

theorem hasNames_ofText (s : String) : HasNames (ofText s).parts := by
  intro part hpart
  obtain ⟨hsplit, hkeep⟩ := List.mem_filter.mp hpart
  simp only [Bool.and_eq_true, bne_iff_ne] at hkeep
  exact ⟨hkeep.1, hkeep.2, slash_not_mem_of_splitSlashes List.not_mem_nil part hsplit⟩

theorem hasNames_foldl_step {parts : List String} (h : HasNames parts) {l : Location}
    (hl : HasNames l) : HasNames (parts.foldl step l) := by
  induction parts generalizing l with
  | nil => exact hl
  | cons part parts ih =>
      obtain ⟨hpart, hparts⟩ := List.forall_mem_cons.mp h
      refine ih hparts ?_
      unfold step
      split
      · exact fun n hn => hl n ((List.dropLast_sublist l).subset hn)
      · exact List.forall_mem_append.mpr ⟨hl, List.forall_mem_singleton.mpr hpart⟩

/-- Paths lead to places with names. -/
theorem hasNames_resolve {here : Location} (hhere : HasNames here) {p : Path}
    (h : HasNames p.parts) : HasNames (p.resolve here) := by
  refine hasNames_foldl_step h ?_
  split
  · exact List.forall_mem_nil _
  · exact hhere

theorem hasNames_dropLast {l : Location} (h : HasNames l) : HasNames l.dropLast :=
  fun n hn => h n ((List.dropLast_sublist l).subset hn)

theorem foldl_step_of_not_mem {parts : List String} (h : ".." ∉ parts) (l : Location) :
    parts.foldl step l = l ++ parts := by
  induction parts generalizing l with
  | nil => exact (List.append_nil l).symm
  | cons part parts ih =>
      obtain ⟨hpart, hparts⟩ := List.ne_and_not_mem_of_not_mem_cons h
      rw [List.foldl_cons, step, if_neg (Ne.symm hpart), ih hparts, List.append_assoc]
      rfl

/-- The path of a place leads to the place. -/
theorem resolve_ofLocation {l : Location} (h : ".." ∉ l) (here : Location) :
    (ofLocation l).resolve here = l :=
  foldl_step_of_not_mem h []

end Path

/-- A name leads from directories with names to places with names. -/
theorem DirectoryStack.hasNames_of_find? {dirs : DirectoryStack} {files : FileTree}
    {s : String} {l : Location} (hhere : Path.HasNames files.here)
    (hdirs : ∀ p ∈ dirs.dirs, Path.HasNames p.parts)
    (h : dirs.find? files (Path.ofText s) = some l) : Path.HasNames l := by
  obtain ⟨p, hp, rfl⟩ := Option.map_eq_some_iff.mp h
  refine Path.hasNames_resolve hhere ?_
  have hmem := List.mem_of_find?_eq_some hp
  have hname := Path.hasNames_ofText s
  unfold candidates at hmem
  split at hmem
  · rw [List.mem_singleton.mp hmem]
    exact hname
  · rename_i hrelative
    obtain ⟨d, hd, rfl⟩ := List.mem_map.mp hmem
    rw [Path.join, if_neg hrelative]
    exact List.forall_mem_append.mpr ⟨hdirs d hd, hname⟩

end SceneReader
