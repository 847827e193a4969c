import SceneReader.File.Tree
import SceneReader.Proofs.File.PathText

/-!
# Where paths lead

A path is followed part by part through directories.  If that ends in a file or a directory, it
ends at the place that the path means, which is read off its parts.

**Results.**
* `node?_put`: what stands in a tree with something new in it.
* `follow_file`, `follow_directory`: where following parts ends.
* `follow_concat`: one more part below a directory.
* `node?_of_missing`: a new name in a directory.
-/

namespace SceneReader

/-! ## Paths from a directory -/

namespace Path

/-- A path that is put behind a directory means what it means seen from there. -/
theorem resolve_join {dir : Location} (hdir : ".." ∉ dir) (here : Location) (p : Path) :
    ((ofLocation dir).join p).resolve here = p.resolve dir := by
  by_cases habsolute : p.isAbsolute = true
  · rw [join, if_pos habsolute, resolve, resolve, if_pos habsolute, if_pos habsolute]
  · have hroot : isAbsolute ⟨.slash, dir ++ p.parts⟩ = true := rfl
    rw [join, if_neg habsolute, ofLocation, resolve, resolve, if_pos hroot, if_neg habsolute,
      List.foldl_append]
    exact congrArg (p.parts.foldl step) (foldl_step_of_not_mem hdir [])

end Path

/-! ## Following paths -/

namespace FileTree

variable {t : FileTree}

theorem lookup_filter_of_ne {l l' : Location} (h : l' ≠ l) (nodes : List (Location × FileNode)) :
    (nodes.filter fun e => e.1 != l).lookup l' = nodes.lookup l' := by
  induction nodes with
  | nil => rfl
  | cons e nodes ih =>
      by_cases he : e.1 = l
      · rw [List.filter_cons_of_neg (by simp [he]), ih, List.lookup_cons,
          beq_false_of_ne (he ▸ h)]
      · rw [List.filter_cons_of_pos (by simp [he]), List.lookup_cons, List.lookup_cons, ih]

theorem node?_put (t : FileTree) (l : Location) (n : FileNode) (l' : Location) :
    (t.put l n).node? l' = if l' = l then some n else t.node? l' := by
  unfold node? put
  by_cases h : l' = l
  · rw [List.lookup_cons, if_pos h, beq_iff_eq.mpr h]
  · rw [List.lookup_cons, if_neg h, beq_false_of_ne h, lookup_filter_of_ne h]

theorem follow_of_directory {l : Location} (h : t.node? l = some .directory) (p : String)
    (ps : List String) : t.follow l (p :: ps) = t.follow (Path.step l p) ps := by
  rw [follow]
  simp only [h]

/-- A path leads on from a directory only. -/
theorem follow_cons {l : Location} {p : String} {ps : List String} {r : Found}
    (h : t.follow l (p :: ps) = r) (hmissing : r ≠ .missing) (hblocked : r ≠ .blocked) :
    t.node? l = some .directory ∧ t.follow (Path.step l p) ps = r := by
  rw [follow] at h
  split at h
  · exact absurd h.symm hmissing
  · exact absurd h.symm hblocked
  · exact ⟨by assumption, h⟩

theorem follow_file {l d : Location} {ps : List String} {bytes : List UInt8}
    (h : t.follow l ps = .file d bytes) :
    d = ps.foldl Path.step l ∧ t.node? d = some (.file bytes) := by
  induction ps generalizing l with
  | nil =>
      rw [follow] at h
      split at h <;> cases h
      exact ⟨rfl, by assumption⟩
  | cons p ps ih => exact ih (follow_cons h nofun nofun).2

theorem follow_directory {l d : Location} {ps : List String}
    (h : t.follow l ps = .directory d) :
    d = ps.foldl Path.step l ∧ t.node? d = some .directory := by
  induction ps generalizing l with
  | nil =>
      rw [follow] at h
      split at h <;> cases h
      exact ⟨rfl, by assumption⟩
  | cons p ps ih => exact ih (follow_cons h nofun nofun).2

/-- One more part below a directory. -/
theorem follow_concat {l d : Location} {ps : List String} (h : t.follow l ps = .directory d)
    (p : String) : t.follow l (ps ++ [p]) = t.follow (Path.step d p) [] := by
  induction ps generalizing l with
  | nil =>
      obtain ⟨rfl, hnode⟩ := follow_directory h
      exact follow_of_directory hnode p []
  | cons q ps ih =>
      obtain ⟨hnode, h⟩ := follow_cons h nofun nofun
      rw [List.cons_append, follow_of_directory hnode]
      exact ih h

/-- Nothing stands at a new name in a directory, and the path means that place. -/
theorem node?_of_missing {p : Path} {d : Location} (h : t.find p = .missing)
    (hparent : t.find p.parent = .directory d) :
    t.node? (Path.step d p.name) = none ∧ Path.step d p.name = t.resolve p := by
  obtain ⟨root, parts⟩ := p
  rcases List.eq_nil_or_concat parts with rfl | ⟨ps, part, rfl⟩
  · -- The path without parts is its own parent.
    exact absurd (h.symm.trans hparent) nofun
  · rw [Path.parent, List.concat_eq_append, List.dropLast_concat] at hparent
    have hname : Path.name ⟨root, ps.concat part⟩ = part := by simp [Path.name]
    obtain ⟨hd, -⟩ := follow_directory hparent
    have hfind := follow_concat hparent part
    rw [hname]
    refine ⟨?_, ?_⟩
    · have hmissing : t.follow (Path.step d part) [] = .missing := by
        rw [← hfind, ← List.concat_eq_append]
        exact h
      rw [follow] at hmissing
      split at hmissing <;> cases hmissing
      assumption
    · rw [hd]
      simp only [resolve, Path.resolve, Path.isAbsolute, List.concat_eq_append, List.foldl_append,
        List.foldl_cons, List.foldl_nil]
      rfl

end FileTree
end SceneReader
