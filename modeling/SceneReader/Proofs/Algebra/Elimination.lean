import SceneReader.Proofs.Algebra.MatrixLaws
import SceneReader.Algebra.Inverse

/-!
# Elimination finds inverses

After some columns every row is still what its maker makes of the given rows, the rows
that are done are unit rows in these columns, and the rows that are left are zero there.
One step of the elimination brings one more column into this form.  After all four, the
done rows are the rows of the identity, and their makers are the rows of an inverse.

**Results.**
* `Reduced.step`: one column more is in reduced form after a step.
* `isInverse_of_inverse?`: what elimination finds is an inverse from both sides.
-/

namespace SceneReader

variable {K : Type} [ExactScalar K]

namespace Elimination

/-- A linear function of rows. -/
structure Linear (e : Vec4 K → K) : Prop where
  sub (a b : Vec4 K) : e (a.sub b) = e a - e b
  times (a : Vec4 K) (s : K) : e (a.times s) = e a * s
  divided (a : Vec4 K) (s : K) : e (a.divided s) = e a / s

/-- The row is the combination of the rows of a matrix that its maker says. -/
def Row.MadeFrom (m : Matrix4 K) (r : Row K) : Prop :=
  m.transpose.apply r.maker = r.current

theorem Row.MadeFrom.divided {m : Matrix4 K} {r : Row K} (h : r.MadeFrom m) (s : K) :
    (r.divided s).MadeFrom m := by
  simp only [Row.MadeFrom, Row.divided] at *
  rw [← h]
  simp only [Matrix4.apply, Vec4.dot, Vec4.divided]
  ext <;> ring

theorem Row.MadeFrom.less {m : Matrix4 K} {r p : Row K} (hr : r.MadeFrom m)
    (hp : p.MadeFrom m) (s : K) : (r.less p s).MadeFrom m := by
  simp only [Row.MadeFrom, Row.less] at *
  rw [← hr, ← hp]
  simp only [Matrix4.apply, Vec4.dot, Vec4.sub, Vec4.times]
  ext <;> ring

theorem pickPivot_fst_mem (entry : Vec4 K → K) (best : Row K) (rs : List (Row K)) :
    (pickPivot entry best rs).1 ∈ best :: rs := by
  induction rs generalizing best with
  | nil => simp [pickPivot]
  | cons r rs ih =>
      unfold pickPivot
      split
      · exact List.mem_cons_of_mem best (ih r)
      · rcases List.mem_cons.mp (ih best) with h | h
        · rw [h]
          exact List.mem_cons_self
        · exact List.mem_cons_of_mem best (List.mem_cons_of_mem r h)

theorem mem_of_mem_pickPivot_snd (entry : Vec4 K → K) {best q : Row K} {rs : List (Row K)}
    (h : q ∈ (pickPivot entry best rs).2) : q ∈ best :: rs := by
  induction rs generalizing best with
  | nil => simp [pickPivot] at h
  | cons r rs ih =>
      unfold pickPivot at h
      split at h
      · rcases List.mem_cons.mp h with rfl | h
        · exact List.mem_cons_self
        · exact List.mem_cons_of_mem best (ih h)
      · rcases List.mem_cons.mp h with rfl | h
        · exact List.mem_cons_of_mem best List.mem_cons_self
        · rcases List.mem_cons.mp (ih h) with rfl | h
          · exact List.mem_cons_self
          · exact List.mem_cons_of_mem best (List.mem_cons_of_mem r h)

/-- What stands in a list with one more element: something of the list, or the new one. -/
theorem getElem?_concat_cases {α : Type} {l : List α} {a b : α} {i : Nat}
    (h : (l ++ [a])[i]? = some b) :
    (i < l.length ∧ l[i]? = some b) ∨ (i = l.length ∧ a = b) := by
  rcases Nat.lt_or_ge i l.length with hi | hi
  · rw [List.getElem?_append_left hi] at h
    exact Or.inl ⟨hi, h⟩
  · rw [List.getElem?_append_right hi, List.getElem?_singleton] at h
    split at h
    · exact Or.inr ⟨by omega, Option.some.inj h⟩
    · cases h

/-- Some columns of a matrix are reduced: every row is made from the matrix, the done rows
are unit rows there, and the others are zero there. -/
structure Reduced (m : Matrix4 K) (entries : List (Vec4 K → K)) (s : State K) : Prop where
  made : ∀ r ∈ s.done ++ s.left, r.MadeFrom m
  count : s.done.length = entries.length
  unit : ∀ (i j : Nat) (r : Row K) (e : Vec4 K → K), s.done[i]? = some r →
    entries[j]? = some e → e r.current = if i = j then 1 else 0
  cleared : ∀ r ∈ s.left, ∀ e ∈ entries, e r.current = 0

theorem reduced_start (m : Matrix4 K) : Reduced m [] (start m) where
  made := by
    intro r hr
    simp only [start, Matrix4.rows, Matrix4.identity, List.nil_append, List.zipWith_cons_cons,
      List.zipWith_nil_left, List.mem_cons, List.not_mem_nil, or_false] at hr
    rcases hr with rfl | rfl | rfl | rfl <;>
      simp only [Row.MadeFrom, Matrix4.transpose, Matrix4.apply, Vec4.dot] <;>
      ext <;> ring
  count := rfl
  unit := by simp
  cleared := by simp

/-- What a step does: it takes a pivot out of the rows that are left, divides it by its
entry, and clears the column of the other rows with it. -/
theorem step?_eq_some {entry : Vec4 K → K} {s s' : State K} (h : step? entry s = some s') :
    ∃ (pivot : Row K) (others : List (Row K)),
      pivot ∈ s.left ∧ (∀ q ∈ others, q ∈ s.left) ∧ entry pivot.current ≠ 0 ∧
      s'.done = s.done.map (fun q =>
        q.less (pivot.divided (entry pivot.current)) (entry q.current)) ++
          [pivot.divided (entry pivot.current)] ∧
      s'.left = others.map (fun q =>
        q.less (pivot.divided (entry pivot.current)) (entry q.current)) := by
  unfold step? at h
  split at h
  · cases h
  · rename_i r rs hleft
    dsimp only at h
    split at h
    · cases h
    · rename_i hsame
      refine ⟨(pickPivot entry r rs).1, (pickPivot entry r rs).2, ?_, ?_, ?_, ?_, ?_⟩
      · rw [hleft]
        exact pickPivot_fst_mem entry r rs
      · rw [hleft]
        exact fun q hq => mem_of_mem_pickPivot_snd entry hq
      · exact fun h0 => hsame ((ExactScalar.same_iff _ _).mpr h0)
      · cases h
        rfl
      · cases h
        rfl

section Step

variable {entry e : Vec4 K → K} {p q : Row K}

/-- The pivot has the entry one. -/
theorem entry_divided (he : Linear entry) (hne : entry p.current ≠ 0) :
    entry (p.divided (entry p.current)).current = 1 := by
  simp only [Row.divided, he.divided]
  exact div_self hne

/-- A row that is cleared with a row of entry one has no entry left. -/
theorem entry_less (he : Linear entry) (hp : entry p.current = 1) :
    entry (q.less p (entry q.current)).current = 0 := by
  simp only [Row.less, he.sub, he.times, hp]
  ring

/-- Where the pivot is zero, clearing changes nothing. -/
theorem less_of_zero (he : Linear e) (hp : e p.current = 0) (s : K) :
    e (q.less p s).current = e q.current := by
  simp only [Row.less, he.sub, he.times, hp]
  ring

theorem divided_of_zero (he : Linear e) (hp : e p.current = 0) (s : K) :
    e (p.divided s).current = 0 := by
  simp only [Row.divided, he.divided, hp]
  exact zero_div s

end Step

theorem Reduced.step {m : Matrix4 K} {entries : List (Vec4 K → K)} {entry : Vec4 K → K}
    {s s' : State K} (hs : Reduced m entries s) (hall : ∀ e ∈ entries, Linear e)
    (he : Linear entry) (h : step? entry s = some s') : Reduced m (entries ++ [entry]) s' := by
  obtain ⟨pivot, others, hpivot, hothers, hne, hdone, hleft⟩ := step?_eq_some h
  have hpmade : (pivot.divided (entry pivot.current)).MadeFrom m :=
    (hs.made pivot (List.mem_append_right _ hpivot)).divided _
  have hpone := entry_divided he hne
  -- the pivot was among the rows that are left, so it is zero in the earlier columns
  have hpzero : ∀ e ∈ entries, e (pivot.divided (entry pivot.current)).current = 0 :=
    fun e hmem => divided_of_zero (hall e hmem) (hs.cleared pivot hpivot e hmem) _
  refine ⟨?_, ?_, ?_, ?_⟩
  · intro r hr
    rw [hdone, hleft] at hr
    simp only [List.mem_append, List.mem_map, List.mem_singleton] at hr
    rcases hr with (⟨q, hq, rfl⟩ | rfl) | ⟨q, hq, rfl⟩
    · exact (hs.made q (List.mem_append_left _ hq)).less hpmade _
    · exact hpmade
    · exact (hs.made q (List.mem_append_right _ (hothers q hq))).less hpmade _
  · rw [hdone]
    simp [hs.count]
  · intro i j r e hr hj
    have hcount := hs.count
    rw [hdone] at hr
    rcases getElem?_concat_cases hr with ⟨hi, hr⟩ | ⟨hi, rfl⟩
    · -- a row that was done before
      rw [List.getElem?_map] at hr
      obtain ⟨q, hq, rfl⟩ := Option.map_eq_some_iff.mp hr
      rw [List.length_map] at hi
      rcases getElem?_concat_cases hj with ⟨-, hj⟩ | ⟨hj, rfl⟩
      · have hmem : e ∈ entries := List.mem_of_getElem? hj
        rw [less_of_zero (hall e hmem) (hpzero e hmem)]
        exact hs.unit i j q e hq hj
      · rw [entry_less he hpone, if_neg]
        omega
    · -- the pivot
      rw [List.length_map] at hi
      rcases getElem?_concat_cases hj with ⟨hlt, hj⟩ | ⟨hj, rfl⟩
      · rw [hpzero e (List.mem_of_getElem? hj), if_neg]
        omega
      · rw [hpone, if_pos]
        omega
  · intro r hr e hmem
    rw [hleft] at hr
    obtain ⟨q, hq, rfl⟩ := List.mem_map.mp hr
    rcases List.mem_append.mp hmem with hmem | hmem
    · rw [less_of_zero (hall e hmem) (hpzero e hmem)]
      exact hs.cleared q (hothers q hq) e hmem
    · obtain rfl := List.mem_singleton.mp hmem
      exact entry_less he hpone

/-- The four columns. -/
def columns : List (Vec4 K → K) := [Vec4.x, Vec4.y, Vec4.z, Vec4.w]

theorem linear_of_mem_columns {e : Vec4 K → K} (h : e ∈ columns) : Linear e := by
  simp only [columns, List.mem_cons, List.not_mem_nil, or_false] at h
  rcases h with rfl | rfl | rfl | rfl <;>
    exact ⟨fun _ _ => rfl, fun _ _ => rfl, fun _ _ => rfl⟩

/-- Elimination of further columns keeps what is reduced and adds these columns. -/
theorem Reduced.foldlM {m : Matrix4 K} {entries rest : List (Vec4 K → K)} {s s' : State K}
    (hs : Reduced m entries s) (hall : ∀ e ∈ entries ++ rest, Linear e)
    (h : rest.foldlM (fun s entry => step? entry s) s = some s') :
    Reduced m (entries ++ rest) s' := by
  induction rest generalizing entries s with
  | nil =>
      cases h
      simpa using hs
  | cons e rest ih =>
      rw [List.foldlM_cons] at h
      obtain ⟨t, ht, h⟩ := Option.bind_eq_some_iff.mp h
      have hstep := hs.step (fun e' he' => hall e' (List.mem_append_left _ he'))
        (hall e (by simp)) ht
      have := ih hstep (by simpa using hall) h
      simpa using this

theorem reduced_run {m : Matrix4 K} {s : State K} (h : run? m = some s) :
    Reduced m columns s :=
  (reduced_start m).foldlM (fun _ he => linear_of_mem_columns he) h

end Elimination

/-- The product by rows: each row of the first factor is combined from the rows of the
second. -/
theorem Matrix4.mul_eq_rows (a b : Matrix4 K) :
    a.mul b = ⟨b.transpose.apply a.r0, b.transpose.apply a.r1, b.transpose.apply a.r2,
      b.transpose.apply a.r3⟩ := by
  simp only [Matrix4.mul, Matrix4.transpose, Matrix4.apply, Vec4.dot]
  ext <;> ring

/-- What elimination finds is an inverse. -/
theorem Matrix4.isInverse_of_inverse? {m i : Matrix4 K} (h : m.inverse? = some i) :
    Matrix4.IsInverse m i := by
  unfold Matrix4.inverse? at h
  split at h
  · rename_i a b c d left hrun
    have hr := Elimination.reduced_run hrun
    -- the done rows are unit rows in all four columns
    have hrow : ∀ n (r : Elimination.Row K), [a, b, c, d][n]? = some r →
        m.transpose.apply r.maker =
          ⟨if n = 0 then 1 else 0, if n = 1 then 1 else 0, if n = 2 then 1 else 0,
            if n = 3 then 1 else 0⟩ := by
      intro n r hn
      have hmade := hr.made r (List.mem_append_left _ (List.mem_of_getElem? hn))
      rw [Elimination.Row.MadeFrom] at hmade
      rw [hmade]
      ext
      · exact hr.unit n 0 r Vec4.x hn rfl
      · exact hr.unit n 1 r Vec4.y hn rfl
      · exact hr.unit n 2 r Vec4.z hn rfl
      · exact hr.unit n 3 r Vec4.w hn rfl
    apply IsInverse.symm
    apply IsInverse.of_mul
    cases h
    rw [mul_eq_rows, hrow 0 a rfl, hrow 1 b rfl, hrow 2 c rfl, hrow 3 d rfl]
    rfl
  · cases h

end SceneReader
