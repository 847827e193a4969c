import SceneReader.Algebra.Matrix

/-!
# Inverse matrices

Elimination by rows.  Every row of the matrix is kept beside a row of the matrix that
brings it about from the given one.  Column by column the row with the largest entry
becomes the pivot: it is divided by that entry and taken from all other rows as often as
clears the column.  A column without an entry other than zero has no pivot, and the
matrix no inverse.
-/

namespace SceneReader
namespace Elimination

variable {K : Type} [Scalar K]

/-- A row of the matrix under elimination, and what makes it of the given rows. -/
structure Row (K : Type) where
  current : Vec4 K
  maker : Vec4 K

/-- The row with all entries divided. -/
def Row.divided (r : Row K) (s : K) : Row K := ⟨r.current.divided s, r.maker.divided s⟩

/-- The row less a multiple of another. -/
def Row.less (r p : Row K) (s : K) : Row K :=
  ⟨r.current.sub (p.current.times s), r.maker.sub (p.maker.times s)⟩

/-- The row with the largest entry in a column, the first of equals, and the others. -/
def pickPivot (entry : Vec4 K → K) : Row K → List (Row K) → Row K × List (Row K)
  | best, [] => (best, [])
  | best, r :: rs =>
      if Scalar.less (Scalar.magnitude (entry best.current)) (Scalar.magnitude (entry r.current))
      then
        let picked := pickPivot entry r rs
        (picked.1, best :: picked.2)
      else
        let picked := pickPivot entry best rs
        (picked.1, r :: picked.2)

/-- The rows whose pivots are found, in the order of their columns, and those left. -/
structure State (K : Type) where
  done : List (Row K)
  left : List (Row K)

/-- Eliminates one column. -/
def step? (entry : Vec4 K → K) (s : State K) : Option (State K) :=
  match s.left with
  | [] => none
  | r :: rs =>
      let (pivot, others) := pickPivot entry r rs
      let value := entry pivot.current
      if Scalar.same value 0 then none
      else
        let p := pivot.divided value
        let clear (q : Row K) : Row K := q.less p (entry q.current)
        some ⟨s.done.map clear ++ [p], others.map clear⟩

/-- The rows of a matrix, each made of itself. -/
def start (m : Matrix4 K) : State K :=
  ⟨[], List.zipWith Row.mk m.rows (Matrix4.identity (K := K)).rows⟩

/-- Eliminates all columns. -/
def run? (m : Matrix4 K) : Option (State K) :=
  [Vec4.x, Vec4.y, Vec4.z, Vec4.w].foldlM (fun s entry => step? entry s) (start m)

end Elimination

/-- The inverse of a matrix that has one. -/
def Matrix4.inverse? {K : Type} [Scalar K] (m : Matrix4 K) : Option (Matrix4 K) :=
  match Elimination.run? m with
  | some ⟨[a, b, c, d], _⟩ => some ⟨a.maker, b.maker, c.maker, d.maker⟩
  | _ => none

end SceneReader
