import SceneReader.Engine.Admission
import SceneReader.Proofs.Directive.Arguments

/-!
# Endless turns

The transform of a directive may be degenerate: a scaling by zero, an axis without length, a
matrix without an inverse.  Readers of scenes recover from that.  An angle that is infinite
has neither sine nor cosine, and from a turn by such an angle nothing recovers.  It is the
only transform of a directive of the right shape that is refused.

**Results.**
* `recovers_motion?`: what else the transform of a directive comes to is recovered from.
* `motionFault?_eq_some_iff`, `motionFault?_eq_none_iff`: endless turns are refused, and no
  other transform is.
-/

namespace SceneReader
namespace Engine

variable {K : Type} [Scalar K] {d : Directive}

/-- A turn by an infinite angle about an axis that is not too short. -/
def IsEndlessTurn (K : Type) [Scalar K] (d : Directive) : Prop :=
  d.name = .rotate ∧ ∃ angle x y z : K, d.numbers.map Scalar.ofFloat = [angle, x, y, z] ∧
    Scalar.isInfinite angle = true ∧ Frame.isShort (⟨x, y, z⟩ : Vec3 K).length = false

/-- No turn is endless if the numbers of the directive are not infinite. -/
theorem not_isEndlessTurn
    (h : ∀ x ∈ d.numbers, Scalar.isInfinite (Scalar.ofFloat x : K) = false) :
    ¬ IsEndlessTurn K d := by
  rintro ⟨-, angle, x, y, z, hnumbers, hangle, -⟩
  have hmem : angle ∈ d.numbers.map Scalar.ofFloat := by
    rw [hnumbers]
    exact List.mem_cons_self
  obtain ⟨degrees, hdegrees, rfl⟩ := List.mem_map.mp hmem
  rw [h degrees hdegrees] at hangle
  cases hangle

/-! ## Transforms that are recovered from -/

/-- Whatever the transform fails with, readers of scenes recover from it. -/
def Recovers {α : Type} (r : Except (TransformFault K) α) : Prop :=
  ∀ f, r = .error f → f.isDegenerate = true

namespace Recovers

variable {α β : Type}

omit [Scalar K] in
theorem ok (a : α) : Recovers (K := K) (.ok a) := nofun

omit [Scalar K] in
theorem error {f : TransformFault K} (h : f.isDegenerate = true) :
    Recovers (.error f : Except (TransformFault K) α) := by
  intro f' hf
  cases hf
  exact h

omit [Scalar K] in
theorem bind {r : Except (TransformFault K) α} {g : α → Except (TransformFault K) β}
    (hr : Recovers r) (hg : ∀ a, Recovers (g a)) : Recovers (r >>= g) := by
  cases r with
  | error f => exact error (hr f rfl)
  | ok a => exact hg a

omit [Scalar K] in
theorem map {r : Except (TransformFault K) α} (hr : Recovers r) (g : α → β) :
    Recovers (r.map g) := by
  cases r with
  | error f => exact error (hr f rfl)
  | ok a => exact ok _

end Recovers

theorem recovers_normalize? (v : Vec3 K) : Recovers (Frame.normalize? v) := by
  unfold Frame.normalize?
  split
  · exact .error rfl
  · exact .ok _

theorem recovers_camera? (place point up : Vec3 K) : Recovers (Frame.camera? place point up) := by
  unfold Frame.camera?
  refine (recovers_normalize? _).bind fun direction => (recovers_normalize? _).bind fun upward => ?_
  dsimp only
  split
  · exact .error rfl
  · exact (recovers_normalize? _).bind fun right => .ok _

theorem recovers_scale? (x y z : K) : Recovers (Transform.scale? x y z) := by
  unfold Transform.scale? Frame.scaling?
  split
  · exact .error rfl
  · exact .ok _

theorem recovers_rotate? {angle : K} {axis : Vec3 K}
    (h : ¬ (Scalar.isInfinite angle = true ∧ Frame.isShort axis.length = false)) :
    Recovers (Transform.rotate? angle axis) := by
  unfold Transform.rotate? Frame.rotation?
  cases hshort : Frame.isShort axis.length with
  | true => exact .error rfl
  | false =>
      have hangle : Scalar.isInfinite angle = false :=
        Bool.eq_false_iff.mpr fun hangle => h ⟨hangle, hshort⟩
      unfold Frame.sineCosine?
      rw [hangle]
      exact .ok _

theorem recovers_ofMatrix? (m : Matrix4 K) : Recovers (Transform.ofMatrix? m) := by
  unfold Transform.ofMatrix?
  split
  · exact .error rfl
  · split
    · exact .ok _
    · exact .error rfl

omit [Scalar K] in
theorem ofColumnMajor?_isOk (values : List K) (h : values.length = 16) :
    ∃ m, Frame.ofColumnMajor? values = .ok m := by
  match values, h with
  | [a, b, c, d, e, f, g, h, i, j, k, l, m, n, o, p], _ => exact ⟨_, rfl⟩

theorem numbers_of_args {xs : List Float} (h : d.args = xs.map .number) : d.numbers = xs := by
  unfold Directive.numbers
  rw [h, List.filterMap_map]
  exact List.filterMap_some

theorem length_numbers {n : Nat} (hfits : d.name.signature.Fits d.args)
    (hd : d.name.signature = .numbers n) : d.numbers.length = n := by
  rw [hd] at hfits
  generalize hargs : d.args = args at hfits
  cases hfits with
  | numbers xs => rw [numbers_of_args hargs]

theorem length_numbers_of_matrix (hfits : d.name.signature.Fits d.args)
    (hd : d.name.signature = .matrix) : d.numbers.length = 16 := by
  rw [hd] at hfits
  generalize hargs : d.args = args at hfits
  cases hfits with
  | matrix xs hxs => rw [numbers_of_args hargs, hxs]

/-- Whatever the transform of a directive comes to is recovered from, unless it is an endless
turn. -/
theorem recovers_motion? (hfits : d.name.signature.Fits d.args) (hturn : ¬ IsEndlessTurn K d)
    {r : Except (TransformFault K) (Transform K)} (hr : motion? d = some r) : Recovers r := by
  have hmatrix (h : d.name.signature = .matrix) : Recovers
      ((Frame.ofColumnMajor? (d.numbers.map (Scalar.ofFloat (K := K)))).bind
        Transform.ofMatrix?) := by
    obtain ⟨m, hm⟩ := ofColumnMajor?_isOk (d.numbers.map (Scalar.ofFloat (K := K)))
      (by rw [List.length_map, length_numbers_of_matrix hfits h])
    rw [hm]
    exact recovers_ofMatrix? m
  unfold motion? at hr
  split at hr
  · cases hr
    exact .ok _
  · cases hr
    exact recovers_scale? _ _ _
  · rename_i angle x y z hname hnumbers
    cases hr
    exact recovers_rotate? fun h => hturn ⟨hname, angle, x, y, z, hnumbers, h⟩
  · cases hr
    exact (recovers_camera? _ _ _).map _
  · rename_i hd
    cases hr
    exact hmatrix (by rw [hd]; rfl)
  · rename_i hd
    cases hr
    exact hmatrix (by rw [hd]; rfl)
  · cases hr

/-! ## Transforms that are refused -/

theorem motion?_of_isEndlessTurn (h : IsEndlessTurn K d) :
    motion? (K := K) d = some (.error .unboundedAngle) := by
  obtain ⟨hname, angle, x, y, z, hnumbers, hangle, hshort⟩ := h
  unfold motion?
  rw [hname, hnumbers]
  dsimp only
  unfold Transform.rotate? Frame.rotation? Frame.sineCosine?
  rw [hangle, hshort]
  rfl

/-- The transform of a directive is refused exactly if it is an endless turn. -/
theorem motionFault?_eq_some_iff (hfits : d.name.signature.Fits d.args)
    {f : TransformFault K} :
    motionFault? d = some f ↔ f = .unboundedAngle ∧ IsEndlessTurn K d := by
  by_cases hturn : IsEndlessTurn K d
  · unfold motionFault?
    rw [motion?_of_isEndlessTurn hturn]
    exact ⟨fun h => ⟨(Option.some.inj h).symm, hturn⟩, fun h => congrArg some h.1.symm⟩
  · refine iff_of_false ?_ fun h => hturn h.2
    unfold motionFault?
    split
    · rename_i f' hf
      rw [recovers_motion? hfits hturn hf f' rfl]
      exact nofun
    · exact nofun

theorem motionFault?_eq_none_iff (hfits : d.name.signature.Fits d.args) :
    motionFault? (K := K) d = none ↔ ¬ IsEndlessTurn K d := by
  rw [Option.eq_none_iff_forall_ne_some]
  exact ⟨fun h hturn => h _ ((motionFault?_eq_some_iff hfits).mpr ⟨rfl, hturn⟩),
    fun h f hf => h ((motionFault?_eq_some_iff hfits).mp hf).2⟩

end Engine
end SceneReader
