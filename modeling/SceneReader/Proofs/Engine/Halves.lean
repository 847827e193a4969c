import Mathlib.Logic.Function.Iterate
import SceneReader.Proofs.Engine.DefinitionSite

/-!
# The two ends of a motion

The engine holds transforms in pairs, one for each end of a motion, and directives that move
change the active halves of the current pair.  Which halves are active is a part of the pair: it
is saved by blocks, kept where a coordinate system is gone back to, and reset by the world.

A machine acts on transforms of some kind: it has a current one, those that open blocks saved,
those under names and that of the camera.  The engine is the machine for pairs.  Seen at one end
of the motion it is the machine for single transforms that executes the same directives, except
that it does not hear those that move while that end is not active.

**Results.**
* `holdings_of_accepted`: the engine acts on transforms as the machine for pairs.
* `Machine.map_next`: the machine for pairs, seen at one end, for one directive.
* `halves_executeAll`: the same for a row of directives.
* `halves_of_run`: both ends of a run, and that they are the same if no end is chosen.
-/

namespace SceneReader

/-! ## Machines -/

/-- The transforms of some kind that are held: the current one, those that open blocks saved,
the innermost first, those under names, and that of the camera. -/
structure Holdings (T : Type) where
  current : T
  saved : List T
  systems : Table T
  camera : Option T

namespace Holdings

variable {T U : Type}

/-- All transforms changed by a function. -/
def map (f : T → U) (h : Holdings T) : Holdings U :=
  ⟨f h.current, h.saved.map f, h.systems.map f, h.camera.map f⟩

/-- A block is opened. -/
def opened (h : Holdings T) : Holdings T := { h with saved := h.current :: h.saved }

/-- The innermost block is closed. -/
def closed (h : Holdings T) : Holdings T :=
  { h with current := h.saved.headD h.current, saved := h.saved.tail }

/-- All blocks are closed. -/
def ended (h : Holdings T) : Holdings T := closed^[h.saved.length] h

/-- A transform gets a name. -/
def named (name : String) (t : T) (h : Holdings T) : Holdings T :=
  { h with systems := h.systems.put name t }

end Holdings

/-- What a machine does with transforms of some kind. -/
structure Machine (T : Type) where
  identity : T
  invert : T → T
  /-- A transform after a directive that opens and closes no block. -/
  moved : T → Directive → T
  /-- The current transform after one is gone back to. -/
  recalled : T → T → T

namespace Machine

variable {T U : Type}

/-- What is held at the start. -/
def initial (m : Machine T) : Holdings T := ⟨m.identity, [], .empty, none⟩

/-- What is held after the world begins: there is a camera, and nothing is transformed. -/
def begun (m : Machine T) (h : Holdings T) : Holdings T :=
  ⟨m.identity, h.saved,
   (if h.camera.isNone then h.systems.put "camera" m.identity else h.systems).put "world"
     m.identity,
   some (h.camera.getD m.identity)⟩

/-- What is held after a directive. -/
def next (m : Machine T) (h : Holdings T) (d : Directive) : Holdings T :=
  match d.name with
  | .attributeBegin => h.opened
  | .transformBegin => h.opened
  | .objectBegin => h.opened
  | .attributeEnd => h.closed
  | .transformEnd => h.closed
  | .objectEnd => h.closed
  | .worldBegin => m.begun h
  | .worldEnd => h.ended
  | .camera =>
      { h.named "camera" (m.invert h.current) with camera := some (m.invert h.current) }
  | .coordinateSystem => h.named d.subject h.current
  | .coordSysTransform =>
      { h with current :=
          ((h.systems.get? d.subject).map (m.recalled h.current)).getD h.current }
  | _ => { h with current := m.moved h.current d }

end Machine

/-! ## Pairs and single transforms -/

/-- The two ends of a motion. -/
inductive MotionEnd where
  | start
  | stop
deriving DecidableEq

namespace MotionEnd

/-- The end is among the active halves. -/
def isIn (e : MotionEnd) (active : ActiveHalves) : Bool :=
  match e with
  | start => active.hasStart
  | stop => active.hasEnd

/-- The transform of a pair at the end. -/
def half {K : Type} (e : MotionEnd) (t : TransformSet K) : Transform K :=
  match e with
  | start => t.start
  | stop => t.stop

theorem half_select {K : Type} (e : MotionEnd) (f : Transform K → Transform K)
    (t : TransformSet K) :
    e.half (t.select f) = if e.isIn t.active then f (e.half t) else e.half t := by
  cases e <;> rfl

end MotionEnd

/-- Directives that move: they change the active halves of the current pair. -/
def DirectiveName.isMove : DirectiveName → Bool
  | .identity => true
  | .translate => true
  | .scale => true
  | .rotate => true
  | .lookAt => true
  | .transform => true
  | .concatTransform => true
  | _ => false

section Machines

variable {K : Type} [Scalar K]

/-- A single transform after a directive that opens and closes no block. -/
def Transform.moved (t : Transform K) (d : Directive) : Transform K :=
  match d.name with
  | .identity => .identity
  | name =>
      match motion? d with
      | some (.ok u) => if name = .transform then u else t.compose u
      | _ => t

namespace Machine

/-- The machine for single transforms. -/
def single : Machine (Transform K) :=
  ⟨.identity, Transform.invert, Transform.moved, fun _ t => t⟩

/-- The machine for pairs.  What is gone back to takes over the active halves. -/
def paired : Machine (TransformSet K) :=
  ⟨.identity, TransformSet.invert, Engine.moved, fun current t =>
    { t with active := current.active }⟩

end Machine

theorem motion?_eq_none_of_not_isMove {d : Directive} (h : d.name.isMove = false) :
    motion? (K := K) d = none := by
  unfold motion?
  split <;> simp_all [DirectiveName.isMove]

omit [Scalar K] in
theorem TransformSet.select_id (t : TransformSet K) : t.select (fun u => u) = t := by
  unfold TransformSet.select
  simp

/-- What moves changes the active halves of a pair. -/
theorem Engine.moved_eq_select (t : TransformSet K) {d : Directive}
    (h : d.name.isMove = true) : Engine.moved t d = t.select fun u => u.moved d := by
  unfold Engine.moved
  split
  · rename_i hn
    unfold Transform.moved
    rw [hn]
    rfl
  · rename_i hn
    rw [hn] at h
    cases h
  · rename_i hid _
    have hmoved (u : Transform K) : u.moved d =
        match motion? d with
        | some (.ok v) => if d.name = .transform then v else u.compose v
        | _ => u := by
      unfold Transform.moved
      split
      · rename_i hn
        exact (hid hn).elim
      · rfl
    simp only [hmoved]
    cases motion? (K := K) d with
    | none => exact (TransformSet.select_id t).symm
    | some r =>
        cases r with
        | error f => exact (TransformSet.select_id t).symm
        | ok u =>
            by_cases hn : d.name = .transform
            · simp only [hn, if_true]
              rfl
            · simp only [hn, if_false]
              rfl

/-- Any other directive that opens and closes no block leaves both ends where they are. -/
theorem moved_of_not_isMove {d : Directive} (h : d.name.isMove = false) :
    (∀ t : Transform K, t.moved d = t) ∧
      ∀ (e : MotionEnd) (t : TransformSet K), e.half (Engine.moved t d) = e.half t := by
  have hmotion := motion?_eq_none_of_not_isMove (K := K) h
  refine ⟨fun t => ?_, fun e t => ?_⟩
  · unfold Transform.moved
    split
    · rename_i hn
      rw [hn] at h
      cases h
    · rw [hmotion]
  · unfold Engine.moved
    split
    · rename_i hn
      rw [hn] at h
      cases h
    · cases Engine.activeHalves? d.subject <;> cases e <;> rfl
    · rw [hmotion]

/-- A pair is moved at the ends that are active. -/
theorem MotionEnd.half_moved (e : MotionEnd) (t : TransformSet K) (d : Directive) :
    e.half (Engine.moved t d) =
      if d.name.isMove && !e.isIn t.active then e.half t else (e.half t).moved d := by
  cases hmove : d.name.isMove with
  | true =>
      rw [Engine.moved_eq_select t hmove, half_select]
      cases e.isIn t.active <;> rfl
  | false =>
      obtain ⟨hsingle, hpair⟩ := moved_of_not_isMove (K := K) hmove
      rw [hpair, hsingle]
      rfl

namespace Machine

/-- One machine does with the images what another does with the transforms, except for
moving them. -/
structure Carries {T U : Type} (m : Machine T) (n : Machine U) (f : T → U) : Prop where
  identity : f m.identity = n.identity
  invert : ∀ t, f (m.invert t) = n.invert (f t)
  recalled : ∀ t u, f (m.recalled t u) = n.recalled (f t) (f u)

end Machine

/-! ## One machine seen through another -/

namespace Holdings

variable {T U : Type}

theorem map_opened (f : T → U) (h : Holdings T) : h.opened.map f = (h.map f).opened := rfl

theorem map_closed (f : T → U) (h : Holdings T) : h.closed.map f = (h.map f).closed := by
  unfold closed map
  cases h.saved <;> rfl

theorem map_ended (f : T → U) (h : Holdings T) : h.ended.map f = (h.map f).ended := by
  have hlen : (h.map f).saved.length = h.saved.length := List.length_map _
  unfold ended
  rw [hlen]
  exact Function.Semiconj.iterate_right (map_closed f) h.saved.length h

theorem map_named (f : T → U) (name : String) (t : T) (h : Holdings T) :
    (h.named name t).map f = (h.map f).named name (f t) := by
  unfold named map
  rw [Table.put_map]

end Holdings

namespace Machine

variable {T U : Type} {m : Machine T} {n : Machine U} {f : T → U}

theorem Carries.map_begun (hf : Carries m n f) (h : Holdings T) :
    (m.begun h).map f = n.begun (h.map f) := by
  unfold begun Holdings.map
  rw [← hf.identity]
  cases h.camera with
  | none => simp [Table.put_map]
  | some t => simp [Table.put_map]

/-- A directive does with the images what it does with the transforms, if it moves them
alike. -/
theorem Carries.map_next (hf : Carries m n f) (h : Holdings T) {d : Directive}
    (hd : f (m.moved h.current d) = n.moved (f h.current) d) :
    (m.next h d).map f = n.next (h.map f) d := by
  unfold next
  split
  · exact h.map_opened f
  · exact h.map_opened f
  · exact h.map_opened f
  · exact h.map_closed f
  · exact h.map_closed f
  · exact h.map_closed f
  · exact hf.map_begun h
  · exact h.map_ended f
  · unfold Holdings.named Holdings.map
    dsimp only
    rw [Option.map_some, ← hf.invert, Table.put_map]
  · exact h.map_named f d.subject h.current
  · unfold Holdings.map
    dsimp only
    rw [Table.get?_map]
    cases h.systems.get? d.subject with
    | none => rfl
    | some t => rw [Option.map_some, Option.getD_some, hf.recalled]; rfl
  · unfold Holdings.map
    dsimp only
    rw [hd]

/-- The machine for single transforms does at each end what the one for pairs does. -/
theorem carries_half (e : MotionEnd) :
    Carries (paired (K := K)) single e.half where
  identity := by cases e <;> rfl
  invert t := by cases e <;> rfl
  recalled t u := by cases e <;> rfl

theorem next_of_isMove (m : Machine T) (h : Holdings T) {d : Directive}
    (hd : d.name.isMove = true) : m.next h d = { h with current := m.moved h.current d } := by
  unfold next
  split <;> simp_all [DirectiveName.isMove]

/-- Seen at one end, the machine for pairs does what the one for single transforms does, unless
the directive moves and the end is not active. -/
theorem map_next (e : MotionEnd) (h : Holdings (TransformSet K)) (d : Directive) :
    (paired.next h d).map e.half =
      if d.name.isMove && !e.isIn h.current.active then h.map e.half
      else single.next (h.map e.half) d := by
  have hmoved : e.half (paired.moved h.current d) = _ := e.half_moved h.current d
  split
  · rename_i hskip
    rw [if_pos hskip] at hmoved
    rw [Bool.and_eq_true] at hskip
    rw [next_of_isMove _ _ hskip.1]
    unfold Holdings.map
    rw [hmoved]
  · rename_i hheard
    rw [if_neg hheard] at hmoved
    exact (carries_half e).map_next h hmoved

end Machine

end Machines

/-! ## The engine is the machine for pairs -/

variable {K : Type}

/-- The transforms that the engine holds. -/
def EngineState.holdings (s : EngineState K) : Holdings (TransformSet K) :=
  ⟨s.ctm, s.scopes.map (·.ctm), s.coordinateSystems, s.options.cameraToWorld⟩

namespace Engine

theorem holdings_of_recorded {s s' : EngineState K} {es : List (Event K)}
    (h : Recorded s s' es) : s'.holdings = s.holdings := by
  cases h
  rfl

theorem holdings_of_closed {s s' : EngineState K} {es : List (Event K)} (h : Closed s s' es) :
    s'.holdings = s.holdings.closed := by
  cases h with
  | nothing hs =>
      unfold EngineState.holdings Holdings.closed
      rw [hs]
      rfl
  | attributes scope rest hs hk =>
      unfold EngineState.holdings Holdings.closed restoreGraphics
      rw [hs]
      split <;> rfl
  | object scope rest o hs hk ho =>
      unfold EngineState.holdings Holdings.closed
      rw [hs]
      rfl
  | plain scope rest hs hk ho =>
      unfold EngineState.holdings Holdings.closed
      rw [hs]
      rfl

theorem holdings_closeScopes (n : Nat) (s : EngineState K) :
    ((closeScopes n).run s).state.holdings = Holdings.closed^[n] s.holdings := by
  induction n generalizing s with
  | zero => rfl
  | succ n ih =>
      change ((closeScopes n).run (closeScope.run s).state).state.holdings = _
      rw [ih, holdings_of_closed (closed_closeScope s)]
      rfl

theorem holdings_endWorld (span : Span) (s : EngineState K) :
    ((endWorld span).run s).state.holdings = s.holdings.ended := by
  have hlen : s.holdings.saved.length = s.scopes.length := List.length_map _
  unfold endWorld Holdings.ended
  rw [Action.run_state_bind, hlen]
  by_cases h : s.scopes.length ≠ 0
  · rw [if_pos h]
    exact holdings_closeScopes s.scopes.length s
  · rw [if_neg h, Decidable.not_not.mp h]
    rfl

/-- Finishing closes the blocks of a world that is still open. -/
theorem holdings_finish (s : EngineState K) :
    (finish.run s).state.holdings =
      if s.phase = .world then s.holdings.ended else s.holdings := by
  unfold finish
  rw [Action.run_state_bind]
  cases hp : s.phase with
  | options => rfl
  | ended => rfl
  | world => exact holdings_endWorld .unknown s

section Steps

variable [Scalar K] {c : EngineContext} {d : Directive} {s : EngineState K}

theorem holdings_worldBegun (s : EngineState K) :
    (worldBegun s).holdings = Machine.paired.begun s.holdings := by
  unfold worldBegun worldSystems cameraOptions EngineState.holdings Machine.begun
  cases hcam : s.options.cameraToWorld with
  | none => rfl
  | some t =>
      simp only [Option.isNone_some, Bool.false_eq_true, if_false, hcam, Option.getD_some]
      rfl

theorem holdings_placeCamera (c : EngineContext) (d : Directive) (s : EngineState K) :
    ((placeCamera c d).run s).state.holdings =
      { s.holdings.named "camera" s.ctm.invert with camera := some s.ctm.invert } := by
  have hrun : ((placeCamera c d).run s).state.holdings =
      let h := ((registerFiles c d []).run s).state.holdings
      { h.named "camera" h.current.invert with camera := some h.current.invert } := rfl
  rw [hrun, holdings_of_recorded (records_registerFiles c d [] s)]
  rfl

omit [Scalar K] in
theorem holdings_useCoordinateSystem (c : EngineContext) (d : Directive) (s : EngineState K) :
    ((useCoordinateSystem c d).run s).state.holdings =
      { s.holdings with current :=
          ((s.coordinateSystems.get? d.subject).map fun t =>
            { t with active := s.ctm.active }).getD s.ctm } := by
  unfold useCoordinateSystem
  rw [Action.run_state_bind]
  cases s.coordinateSystems.get? d.subject <;> rfl

/-- Directives that do more to the transforms than move the current one. -/
def isHolding : DirectiveName → Bool
  | .attributeBegin => true
  | .attributeEnd => true
  | .transformBegin => true
  | .transformEnd => true
  | .objectBegin => true
  | .objectEnd => true
  | .worldBegin => true
  | .worldEnd => true
  | .camera => true
  | .coordinateSystem => true
  | .coordSysTransform => true
  | _ => false

/-- All other directives leave alone what blocks, names and the camera hold. -/
theorem kept_of_effect_of_not_isHolding {s' : EngineState K} {es : List (Event K)}
    (he : Effect d s s' es) (hd : isHolding d.name = false) :
    { s'.holdings with current := s.ctm } = s.holdings := by
  have holding {n : DirectiveName} (hn : d.name = n) (h : isHolding n = true) : False := by
    rw [hn, h] at hd
    cases hd
  cases he with
  | skipped hn => rfl
  | composed hn t ht => rfl
  | replaced hn t ht => rfl
  | recalled hn t ht => exact (holding hn rfl).elim
  | activated hn halves hh => rfl
  | saved hn => exact (holding hn rfl).elim
  | timed hn a b => rfl
  | setting hn kind setting s₁ es hr =>
      cases hr
      cases kind <;> rfl
  | camera hn setting s₁ es hr => exact (holding hn rfl).elim
  | medium hn id s₁ es hr =>
      cases hr
      rfl
  | painted hn g s₁ es hr hg =>
      cases hr
      rfl
  | worldBegin hn => exact (holding hn rfl).elim
  | worldEnd hn s₁ es hc => exact (holding hn rfl).elim
  | opened kind hk hn => exact (holding hn (by cases kind <;> rfl)).elim
  | closed kind hn s₁ es hc => exact (holding hn (by cases kind <;> rfl)).elim
  | objectBegin hn => exact (holding hn rfl).elim
  | placed hn o ho => rfl
  | light hn r s₁ es hr hmem =>
      cases hr
      rfl
  | areaLight hn r s₁ es hr hmem =>
      cases hr
      rfl
  | stated hn r s₁ es hr ho =>
      cases hr
      rfl
  | captured hn r s₁ es hr o ho =>
      cases hr
      rfl
  | directories hn dirs => rfl

/-- The engine acts on transforms as the machine for pairs. -/
theorem holdings_of_accepted (hacc : (execute c d s).rejection = none) :
    (execute c d s).state.holdings = Machine.paired.next s.holdings d := by
  obtain ⟨hp, hs, -⟩ := performed_of_accepted hacc
  have opener (kind : ScopeKind) (hk : kind ≠ .object) (hd : d.name = kind.opener) :
      (execute c d s).state.holdings = s.holdings.opened := by
    rw [state_of_opener hacc hk hd]
    rfl
  have closer (kind : ScopeKind) (hd : d.name = kind.closer) :
      (execute c d s).state.holdings = s.holdings.closed := by
    obtain ⟨scope, rest, es, -, -, hc⟩ := closed_of_closer hacc hd
    have hholdings := holdings_of_closed hc
    exact hholdings
  unfold Machine.next
  split
  · rename_i hn
    exact opener .attributes nofun hn
  · rename_i hn
    exact opener .transform nofun hn
  · rename_i hn
    rw [(state_of_objectBegin hacc hn).2]
    rfl
  · rename_i hn
    exact closer .attributes hn
  · rename_i hn
    exact closer .transform hn
  · rename_i hn
    exact closer .object hn
  · rename_i hn
    rw [hs, perform, hn]
    dsimp only
    rw [(beginWorld_run _).1]
    exact holdings_worldBegun _
  · rename_i hn
    rw [hs, perform, hn]
    exact holdings_endWorld _ _
  · rename_i hn
    rw [hs, perform, hn]
    exact holdings_placeCamera c d _
  · rename_i hn
    rw [hs, perform, hn]
    rfl
  · rename_i hn
    rw [hs, perform, hn]
    exact holdings_useCoordinateSystem c d _
  · rename_i hab htb hob hae hte hoe hwb hwe hcam hcs hcst
    have hholding : isHolding d.name = false := by
      unfold isHolding
      split <;> first | rfl | contradiction
    have hctm : (execute c d s).state.ctm = moved s.ctm d := by
      refine ctm_eq_moved hacc (fun kind => ?_) hwb hwe hcst
      cases kind with
      | attributes => exact ⟨hab, hae⟩
      | transform => exact ⟨htb, hte⟩
      | object => exact ⟨hob, hoe⟩
    obtain ⟨-, es, he, -⟩ := effect_of_accepted hacc
    have hkept : (execute c d s).state.holdings =
        { s.holdings with current := (execute c d s).state.ctm } :=
      congrArg (fun h : Holdings (TransformSet K) =>
        { h with current := (execute c d s).state.ctm })
        (kept_of_effect_of_not_isHolding he hholding)
    rw [hkept, hctm]
    rfl

/-! ## What is heard at one end -/

/-- The directives that are heard at one end of the motion: those that move are not heard while
the end is not active. -/
def heard (e : MotionEnd) (c : EngineContext) : List Directive → EngineState K → List Directive
  | [], _ => []
  | d :: ds, s =>
      if d.name.isMove && !e.isIn s.ctm.active then heard e c ds (execute c d s).state
      else d :: heard e c ds (execute c d s).state

/-- One end of what the engine holds after accepted directives is what the machine for single
transforms holds after those that it hears. -/
theorem halves_executeAll (e : MotionEnd) {ds : List Directive}
    (hacc : (executeAll c ds s).rejection = none) :
    (executeAll c ds s).state.holdings.map e.half =
      (heard e c ds s).foldl Machine.single.next (s.holdings.map e.half) := by
  induction ds generalizing s with
  | nil => rfl
  | cons d ds ih =>
      obtain ⟨hd, hds⟩ := accepted_cons_iff.mp hacc
      have hstep : (execute c d s).state.holdings.map e.half =
          if d.name.isMove && !e.isIn s.ctm.active then s.holdings.map e.half
          else Machine.single.next (s.holdings.map e.half) d := by
        rw [holdings_of_accepted hd]
        exact Machine.map_next e s.holdings d
      rw [state_cons hd, ih hds, hstep, heard]
      split <;> rfl

/-! ## The ends of a run -/

/-- Both ends are the same transform, and both are active. -/
def IsStill (t : TransformSet K) : Prop := t.start = t.stop ∧ t.active = .all

theorem isCarried_isStill : IsCarried (IsStill (K := K)) where
  identity := ⟨rfl, rfl⟩
  recalled h hu := ⟨h.1, hu.2⟩
  invert h := ⟨congrArg Transform.invert h.1, h.2⟩
  relativeTo {t base} h hb := by
    refine ⟨?_, h.2⟩
    unfold TransformSet.relativeTo
    rw [h.1, hb.1]

omit [Scalar K] in
theorem IsStill.select {t : TransformSet K} (h : IsStill t) (f : Transform K → Transform K) :
    IsStill (t.select f) := by
  rw [TransformSet.select_all f t h.2, h.1]
  exact ⟨rfl, rfl⟩

/-- The keyword chooses one of the two ends. -/
def ChoosesEnd (d : Directive) : Prop :=
  d.name = .activeTransform ∧ (d.subject = "StartTime" ∨ d.subject = "EndTime")

/-- Where no end is chosen both move alike. -/
theorem IsStill.of_movesTo {t u : TransformSet K} (h : IsStill t) (hd : ¬ ChoosesEnd d)
    (hu : MovesTo d t u) : IsStill u := by
  cases hu with
  | composed v hv => exact h.select _
  | replaced v hv => exact h.select _
  | activated halves hactive hhalves =>
      refine ⟨h.1, ?_⟩
      unfold activeHalves? at hhalves
      split at hhalves
      · exact (Option.some.inj hhalves).symm
      · rename_i hs
        exact (hd ⟨hactive, Or.inl hs⟩).elim
      · rename_i hs
        exact (hd ⟨hactive, Or.inr hs⟩).elim
      · cases hhalves

/-- In every run, after any number of accepted directives, each end of the transforms that are
held, with the inverses that they carry, is what the machine for single transforms holds after
the directives that are heard at that end; the end of the run closes the blocks of both.  Where
no directive chooses an end, the two ends of every transform that is held or told are the
same. -/
theorem halves_of_run (c : EngineContext) (ds : List Directive) (dirs : DirectoryStack) :
    ((started (K := K) c ds dirs).rejection = none → ∀ e : MotionEnd,
      (started (K := K) c ds dirs).state.holdings.map e.half =
          (heard e c ds { EngineState.initial (K := K) dirs with begun := true }).foldl
            Machine.single.next Machine.single.initial ∧
        (run (K := K) c ds (.initial dirs)).state.holdings.map e.half =
          if (started (K := K) c ds dirs).state.phase = .world
          then ((started (K := K) c ds dirs).state.holdings.map e.half).ended
          else (started (K := K) c ds dirs).state.holdings.map e.half) ∧
      ((∀ d ∈ ds, ¬ ChoosesEnd d) → ∀ t : TransformSet K,
        t ∈ (started c ds dirs).state.held ∨ t ∈ (run c ds (.initial dirs)).state.held ∨
          (∃ e ∈ (run (K := K) c ds (.initial dirs)).events, t ∈ e.told) → t.start = t.stop) := by
  refine ⟨fun hacc e => ⟨?_, ?_⟩, fun hds t ht => ?_⟩
  · rw [started_eq] at hacc ⊢
    rw [halves_executeAll e hacc]
    cases e <;> rfl
  · rw [(run_of_started hacc).1, holdings_finish]
    split
    · exact Holdings.map_ended _ _
    · rfl
  · have hmoved : ∀ d ∈ ds, ∀ t u : TransformSet K, IsStill t → MovesTo d t u → IsStill u :=
      fun d hd t u h hu => h.of_movesTo (hds d hd) hu
    obtain ⟨hstarted, -⟩ := allHeld_started (c := c) isCarried_isStill hmoved dirs
    obtain ⟨hrun, htold⟩ := allHeld_run (K := K) (c := c) isCarried_isStill hmoved dirs
    rcases ht with ht | ht | ⟨e, he, ht⟩
    · exact (hstarted.of_mem_held ht).1
    · exact (hrun.of_mem_held ht).1
    · exact (htold e he t ht).1

end Steps

/-- The end of the motion is chosen. -/
def endChosen : Directive := ⟨.activeTransform, [.text "EndTime"], .empty, none⟩

/-- A step that only the end of the motion hears leaves the start where it was; a step that
both ends hear takes both. -/
theorem halves_of_run_endChosen :
    let c : EngineContext := ⟨.rooted [], [], none⟩
    let s : EngineState ℝ := { EngineState.initial .empty with begun := true }
    (started (K := ℝ) c [endChosen, stepAside] .empty).rejection = none ∧
      heard .start c [endChosen, stepAside] s = [endChosen] ∧
      heard .stop c [endChosen, stepAside] s = [endChosen, stepAside] ∧
      (started (K := ℝ) c [endChosen, stepAside] .empty).state.ctm.start = .identity ∧
      (∀ d ∈ [stepAside], ¬ ChoosesEnd d) ∧
      (started (K := ℝ) c [stepAside] .empty).state.ctm.start =
        (started (K := ℝ) c [stepAside] .empty).state.ctm.stop := by
  intro c s
  have hacc : (started (K := ℝ) c [endChosen, stepAside] .empty).rejection = none := rfl
  have hstart : heard .start c [endChosen, stepAside] s = [endChosen] := rfl
  have hone : ∀ d ∈ [stepAside], ¬ ChoosesEnd d := by
    simp [ChoosesEnd, stepAside]
  obtain ⟨hhalves, -⟩ := halves_of_run (K := ℝ) c [endChosen, stepAside] .empty
  obtain ⟨hmachine, -⟩ := hhalves hacc .start
  rw [hstart] at hmachine
  obtain ⟨-, hstill⟩ := halves_of_run (K := ℝ) c [stepAside] .empty
  exact ⟨hacc, hstart, rfl, congrArg Holdings.current hmachine, hone,
    hstill hone _ (Or.inl List.mem_cons_self)⟩

end Engine
end SceneReader
