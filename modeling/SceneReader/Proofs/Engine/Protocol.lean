import SceneReader.Proofs.Engine.Acceptance

/-!
# What targets may rely on

A target is told of a scene event by event.  It may rely on an order in them: the start
comes first and the finish last; blocks lie inside each other; the definitions of objects
do not, and no block, shape or placed object is reported inside of them; and shapes,
lights and objects come between the begin and the end of the world.

Each part of the order is read by a small automaton that stops at an event that may not
come.  What a directive reports takes each automaton from what the state holds before it
to what the state holds after it.

Finishing closes the blocks that are open in the world, and those that are open in the
options it leaves open.

**Results.**
* `Tells.trans`, `tells_perform`: one directive after the other, and one directive.
* `tells_executeAll`: a row of directives.
* `run_protocol`: the order of the events of a run, and when blocks are balanced.
-/

namespace SceneReader

variable {K : Type}

/-! ## The order of events -/

namespace Event

/-- The start or the finish. -/
def isEdge : Event K → Bool
  | .begin _ => true
  | .finish => true
  | _ => false

/-- An event that no part of the order is about. -/
def isFree : Event K → Bool
  | .setting _ _ => true
  | .camera _ _ => true
  | .declare _ => true
  | _ => false

/-- The open blocks after an event, the innermost first.  Only the innermost block can be
ended. -/
def blocksAfter? (blocks : List ScopeKind) : Event K → Option (List ScopeKind)
  | .beginScope kind _ => some (kind :: blocks)
  | .endScope kind =>
      match blocks with
      | [] => none
      | top :: rest => if top = kind then some rest else none
  | _ => some blocks

/-- Whether an object is open after an event.  An open object admits no other one, and no
block, shape or placed object. -/
def objectAfter? (isOpen : Bool) : Event K → Option Bool
  | .objectBegin _ => if isOpen then none else some true
  | .objectEnd _ => if isOpen then some false else none
  | .beginScope _ _ => if isOpen then none else some false
  | .endScope _ => if isOpen then none else some false
  | .shape _ => if isOpen then none else some false
  | .placed _ _ => if isOpen then none else some false
  | _ => some isOpen

/-- The phase after an event.  The world begins and ends once, and shapes, lights and
objects belong into it. -/
def phaseAfter? (phase : Phase) : Event K → Option Phase
  | .worldBegin _ => if phase = .options then some .world else none
  | .worldEnd => if phase = .world then some .ended else none
  | .shape _ => if phase = .world then some .world else none
  | .light _ _ => if phase = .world then some .world else none
  | .objectBegin _ => if phase = .world then some .world else none
  | .objectEnd _ => if phase = .world then some .world else none
  | .placed _ _ => if phase = .world then some .world else none
  | _ => some phase

end Event

/-- Every block is ended, and none before the blocks inside of it. -/
def BlocksBalanced (es : List (Event K)) : Prop :=
  es.foldlM Event.blocksAfter? [] = some []

/-- The order of events, apart from blocks; the flag says that there is a world. -/
structure FollowsProtocol (source : Option String) (hasWorld : Bool) (es : List (Event K)) :
    Prop where
  edges : ∃ inner, es = .begin source :: inner ++ [.finish] ∧ ∀ e ∈ inner, e.isEdge = false
  blocks : (es.foldlM Event.blocksAfter? []).isSome
  objects : es.foldlM Event.objectAfter? false = some false
  world : es.foldlM Event.phaseAfter? .options = some (if hasWorld then .ended else .options)

namespace Engine

/-- The kinds of the open blocks that targets know of. -/
def toldBlocks (s : EngineState K) : List ScopeKind :=
  (s.scopes.filter (·.reported)).map (·.kind)

/-- The events take what targets know from one state to another. -/
structure Tells (s s' : EngineState K) (es : List (Event K)) : Prop where
  begun : s'.begun = s.begun
  blocks : es.foldlM Event.blocksAfter? (toldBlocks s) = some (toldBlocks s')
  objects : es.foldlM Event.objectAfter? s.openObject.isSome = some s'.openObject.isSome
  world : es.foldlM Event.phaseAfter? s.phase = some s'.phase
  inner : ∀ e ∈ es, e.isEdge = false

namespace Tells

theorem refl (s : EngineState K) : Tells s s [] :=
  ⟨rfl, rfl, rfl, rfl, by simp⟩

theorem trans {s s₁ s₂ : EngineState K} {es₁ es₂ : List (Event K)} (h₁ : Tells s s₁ es₁)
    (h₂ : Tells s₁ s₂ es₂) : Tells s s₂ (es₁ ++ es₂) := by
  refine ⟨h₂.begun.trans h₁.begun, ?_, ?_, ?_, ?_⟩
  · rw [List.foldlM_append, h₁.blocks]
    exact h₂.blocks
  · rw [List.foldlM_append, h₁.objects]
    exact h₂.objects
  · rw [List.foldlM_append, h₁.world]
    exact h₂.world
  · exact fun e he => (List.mem_append.mp he).elim (h₁.inner e) (h₂.inner e)

/-- Events that no part of the order is about tell nothing. -/
theorem free (s : EngineState K) {es : List (Event K)} (h : ∀ e ∈ es, e.isFree = true) :
    Tells s s es := by
  induction es with
  | nil => exact refl s
  | cons e es ih =>
      obtain ⟨he, hes⟩ := List.forall_mem_cons.mp h
      have hone : Tells s s [e] := by
        cases e with
        | setting kind setting => exact ⟨rfl, rfl, rfl, rfl, by simp [Event.isEdge]⟩
        | camera setting cameraToWorld => exact ⟨rfl, rfl, rfl, rfl, by simp [Event.isEdge]⟩
        | declare resource => exact ⟨rfl, rfl, rfl, rfl, by simp [Event.isEdge]⟩
        | _ => cases he
      exact hone.trans (ih hes)

/-- What targets know is the same in both states. -/
theorem of_framed {s s₁ s' : EngineState K} {es : List (Event K)} (hf : Framed s₁ s')
    (h : Tells s s₁ es) : Tells s s' es := by
  obtain ⟨hbegun, hblocks, hobjects, hworld, hinner⟩ := h
  refine ⟨hf.begun.trans hbegun, ?_, ?_, ?_, hinner⟩
  · unfold toldBlocks at hblocks ⊢
    rw [hf.scopes]
    exact hblocks
  · rw [hf.openObject]
    exact hobjects
  · rw [hf.phase]
    exact hworld

theorem framed {s s' : EngineState K} {es : List (Event K)} (hf : Framed s s')
    (h : ∀ e ∈ es, e.isFree = true) : Tells s s' es :=
  of_framed hf (free s h)

end Tells

/-! ## Blocks and the world -/

theorem tells_opened {kind : ScopeKind} (hk : kind ≠ .object) (s : EngineState K) :
    Tells s (opened kind s) (openingEvents kind s) := by
  cases ho : s.openObject with
  | none =>
      have hr : isReported kind s = true := by simp [isReported, hk, ho]
      refine ⟨rfl, ?_, ?_, ?_, ?_⟩ <;>
        simp [openingEvents, opened, toldBlocks, hr, ho, Event.blocksAfter?, Event.objectAfter?,
          Event.phaseAfter?, Event.isEdge]
  | some o =>
      have hr : isReported kind s = false := by simp [isReported, ho]
      refine ⟨rfl, ?_, ?_, ?_, ?_⟩ <;> simp [openingEvents, opened, toldBlocks, hr, ho]

/-- A block that is no object ends. -/
theorem tells_closing {s s' : EngineState K} {scope : Scope K} {rest : List (Scope K)}
    (ha : IsArranged s) (hs : s.scopes = scope :: rest) (hk : scope.kind ≠ .object)
    (hbegun : s'.begun = s.begun) (hphase : s'.phase = s.phase) (hscopes : s'.scopes = rest)
    (hopen : s'.openObject.isSome = s.openObject.isSome) :
    Tells s s' (closingEvents scope) := by
  unfold IsArranged at ha
  rw [hs] at ha
  refine ⟨hbegun, ?_, ?_, ?_, ?_⟩
  all_goals
    generalize s.openObject.isSome = isOpen at ha hopen
    cases ha with
    | told _ hr _ =>
        simp [closingEvents, toldBlocks, hr, hs, hphase, hscopes, hopen, Event.blocksAfter?,
          Event.objectAfter?, Event.phaseAfter?, Event.isEdge]
    | object hobject _ _ => exact absurd hobject hk
    | inside _ hr _ => simp [closingEvents, toldBlocks, hr, hs, hphase, hscopes, hopen]

theorem tells_closed {s s' : EngineState K} {es : List (Event K)} (h : Closed s s' es)
    (ha : IsArranged s) (hworld : s.openObject.isSome → s.phase = .world) : Tells s s' es := by
  obtain ⟨hbegun, hphase, -⟩ := h.unchanged
  have hscopes := h.scopes_eq
  cases h with
  | nothing hs => exact .refl s
  | attributes scope rest hs hk =>
      rw [hs] at hscopes
      refine tells_closing ha hs (by simp [hk]) hbegun hphase hscopes ?_
      unfold restoreGraphics
      split <;> rfl
  | object scope rest o hs hk ho =>
      have hr : scope.reported = false := by
        unfold IsArranged at ha
        rw [hs, ho] at ha
        cases ha with
        | object _ hr _ => exact hr
        | inside _ hr _ => exact hr
      have hphase := hworld (by simp [ho])
      refine ⟨rfl, ?_, ?_, ?_, ?_⟩ <;>
        simp [closingEvents, toldBlocks, hr, hs, ho, hphase, Event.blocksAfter?,
          Event.objectAfter?, Event.phaseAfter?, Event.isEdge]
  | plain scope rest hs hk ho =>
      have hobject : scope.kind ≠ .object := by
        intro hobject
        unfold IsArranged at ha
        rw [hs, ho hobject] at ha
        cases ha with
        | told hne _ _ => exact hne hobject
      exact tells_closing ha hs hobject rfl rfl rfl rfl

theorem tells_closedAll {s s' : EngineState K} {es : List (Event K)} (h : ClosedAll s s' es)
    (ha : IsArranged s) (hphase : s.phase = .world) : Tells s s' es := by
  induction h with
  | nil s => exact .refl s
  | cons first rest ih =>
      exact (tells_closed first ha fun _ => hphase).trans
        (ih (first.arranged ha) (first.phase_eq.trans hphase))

/-- The world ends, and what is open in it is closed before. -/
theorem tells_endWorld {s : EngineState K} (ha : IsArranged s) (hphase : s.phase = .world)
    (span : Span) : Tells s ((endWorld span).run s).state ((endWorld span).run s).events := by
  obtain ⟨s₁, es, hc, hs, he⟩ := endWorld_run span s
  rw [hs, he]
  have hclosed := tells_closedAll hc ha hphase
  have hworld : s₁.phase = .world := hc.unchanged.2.1.trans hphase
  refine hclosed.trans ⟨rfl, rfl, rfl, ?_, by simp [Event.isEdge]⟩
  simp [Event.phaseAfter?, hworld]

/-! ## Directives -/

variable [Scalar K] {c : EngineContext} {d : Directive} {s : EngineState K}

omit [Scalar K] in
theorem isFree_of_recorded {s₁ : EngineState K} {es : List (Event K)} (hr : Recorded s s₁ es) :
    ∀ e ∈ es, e.isFree = true := by
  obtain ⟨made, files, meshes, declared, -, -⟩ := hr
  intro e he
  obtain ⟨r, -, rfl⟩ := List.mem_map.mp he
  rfl

omit [Scalar K] in
/-- Resources are put on record, and then something of the world is reported. -/
theorem tells_recorded {s₁ s' : EngineState K} {es : List (Event K)} {e : Event K}
    (hr : Recorded s s₁ es) (hf : Framed s s') (hblocks : ∀ b, e.blocksAfter? b = some b)
    (hobject : e.objectAfter? s.openObject.isSome = some s.openObject.isSome)
    (hphase : e.phaseAfter? s.phase = some s.phase) (hedge : e.isEdge = false) :
    Tells s s' (es ++ [e]) := by
  refine .of_framed hf ((Tells.free s (isFree_of_recorded hr)).trans ⟨rfl, ?_, ?_, ?_, ?_⟩)
  · simp [hblocks]
  · simp [hobject]
  · simp [hphase]
  · simpa using hedge

theorem tells_of_effect {s' : EngineState K} {es : List (Event K)} (hp : permit c s d = .ok ())
    (he : Effect d s s' es) (hd : isStructural d.name = false) : Tells s s' es := by
  have hf := framed_of_effect he hd
  have structural {n : DirectiveName} (hn : d.name = n) (h : isStructural n = true) : False := by
    rw [hn, h] at hd
    cases hd
  have hworld {n : DirectiveName} (hn : d.name = n) (h : n.placement = .worldOnly) :
      s.phase = .world := phase_of_permit_worldOnly hp (by rw [hn, h])
  cases he with
  | skipped _ => exact .framed hf (by simp)
  | composed _ t ht => exact .framed hf (by simp)
  | replaced _ t ht => exact .framed hf (by simp)
  | recalled _ t ht => exact .framed hf (by simp)
  | activated _ halves _ => exact .framed hf (by simp)
  | saved _ => exact .framed hf (by simp)
  | timed _ a b => exact .framed hf (by simp)
  | setting _ kind setting s₁ es hr =>
      exact tells_recorded hr hf (fun _ => rfl) rfl rfl rfl
  | camera _ setting s₁ es hr => exact tells_recorded hr hf (fun _ => rfl) rfl rfl rfl
  | medium _ id s₁ es hr => exact .framed hf (isFree_of_recorded hr)
  | painted _ g s₁ es hr hg => exact .framed hf (isFree_of_recorded hr)
  | worldBegin hn => exact (structural hn rfl).elim
  | worldEnd hn s₁ es hc => exact (structural hn rfl).elim
  | opened kind hk hn => exact (structural hn (by cases kind <;> rfl)).elim
  | closed kind hn s₁ es hc => exact (structural hn (by cases kind <;> rfl)).elim
  | objectBegin hn => exact (structural hn rfl).elim
  | placed hn o ho =>
      have hnone := openObject_of_permit_objectInstance hp hn
      have hphase := hworld hn rfl
      exact tells_recorded (.refl s) hf (fun _ => rfl) (by simp [Event.objectAfter?, hnone])
        (by simp [Event.phaseAfter?, hphase]) rfl
  | light hn r s₁ es hr hmem =>
      have hphase := hworld hn rfl
      exact tells_recorded hr hf (fun _ => rfl) rfl (by simp [Event.phaseAfter?, hphase]) rfl
  | areaLight _ r s₁ es hr hmem => exact .framed hf (isFree_of_recorded hr)
  | stated hn r s₁ es hr ho =>
      have hphase := hworld hn rfl
      exact tells_recorded hr hf (fun _ => rfl) (by simp [Event.objectAfter?, ho])
        (by simp [Event.phaseAfter?, hphase]) rfl
  | captured _ r s₁ es hr o ho => exact .framed hf (isFree_of_recorded hr)
  | directories hn dirs =>
      rcases hn with hn | hn
      · exact (structural hn rfl).elim
      · exact (structural hn rfl).elim

end Engine

namespace Stage

/-- What holds of every stage that names lead to: objects are open in the world only, and
no block is open after its end. -/
structure IsSound (q : Stage) : Prop where
  object : q.inObject = true → q.phase = .world
  ended : q.phase = .ended → q.blocks = []

theorem isSound_start (depth : Nat) : IsSound ⟨.options, [], false, depth⟩ := ⟨nofun, nofun⟩

theorem phase_of_phaseCode? {phase : Phase} {name : DirectiveName}
    (h : phaseCode? phase name = none) :
    (phase = .ended → name.placement = .anywhere) ∧
      (phase = .options → name.placement ≠ .worldOnly) ∧
      (name.placement = .worldOnly → phase = .world) := by
  unfold phaseCode? at h
  cases hplace : name.placement <;> cases phase <;> simp [hplace] at h ⊢

theorem IsSound.next {q : Stage} {name : DirectiveName} (h : q.IsSound)
    (hcode : q.code? name = none) : (q.next name).IsSound := by
  obtain ⟨hended, -, hworld⟩ := phase_of_phaseCode? (Option.or_eq_none_iff.mp hcode).1
  obtain ⟨hobject, hblocks⟩ := h
  have notEnded (hplace : name.placement ≠ .anywhere) : q.phase ≠ .ended :=
    fun he => hplace (hended he)
  cases name with
  | worldBegin => exact ⟨fun _ => rfl, nofun⟩
  | worldEnd => exact ⟨nofun, fun _ => rfl⟩
  | attributeBegin => exact ⟨hobject, fun he => absurd he (notEnded (by decide))⟩
  | attributeEnd => exact ⟨hobject, fun he => absurd he (notEnded (by decide))⟩
  | transformBegin => exact ⟨hobject, fun he => absurd he (notEnded (by decide))⟩
  | transformEnd => exact ⟨hobject, fun he => absurd he (notEnded (by decide))⟩
  | objectBegin => exact ⟨fun _ => hworld rfl, fun he => absurd he (notEnded (by decide))⟩
  | objectEnd => exact ⟨nofun, fun he => absurd he (notEnded (by decide))⟩
  | _ => exact ⟨hobject, hblocks⟩

variable {q : Stage} {names : List DirectiveName}

theorem refusal?_cons_eq_none {name : DirectiveName} (h : q.refusal? (name :: names) = none) :
    q.code? name = none ∧ (q.next name).refusal? names = none := by
  unfold refusal? at h
  split at h
  · cases h
  · rename_i hcode
    exact ⟨hcode, Option.map_eq_none_iff.mp h⟩

theorem IsSound.foldl (h : q.IsSound) (hnames : q.refusal? names = none) :
    (names.foldl Stage.next q).IsSound := by
  induction names generalizing q with
  | nil => exact h
  | cons name names ih =>
      obtain ⟨hcode, hrest⟩ := refusal?_cons_eq_none hnames
      exact ih (h.next hcode) hrest

/-- The options are left for good. -/
theorem phase_next_ne_options (h : q.phase ≠ .options) (name : DirectiveName) :
    (q.next name).phase ≠ .options := by
  cases name with
  | worldBegin => exact nofun
  | worldEnd => exact nofun
  | _ => exact h

theorem phase_foldl_ne_options (h : q.phase ≠ .options) (names : List DirectiveName) :
    (names.foldl Stage.next q).phase ≠ .options := by
  induction names generalizing q with
  | nil => exact h
  | cons name names ih => exact ih (phase_next_ne_options h name)

theorem phase_foldl_of_mem (h : .worldBegin ∈ names) :
    (names.foldl Stage.next q).phase ≠ .options := by
  induction names generalizing q with
  | nil => cases h
  | cons name names ih =>
      rcases List.mem_cons.mp h with rfl | h
      · exact phase_foldl_ne_options (by simp [Stage.next]) names
      · exact ih h

/-- Before the world begins the open blocks are the ones of transforms that were begun and
not ended. -/
theorem foldl_of_not_mem (hq : q.phase = .options) (h : .worldBegin ∉ names)
    (hnames : q.refusal? names = none) :
    (names.foldl Stage.next q).phase = .options ∧
      (names.foldl Stage.next q).blocks.length + names.count .transformEnd =
        q.blocks.length + names.count .transformBegin := by
  induction names generalizing q with
  | nil => exact ⟨hq, rfl⟩
  | cons name names ih =>
      obtain ⟨hcode, hrest⟩ := refusal?_cons_eq_none hnames
      obtain ⟨hphase, hnesting⟩ := Option.or_eq_none_iff.mp hcode
      have hplace := (phase_of_phaseCode? hphase).2.1 hq
      have hmem : .worldBegin ∉ names := fun hmem => h (List.mem_cons_of_mem _ hmem)
      cases name with
      | worldBegin => exact absurd List.mem_cons_self h
      | transformBegin =>
          obtain ⟨hend, hcount⟩ := ih (q := q.next .transformBegin) hq hmem hrest
          refine ⟨hend, ?_⟩
          simp [Stage.next] at hcount ⊢
          omega
      | transformEnd =>
          obtain ⟨hend, hcount⟩ := ih (q := q.next .transformEnd) hq hmem hrest
          refine ⟨hend, ?_⟩
          have hopen : q.blocks ≠ [] := by
            intro hnil
            simp [nestingCode?, closeCode?, hnil] at hnesting
          have hpos := List.length_pos_iff.mpr hopen
          simp [Stage.next] at hcount ⊢
          omega
      | workDirBegin => exact ih (q := q.next .workDirBegin) hq hmem hrest
      | workDirEnd => exact ih (q := q.next .workDirEnd) hq hmem hrest
      | _ =>
          -- what is left does not change the stage, or it belongs into the world
          first
          | exact absurd rfl hplace
          | obtain ⟨hend, hcount⟩ := ih hq hmem hrest
            exact ⟨hend, by simpa [Stage.next] using hcount⟩

end Stage

namespace Engine

/-! ## One directive -/

variable [Scalar K] {c : EngineContext} {d : Directive} {s : EngineState K}

theorem code?_of_permit (hp : permit c s d = .ok ()) : s.stage.code? d.name = none := by
  obtain ⟨hphase, hnest⟩ := faults_of_permit hp
  rw [Stage.code?, nestingCode?_eq, hnest]
  change (Stage.phaseCode? s.phase d.name).or none = none
  rw [phaseCode?_eq, hphase]
  rfl

theorem phase_of_permit_worldBegin (hp : permit c s d = .ok ()) (hn : d.name = .worldBegin) :
    s.phase = .options := by
  have hphase := (faults_of_permit hp).1
  rw [hn] at hphase
  cases hs : s.phase with
  | options => rfl
  | world => simp [phaseFault?, hs, DirectiveName.placement] at hphase
  | ended => simp [phaseFault?, hs, DirectiveName.placement] at hphase

theorem tells_beginWorld (hphase : s.phase = .options) :
    Tells s (beginWorld.run s).state (beginWorld.run s).events := by
  obtain ⟨hs, he⟩ := beginWorld_run s
  rw [hs, he]
  refine ⟨rfl, rfl, rfl, ?_, by simp [Event.isEdge]⟩
  simp [Event.phaseAfter?, hphase, worldBegun]

theorem tells_beginObject (hp : permit c s d = .ok ()) (hn : d.name = .objectBegin) :
    Tells s ((beginObject c d).run s).state ((beginObject c d).run s).events := by
  have hnone := openObject_of_permit_objectBegin hp hn
  have hphase := phase_of_permit_worldOnly hp (by rw [hn]; rfl)
  obtain ⟨hs, he⟩ := beginObject_run c d s
  rw [hs, he]
  refine ⟨rfl, ?_, ?_, ?_, by simp [Event.isEdge]⟩ <;>
    simp [toldBlocks, opened, isReported, hnone, hphase, Event.blocksAfter?, Event.objectAfter?,
      Event.phaseAfter?]

omit [Scalar K] in
theorem tells_openScope {kind : ScopeKind} (hk : kind ≠ .object) :
    Tells s ((openScope kind).run s).state ((openScope kind).run s).events := by
  obtain ⟨hs, he⟩ := openScope_run kind s
  rw [hs, he]
  exact tells_opened hk s

omit [Scalar K] in
theorem tells_closeScope (ha : IsArranged s) (hq : s.stage.IsSound) :
    Tells s (closeScope.run s).state (closeScope.run s).events :=
  tells_closed (closed_closeScope s) ha hq.object

omit [Scalar K] in
theorem tells_directories (s : EngineState K) (dirs : DirectoryStack) :
    Tells s { s with dirs := dirs } [] := ⟨rfl, rfl, rfl, rfl, by simp⟩

/-- A directive that is admitted keeps the order. -/
theorem tells_perform (ha : IsArranged s) (hq : s.stage.IsSound) (hp : permit c s d = .ok ()) :
    Tells s ((perform c d).run s).state ((perform c d).run s).events := by
  by_cases hd : isStructural d.name = true
  · unfold perform
    cases hn : d.name with
    | worldBegin => exact tells_beginWorld (phase_of_permit_worldBegin hp hn)
    | worldEnd => exact tells_endWorld ha (phase_of_permit_worldOnly hp (by rw [hn]; rfl)) _
    | attributeBegin => exact tells_openScope (by decide)
    | attributeEnd => exact tells_closeScope ha hq
    | transformBegin => exact tells_openScope (by decide)
    | transformEnd => exact tells_closeScope ha hq
    | objectBegin => exact tells_beginObject hp hn
    | objectEnd => exact tells_closeScope ha hq
    | workDirBegin => exact tells_directories s _
    | workDirEnd => exact tells_directories s _
    | _ =>
        rw [hn] at hd
        cases hd
  · exact tells_of_effect hp (perform_effect c d s) (Bool.eq_false_iff.mpr hd)

/-! ## Runs -/

/-- What a row of directives keeps: they are told in order, and the automaton of names
arrives where the engine does. -/
structure Advances (s s' : EngineState K) (names : List DirectiveName) (es : List (Event K)) :
    Prop where
  tells : Tells s s' es
  arranged : IsArranged s'
  stage : s'.stage = names.foldl Stage.next s.stage
  accepted : s.stage.refusal? names = none

theorem execute_of_begun (hbegun : s.begun = true) : execute c d s = attempt c d s := by
  have hbegin : (begin c).run s = ⟨(), s, [], []⟩ := by
    unfold begin
    rw [Action.run_state_bind, if_pos hbegun]
    rfl
  unfold execute Progress.ofAction Progress.andThen
  rw [hbegin]
  rfl

theorem advances_attempt (ha : IsArranged s) (hq : s.stage.IsSound)
    (hnone : (attempt c d s).rejection = none) :
    Advances s (attempt c d s).state [d.name] (attempt c d s).events := by
  rw [attempt_eq] at hnone ⊢
  cases hp : permit c s d with
  | error r =>
      rw [hp] at hnone
      cases hnone
  | ok u =>
      obtain ⟨hstage, harranged⟩ := stage_perform ha hp
      refine ⟨tells_perform ha hq hp, harranged, hstage, ?_⟩
      simp [Stage.refusal?, code?_of_permit hp]

theorem advances_executeAll {ds : List Directive} (hbegun : s.begun = true) (ha : IsArranged s)
    (hq : s.stage.IsSound) (hnone : (executeAll c ds s).rejection = none) :
    Advances s (executeAll c ds s).state (ds.map (·.name)) (executeAll c ds s).events := by
  induction ds generalizing s with
  | nil => exact ⟨.refl s, ha, rfl, rfl⟩
  | cons d ds ih =>
      unfold executeAll at hnone ⊢
      rw [execute_of_begun hbegun] at hnone ⊢
      unfold Progress.andThen at hnone ⊢
      cases hfirst : (attempt c d s).rejection with
      | some r =>
          rw [hfirst] at hnone
          dsimp only at hnone
          rw [hfirst] at hnone
          cases hnone
      | none =>
          rw [hfirst] at hnone
          have hd := advances_attempt ha hq hfirst
          obtain ⟨hcode, -⟩ := Stage.refusal?_cons_eq_none hd.accepted
          have hds := ih (hd.tells.begun.trans hbegun) hd.arranged
            (by rw [hd.stage]; exact hq.next hcode) hnone
          refine ⟨hd.tells.trans hds.tells, hds.arranged, hds.stage.trans ?_, ?_⟩
          · rw [hd.stage]
            rfl
          · have haccepted := hds.accepted
            rw [hd.stage] at haccepted
            simpa [Stage.refusal?, hcode] using haccepted

omit [Scalar K] in
/-- Finishing closes what is open in the world, and nothing that is open in the options. -/
theorem tells_finish (ha : IsArranged s) (hq : s.stage.IsSound) :
    ∃ es, (finish.run s).events = es ++ [.finish] ∧ Tells s (finish.run s).state es ∧
      (finish.run s).state.openObject = none ∧
      ((s.phase = .options ∧ (finish.run s).state = s) ∨
        (s.phase ≠ .options ∧ (finish.run s).state.phase = .ended ∧
          (finish.run s).state.scopes = [])) := by
  have hclosed (hphase : s.phase ≠ .world) : s.openObject = none := by
    cases ho : s.openObject with
    | none => rfl
    | some o => exact absurd (hq.object (by simp [EngineState.stage, ho])) hphase
  unfold finish
  rw [Action.run_state_bind]
  cases hphase : s.phase with
  | options =>
      exact ⟨[], rfl, .refl s, hclosed (by simp [hphase]), Or.inl ⟨rfl, rfl⟩⟩
  | ended =>
      have hscopes : s.scopes = [] := List.map_eq_nil_iff.mp (hq.ended hphase)
      exact ⟨[], rfl, .refl s, hclosed (by simp [hphase]), Or.inr ⟨nofun, hphase, hscopes⟩⟩
  | world =>
      have hscopes := endWorld_scopes .unknown s
      have hopen := openObject_of_scopes_eq_nil (stage_endWorld ha .unknown).2 hscopes
      have hended : ((endWorld .unknown).run s).state.phase = .ended := by
        obtain ⟨s₁, es, -, hs, -⟩ := endWorld_run .unknown s
        rw [hs]
      exact ⟨_, rfl, tells_endWorld ha hphase .unknown, hopen, Or.inr ⟨nofun, hended, hscopes⟩⟩

omit [Scalar K] in
/-- Outside of an object targets know of all open blocks. -/
theorem toldBlocks_eq (ha : IsArranged s) (ho : s.openObject = none) :
    toldBlocks s = s.stage.blocks := by
  have hall : ∀ scopes : List (Scope K), Arranged false scopes →
      (scopes.filter (·.reported)) = scopes := by
    intro scopes h
    generalize hopen : false = isOpen at h
    induction h with
    | nil => rfl
    | told _ hr _ ih => simp [hr, ih hopen]
    | object _ _ _ => cases hopen
    | inside _ _ _ => cases hopen
  unfold IsArranged at ha
  rw [ho] at ha
  unfold toldBlocks
  rw [hall _ ha]
  rfl

omit [Scalar K] in
theorem foldlM_edges {β : Type} {f : β → Event K → Option β} {source : Option String}
    (hbegin : ∀ b, f b (.begin source) = some b) (hfinish : ∀ b, f b .finish = some b)
    (es : List (Event K)) (b : β) :
    List.foldlM f b (.begin source :: es ++ [.finish]) = es.foldlM f b := by
  rw [List.cons_append, List.foldlM_cons, hbegin]
  change List.foldlM f b (es ++ [.finish]) = _
  rw [List.foldlM_append]
  simp [hfinish]

/-- The states and events of a run up to its end and of its end. -/
theorem run_tells {ds : List Directive} {dirs : DirectoryStack}
    (h : (run (K := K) c ds (.initial dirs)).rejection = none) :
    ∃ s s' : EngineState K, ∃ es es',
      (run (K := K) c ds (.initial dirs)).events = .begin c.source :: (es ++ es') ++ [.finish] ∧
      Advances { EngineState.initial dirs with begun := true } s (ds.map (·.name)) es ∧
      Tells s s' es' ∧ s'.openObject = none ∧
      ((s.phase = .options ∧ s' = s) ∨
        (s.phase ≠ .options ∧ s'.phase = .ended ∧ s'.scopes = [])) := by
  have hstart : IsArranged { EngineState.initial (K := K) dirs with begun := true } := .nil
  have hsound : ({ EngineState.initial (K := K) dirs with begun := true }).stage.IsSound :=
    Stage.isSound_start dirs.depth
  have hrun := h
  rw [run_rejection] at h
  have hall := advances_executeAll (c := c) rfl hstart hsound h
  obtain ⟨es', hevents, htells, hopen, hend⟩ := tells_finish hall.arranged
    (hall.stage ▸ hsound.foldl hall.accepted)
  refine ⟨_, _, _, es', ?_, hall, htells, hopen, hend⟩
  change ((started c ds dirs).andThen (Progress.ofAction finish)).events = _
  rw [started_eq]
  unfold Progress.andThen
  dsimp only
  rw [h]
  change _ :: _ ++ (finish.run _).events = _
  rw [hevents]
  simp

/-- What targets know of at the end of a run: with a world it has ended and everything is
closed; without one the blocks of transforms are open that no directive ended. -/
theorem ends_of_advances {s s' : EngineState K} {es : List (Event K)} {names : List DirectiveName}
    {dirs : DirectoryStack}
    (h : Advances { EngineState.initial dirs with begun := true } s names es)
    (hopen : s'.openObject = none)
    (hend : (s.phase = .options ∧ s' = s) ∨
      (s.phase ≠ .options ∧ s'.phase = .ended ∧ s'.scopes = [])) :
    s'.phase = (if names.contains .worldBegin then .ended else .options) ∧
      (toldBlocks s' = [] ↔
        .worldBegin ∈ names ∨ names.count .transformBegin = names.count .transformEnd) := by
  let q : Stage := ⟨.options, [], false, dirs.depth⟩
  have hstage : s.stage = names.foldl Stage.next q := h.stage
  have hnames : q.refusal? names = none := h.accepted
  have hphase : s.phase = (names.foldl Stage.next q).phase := congrArg Stage.phase hstage
  by_cases hmem : .worldBegin ∈ names
  · have hne : s.phase ≠ .options := by
      rw [hphase]
      exact Stage.phase_foldl_of_mem hmem
    rcases hend with ⟨heq, -⟩ | ⟨-, hended, hscopes⟩
    · exact absurd heq hne
    · simp [hmem, hended, toldBlocks, hscopes]
  · obtain ⟨hoptions, hcount⟩ := Stage.foldl_of_not_mem rfl hmem hnames
    rcases hend with ⟨heq, rfl⟩ | ⟨hne, -, -⟩
    · have hblocks : toldBlocks s' = (names.foldl Stage.next q).blocks :=
        (toldBlocks_eq h.arranged hopen).trans (congrArg Stage.blocks hstage)
      refine ⟨by simp [hmem, heq], ?_⟩
      rw [hblocks, ← List.length_eq_zero_iff]
      have hnil : q.blocks.length = 0 := rfl
      simp only [hmem, false_or]
      omega
    · exact absurd (hphase.trans hoptions) hne

/-- What targets are told of a scene that is read to its end.  Blocks are balanced if there
is a world, and otherwise if every transform block was ended by a directive. -/
theorem run_protocol (c : EngineContext) (ds : List Directive) (dirs : DirectoryStack)
    (h : (run (K := K) c ds (.initial dirs)).rejection = none) :
    FollowsProtocol c.source ((ds.map (·.name)).contains .worldBegin)
        (run (K := K) c ds (.initial dirs)).events ∧
      (BlocksBalanced (run (K := K) c ds (.initial dirs)).events ↔
        .worldBegin ∈ ds.map (·.name) ∨
          (ds.map (·.name)).count .transformBegin = (ds.map (·.name)).count .transformEnd) := by
  obtain ⟨s, s', es, es', hevents, hall, htells, hopen, hend⟩ := run_tells h
  obtain ⟨-, hblocks, hobjects, hworld, hinner⟩ := hall.tells.trans htells
  obtain ⟨hphase, hbalanced⟩ := ends_of_advances hall hopen hend
  rw [hopen] at hobjects
  rw [hphase] at hworld
  have hread : List.foldlM Event.blocksAfter? [] (.begin c.source :: (es ++ es') ++ [.finish]) =
      some (toldBlocks s') := (foldlM_edges (fun _ => rfl) (fun _ => rfl) _ _).trans hblocks
  rw [hevents]
  refine ⟨⟨⟨es ++ es', rfl, hinner⟩, ?_, ?_, ?_⟩, ?_⟩
  · rw [hread]
    rfl
  · exact (foldlM_edges (fun _ => rfl) (fun _ => rfl) _ _).trans hobjects
  · exact (foldlM_edges (fun _ => rfl) (fun _ => rfl) _ _).trans hworld
  · rw [← hbalanced, BlocksBalanced, hread, Option.some.injEq]

/-- A transform block in the options and an object in the world. -/
def pairedBlocks : List Directive :=
  let span : Span := ⟨none, .start, .start⟩
  [⟨.transformBegin, [], .empty, some span⟩, ⟨.transformEnd, [], .empty, some span⟩,
    ⟨.worldBegin, [], .empty, some span⟩, ⟨.attributeBegin, [], .empty, some span⟩,
    ⟨.objectBegin, [.text "a"], .empty, some span⟩]

theorem run_protocol_pairedBlocks :
    let p := run (K := Float) ⟨.rooted [], [], none⟩ pairedBlocks (.initial .empty)
    p.rejection = none ∧ FollowsProtocol none true p.events ∧ BlocksBalanced p.events := by
  intro p
  have hnone : p.rejection = none := rfl
  obtain ⟨hfollows, hbalanced⟩ := run_protocol ⟨.rooted [], [], none⟩ pairedBlocks .empty hnone
  exact ⟨hnone, hfollows, hbalanced.mpr (Or.inl (by decide))⟩

/-- A transform block that is still open at the end of the options is not ended. -/
theorem not_blocksBalanced_openTransform :
    let ds : List Directive := [⟨.transformBegin, [], .empty, some ⟨none, .start, .start⟩⟩]
    let p := run (K := Float) ⟨.rooted [], [], none⟩ ds (.initial .empty)
    p.rejection = none ∧ ¬ BlocksBalanced p.events := by
  refine ⟨by rfl, ?_⟩
  unfold BlocksBalanced
  intro h
  cases h

end Engine
end SceneReader
