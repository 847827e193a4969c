import SceneReader.Proofs.Scene.Contents

/-!
# Walks over scenes

Nodes are added behind all others and below an open node, and whatever is behind an open node
is below it.  So the nodes lie in the order of a walk from the root: the walk comes to every
node once, in the order in which they were added, and so does a search.

**Invariant.**  Of a walk that has come to the nodes before `i`, those that wait are the nodes
from `i` on whose parent is before `i`, in their order.

**Results.**
* `InOrder.below`: a row of nodes behind the others.
* `walk_eq_range`: the walk over a graph in order.
* `select_eq_filter`: what is found in such a graph.
* `inOrder_ofEvents`, `inOrder_of_run`: scenes are in order.
-/

namespace SceneReader

/-- Members of one sort and then those of another, in a list where this is their order. -/
theorem List.filter_append_filter {α : Type} {p q : α → Bool} {xs : List α}
    (horder : xs.Pairwise fun x y => q x = true → p y = false)
    (hapart : ∀ x ∈ xs, p x = true → q x = false) :
    xs.filter p ++ xs.filter q = xs.filter fun x => p x || q x := by
  induction xs with
  | nil => rfl
  | cons x xs ih =>
      obtain ⟨hx, horder⟩ := List.pairwise_cons.mp horder
      have ih := ih horder fun y hy => hapart y (List.mem_cons_of_mem _ hy)
      have hapartx := hapart x List.mem_cons_self
      cases hq : q x with
      | false => cases hp : p x <;> simp [hp, hq, ih]
      | true =>
          have hp : p x = false := by
            by_contra hp
            rw [hapartx (Bool.not_eq_false _ ▸ hp)] at hq
            cases hq
          have hnone : xs.filter p = [] := List.filter_eq_nil_iff.mpr fun y hy => by
            rw [hx y hy hq]
            exact Bool.false_ne_true
          rw [hnone] at ih
          simpa [hp, hq, hnone] using ih

variable {K : Type}

namespace SceneGraph

/-- All nodes behind a node are below it. -/
def Encloses (g : SceneGraph K) (p stop : Nat) : Prop :=
  ∀ id : Nat, p < id → id < stop → ∃ q : Nat, g.parentOf id = some q ∧ p ≤ q

/-- Children are listed in order, and every node but the first is below one before it, which
encloses what is between them. -/
structure InOrder (g : SceneGraph K) : Prop where
  children : ∀ p, g.childrenOf p =
    (List.range g.size).filter fun id : Nat => decide (g.parentOf id = some p)
  root : g.parentOf 0 = none
  parent : ∀ id : Nat, id ≠ 0 → id < g.size →
    ∃ p : Nat, p < id ∧ g.parentOf id = some p ∧ g.Encloses p id

variable {g : SceneGraph K}

/-! ## The walk -/

/-- The node waits when a walk has come to the nodes before `i`. -/
def waits (g : SceneGraph K) (i id : Nat) : Bool :=
  match g.parentOf id with
  | none => true
  | some (p : Nat) => decide (p < i)

theorem waits_self (h : InOrder g) {i : Nat} (hi : i < g.size) : g.waits i i = true := by
  unfold waits
  by_cases hroot : i = 0
  · rw [hroot, h.root]
  · obtain ⟨p, hp, hparent, -⟩ := h.parent i hroot hi
    rw [hparent]
    exact decide_eq_true hp

/-- The children of a node wait before the nodes that waited already. -/
theorem children_append_waiting (h : InOrder g) {i rest : Nat} (hsize : i + 1 + rest = g.size) :
    g.childrenOf i ++ (List.range' (i + 1) rest).filter (g.waits i) =
      (List.range' (i + 1) rest).filter (g.waits (i + 1)) := by
  have hbehind {id : Nat} (hid : id ∈ List.range' (i + 1) rest) : i < id ∧ id < g.size := by
    obtain ⟨hle, hlt⟩ := List.mem_range'_1.mp hid
    exact ⟨hle, by omega⟩
  -- children are behind their parent
  have hchildren : g.childrenOf i =
      (List.range' (i + 1) rest).filter fun id : Nat => decide (g.parentOf id = some i) := by
    have hsplit : List.range g.size = List.range (i + 1) ++ List.range' (i + 1) rest := by
      rw [← hsize, List.range_add, List.range'_eq_map_range]
    rw [h.children, hsplit, List.filter_append]
    have hnone : (List.range (i + 1)).filter (fun id : Nat => decide (g.parentOf id = some i)) = [] := by
      refine List.filter_eq_nil_iff.mpr fun (id : Nat) hid => ?_
      have hid : id < i + 1 := List.mem_range.mp hid
      rw [decide_eq_true_eq]
      intro hparent
      by_cases hroot : id = 0
      · rw [hroot, h.root] at hparent
        cases hparent
      · obtain ⟨p, hp, hparent', -⟩ := h.parent id hroot (by omega)
        rw [hparent'] at hparent
        cases hparent
        omega
    rw [hnone, List.nil_append]
  rw [hchildren, List.filter_append_filter]
  · refine List.filter_congr fun (id : Nat) hid => ?_
    unfold waits
    rcases hparent : g.parentOf id with _ | (p : Nat)
    · simp
    · rw [Bool.eq_iff_iff]
      simp only [Option.some.injEq, Bool.or_eq_true, decide_eq_true_eq]
      exact or_comm.trans Nat.lt_succ_iff_lt_or_eq.symm
  · refine List.Pairwise.imp_of_mem (fun {x y} hx hy hlt hwaits => ?_)
      List.pairwise_lt_range'
    rw [decide_eq_false_iff_not]
    intro hparent
    -- what is between a node and its child is below the node
    obtain ⟨hy₁, hy₂⟩ := hbehind hy
    obtain ⟨p, -, hparent', hencloses⟩ := h.parent y (by omega) hy₂
    cases hparent.symm.trans hparent'
    obtain ⟨q, hq, hle⟩ := hencloses x (hbehind hx).1 hlt
    unfold waits at hwaits
    rw [hq] at hwaits
    exact absurd (of_decide_eq_true hwaits) (Nat.not_lt.mpr hle)
  · intro id hid hparent
    unfold waits
    rw [of_decide_eq_true hparent]
    exact decide_eq_false (Nat.lt_irrefl i)

/-- A walk that has come to the nodes before `i` goes on with `i` and those behind it. -/
theorem visit_eq_range' (h : InOrder g) (room : Nat) {i : Nat} (hsize : i + room = g.size)
    {waiting : List (NodeId × Nat)}
    (hwaiting : waiting.map (·.1) = (List.range' i room).filter (g.waits i)) :
    (g.visit room waiting).map (·.1) = List.range' i room := by
  induction room generalizing i waiting with
  | zero => rfl
  | succ room ih =>
      have hi : i < g.size := by omega
      rw [List.range'_succ, List.filter_cons, waits_self h hi, if_pos rfl] at hwaiting
      cases waiting with
      | nil => cases hwaiting
      | cons next waiting =>
          obtain ⟨(id : Nat), depth⟩ := next
          have hid : id = i := (List.cons.inj hwaiting).1
          have hrest := (List.cons.inj hwaiting).2
          subst hid
          have hvisit := @ih (id + 1) (by omega)
            ((g.childrenOf id).map (fun c => (c, depth + 1)) ++ waiting) ?_
          · exact congrArg (id :: ·) hvisit
          · rw [List.map_append, List.map_map, hrest]
            have hids : (g.childrenOf id).map ((·.1) ∘ fun c => (c, depth + 1)) =
                g.childrenOf id := List.map_id' _
            rw [hids]
            exact children_append_waiting h (by omega)

/-- The walk over a graph in order comes to all nodes in their order. -/
theorem walk_eq_range (h : InOrder g) : (g.walk 0).map (·.1) = List.range g.size := by
  unfold walk
  by_cases hsize : g.size = 0
  · simp [hsize]
  · rw [if_neg hsize, List.range_eq_range']
    refine visit_eq_range' h g.size (Nat.zero_add _) ?_
    -- at first only the root waits
    obtain ⟨rest, hrest⟩ := Nat.exists_eq_succ_of_ne_zero hsize
    rw [hrest, List.range'_succ, List.filter_cons, waits_self h (Nat.pos_of_ne_zero hsize),
      if_pos rfl]
    have hnone : (List.range' (0 + 1) rest).filter (g.waits 0) = [] := by
      refine List.filter_eq_nil_iff.mpr fun (id : Nat) hid => ?_
      obtain ⟨hle, hlt⟩ := List.mem_range'_1.mp hid
      obtain ⟨p, -, hparent, -⟩ := h.parent id (by omega) (by omega)
      unfold waits
      rw [hparent]
      simp
    rw [hnone]
    rfl

/-- What is found in a graph in order comes in the order of the nodes. -/
theorem select_eq_filter (h : InOrder g) (p : Node K → Bool) :
    g.select p = (List.range g.size).filter fun id => ((g.node? id).map p).getD false := by
  unfold select
  rw [walk_eq_range h]

/-! ## Rows of nodes -/

theorem childrenOf_of_le {p : Nat} (h : g.size ≤ p) : g.childrenOf p = [] := by
  unfold childrenOf node?
  rw [List.getElem?_eq_none h]
  rfl

/-- Children and parents are all that the order is about. -/
theorem InOrder.congr {g' : SceneGraph K} (h : InOrder g) (hsize : g'.size = g.size)
    (hchildren : ∀ id, g'.childrenOf id = g.childrenOf id)
    (hparent : ∀ id, g'.parentOf id = g.parentOf id) : InOrder g' := by
  have hsame : g'.parentOf = g.parentOf := funext hparent
  refine ⟨?_, (hparent 0).trans h.root, ?_⟩
  · intro p
    rw [hchildren, h.children, hsize, hsame]
  · intro id hroot hid
    obtain ⟨p, hp, hpid, hencloses⟩ := h.parent id hroot (hsize ▸ hid)
    refine ⟨p, hp, (hparent id).trans hpid, ?_⟩
    unfold Encloses
    rw [hsame]
    exact hencloses

section Row

variable {p : Nat} {n : Node K} {ns : List (Node K)}

/-- A graph with a row of nodes below one of its nodes. -/
def below (g : SceneGraph K) (p : Nat) (ns : List (Node K)) : SceneGraph K :=
  (g.adopt p [g.size]).extend ns

theorem size_below (g : SceneGraph K) (p : Nat) (ns : List (Node K)) :
    (g.below p ns).size = g.size + ns.length := by
  rw [below, size_extend, size_adopt]

theorem parentOf_below_old {id : Nat} (hid : id < g.size) :
    (g.below p ns).parentOf id = g.parentOf id := by
  have hsize := size_adopt g p [g.size]
  unfold parentOf below
  rw [node?_extend_left (hsize.symm ▸ hid)]
  unfold adopt
  rw [node?_modify]
  split
  · cases g.node? id <;> rfl
  · rfl

theorem parentOf_below_new (g : SceneGraph K) (p : Nat) (ns : List (Node K)) (i : Nat) :
    (g.below p ns).parentOf (g.size + i) = ns[i]?.bind (·.parent) := by
  have hnode := node?_extend_right (g.adopt p [g.size]) ns i
  rw [size_adopt] at hnode
  unfold parentOf below
  rw [hnode]

theorem childrenOf_below_old {id : Nat} (hid : id < g.size) (hp : p < g.size) :
    (g.below p ns).childrenOf id = g.childrenOf id ++ if p = id then [g.size] else [] := by
  have hsize := size_adopt g p [g.size]
  have hold : (g.below p ns).childrenOf id = (g.adopt p [g.size]).childrenOf id := by
    unfold childrenOf below
    rw [node?_extend_left (hsize.symm ▸ hid)]
  rw [hold]
  split
  · rename_i heq
    rw [← heq, childrenOf_adopt hp]
  · rename_i hne
    unfold childrenOf
    rw [node?_adopt_of_ne _ hne, List.append_nil]

theorem childrenOf_below_new (g : SceneGraph K) (p : Nat) (ns : List (Node K)) (i : Nat) :
    (g.below p ns).childrenOf (g.size + i) = (ns[i]?.map (·.children)).getD [] := by
  have hnode := node?_extend_right (g.adopt p [g.size]) ns i
  rw [size_adopt] at hnode
  unfold childrenOf below
  rw [hnode]

/-- The first node of the row is below `p`, and the others are below the first one. -/
structure IsBranch (p size : Nat) (n : Node K) (ns : List (Node K)) : Prop where
  parent : n.parent = some p
  children : n.children = List.range' (size + 1) ns.length
  leaves : ∀ m ∈ ns, m.parent = some size ∧ m.children = []

/-- The parents of the nodes of a row. -/
theorem parentOf_branch (hrow : IsBranch p g.size n ns) :
    (g.below p (n :: ns)).parentOf g.size = some p ∧
      ∀ id : Nat, g.size < id → id < (g.below p (n :: ns)).size →
        (g.below p (n :: ns)).parentOf id = some g.size := by
  refine ⟨?_, ?_⟩
  · have h := parentOf_below_new g p (n :: ns) 0
    rw [Nat.add_zero] at h
    exact h.trans hrow.parent
  · intro id hlt hid
    rw [size_below, List.length_cons] at hid
    obtain ⟨j, rfl⟩ := Nat.exists_eq_add_of_lt hlt
    have hj : j < ns.length := by omega
    rw [Nat.add_assoc, parentOf_below_new, List.getElem?_cons_succ, List.getElem?_eq_getElem hj]
    exact (hrow.leaves _ (List.getElem_mem hj)).1

/-- The children of a node after a row was added. -/
theorem childrenOf_branch (hp : p < g.size) (hrow : IsBranch p g.size n ns) (q : Nat) :
    (g.below p (n :: ns)).childrenOf q = g.childrenOf q ++ (if p = q then [g.size] else []) ++
      if q = g.size then List.range' (g.size + 1) ns.length else [] := by
  rcases Nat.lt_trichotomy q g.size with hq | rfl | hq
  · rw [childrenOf_below_old hq hp, if_neg (Nat.ne_of_lt hq), List.append_nil]
  · have h := childrenOf_below_new g p (n :: ns) 0
    rw [Nat.add_zero] at h
    rw [h, childrenOf_of_le (Nat.le_refl _), if_neg (Nat.ne_of_lt hp), if_pos rfl]
    exact hrow.children
  · obtain ⟨j, rfl⟩ := Nat.exists_eq_add_of_lt hq
    rw [childrenOf_of_le (g := g) (by omega), if_neg (by omega), if_neg (by omega),
      Nat.add_assoc, childrenOf_below_new, List.getElem?_cons_succ]
    cases hm : ns[j]? with
    | none => rfl
    | some m => exact (hrow.leaves m (List.mem_of_getElem? hm)).2

/-- A row of nodes below a node that encloses all behind it. -/
theorem InOrder.below (h : InOrder g) (hp : p < g.size) (hencloses : g.Encloses p g.size)
    (hrow : IsBranch p g.size n ns) : InOrder (g.below p (n :: ns)) := by
  obtain ⟨hfirst, hleaves⟩ := parentOf_branch hrow
  have hsize : (g.below p (n :: ns)).size = g.size + (ns.length + 1) := size_below _ _ _
  have hold {q stop : Nat} (hstop : stop ≤ g.size) (hq : g.Encloses q stop) :
      (g.below p (n :: ns)).Encloses q stop := by
    intro id hlt hid
    rw [parentOf_below_old (Nat.lt_of_lt_of_le hid hstop)]
    exact hq id hlt hid
  refine ⟨?_, ?_, ?_⟩
  · intro q
    have hsplit : List.range (g.size + (ns.length + 1)) =
        List.range g.size ++ (g.size :: List.range' (g.size + 1) ns.length) := by
      rw [List.range_add, ← List.range'_eq_map_range, List.range'_succ]
    rw [hsize, hsplit, List.filter_append, childrenOf_branch hp hrow, List.append_assoc]
    congr 1
    · rw [h.children]
      refine List.filter_congr fun (id : Nat) hid => ?_
      rw [parentOf_below_old (List.mem_range.mp hid)]
    · rw [List.filter_cons, hfirst]
      have hrest : (List.range' (g.size + 1) ns.length).filter (fun id : Nat =>
          decide ((g.below p (n :: ns)).parentOf id = some q)) =
          if q = g.size then List.range' (g.size + 1) ns.length else [] := by
        have hparents : ∀ id ∈ List.range' (g.size + 1) ns.length,
            (g.below p (n :: ns)).parentOf id = some g.size := by
          intro id hid
          obtain ⟨hle, hlt⟩ := List.mem_range'_1.mp hid
          exact hleaves id hle (by omega)
        split
        · rename_i heq
          exact List.filter_eq_self.mpr fun id hid => by rw [hparents id hid, heq]; simp
        · rename_i hne
          refine List.filter_eq_nil_iff.mpr fun id hid => ?_
          rw [hparents id hid]
          simpa using fun heq => hne heq.symm
      rw [hrest]
      by_cases hpq : p = q <;> simp [hpq]
  · rw [parentOf_below_old (Nat.zero_lt_of_lt hp), h.root]
  · intro id hroot hid
    rcases Nat.lt_trichotomy id g.size with hlt | rfl | hgt
    · obtain ⟨q, hq, hparent, hq'⟩ := h.parent id hroot hlt
      exact ⟨q, hq, (parentOf_below_old hlt).trans hparent, hold (Nat.le_of_lt hlt) hq'⟩
    · exact ⟨p, hp, hfirst, hold (Nat.le_refl _) hencloses⟩
    · refine ⟨g.size, hgt, hleaves id hgt hid, ?_⟩
      intro other hlt hlt'
      exact ⟨g.size, hleaves other hlt (Nat.lt_trans hlt' hid), Nat.le_refl _⟩

/-- A node that encloses all behind it encloses a row below a node behind it as well. -/
theorem Encloses.below {t : Nat} (ht : g.Encloses t g.size) (htp : t ≤ p) (hp : p < g.size)
    (hrow : IsBranch p g.size n ns) :
    (g.below p (n :: ns)).Encloses t (g.below p (n :: ns)).size := by
  obtain ⟨hfirst, hleaves⟩ := parentOf_branch hrow
  intro id hlt hid
  rcases Nat.lt_trichotomy id g.size with hold | rfl | hnew
  · rw [parentOf_below_old hold]
    exact ht id hlt hold
  · exact ⟨p, hfirst, htp⟩
  · exact ⟨g.size, hleaves id hnew hid, by omega⟩

end Row

end SceneGraph

namespace SceneBuilder

open SceneGraph (InOrder Encloses IsBranch)

variable [Scalar K] {here : Location} {b b' : SceneBuilder K} {e : Event K} {es : List (Event K)}

/-- The graph is in order, and each open node encloses all behind it. -/
structure IsOrdered (b : SceneBuilder K) : Prop where
  graph : b.graph.InOrder
  range : InRange b
  encloses : ∀ top ∈ b.open?, b.graph.Encloses top.1 b.graph.size
  nested : b.open?.Pairwise fun inner outer => outer.1 < inner.1

theorem IsRow.isBranch {parent : NodeId × Transform K} {size : Nat} {ns : List (Node K)}
    (h : IsRow parent size e ns) :
    ∃ n ms, ns = n :: ms ∧ IsBranch parent.1 size n ms := by
  cases h with
  | block kind ctm => exact ⟨_, [], rfl, rfl, rfl, by simp⟩
  | shape st => exact ⟨_, [], rfl, rfl, rfl, by simp⟩
  | light r ctm m => exact ⟨_, [], rfl, rfl, rfl, by simp⟩
  | placed o ctm =>
      refine ⟨_, _, rfl, rfl, ?_, ?_⟩
      · rw [List.length_map]
        rfl
      · intro m hm
        obtain ⟨st, -, rfl⟩ := List.mem_map.mp hm
        exact ⟨rfl, rfl⟩

omit [Scalar K] in
theorem size_of_mem_opens {size : Nat} {top : NodeId × Transform K} (h : top ∈ opens size e) :
    top.1 = size := by
  cases e with
  | beginScope kind ctm => rw [List.mem_singleton.mp h]
  | _ => cases h

/-- An event that is not the start keeps the order. -/
theorem isOrdered_step (hb : IsOrdered b) (h : b.step here e = .ok b')
    (he : e.isEdge = false) : IsOrdered b' := by
  have hrange := ((addition_of_step hb.range h).grows hb.range).inRange hb.range
  cases graphStep_of_step hb.range h with
  | root source hg => cases he
  | finished hg ho => cases he
  | same e hnone hg ho =>
      refine ⟨hg ▸ hb.graph, hrange, ?_, hb.nested.sublist ho.sublist⟩
      rw [hg]
      exact fun top htop => hb.encloses top (ho.subset htop)
  | row e parent ns hparent hrow hg ho =>
      have hmem := mem_of_parent? hparent
      have hp : parent.1 < b.graph.size := hb.range parent hmem
      have hsame : b'.graph = b.graph.below parent.1 ns := hg
      obtain ⟨n, ms, rfl, hbranch⟩ := hrow.isBranch
      -- the parent is the innermost open node
      have hinner : ∀ top ∈ b.open?, top.1 ≤ parent.1 := by
        intro top htop
        unfold parent? at hparent
        have hnested := hb.nested
        cases hopen : b.open? with
        | nil =>
            rw [hopen] at htop
            cases htop
        | cons first rest =>
            rw [hopen] at hparent hnested htop
            cases hparent
            rcases List.mem_cons.mp htop with rfl | htop
            · exact Nat.le_refl _
            · exact Nat.le_of_lt ((List.pairwise_cons.mp hnested).1 top htop)
      have hencloses : ∀ top ∈ b.open?, b'.graph.Encloses top.1 b'.graph.size := by
        intro top htop
        rw [hsame]
        exact (hb.encloses top htop).below (hinner top htop) hp hbranch
      refine ⟨?_, hrange, ?_, ?_⟩
      · rw [hsame]
        exact hb.graph.below hp (hb.encloses parent hmem) hbranch
      · intro top htop
        rw [ho] at htop
        rcases List.mem_append.mp htop with hnew | htop
        · cases hrow with
          | block kind ctm =>
              rw [List.mem_singleton.mp hnew, hsame, SceneGraph.size_below]
              intro id hlt hid
              exact absurd hid (Nat.not_lt.mpr hlt)
          | shape st => cases hnew
          | light r ctm m => cases hnew
          | placed o ctm => cases hnew
        · exact hencloses top htop
      · rw [ho]
        refine List.pairwise_append.mpr ⟨?_, hb.nested, ?_⟩
        · cases e <;> simp [opens]
        · intro inner hnew top htop
          rw [size_of_mem_opens hnew]
          exact hb.range top htop

theorem isOrdered_foldlM (hb : IsOrdered b) (h : es.foldlM (step here) b = .ok b')
    (hedge : ∀ e ∈ es, e.isEdge = false) : IsOrdered b' := by
  induction es generalizing b with
  | nil =>
      cases h
      exact hb
  | cons e es ih =>
      obtain ⟨he, hes⟩ := List.forall_mem_cons.mp hedge
      rw [List.foldlM_cons] at h
      obtain ⟨b₁, h₁, h⟩ := Success.of_bind h
      exact ih (isOrdered_step hb h₁ he) h hes

theorem isOrdered_rooted (source : Option String) :
    IsOrdered (rooted source : SceneBuilder K) := by
  refine ⟨⟨?_, rfl, ?_⟩, inRange_rooted source, ?_, List.pairwise_singleton _ _⟩
  · intro p
    cases p <;> rfl
  · intro id hroot hid
    exact absurd (Nat.lt_one_iff.mp hid) hroot
  · intro top htop id hlt hid
    exact absurd (Nat.lt_one_iff.mp hid) (Nat.ne_zero_of_lt hlt)

omit [Scalar K] in
/-- Components do not matter for the order. -/
theorem inOrder_attachAll (b : SceneBuilder K) (cs : List (Component K))
    (h : b.graph.InOrder) : (b.attachAll 0 cs).graph.InOrder := by
  unfold attachAll
  dsimp only
  induction cs generalizing b with
  | nil => exact h
  | cons c cs ih =>
      refine ih { b with graph := b.graph.attach 0 c } (h.congr (SceneGraph.size_attach _ _ _) ?_ ?_)
      · intro id
        unfold SceneGraph.childrenOf SceneGraph.attach
        rw [SceneGraph.node?_modify]
        split
        · cases b.graph.node? id <;> rfl
        · rfl
      · exact fun id => SceneGraph.parentOf_attach _ _ _ _

/-- Scenes are in order. -/
theorem inOrder_ofEvents {source : Option String} {scene : Scene K}
    (h : Scene.ofEvents here (.begin source :: es ++ [.finish]) = .ok scene)
    (hedge : ∀ e ∈ es, e.isEdge = false) : scene.graph.InOrder := by
  obtain ⟨b, hb, rfl⟩ := Success.of_map h
  rw [List.cons_append, List.foldlM_cons] at hb
  obtain ⟨b₀, hbegin, hb⟩ := Success.of_bind hb
  cases hbegin
  rw [List.foldlM_append] at hb
  obtain ⟨b₁, hes, hfinish⟩ := Success.of_bind hb
  cases hfinish
  exact inOrder_attachAll b₁ _ (isOrdered_foldlM (isOrdered_rooted source) hes hedge).graph

end SceneBuilder

namespace Engine

/-- The scene of a run is in order. -/
theorem inOrder_of_run [Scalar K] {c : EngineContext} {ds : List Directive}
    {dirs : DirectoryStack} {here : Location} {scene : Scene K}
    (hnone : (run (K := K) c ds (.initial dirs)).rejection = none)
    (h : Scene.ofEvents here (run c ds (.initial dirs)).events = .ok scene) :
    scene.graph.InOrder := by
  obtain ⟨s, s', es, es', hevents, hall, htells, -⟩ := run_tells hnone
  rw [hevents] at h
  exact SceneBuilder.inOrder_ofEvents h (hall.tells.trans htells).inner

end Engine
end SceneReader
