import VldbArtifacts.Hyrise.Theorems.QueryPlan

-- The traversal of a query plan counts each operator once.

namespace Hyrise

variable {v : Int}

namespace OpTree

variable {t : OpTree} {e : Int × Int}

def ids (t : OpTree) : List Int :=
  t.visits.map (·.nodeid)

theorem ids_node (n : PlanNode) (l r : OpTree) : (node n l r).ids = n.nodeid :: (r.ids ++ l.ids) := by
  simp [ids, visits]

-- Each node but the root is the end of an edge.
theorem ids_perm (t : OpTree) : (t.rootId?.toList ++ t.edges.map Prod.snd).Perm t.ids := by
  induction t
  case none => exact .refl _
  case node n l r ihl ihr =>
    rw [ids_node, edges, rootId?]
    apply List.Perm.cons
    have hmap : ∀ o : Option Int, (o.toList.map (n.nodeid, ·)).map Prod.snd = o.toList := fun o => by
      cases o <;> rfl
    rw [List.map_append, List.map_append, List.map_append, hmap, hmap]
    refine .trans ?_ (List.Perm.append ihr ihl)
    have hswap := (@List.perm_append_comm _ l.rootId?.toList r.rootId?.toList).append_right
      (r.edges.map Prod.snd ++ l.edges.map Prod.snd)
    refine hswap.trans ?_
    simp only [List.append_assoc]
    apply List.Perm.append_left
    rw [← List.append_assoc, ← List.append_assoc]
    exact List.perm_append_comm.append_right _

theorem rootId?_mem {r : Int} (h : t.rootId? = some r) : r ∈ t.ids :=
  t.ids_perm.subset (List.mem_append_left _ (by simp [h]))

theorem edge_sublist (h : e ∈ t.edges) : [e.1, e.2].Sublist t.ids := by
  induction t
  case none => exact absurd h List.not_mem_nil
  case node n l r ihl ihr =>
    rw [ids_node]
    simp only [edges, List.mem_append, List.mem_map, Option.mem_toList] at h
    obtain (⟨c, hc, rfl⟩ | ⟨c, hc, rfl⟩) | h | h := h
    case inl.inl =>
      exact List.Sublist.cons_cons _ (List.singleton_sublist.mpr (List.mem_append_right _ (rootId?_mem hc)))
    case inl.inr =>
      exact List.Sublist.cons_cons _ (List.singleton_sublist.mpr (List.mem_append_left _ (rootId?_mem hc)))
    case inr.inl => exact .cons _ ((ihr h).trans (List.sublist_append_left ..))
    case inr.inr => exact .cons _ ((ihl h).trans (List.sublist_append_right ..))

theorem edge_mem (h : e ∈ t.edges) : e.1 ∈ t.ids ∧ e.2 ∈ t.ids :=
  ⟨(edge_sublist h).subset List.mem_cons_self, (edge_sublist h).subset (by simp)⟩

theorem mem_kids {edges : List (Int × Int)} {c : Int} : c ∈ kids edges v ↔ (v, c) ∈ edges := by
  simp [kids]

theorem kids_eq_nil (h : v ∉ t.ids) : kids t.edges v = [] := by
  rw [List.eq_nil_iff_forall_not_mem]
  exact fun c hc => h (edge_mem (mem_kids.mp hc)).left

theorem length_kids_le (h : t.ids.Nodup) (v : Int) : (kids t.edges v).length ≤ 2 := by
  induction t
  case none => simp [edges, kids]
  case node n l r ihl ihr =>
    rw [ids_node, List.nodup_cons, List.nodup_append] at h
    obtain ⟨hn, hr, hl, hd⟩ := h
    rw [List.mem_append, not_or] at hn
    have happ : ∀ es es', kids (es ++ es') v = kids es v ++ kids es' v := fun es es' => by simp [kids]
    have hown : ∀ o : Option Int, (kids (o.toList.map (n.nodeid, ·)) v).length ≤ if n.nodeid = v then 1 else 0 := by
      intro o
      by_cases hv : n.nodeid = v <;> cases o <;> simp [kids, hv]
    have h₁ := hown l.rootId?
    have h₂ := hown r.rootId?
    rw [edges, happ, happ, happ, List.length_append, List.length_append, List.length_append]
    by_cases hv : n.nodeid = v
    case pos =>
      rw [kids_eq_nil (hv ▸ hn.left), kids_eq_nil (hv ▸ hn.right)]
      rw [if_pos hv] at h₁ h₂
      simp only [List.length_nil]
      omega
    case neg =>
      rw [if_neg hv] at h₁ h₂
      have hone : kids r.edges v = [] ∨ kids l.edges v = [] := by
        by_cases hm : v ∈ r.ids
        case pos => exact .inr (kids_eq_nil fun hm' => hd v hm v hm' rfl)
        case neg => exact .inl (kids_eq_nil hm)
      have := ihl hl
      have := ihr hr
      obtain h' | h' := hone <;> rw [h', List.length_nil] <;> omega

theorem up_eq_some {p : Int} (h : t.ids.Nodup) : up t.edges v = some p ↔ (p, v) ∈ t.edges := by
  have hnd : (t.edges.map Prod.snd).Nodup := (List.nodup_append.mp (t.ids_perm.nodup_iff.mpr h)).right.left
  constructor
  case mp =>
    intro hp
    have ⟨e, he, hpe⟩ := Option.map_eq_some_iff.mp hp
    have ⟨hm, hv⟩ := List.mem_filter.mp (List.mem_of_getLast? he)
    rwa [← hpe, ← of_decide_eq_true hv]
  case mpr =>
    intro hm
    have hf : (p, v) ∈ t.edges.filter (·.2 = v) := List.mem_filter.mpr ⟨hm, by simp⟩
    have ⟨e, he⟩ := Option.isSome_iff_exists.mp (List.getLast?_isSome.mpr (List.ne_nil_of_mem hf))
    have ⟨hm', hv⟩ := List.mem_filter.mp (List.mem_of_getLast? he)
    have : e = (p, v) := List.inj_on_of_nodup_map hnd hm' hm (of_decide_eq_true hv)
    rw [up, he, this]
    rfl

theorem up_eq_none (hm : v ∈ t.ids) (h : t.ids.Nodup) (hu : up t.edges v = .none) : t.rootId? = some v := by
  obtain hr | he := List.mem_append.mp (t.ids_perm.mem_iff.mpr hm)
  case inl => simpa using hr
  case inr =>
    have ⟨e, he, hv⟩ := List.mem_map.mp he
    have := (up_eq_some h).mpr (hv ▸ he : (e.1, v) ∈ t.edges)
    rw [hu] at this
    contradiction

theorem up_root {r : Int} (h : t.ids.Nodup) (hr : t.rootId? = some r) : up t.edges r = .none := by
  rw [Option.eq_none_iff_forall_ne_some]
  intro p hp
  have hnd := (List.nodup_append.mp (t.ids_perm.nodup_iff.mpr h)).right.right
  exact hnd r (by simp [hr]) r (List.mem_map_of_mem (f := Prod.snd) ((up_eq_some h).mp hp)) rfl

-- Parents come before their children.
def rank (t : OpTree) (v : Int) : Nat :=
  t.ids.length - t.ids.idxOf v

theorem rank_lt (h : t.ids.Nodup) (he : e ∈ t.edges) : t.rank e.2 < t.rank e.1 := by
  have hp : t.ids.Pairwise fun a b => t.rank b < t.rank a := by
    rw [List.pairwise_iff_getElem]
    intro i j hi hj hij
    rw [rank, rank, h.idxOf_getElem, h.idxOf_getElem]
    omega
  have := hp.sublist (edge_sublist he)
  simpa using this

def rooted (t : OpTree) (h : t.ids.Nodup) : ParentTree Int where
  nodes        := t.ids.toFinset
  children     := kids t.edges
  parent       := up t.edges
  rank         := t.rank
  child_mem _ hc      := List.mem_toFinset.mpr (edge_mem (mem_kids.mp hc)).right
  parent_child _ hc   := (up_eq_some h).mpr (mem_kids.mp hc)
  rank_child _ hc     := rank_lt h (mem_kids.mp hc)
  child_parent _ hp   :=
    have he := (up_eq_some h).mp hp
    ⟨List.mem_toFinset.mpr (edge_mem he).left, mem_kids.mpr he⟩
  root_unique hr hr' hn hn' := by
    have h₁ := up_eq_none (List.mem_toFinset.mp hr) h hn
    have h₂ := up_eq_none (List.mem_toFinset.mp hr') h hn'
    exact Option.some.inj (h₁.symm.trans h₂)

theorem visits_perm (t : OpTree) : t.visits.Perm t.nodes := by
  induction t
  case none => exact .refl _
  case node n l r ihl ihr =>
    rw [visits, nodes]
    exact .cons n ((List.perm_append_comm).trans (ihl.append ihr))

-- The sum over the nodes, when the cardinality above a node is that of the node at the other end of its edge.
theorem sum_contribution (above lcard : Int → Int) (column : String) {a : Int}
    (hroot : ∀ r, t.rootId? = some r → above r = a) (hedge : ∀ e ∈ t.edges, above e.2 = lcard e.1)
    (hlcard : ∀ n ∈ t.visits, lcard n.nodeid = n.lcard) :
    (t.visits.map fun n => contribution n (above n.nodeid) column).sum = t.total a column := by
  induction t generalizing a
  case none => rfl
  case node n l r ihl ihr =>
    have hn : lcard n.nodeid = n.lcard := hlcard n List.mem_cons_self
    simp only [edges, List.forall_mem_append, List.forall_mem_map, Option.mem_toList] at hedge
    rw [visits, List.forall_mem_cons, List.forall_mem_append] at hlcard
    have hl := ihl (fun c hc => (hedge.left.left c hc).trans hn) hedge.right.right hlcard.right.right
    have hr := ihr (fun c hc => (hedge.left.right c hc).trans hn) hedge.right.left hlcard.right.left
    rw [visits, List.map_cons, List.map_append, List.sum_cons, List.sum_append, hl, hr, hroot _ rfl, total]
    ring

-- The tree is a part of the plan.
structure Within (plan t : OpTree) : Prop where
  visits : t.visits.Sublist plan.visits
  kids   : ∀ v ∈ t.ids, kids plan.edges v = kids t.edges v
  edges  : ∀ e ∈ t.edges, e ∈ plan.edges

namespace Within

variable {plan t' : OpTree} {n : PlanNode} {l r : OpTree}

theorem refl (t : OpTree) : Within t t where
  visits    := .refl _
  kids _ _  := rfl
  edges _ h := h

theorem trans (h : Within plan t) (h' : Within t t') : Within plan t' where
  visits    := h'.visits.trans h.visits
  kids v hv := (h.kids v ((h'.visits.map _).subset hv)).trans (h'.kids v hv)
  edges e he := h.edges e (h'.edges e he)

-- The edges of a node that is neither the root nor in the other child.
theorem kids_node (hv : v ≠ n.nodeid) :
    Hyrise.kids (node n l r).edges v = Hyrise.kids r.edges v ++ Hyrise.kids l.edges v := by
  have happ : ∀ es es', Hyrise.kids (es ++ es') v = Hyrise.kids es v ++ Hyrise.kids es' v :=
    fun es es' => by simp [Hyrise.kids]
  have hown : ∀ o : Option Int, Hyrise.kids (o.toList.map (n.nodeid, ·)) v = [] := by
    intro o
    cases o <;> simp [Hyrise.kids, Ne.symm hv]
  rw [OpTree.edges, happ, happ, happ, hown, hown]
  rfl

theorem left (h : (node n l r).ids.Nodup) : Within (node n l r) l where
  visits := ((List.sublist_append_right ..).cons _)
  kids v hv := by
    rw [ids_node, List.nodup_cons, List.nodup_append] at h
    have hn : v ≠ n.nodeid := fun he => h.left (he ▸ List.mem_append_right _ hv)
    have hr : v ∉ r.ids := fun hm => h.right.right.right v hm v hv rfl
    rw [kids_node hn, kids_eq_nil hr, List.nil_append]
  edges e he := by simp [OpTree.edges, he]

theorem right (h : (node n l r).ids.Nodup) : Within (node n l r) r where
  visits := ((List.sublist_append_left ..).cons _)
  kids v hv := by
    rw [ids_node, List.nodup_cons, List.nodup_append] at h
    have hn : v ≠ n.nodeid := fun he => h.left (he ▸ List.mem_append_left _ hv)
    have hl : v ∉ l.ids := fun hm => h.right.right.right v hv v hm rfl
    rw [kids_node hn, kids_eq_nil hl, List.append_nil]
  edges e he := by simp [OpTree.edges, he]

theorem nodup (h : Within plan t) (hp : plan.ids.Nodup) : t.ids.Nodup :=
  hp.sublist (h.visits.map _)

end Within

end OpTree

-- The reference is that of the tree, or it is one to an ignored node where the tree has none.
def Leads (heap : Nodes) (x y : Option Int) : Prop :=
  x = y ∨ y = none ∧ ∃ p n, x = some p ∧ Dict.get? p heap = some n ∧ n.ignore = true

-- The nodes when the edges are set, and where they are in the tree.
structure IsHeap (columns : List String) (tree : ParentTree Int) (heap : Nodes) : Prop where
  get  : ∀ v ∈ tree.nodes, ∃ n : Node, Dict.get? v heap = some n ∧ n.ignore = false ∧
    (∀ c ∈ n.op.columns, c ∈ columns) ∧ Leads heap n.parent (tree.parent v) ∧
    n.lchild = (tree.children v)[0]? ∧ n.rchild = (tree.children v)[1]? ∧
    ∀ g gm a am oo oi, n.op = .aggregate g gm a am oo oi →
      ∃ p q, n.parent = some p ∧ Dict.get? p heap = some q
  kids : ∀ v, (tree.children v).length ≤ 2

-- The left cardinality of the parent.
def above (heap : Nodes) (n : Node) : Int :=
  ((n.parent.bind (Dict.get? · heap)).map (·.lcard)).getD 0

def contributionAt (heap : Nodes) (column : String) (v : Int) : Int :=
  ((Dict.get? v heap).map fun n => OpTree.contribution n.toPlanNode (above heap n) column).getD 0

-- The state of the loop: the explored nodes are marked and counted.
structure Explores (heap : Nodes) (done : List Int) (nodes : Nodes) (counters : Counters) : Prop where
  get   : ∀ v, Dict.get? v nodes = (Dict.get? v heap).map fun n => { n with isExplored := v ∈ done }
  tally : ∀ column, tally counters column = (done.map (contributionAt heap column)).sum

section Explore

variable {columns : List String} {tree : ParentTree Int} {heap nodes : Nodes} {counters : Counters}
  {s : Climb Int} {m : Int} {done : List Int}

theorem isUnexplored_eq (hs : Explores heap done nodes counters) (hh : IsHeap columns tree heap)
    {c : Int} (hc : c ∈ tree.nodes) : isUnexplored nodes (some c) = decide (c ∉ done) := by
  have ⟨n, hn, _⟩ := hh.get c hc
  simp [isUnexplored, hs.get, hn]

theorem parentLcard_eq (hs : Explores heap done nodes counters) {n q : Node} {p : Int}
    (hp : n.parent = some p) (hq : Dict.get? p heap = some q) (b : Bool) :
    parentLcard nodes { n with isExplored := b } = .ok (above heap n) := by
  simp [parentLcard, above, hp, hs.get, hq]

-- The children that are pushed are those that are not explored.
theorem push_unexplored (hs : Explores heap done nodes counters) (hh : IsHeap columns tree heap)
    {ks : List Int} (hks : ∀ c ∈ ks, c ∈ tree.nodes) (hlen : ks.length ≤ 2) (stack : List (Option Int)) :
    (isUnexplored nodes ks[0]? || isUnexplored nodes ks[1]?) = !(ks.filter (· ∉ done)).isEmpty ∧
    (if isUnexplored nodes ks[1]? then
        ks[1]? :: some v :: (if isUnexplored nodes ks[0]? then ks[0]? :: some v :: stack else stack)
      else if isUnexplored nodes ks[0]? then ks[0]? :: some v :: stack else stack) =
      ParentTree.push v (ks.filter (· ∉ done)) stack := by
  have hnone : isUnexplored nodes none = false := rfl
  match ks, hlen with
  | [], _ => simp [hnone, ParentTree.push]
  | [c], _ =>
    have hc := isUnexplored_eq hs hh (hks c (by simp))
    by_cases h : c ∈ done <;> simp [hnone, hc, h, ParentTree.push]
  | [c, c'], _ =>
    have hc := isUnexplored_eq hs hh (hks c (by simp))
    have hc' := isUnexplored_eq hs hh (hks c' (by simp))
    by_cases h : c ∈ done <;> by_cases h' : c' ∈ done <;> simp [hc, hc', h, h', ParentTree.push]

theorem push_leads (cs : List Int) {stack todo : List (Option Int)} (h : List.Forall₂ (Leads heap) stack todo) :
    List.Forall₂ (Leads heap) (ParentTree.push v cs stack) (ParentTree.push v cs todo) := by
  induction cs generalizing stack todo
  case nil          => exact h
  case cons c cs ih => exact ih (.cons (.inl rfl) (.cons (.inl rfl) h))

theorem get?_explored (hs : ∀ u, Dict.get? u nodes = (Dict.get? u heap).map fun n => { n with isExplored := u ∈ done })
    {n : Node} (hn : Dict.get? v heap = some n) (u : Int) :
    Dict.get? u (Dict.set v { n with isExplored := true } nodes) =
      (Dict.get? u heap).map fun n => { n with isExplored := u ∈ done ++ [v] } := by
  rw [Dict.get?_set]
  by_cases hu : v = u
  case pos => simp [← hu, hn]
  case neg =>
    rw [if_neg hu, hs]
    simp [Ne.symm hu]

theorem explores_append (hs : Explores heap done nodes counters) {n : Node} (hn : Dict.get? v heap = some n)
    {counters' : Counters} (hc : ∀ column, tally counters' column =
      tally counters column + OpTree.contribution n.toPlanNode (above heap n) column) :
    Explores heap (done ++ [v]) (Dict.set v { n with isExplored := true } nodes) counters' where
  get := get?_explored hs.get hn
  tally column := by
    rw [hc, hs.tally]
    simp [contributionAt, hn]

-- The stack has the nodes of the tree, and ignored nodes where the tree has none.
theorem exploreNodes_step (hh : IsHeap columns tree heap) (hs : Explores heap s.done nodes counters)
    (hr : tree.Reached m s) {stack : List (Option Int)} (hst : List.Forall₂ (Leads heap) stack s.stack)
    (hne : s.stack ≠ []) :
    ∃ stack' nodes' counters', (∀ fuel, exploreNodes columns (fuel + 1) stack nodes counters =
        exploreNodes columns fuel stack' nodes' counters') ∧
      List.Forall₂ (Leads heap) stack' (tree.step s).stack ∧ Explores heap (tree.step s).done nodes' counters' := by
  obtain ⟨todo, done⟩ := s
  cases hst
  case nil => exact absurd rfl hne
  case cons x y stack todo hxy hst =>
    cases y
    case none =>
      refine ⟨stack, nodes, counters, fun fuel => ?_, hst, hs⟩
      obtain rfl | ⟨_, p, n, rfl, hn, hign⟩ := hxy
      case inl => rfl
      case inr => simp [exploreNodes, hs.get, hn, hign]
    case some v =>
      obtain rfl : x = some v := hxy.resolve_right fun h => absurd h.left (Option.some_ne_none v)
      have hv := hr.mem v List.mem_cons_self
      obtain ⟨n, hn, hign, hcols, hp, hl, hrc, hagg⟩ := hh.get v hv
      have hget : Dict.get? v nodes = some { n with isExplored := v ∈ done } := by rw [hs.get, hn]; rfl
      by_cases hd : v ∈ done
      case pos =>
        refine ⟨stack, nodes, counters, fun fuel => ?_, ?_, ?_⟩
        · simp [exploreNodes, hget, hd]
        · simpa [ParentTree.step, hd] using hst
        · simpa [ParentTree.step, hd] using hs
      case neg =>
        obtain ⟨hany, hpush⟩ := push_unexplored (v := v) hs hh (fun c hc => tree.child_mem hv hc) (hh.kids v) stack
        rw [← hl, ← hrc] at hany hpush
        have hflag : (decide (v ∈ done) || n.ignore) = false := by simp [hd, hign]
        cases hks : (tree.children v).filter (· ∉ done)
        case nil =>
          obtain ⟨counters', hc, ht⟩ := countNode_eq (n := { n with isExplored := v ∈ done }) hcols
            (fun g gm a am oo oi hop => by
              obtain ⟨p, q, hpar, hq⟩ := hagg g gm a am oo oi hop
              exact parentLcard_eq hs hpar hq _) counters
          have hstep : tree.step ⟨some v :: todo, done⟩ = ⟨tree.parent v :: todo, done ++ [v]⟩ := by
            simp only [ParentTree.step, hd, if_false, hks]
          rw [hks] at hany
          refine ⟨n.parent :: stack, Dict.set v { n with isExplored := true } nodes, counters',
            fun fuel => ?_, ?_, ?_⟩
          · rw [exploreNodes, hget]
            simp only [hflag, hany, List.isEmpty_nil, Bool.not_true, Bool.false_eq_true, if_false, hc,
              Except.ok_bind]
          · rw [hstep]
            exact .cons hp hst
          · rw [hstep]
            exact explores_append hs hn ht
        case cons c cs =>
          have hstep : tree.step ⟨some v :: todo, done⟩ = ⟨ParentTree.push v (c :: cs) todo, done⟩ := by
            simp only [ParentTree.step, hd, if_false, hks]
          rw [hks] at hany hpush
          refine ⟨ParentTree.push v (c :: cs) stack, nodes, counters, fun fuel => ?_, ?_, ?_⟩
          · rw [exploreNodes, hget, ← hpush]
            simp only [hflag, hany, List.isEmpty_cons, Bool.not_false, Bool.false_eq_true, if_false, if_true]
          · rw [hstep]
            exact push_leads _ hst
          · rw [hstep]
            exact hs

-- If the visit ends, so does the loop, and each visited node is counted.
theorem exploreNodes_run (hh : IsHeap columns tree heap) {k : Nat} (hk : (tree.step^[k] s).stack = [])
    (hs : Explores heap s.done nodes counters) (hr : tree.Reached m s) {stack : List (Option Int)}
    (hst : List.Forall₂ (Leads heap) stack s.stack) :
    ∃ counters', (∀ fuel, k < fuel → exploreNodes columns fuel stack nodes counters = .ok counters') ∧
      ∀ column, tally counters' column =
        ((tree.step^[k] s).done.map (contributionAt heap column)).sum := by
  induction k generalizing s stack nodes counters
  case zero =>
    refine ⟨counters, fun fuel hlt => ?_, hs.tally⟩
    have ⟨fuel', hf⟩ := Nat.exists_eq_succ_of_ne_zero (by omega : fuel ≠ 0)
    rw [show s.stack = [] from hk, List.forall₂_nil_right_iff] at hst
    rw [hf, hst]
    rfl
  case succ k ih =>
    rw [Function.iterate_succ_apply] at hk ⊢
    by_cases hne : s.stack = []
    case pos =>
      have hstep : tree.step s = s := by
        obtain ⟨todo, done⟩ := s
        obtain rfl : todo = [] := hne
        rfl
      rw [hstep] at hk ⊢
      have ⟨counters', hf, ht⟩ := ih hk hs hr hst
      exact ⟨counters', fun fuel hlt => hf fuel (by omega), ht⟩
    case neg =>
      have ⟨stack', nodes', counters', he, hst', hs'⟩ := exploreNodes_step hh hs hr hst hne
      have ⟨counters'', hf, ht⟩ := ih hk hs' hr.step hst'
      refine ⟨counters'', fun fuel hlt => ?_, ht⟩
      have ⟨fuel', hfuel⟩ := Nat.exists_eq_succ_of_ne_zero (by omega : fuel ≠ 0)
      rw [hfuel, he]
      exact hf fuel' (by omega)

end Explore

section Plan

variable {columns : List String} {tree : OpTree} {heap : Nodes}

theorem get?_addNodes (h : tree.ids.Nodup) {n : Node} :
    Dict.get? v (tree.visits.foldl addNode []) = some n ↔
      ∃ p ∈ tree.visits, p.nodeid = v ∧ p.toNode = n := by
  have he : tree.visits.foldl addNode [] = Dict.ofList (tree.visits.map fun p => (p.nodeid, p.toNode)) := by
    rw [Dict.ofList, List.foldl_map]
    rfl
  rw [he, Dict.get?_ofList_iff, List.mem_map]
  · simp only [Prod.mk.injEq]
  · rw [List.map_map]
    exact h

-- The nodes when the edges are set.
def IsLinked (tree : OpTree) (heap : Nodes) : Prop :=
  ∀ v, Dict.get? v heap = (Dict.get? v (tree.visits.foldl addNode [])).map (linked tree.edges v)

theorem exists_heap (h : tree.ids.Nodup) :
    ∃ heap, tree.edges.foldlM setEdge (tree.visits.foldl addNode []) = .ok heap ∧ IsLinked tree heap := by
  apply setEdges_eq
  · intro v n hn
    have ⟨p, _, _, hp⟩ := (get?_addNodes h).mp hn
    exact ⟨p, hp.symm⟩
  · have hid : ∀ v ∈ tree.ids, ∃ n, Dict.get? v (tree.visits.foldl addNode []) = some n := by
      intro v hv
      have ⟨p, hp, he⟩ := List.mem_map.mp hv
      exact ⟨p.toNode, (get?_addNodes h).mpr ⟨p, hp, he, rfl⟩⟩
    exact fun e he => (OpTree.edge_mem he).imp (hid _) (hid _)
  · exact OpTree.length_kids_le h

theorem IsLinked.get (hl : IsLinked tree heap) (h : tree.ids.Nodup) {p : PlanNode} (hp : p ∈ tree.visits) :
    Dict.get? p.nodeid heap = some (linked tree.edges p.nodeid p.toNode) := by
  rw [hl, (get?_addNodes h).mpr ⟨p, hp, rfl, rfl⟩]
  rfl

theorem eq_root {n : PlanNode} {g gm a am oo oi : List String} (h : tree.ids.Nodup) (hn : n ∈ tree.visits)
    (hop : n.op = .aggregate g gm a am oo oi) (hroot : tree.rootId? = some n.nodeid) : tree.RootIsAggregate := by
  cases tree
  case none => contradiction
  case node n₀ l r =>
    have he : n = n₀ := List.inj_on_of_nodup_map h hn List.mem_cons_self (Option.some.inj hroot).symm
    obtain ⟨_, _, _, _, op⟩ := n₀
    subst he
    obtain rfl : op = _ := hop
    trivial

theorem isHeap_of_linked {t : OpTree} (hl : IsLinked tree heap) (h : tree.ids.Nodup) (hw : tree.Within t)
    (hroot : ∀ r, t.rootId? = some r → Leads heap (up tree.edges r) none)
    (hign : ∀ n ∈ t.visits, n.ignore = false)
    (hcols : ∀ n ∈ tree.visits, ∀ c ∈ n.op.columns, c ∈ columns) (hagg : ¬tree.RootIsAggregate) :
    IsHeap columns (t.rooted (hw.nodup h)) heap where
  get v hv := by
    obtain ⟨p, hp, rfl⟩ := List.mem_map.mp (List.mem_toFinset.mp hv)
    have hpt := hw.visits.subset hp
    have hk := hw.kids p.nodeid (List.mem_map_of_mem hp)
    refine ⟨_, hl.get h hpt, hign p hp, hcols p hpt, ?parent, congrArg (·[0]?) hk, congrArg (·[1]?) hk, ?agg⟩
    case parent =>
      change Leads heap (up tree.edges p.nodeid) (up t.edges p.nodeid)
      cases hu : up t.edges p.nodeid
      case none   => exact hroot _ (OpTree.up_eq_none (List.mem_map_of_mem hp) (hw.nodup h) hu)
      case some q => exact .inl ((OpTree.up_eq_some h).mpr (hw.edges _ ((OpTree.up_eq_some (hw.nodup h)).mp hu)))
    case agg =>
      intro g gm a am oo oi hop
      cases hu : up tree.edges p.nodeid
      case none => exact absurd (eq_root h hpt hop (OpTree.up_eq_none (List.mem_map_of_mem hpt) h hu)) hagg
      case some q =>
        obtain ⟨n, hn, rfl⟩ := List.mem_map.mp (OpTree.edge_mem ((OpTree.up_eq_some h).mp hu)).left
        exact ⟨_, _, hu, hl.get h hn⟩
  kids := OpTree.length_kids_le (hw.nodup h)

-- The left cardinality above a node.
def lcardAbove (tree : OpTree) (heap : Nodes) (v : Int) : Int :=
  (((up tree.edges v).bind (Dict.get? · heap)).map (·.lcard)).getD 0

theorem sum_contributionAt {t : OpTree} {a : Int} (hl : IsLinked tree heap) (h : tree.ids.Nodup)
    (hw : tree.Within t) (ha : ∀ r, t.rootId? = some r → lcardAbove tree heap r = a) (column : String) :
    (t.ids.map (contributionAt heap column)).sum = t.total a column := by
  have hsum := OpTree.sum_contribution (t := t) (a := a) (lcardAbove tree heap)
    (fun v => ((Dict.get? v heap).map (·.lcard)).getD 0) column ha
    (fun e he => by simp [lcardAbove, (OpTree.up_eq_some h).mpr (hw.edges e he)])
    (fun n hn => by simp [hl.get h (hw.visits.subset hn), linked, Node.link, PlanNode.toNode])
  rw [← hsum, OpTree.ids, List.map_map]
  congr 1
  apply List.map_congr_left
  intro n hn
  simp [contributionAt, hl.get h (hw.visits.subset hn), above, lcardAbove, linked, Node.link, PlanNode.toNode]

theorem tree_ne_none {plan : Plan} (h : plan.populate = .ok tree) (hne : plan ≠ .none) :
    tree.visits ≠ [] := by
  cases plan
  case none => contradiction
  case node d l r =>
    have ⟨n, tl, tr, _, _, _, ht⟩ := populate_node h
    rw [ht]
    exact List.cons_ne_nil _ _

theorem exists_max (hl : IsLinked tree heap) (h : tree.ids.Nodup) (hne : tree.visits ≠ []) :
    ∃ m, (heap.map Prod.fst).max? = some m ∧ m ∈ tree.ids := by
  have ⟨p, hp⟩ := List.exists_mem_of_ne_nil _ hne
  have hmem : p.nodeid ∈ heap.map Prod.fst := Dict.mem_keys_iff.mpr ⟨_, hl.get h hp⟩
  cases hmax : (heap.map Prod.fst).max?
  case none => exact absurd (List.max?_eq_none_iff.mp hmax) (List.ne_nil_of_mem hmem)
  case some m =>
    have ⟨n, hn⟩ := Dict.mem_keys_iff.mp (List.max?_mem hmax)
    rw [hl] at hn
    have ⟨n', hn', _⟩ := Option.map_eq_some_iff.mp hn
    have ⟨q, hq, he, _⟩ := (get?_addNodes h).mp hn'
    exact ⟨m, rfl, List.mem_map.mpr ⟨q, hq, he⟩⟩

-- No node is explored at the start.
theorem explores_nil (hl : IsLinked tree heap) (h : tree.ids.Nodup) : Explores heap [] heap [] where
  get v := by
    cases hn : Dict.get? v heap
    case none   => rfl
    case some n =>
      rw [hl] at hn
      have ⟨n', hn', he⟩ := Option.map_eq_some_iff.mp hn
      have ⟨q, _, _, hq⟩ := (get?_addNodes h).mp hn'
      simp [← he, ← hq, linked, Node.link, PlanNode.toNode]
  tally _ := rfl

-- The traversal from a node of a part without ignored nodes counts each node of the part once.
theorem exploreNodes_part {t : OpTree} {a m : Int} (hl : IsLinked tree heap) (h : tree.ids.Nodup)
    (hw : tree.Within t) (hroot : ∀ r, t.rootId? = some r →
      Leads heap (up tree.edges r) none ∧ lcardAbove tree heap r = a)
    (hign : ∀ n ∈ t.visits, n.ignore = false)
    (hcols : ∀ n ∈ tree.visits, ∀ c ∈ n.op.columns, c ∈ columns) (hagg : ¬tree.RootIsAggregate)
    (hm : m ∈ t.ids) :
    ∃ k counters, (∀ fuel, k < fuel → exploreNodes columns fuel [some m] heap [] = .ok counters) ∧
      ∀ column, tally counters column = t.total a column := by
  have hh := isHeap_of_linked hl h hw (fun r hr => (hroot r hr).left) hign hcols hagg
  have hr := ParentTree.Reached.init (t := t.rooted (hw.nodup h)) (List.mem_toFinset.mpr hm)
  obtain ⟨k, hk⟩ := hr.exists_empty
  obtain ⟨counters, hrun, htally⟩ := exploreNodes_run hh hk (explores_nil hl h) hr (.cons (.inl rfl) .nil)
  have hdone := hr.iterate k
  generalize (t.rooted (hw.nodup h)).step^[k] ⟨[some m], []⟩ = s at hk htally hdone
  obtain ⟨stack, done⟩ := s
  obtain rfl : stack = [] := hk
  have hids : done.Perm t.ids := by
    rw [List.perm_ext_iff_of_nodup hdone.nodup (hw.nodup h)]
    exact fun v => (hdone.mem_done v).trans List.mem_toFinset
  refine ⟨k, counters, hrun, fun column => ?_⟩
  rw [← sum_contributionAt hl h hw (fun r hr => (hroot r hr).right) column, ← (hids.map _).sum_eq]
  exact htally column

-- What is before the traversal comes to an end.
theorem processPlan_eq (columns : List String) {plan : Plan} (hplan : plan.populate = .ok tree) (hne : plan ≠ .none)
    (h : tree.ids.Nodup) :
    ∃ heap m, IsLinked tree heap ∧ (heap.map Prod.fst).max? = some m ∧ m ∈ tree.ids ∧
      ∀ fuel, tree.visits.length < fuel →
        processPlan columns fuel plan = exploreNodes columns fuel [some m] heap [] := by
  obtain ⟨heap, hheap, hl⟩ := exists_heap h
  obtain ⟨m, hmax, hm⟩ := exists_max hl h (tree_ne_none hplan hne)
  refine ⟨heap, m, hl, hmax, hm, fun fuel hfuel => ?_⟩
  have hcollect := collect_eq (.cons ⟨hplan, hne⟩ .nil) (by simpa using hfuel : _ < fuel) [] []
  simp only [List.flatMap_singleton, List.nil_append] at hcollect
  rw [processPlan, hcollect]
  simp only [Except.ok_bind, hheap, accessCountsFromTree, hmax]

end Plan

-- Each operator is counted once, from whichever node the traversal starts.
theorem processPlan_eq_total (columns : List String) (plan : Plan) (tree : OpTree)
    (hplan : plan.populate = .ok tree) (hne : plan ≠ .none) (hign : ∀ n ∈ tree.nodes, n.ignore = false)
    (hids : (tree.nodes.map (·.nodeid)).Nodup)
    (hcols : ∀ n ∈ tree.nodes, ∀ c ∈ n.op.columns, c ∈ columns) (hagg : ¬tree.RootIsAggregate) :
    ∃ steps counters, (∀ fuel, steps ≤ fuel → processPlan columns fuel plan = .ok counters) ∧
      ∀ column, (Dict.get? column counters).getD 0 = tree.total 0 column := by
  have hperm := tree.visits_perm
  have h : tree.ids.Nodup := (hperm.map _).nodup_iff.mpr hids
  obtain ⟨heap, m, hl, _, hm, hrun⟩ := processPlan_eq columns hplan hne h
  have hroot : ∀ r, tree.rootId? = some r → Leads heap (up tree.edges r) none ∧ lcardAbove tree heap r = 0 :=
    fun r hr => ⟨.inl (OpTree.up_root h hr), by simp [lcardAbove, OpTree.up_root h hr]⟩
  obtain ⟨k, counters, hk, ht⟩ := exploreNodes_part hl h (.refl tree) hroot (fun n hn => hign n (hperm.subset hn))
    (fun n hn => hcols n (hperm.subset hn)) hagg hm
  refine ⟨tree.visits.length + k + 1, counters, fun fuel hfuel => ?_, ht⟩
  rw [hrun fuel (by omega)]
  exact hk fuel (by omega)

-- A join of an aggregate and a scan. The traversal starts at the aggregate.
def joinedPlan : Plan :=
  .node ⟨3, some "Projection", some false, some 10, none, [("forward", []), ("noforward", ["c_name"])]⟩
    (.node ⟨1, some "JoinHash", some false, some 100, some 1000,
        [("lcolumn", ["c_custkey"]), ("rcolumn", ["o_custkey"])]⟩
      (.node ⟨7, some "AggregateHash", some false, some 500, none,
          [("grpby_nomod", ["c_custkey"]), ("grpby_mod", []), ("aggr_nomod", ["c_name"]), ("aggr_mod", [])]⟩
        (.node ⟨2, some "GetTable", some false, none, none, []⟩ .none .none) .none)
      (.node ⟨5, some "TableScan", some false, some 2000, none, [("columns", ["o_custkey"])]⟩ .none .none))
    .none

def joinedTree : OpTree :=
  .node ⟨3, false, 10, 0, .projection [] ["c_name"]⟩
    (.node ⟨1, false, 100, 1000, .joinHash ["c_custkey"] ["o_custkey"]⟩
      (.node ⟨7, false, 500, 0, .aggregate ["c_custkey"] [] ["c_name"] [] [] []⟩
        (.node ⟨2, false, 0, 0, .storedTable⟩ .none .none) .none)
      (.node ⟨5, false, 2000, 0, .predicate ["o_custkey"]⟩ .none .none))
    .none

theorem processPlan_joined :
    ∃ steps counters, (∀ fuel, steps ≤ fuel →
        processPlan ["c_custkey", "c_name", "o_custkey"] fuel joinedPlan = .ok counters) ∧
      (Dict.get? "c_custkey" counters).getD 0 = 700 ∧ (Dict.get? "o_custkey" counters).getD 0 = 3000 := by
  have ⟨steps, counters, hok, ht⟩ := processPlan_eq_total ["c_custkey", "c_name", "o_custkey"] joinedPlan
    joinedTree (by decide +kernel) nofun (by decide) (by decide) (by decide) id
  exact ⟨steps, counters, hok, (ht "c_custkey").trans (by decide), (ht "o_custkey").trans (by decide)⟩

end Hyrise
