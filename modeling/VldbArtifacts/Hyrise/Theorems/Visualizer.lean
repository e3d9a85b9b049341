import VldbArtifacts.Hyrise.Visualizer

namespace Hyrise

open Traversal (Visits)

variable {ν ψ σ : Type} {g : PlanGraph ν ψ} {visit : ν → List ψ} {emplace : ψ → Visualized ν σ → Option σ}
  {build : ν → Visualized ν σ → Option (Exported × Visualized ν σ)} {n : Nat} {v root : ν}
  {s s' s₁ s₂ s₃ : Visualized ν σ} {tree left right : Exported}

section step

theorem visualizeSubquery_cases {q : ψ} (h : visualizeSubquery g emplace build s q = some s') :
    (emplace q s = none ∧ s' = s) ∨
    ∃ subqueries tree, emplace q s = some subqueries ∧ build (g.plan q) { s with subqueries } = some (tree, s') := by
  rw [visualizeSubquery] at h
  cases hq : emplace q s
  case none =>
    rw [hq] at h
    exact .inl ⟨rfl, (Option.some.inj h).symm⟩
  case some subqueries =>
    simp only [hq, Option.bind_eq_bind, Option.bind_eq_some_iff, Option.pure_def, Option.some.injEq] at h
    obtain ⟨⟨tree, s₁⟩, hbuild, rfl⟩ := h
    exact .inr ⟨subqueries, tree, rfl, hbuild⟩

variable [DecidableEq ν]

theorem buildSubtree_new (hv : v ∉ s.nodes)
    (hleft : buildInput (buildSubtree g visit emplace n) (g.left v) { s with nodes := v :: s.nodes } =
      some (left, s₁))
    (hright : buildInput (buildSubtree g visit emplace n) (g.right v) s₁ = some (right, s₂))
    (hqueries : (visit v).foldlM (visualizeSubquery g emplace (buildSubtree g visit emplace n)) s₂ = some s₃) :
    buildSubtree g visit emplace (n + 1) v s =
      some (.node (g.description v) ((g.left v).map g.card) ((g.right v).map g.card) left right, s₃) := by
  rw [buildSubtree, if_neg hv]
  simp only [hleft, Option.bind_eq_bind, Option.bind_some, hright, hqueries, Option.pure_def]

theorem buildSubtree_cases (h : buildSubtree g visit emplace (n + 1) v s = some (tree, s')) :
    (v ∈ s.nodes ∧ tree = .empty ∧ s' = s) ∨
    ∃ left right s₁ s₂, v ∉ s.nodes ∧
      buildInput (buildSubtree g visit emplace n) (g.left v) { s with nodes := v :: s.nodes } = some (left, s₁) ∧
      buildInput (buildSubtree g visit emplace n) (g.right v) s₁ = some (right, s₂) ∧
      (visit v).foldlM (visualizeSubquery g emplace (buildSubtree g visit emplace n)) s₂ = some s' ∧
      tree = .node (g.description v) ((g.left v).map g.card) ((g.right v).map g.card) left right := by
  rw [buildSubtree] at h
  split at h
  case isTrue hv =>
    obtain ⟨rfl, rfl⟩ := Prod.mk.inj (Option.some.inj h)
    exact .inl ⟨hv, rfl, rfl⟩
  case isFalse hv =>
    simp only [Option.bind_eq_bind, Option.bind_eq_some_iff, Option.pure_def, Option.some.injEq, Prod.mk.injEq] at h
    obtain ⟨⟨left, s₁⟩, hleft, ⟨right, s₂⟩, hright, s₃, hqueries, rfl, rfl⟩ := h
    exact .inr ⟨left, right, s₁, s₂, hv, hleft, hright, hqueries, rfl⟩

end step

section total

theorem buildInput_total {input : Option ν} (hbuild : ∀ u ∈ input, ∀ s, ∃ r, build u s = some r)
    (s : Visualized ν σ) : ∃ r, buildInput build input s = some r := by
  cases input
  case none   => exact ⟨_, rfl⟩
  case some u => exact hbuild u rfl s

theorem visualizeSubqueries_total {qs : List ψ}
    (hbuild : ∀ q ∈ qs, ∀ s, ∃ r, build (g.plan q) s = some r) (s : Visualized ν σ) :
    ∃ s', qs.foldlM (visualizeSubquery g emplace build) s = some s' := by
  induction qs generalizing s
  case nil => exact ⟨s, rfl⟩
  case cons q qs ih =>
    rw [List.forall_mem_cons] at hbuild
    have hfirst : ∃ s', visualizeSubquery g emplace build s q = some s' := by
      rw [visualizeSubquery]
      cases emplace q s
      case none => exact ⟨s, rfl⟩
      case some subqueries =>
        obtain ⟨r, hr⟩ := hbuild.left { s with subqueries }
        exact ⟨r.2, by simp [hr]⟩
    obtain ⟨s₁, hs₁⟩ := hfirst
    rw [List.foldlM_cons, hs₁]
    exact ih hbuild.right s₁

-- The depth of a plan is bounded by its rank.
theorem buildSubtree_total [DecidableEq ν] (hvisit : ∀ v, visit v ⊆ g.subqueries v) (hn : g.rank v < n)
    (s : Visualized ν σ) : ∃ r, buildSubtree g visit emplace n v s = some r := by
  induction n generalizing v s
  case zero => cases hn
  case succ n ih =>
    by_cases hv : v ∈ s.nodes
    case pos => exact ⟨_, by rw [buildSubtree, if_pos hv]; rfl⟩
    case neg =>
      have hbelow {u : ν} (hu : g.rank u < g.rank v) : g.rank u < n := by omega
      have hplan : ∀ q ∈ visit v, ∀ s, ∃ r, buildSubtree g visit emplace n (g.plan q) s = some r :=
        fun q hq => ih (hbelow (g.plan_lt v q (hvisit v hq)))
      obtain ⟨⟨left, s₁⟩, hleft⟩ :=
        buildInput_total (fun u hu => ih (hbelow (g.left_lt v u hu))) { s with nodes := v :: s.nodes }
      obtain ⟨⟨right, s₂⟩, hright⟩ := buildInput_total (fun u hu => ih (hbelow (g.right_lt v u hu))) s₁
      obtain ⟨s₃, hqueries⟩ := visualizeSubqueries_total hplan s₂
      exact ⟨_, buildSubtree_new hv hleft hright hqueries⟩

end total

section log

abbrev Log (ν : Type) :=
  List (ν × List ν)

variable {t t' t₁ t₂ : Visualized ν (σ × Log ν)} {q : ψ}
  {logBuild : ν → Visualized ν (σ × Log ν) → Option (Exported × Visualized ν (σ × Log ν))}

def Visualized.unlog (t : Visualized ν (σ × Log ν)) : Visualized ν σ :=
  ⟨t.nodes, t.subqueries.1⟩

def Visualized.calls (t : Visualized ν (σ × Log ν)) : Log ν :=
  t.subqueries.2

theorem logged_eq (g : PlanGraph ν ψ) (emplace : ψ → Visualized ν σ → Option σ) (q : ψ)
    (t : Visualized ν (σ × Log ν)) : g.logged emplace q t =
      (emplace q t.unlog).map fun subqueries => (subqueries, t.calls ++ [(g.plan q, t.nodes)]) := by
  rw [PlanGraph.logged, Visualized.unlog]
  cases emplace q ⟨t.nodes, t.subqueries.1⟩ <;> rfl

theorem unlog_buildInput
    (hbuild : ∀ v t tree t', logBuild v t = some (tree, t') → build v t.unlog = some (tree, t'.unlog))
    {input : Option ν} (h : buildInput logBuild input t = some (tree, t')) :
    buildInput build input t.unlog = some (tree, t'.unlog) := by
  cases input
  case none =>
    obtain ⟨rfl, rfl⟩ := Prod.mk.inj (Option.some.inj h)
    rfl
  case some u => exact hbuild _ _ _ _ h

theorem unlog_foldlM
    (hbuild : ∀ v t tree t', logBuild v t = some (tree, t') → build v t.unlog = some (tree, t'.unlog))
    {qs : List ψ} (h : qs.foldlM (visualizeSubquery g (g.logged emplace) logBuild) t = some t') :
    qs.foldlM (visualizeSubquery g emplace build) t.unlog = some t'.unlog := by
  induction qs generalizing t
  case nil =>
    obtain rfl := Option.some.inj h
    rfl
  case cons q qs ih =>
    rw [List.foldlM_cons, Option.bind_eq_bind, Option.bind_eq_some_iff] at h
    obtain ⟨t₁, hfirst, hrest⟩ := h
    have hfirst' : visualizeSubquery g emplace build t.unlog q = some t₁.unlog := by
      rw [visualizeSubquery]
      rcases visualizeSubquery_cases hfirst with ⟨hnone, rfl⟩ | ⟨subqueries, tree, hsome, hdraw⟩
      case inl =>
        rw [logged_eq, Option.map_eq_none_iff] at hnone
        rw [hnone]
        rfl
      case inr =>
        rw [logged_eq, Option.map_eq_some_iff] at hsome
        obtain ⟨subqueries', hsome, rfl⟩ := hsome
        have hdraw' : build (g.plan q) { t.unlog with subqueries := subqueries' } = some (tree, t₁.unlog) :=
          hbuild _ _ _ _ hdraw
        simp only [hsome, hdraw']
        rfl
    rw [List.foldlM_cons, hfirst']
    exact ih hrest

-- What a call says about the traversal: its tree has the nodes that are kept.
def Draws (g : PlanGraph ν ψ) (goals : List ν) (t : Visualized ν (σ × Log ν)) (tree : Exported)
    (t' : Visualized ν (σ × Log ν)) : Prop :=
  ∃ kept calls, Visits g.inputs g.rank (goals.map (true, ·)) t.nodes kept calls t'.nodes ∧
    t'.calls = t.calls ++ calls ∧ tree.entries = kept.map g.entry

theorem draws_buildInput (hbuild : ∀ v t tree t', logBuild v t = some (tree, t') → Draws g [v] t tree t')
    {input : Option ν} (h : buildInput logBuild input t = some (tree, t')) : Draws g input.toList t tree t' := by
  cases input
  case none =>
    obtain ⟨rfl, rfl⟩ := Prod.mk.inj (Option.some.inj h)
    exact ⟨[], [], .done, (List.append_nil _).symm, rfl⟩
  case some u => exact hbuild _ _ _ _ h

theorem draws_foldlM (hbuild : ∀ v t tree t', logBuild v t = some (tree, t') → Draws g [v] t tree t')
    {qs : List ψ} (h : qs.foldlM (visualizeSubquery g (g.logged emplace) logBuild) t = some t') :
    ∃ dropped ⊆ qs.map g.plan, ∃ calls, Visits g.inputs g.rank (dropped.map (false, ·)) t.nodes [] calls t'.nodes ∧
      t'.calls = t.calls ++ calls := by
  induction qs generalizing t
  case nil =>
    obtain rfl := Option.some.inj h
    exact ⟨[], List.Subset.refl _, [], .done, (List.append_nil _).symm⟩
  case cons q qs ih =>
    rw [List.foldlM_cons, Option.bind_eq_bind, Option.bind_eq_some_iff] at h
    obtain ⟨t₁, hfirst, hrest⟩ := h
    obtain ⟨dropped, hsub, calls, hvisits, hcalls⟩ := ih hrest
    rcases visualizeSubquery_cases hfirst with ⟨hnone, rfl⟩ | ⟨subqueries, tree, hsome, hdraw⟩
    case inl => exact ⟨dropped, List.subset_cons_of_subset _ hsub, calls, hvisits, hcalls⟩
    case inr =>
      rw [logged_eq, Option.map_eq_some_iff] at hsome
      obtain ⟨subqueries', _, rfl⟩ := hsome
      obtain ⟨kept, calls₁, hvisits₁, hcalls₁, _⟩ := hbuild _ _ _ _ hdraw
      refine ⟨g.plan q :: dropped, List.cons_subset_cons _ hsub, _, hvisits₁.drop.append hvisits, ?_⟩
      rw [hcalls, hcalls₁]
      simp [Visualized.calls]

variable [DecidableEq ν]

-- A run with a log is a run.
theorem unlog_buildSubtree (h : buildSubtree g visit (g.logged emplace) n v t = some (tree, t')) :
    buildSubtree g visit emplace n v t.unlog = some (tree, t'.unlog) := by
  induction n generalizing v t tree t'
  case zero => cases h
  case succ n ih =>
    rcases buildSubtree_cases h with ⟨hv, rfl, rfl⟩ | ⟨left, right, t₁, t₂, hv, hleft, hright, hqueries, rfl⟩
    case inl => exact if_pos hv
    case inr =>
      have hbuild : ∀ v t tree t', buildSubtree g visit (g.logged emplace) n v t = some (tree, t') →
          buildSubtree g visit emplace n v t.unlog = some (tree, t'.unlog) := fun _ _ _ _ => ih
      exact buildSubtree_new hv (unlog_buildInput hbuild hleft) (unlog_buildInput hbuild hright)
        (unlog_foldlM hbuild hqueries)

theorem draws_buildSubtree (hvisit : ∀ v, visit v ⊆ g.subqueries v)
    (h : buildSubtree g visit (g.logged emplace) n v t = some (tree, t')) : Draws g [v] t tree t' := by
  induction n generalizing v t tree t'
  case zero => cases h
  case succ n ih =>
    rcases buildSubtree_cases h with ⟨hv, rfl, rfl⟩ | ⟨left, right, t₁, t₂, hv, hleft, hright, hqueries, rfl⟩
    case inl => exact ⟨[], [], .seen hv .done, (List.append_nil _).symm, rfl⟩
    case inr =>
      obtain ⟨kept, calls, hvisits, hcalls, hentries⟩ := draws_buildInput (fun _ _ _ _ => ih) hleft
      obtain ⟨kept', calls', hvisits', hcalls', hentries'⟩ := draws_buildInput (fun _ _ _ _ => ih) hright
      obtain ⟨dropped, hsub, calls'', hvisits'', hcalls''⟩ := draws_foldlM (fun _ _ _ _ => ih) hqueries
      have hdropped : ∀ u ∈ dropped, g.rank u < g.rank v := by
        intro u hu
        obtain ⟨q, hq, rfl⟩ := List.mem_map.mp (hsub hu)
        exact g.plan_lt v q (hvisit v hq)
      have hbelow := (hvisits.append hvisits').append hvisits''
      rw [← List.map_append, ← PlanGraph.inputs] at hbelow
      refine ⟨_, _, .new true hv hdropped hbelow .done, ?_, ?_⟩
      case refine_1 =>
        rw [hcalls'', hcalls', hcalls]
        simp [Visualized.calls, Traversal.dropCall]
      case refine_2 =>
        rw [Exported.entries, hentries, hentries']
        simp [PlanGraph.entry]

end log

section complete

variable [DecidableEq ν] {subqueries : σ}

theorem isComplete_iff (hvisit : ∀ v, visit v ⊆ g.subqueries v) (root : ν) (subqueries : σ) :
    ∃ tree s, buildSubtree g visit emplace (g.rank root + 1) root ⟨[], subqueries⟩ = some (tree, s) ∧
      (g.IsComplete root tree ↔ g.SubqueriesFollow visit emplace root subqueries) := by
  have htotal : ∃ r, buildSubtree g visit (g.logged emplace) (g.rank root + 1) root ⟨[], subqueries, []⟩ = some r :=
    buildSubtree_total hvisit (Nat.lt_succ_self _) _
  obtain ⟨⟨tree, t⟩, ht⟩ := htotal
  obtain ⟨kept, calls, hvisits, hcalls, hentries⟩ := draws_buildSubtree hvisit ht
  refine ⟨tree, t.unlog, unlog_buildSubtree ht, ?_⟩
  have hrank : ∀ v, ∀ u ∈ g.inputs v, g.rank u < g.rank v := by
    intro v u hu
    rw [PlanGraph.inputs, List.mem_append, Option.mem_toList, Option.mem_toList] at hu
    rcases hu with hu | hu
    case inl => exact g.left_lt v u hu
    case inr => exact g.right_lt v u hu
  have hlog : g.subqueryCalls visit emplace root subqueries = calls := by
    rw [PlanGraph.subqueryCalls, ht]
    exact hcalls
  rw [PlanGraph.SubqueriesFollow, hlog]
  apply Iff.trans ?_ (hvisits.kept_iff hrank)
  have hsub : ∀ v ∈ kept, g.Reaches root v := by
    intro v hv
    obtain ⟨u, hu, hreach⟩ := hvisits.reaches_of_mem_kept hv
    obtain rfl : u = root := by simpa using hu
    exact hreach
  constructor
  case mp =>
    rintro ⟨ops, _, hops, hperm⟩ v hv
    have hlen : ops.length ≤ kept.length := by
      have := hperm.length_eq
      rw [hentries, List.length_map, List.length_map] at this
      exact this.ge
    have hkept : kept.Perm ops :=
      (hvisits.nodup.subperm fun u hu => (hops u).mpr (hsub u hu)).perm_of_length_le hlen
    exact hkept.mem_iff.mpr ((hops v).mpr hv)
  case mpr =>
    intro h
    exact ⟨kept, hvisits.nodup, fun v => ⟨hsub v, h v⟩, hentries ▸ List.Perm.refl _⟩

end complete

-- A subquery that is drawn first takes the operators that the plan shares with it out of the tree.
theorem exportedPlan_complete_iff [DecidableEq ν] (g : PlanGraph ν ψ) (type : ν → PQPVisualizer.OperatorType)
    (equal : ψ → ψ → Bool) (root : ν) :
    (∃ tree s, PQPVisualizer.buildSubtree g type root ⟨[], ()⟩ = some (tree, s) ∧
      (g.IsComplete root tree ↔
        g.SubqueriesFollow (PQPVisualizer.visit g type) PQPVisualizer.emplace root ())) ∧
    ∃ tree s, LQPVisualizer.buildSubtree g equal root ⟨[], []⟩ = some (tree, s) ∧
      (g.IsComplete root tree ↔ g.SubqueriesFollow g.subqueries (LQPVisualizer.emplace equal) root []) := by
  have hvisit : ∀ v, PQPVisualizer.visit g type v ⊆ g.subqueries v := by
    intro v
    rw [PQPVisualizer.visit]
    cases type v
    case other => exact List.nil_subset _
    all_goals exact List.Subset.refl _
  exact ⟨isComplete_iff hvisit root (), isComplete_iff (fun _ => List.Subset.refl _) root []⟩

section average

-- `SELECT * FROM orders, lineitem WHERE o_orderkey = l_orderkey AND o_totalprice > (SELECT AVG(l_extendedprice) FROM
-- lineitem)`. The plan and the subquery share the operator that gets the table.
inductive QueryOp
  | lineitem | orders | average | scan | join
  deriving DecidableEq, Repr

def averagePlan (swapped : Bool) : PlanGraph QueryOp Unit where
  description
    | .lineitem => "GetTable (lineitem) pruned: 0/92 chunk(s), 14/16 column(s)".toList
    | .orders   => "GetTable (orders) pruned: 0/23 chunk(s), 7/9 column(s)".toList
    | .average  => "AggregateHash GroupBy \x7b\x7d AVG(l_extendedprice)".toList
    | .scan     => "TableScan Impl: ColumnVsValue o_totalprice > SUBQUERY (PQP, 0x1)".toList
    | .join     => "JoinHash (Inner) o_orderkey FromLeft Primary = l_orderkey FromRight Primary ".toList
  left
    | .average => some .lineitem
    | .scan    => some .orders
    | .join    => some (if swapped then .lineitem else .scan)
    | _        => none
  right
    | .join => some (if swapped then .scan else .lineitem)
    | _     => none
  card
    | .lineitem => "6,001,215 row(s)/92 chunk(s)".toList
    | .orders   => "1,500,000 row(s)/23 chunk(s)".toList
    | .average  => "1 row(s)/1 chunk(s)".toList
    | .scan     => "1,447,021 row(s)/23 chunk(s)".toList
    | .join     => "5,880,110 row(s)/92 chunk(s)".toList
  subqueries
    | .scan => [()]
    | _     => []
  plan _ := .average
  rank
    | .lineitem | .orders => 0
    | .average            => 1
    | .scan               => 2
    | .join               => 3
  left_lt v  := by cases v <;> cases swapped <;> simp
  right_lt v := by cases v <;> cases swapped <;> simp
  plan_lt v  := by cases v <;> simp

def averageType : QueryOp → PQPVisualizer.OperatorType
  | .scan => .tableScan
  | _     => .other

-- The right child of the join is missing in the file.
theorem exportedPlan_average :
    (PQPVisualizer.buildSubtree (averagePlan false) averageType .join ⟨[], ()⟩).map Prod.fst =
      some (.node "JoinHash (Inner) o_orderkey FromLeft Primary = l_orderkey FromRight Primary ".toList
        (some "1,447,021 row(s)/23 chunk(s)".toList) (some "6,001,215 row(s)/92 chunk(s)".toList)
        (.node "TableScan Impl: ColumnVsValue o_totalprice > SUBQUERY (PQP, 0x1)".toList
          (some "1,500,000 row(s)/23 chunk(s)".toList) none
          (.node "GetTable (orders) pruned: 0/23 chunk(s), 7/9 column(s)".toList none none .missing .missing)
          .missing)
        .empty) ∧
    (averagePlan false).Reaches .join .lineitem ∧
    ∀ tree s, PQPVisualizer.buildSubtree (averagePlan false) averageType .join ⟨[], ()⟩ = some (tree, s) →
      ¬(averagePlan false).IsComplete .join tree := by
  have hbuild : (PQPVisualizer.buildSubtree (averagePlan false) averageType .join ⟨[], ()⟩).map Prod.fst =
      some (.node "JoinHash (Inner) o_orderkey FromLeft Primary = l_orderkey FromRight Primary ".toList
        (some "1,447,021 row(s)/23 chunk(s)".toList) (some "6,001,215 row(s)/92 chunk(s)".toList)
        (.node "TableScan Impl: ColumnVsValue o_totalprice > SUBQUERY (PQP, 0x1)".toList
          (some "1,500,000 row(s)/23 chunk(s)".toList) none
          (.node "GetTable (orders) pruned: 0/23 chunk(s), 7/9 column(s)".toList none none .missing .missing)
          .missing)
        .empty) := by decide +kernel
  have hreach : (averagePlan false).Reaches .join .lineitem :=
    .single (List.mem_append_right _ (List.mem_cons_self ..))
  refine ⟨hbuild, hreach, ?_⟩
  rintro tree s h ⟨ops, _, hops, hperm⟩
  rw [h, Option.map_some, Option.some.injEq] at hbuild
  subst hbuild
  have hmem := hperm.mem_iff.mpr (List.mem_map_of_mem ((hops .lineitem).mpr hreach))
  revert hmem
  decide +kernel

-- If the shared operator is drawn before the subquery, it is in the file.
theorem exportedPlan_swapped :
    ∃ tree s, PQPVisualizer.buildSubtree (averagePlan true) averageType .join ⟨[], ()⟩ = some (tree, s) ∧
      (averagePlan true).IsComplete .join tree := by
  obtain ⟨⟨tree, s, hbuild, hiff⟩, _⟩ := exportedPlan_complete_iff (averagePlan true) averageType (fun _ _ => true) .join
  refine ⟨tree, s, hbuild, hiff.mpr ?_⟩
  have hcalls : (averagePlan true).subqueryCalls (PQPVisualizer.visit (averagePlan true) averageType)
      PQPVisualizer.emplace .join () = [(.average, [.orders, .scan, .lineitem, .join])] := by decide +kernel
  rw [PlanGraph.SubqueriesFollow, hcalls, List.forall_mem_singleton]
  intro v hv _
  have hinputs : ∀ u, QueryOp.average ∉ (averagePlan true).inputs u := by
    intro u
    cases u <;> decide
  have hne : v ≠ .average := by
    rintro rfl
    rcases Relation.ReflTransGen.cases_tail hv with h | ⟨u, _, hu⟩
    case inl => cases h
    case inr => exact hinputs u hu
  cases v <;> simp at hne ⊢

end average

end Hyrise
