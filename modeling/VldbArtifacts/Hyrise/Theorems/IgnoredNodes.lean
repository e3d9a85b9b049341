import VldbArtifacts.Hyrise.Theorems.AccessCounts

-- The traversal of a query plan with nodes that are ignored.

namespace Hyrise

variable {columns : List String} {tree t : OpTree} {heap nodes : Nodes} {counters counters' : Counters}
  {done : List Int} {stack : List (Option Int)} {m v : Int}

def Ignored (heap : Nodes) (v : Int) : Prop :=
  ∃ n, Dict.get? v heap = some n ∧ n.ignore = true

-- What holds of the explored nodes when the traversal starts at the node `m`.
structure Explored (tree : OpTree) (heap : Nodes) (m : Int) (stack : List (Option Int)) (done : List Int) :
    Prop where
  kept   : ∀ v ∈ done, ¬Ignored heap v
  closed : ∀ v ∈ done, ∀ c ∈ kids tree.edges v, c ∈ done
  climbs : ∀ v ∈ done, ∀ p, up tree.edges v = some p → p ∈ done ∨ some p ∈ stack ∨ Ignored heap p
  start  : m ∈ done ∨ some m ∈ stack ∨ Ignored heap m

namespace Explored

theorem init (tree : OpTree) (heap : Nodes) (m : Int) : Explored tree heap m [some m] [] where
  kept   := List.forall_mem_nil _
  closed := List.forall_mem_nil _
  climbs := List.forall_mem_nil _
  start  := .inr (.inl List.mem_cons_self)

-- Other items are on the stack, but none is lost that is to be explored.
theorem restack {stack' : List (Option Int)} (h : Explored tree heap m stack done)
    (hs : ∀ v, some v ∈ stack → v ∈ done ∨ some v ∈ stack' ∨ Ignored heap v) :
    Explored tree heap m stack' done where
  kept   := h.kept
  closed := h.closed
  climbs v hv p hp := by
    obtain hd | hst | hi := h.climbs v hv p hp
    case inl     => exact .inl hd
    case inr.inl => exact hs p hst
    case inr.inr => exact .inr (.inr hi)
  start := by
    obtain hd | hst | hi := h.start
    case inl     => exact .inl hd
    case inr.inl => exact hs m hst
    case inr.inr => exact .inr (.inr hi)

theorem visit (h : Explored tree heap m (some v :: stack) done) (hk : ¬Ignored heap v)
    (hc : ∀ c ∈ kids tree.edges v, c ∈ done) :
    Explored tree heap m (up tree.edges v :: stack) (done ++ [v]) where
  kept := List.forall_mem_append.mpr ⟨h.kept, List.forall_mem_singleton.mpr hk⟩
  closed := by
    rw [List.forall_mem_append, List.forall_mem_singleton]
    exact ⟨fun u hu c hcu => List.mem_append_left _ (h.closed u hu c hcu),
      fun c hcv => List.mem_append_left _ (hc c hcv)⟩
  climbs := by
    rw [List.forall_mem_append, List.forall_mem_singleton]
    refine ⟨fun u hu p hp => ?_, fun p hp => .inr (.inl (hp ▸ List.mem_cons_self))⟩
    obtain hd | hst | hi := h.climbs u hu p hp
    case inl     => exact .inl (List.mem_append_left _ hd)
    case inr.inr => exact .inr (.inr hi)
    case inr.inl =>
      obtain he | hst := List.mem_cons.mp hst
      case inl => exact .inl (by simp [Option.some.inj he])
      case inr => exact .inr (.inl (List.mem_cons_of_mem _ hst))
  start := by
    obtain hd | hst | hi := h.start
    case inl     => exact .inl (List.mem_append_left _ hd)
    case inr.inr => exact .inr (.inr hi)
    case inr.inl =>
      obtain he | hst := List.mem_cons.mp hst
      case inl => exact .inl (by simp [Option.some.inj he])
      case inr => exact .inr (.inl (List.mem_cons_of_mem _ hst))

end Explored

theorem IsLinked.eq_linked (hl : IsLinked tree heap) {n : Node} (hn : Dict.get? v heap = some n) :
    n.parent = up tree.edges v ∧ n.lchild = (kids tree.edges v)[0]? ∧ n.rchild = (kids tree.edges v)[1]? := by
  rw [hl] at hn
  obtain ⟨n', _, rfl⟩ := Option.map_eq_some_iff.mp hn
  exact ⟨rfl, rfl, rfl⟩

-- A child of which the loop does not see that it is unexplored is explored.
theorem mem_of_not_unexplored (hl : IsLinked tree heap) (h : tree.ids.Nodup)
    (hs : ∀ u, Dict.get? u nodes = (Dict.get? u heap).map fun n => { n with isExplored := u ∈ done })
    {i c : Int} {k : Nat} (hc : (kids tree.edges i)[k]? = some c)
    (hu : isUnexplored nodes (kids tree.edges i)[k]? = false) : c ∈ done := by
  have hmem := OpTree.edge_mem (OpTree.mem_kids.mp (List.mem_of_getElem? hc))
  obtain ⟨p, hp, rfl⟩ := List.mem_map.mp hmem.right
  rw [hc] at hu
  simpa [isUnexplored, hs, hl.get h hp] using hu

-- The node and its unexplored children are pushed on what is left of the stack.
theorem mem_pushed {x y l r : Option Int} {left right : Bool} (hany : left || right) (hx : x ∈ y :: stack) :
    x ∈ if right then r :: y :: (if left then l :: y :: stack else stack)
      else if left then l :: y :: stack else stack := by
  rw [List.mem_cons] at hx
  cases left <;> cases right <;> simp_all

-- If the loop ends, what it has explored is closed.
theorem exists_explored (hl : IsLinked tree heap) (h : tree.ids.Nodup) {fuel : Nat}
    (hok : exploreNodes columns fuel stack nodes counters = .ok counters')
    (hs : ∀ u, Dict.get? u nodes = (Dict.get? u heap).map fun n => { n with isExplored := u ∈ done })
    (he : Explored tree heap m stack done) : ∃ done', Explored tree heap m [] done' := by
  induction fuel generalizing stack nodes counters done
  case zero => contradiction
  case succ fuel ih =>
    rcases stack with _ | ⟨_ | v, stack⟩
    case nil => exact ⟨done, he⟩
    case cons.none => exact ih hok hs (he.restack fun v hv => .inr (.inl (by simpa using hv)))
    case cons.some =>
      rw [exploreNodes, hs] at hok
      cases hn : Dict.get? v heap
      case none =>
        rw [hn] at hok
        contradiction
      case some n =>
        obtain ⟨hp, hlc, hrc⟩ := hl.eq_linked hn
        rw [hn, Option.map_some] at hok
        simp only at hok
        split at hok
        case isTrue hskip =>
          apply ih hok hs (he.restack fun u hu => ?_)
          obtain hu | hu := List.mem_cons.mp hu
          case inr => exact .inr (.inl hu)
          case inl =>
            obtain rfl := Option.some.inj hu
            rw [Bool.or_eq_true, decide_eq_true_eq] at hskip
            exact hskip.imp_right fun hi => .inr ⟨n, hn, hi⟩
        case isFalse hskip =>
          rw [Bool.or_eq_true, decide_eq_true_eq, not_or] at hskip
          split at hok
          case isTrue hany =>
            exact ih hok hs (he.restack fun u hu => .inr (.inl (mem_pushed hany hu)))
          case isFalse hnone =>
            rw [Bool.or_eq_true, not_or, Bool.not_eq_true, Bool.not_eq_true, hlc, hrc] at hnone
            obtain ⟨counters₁, _, hok⟩ := Except.bind_eq_ok.mp hok
            have hkept : ¬Ignored heap v := by
              rintro ⟨n', hn', hi⟩
              rw [hn] at hn'
              exact hskip.right (Option.some.inj hn' ▸ hi)
            have hchildren : ∀ c ∈ kids tree.edges v, c ∈ done := by
              intro c hc
              have hlen := OpTree.length_kids_le h v
              obtain ⟨k, hk⟩ := List.getElem?_of_mem hc
              rcases k with _ | _ | k
              · exact mem_of_not_unexplored hl h hs hk hnone.left
              · exact mem_of_not_unexplored hl h hs hk hnone.right
              · exact absurd (List.getElem?_eq_some_iff.mp hk).choose (by omega)
            have hvisit := he.visit hkept hchildren
            rw [← hp] at hvisit
            exact ih hok (get?_explored hs hn) hvisit

namespace OpTree

variable {a : Int}

theorem HangsIn.within (h : tree.ids.Nodup) (ht : t.HangsIn a tree) :
    tree.Within t ∧ ∃ p ∈ tree.visits, p.ignore = true ∧ p.lcard = a ∧
      ∀ r, t.rootId? = some r → (p.nodeid, r) ∈ tree.edges := by
  induction tree
  case none => exact ht.elim
  case node n l r ihl ihr =>
    have hleft := Within.left h
    have hright := Within.right h
    obtain ⟨hi, ha, rfl | rfl⟩ | ht | ht := ht
    case inl.inl => exact ⟨hleft, n, List.mem_cons_self, hi, ha, fun r hr => by simp [edges, hr]⟩
    case inl.inr => exact ⟨hright, n, List.mem_cons_self, hi, ha, fun r hr => by simp [edges, hr]⟩
    case inr.inl =>
      obtain ⟨hw, p, hp, hi, ha, he⟩ := ihl (hleft.nodup h) ht
      exact ⟨hleft.trans hw, p, hleft.visits.subset hp, hi, ha, fun r hr => hleft.edges _ (he r hr)⟩
    case inr.inr =>
      obtain ⟨hw, p, hp, hi, ha, he⟩ := ihr (hright.nodup h) ht
      exact ⟨hright.trans hw, p, hright.visits.subset hp, hi, ha, fun r hr => hright.edges _ (he r hr)⟩

-- The tree around a node up to the next ignored node above. A property that a node passes on to its parent, unless
-- that is ignored, gets to the root of it.
theorem exists_top {P : Int → Prop} (h : tree.ids.Nodup) (hm : m ∈ tree.ids) (hPm : P m)
    (hP : ∀ p ∈ tree.visits, p.ignore = false → ∀ c, (p.nodeid, c) ∈ tree.edges → P c → P p.nodeid) :
    ∃ t a r, (t = tree ∧ a = 0 ∨ t.HangsIn a tree) ∧ m ∈ t.ids ∧ t.rootId? = some r ∧ P r := by
  induction tree
  case none => exact absurd hm List.not_mem_nil
  case node n l r ihl ihr =>
    -- The tree around the node in a child. It ends there, or the child is a part of what is around the node.
    have hchild : ∀ c : OpTree, (c = l ∨ c = r) → (node n l r).Within c → m ∈ c.ids →
        (∃ t a x, (t = c ∧ a = 0 ∨ t.HangsIn a c) ∧ m ∈ t.ids ∧ t.rootId? = some x ∧ P x) →
        ∃ t a x, (t = node n l r ∧ a = 0 ∨ t.HangsIn a (node n l r)) ∧ m ∈ t.ids ∧ t.rootId? = some x ∧ P x := by
      rintro c hc hw hmc ⟨t, a, x, ht, hmt, hx, hPx⟩
      have hedge : ∀ x, c.rootId? = some x → (n.nodeid, x) ∈ (node n l r).edges := by
        obtain rfl | rfl := hc <;> intro x hx <;> simp [edges, hx]
      obtain ⟨rfl, _⟩ | ht := ht
      case inl =>
        cases hi : n.ignore
        case false =>
          exact ⟨node n l r, 0, n.nodeid, .inl ⟨rfl, rfl⟩, hm, rfl,
            hP n List.mem_cons_self hi x (hedge x hx) hPx⟩
        case true => exact ⟨t, n.lcard, x, .inr (.inl ⟨hi, rfl, hc⟩), hmt, hx, hPx⟩
      case inr =>
        refine ⟨t, a, x, .inr (.inr ?_), hmt, hx, hPx⟩
        obtain rfl | rfl := hc
        case inl => exact .inl ht
        case inr => exact .inr ht
    have hleft := Within.left h
    have hright := Within.right h
    rw [ids_node, List.mem_cons, List.mem_append] at hm
    obtain rfl | hmr | hml := hm
    case inl => exact ⟨node n l r, 0, n.nodeid, .inl ⟨rfl, rfl⟩, by simp [ids_node], rfl, hPm⟩
    case inr.inl =>
      exact hchild r (.inr rfl) hright hmr (ihr (hright.nodup h) hmr fun p hp hi c hc =>
        hP p (hright.visits.subset hp) hi c (hright.edges _ hc))
    case inr.inr =>
      exact hchild l (.inl rfl) hleft hml (ihl (hleft.nodup h) hml fun p hp hi c hc =>
        hP p (hleft.visits.subset hp) hi c (hleft.edges _ hc))

end OpTree

theorem IsLinked.ignored_iff (hl : IsLinked tree heap) (h : tree.ids.Nodup) {p : PlanNode}
    (hp : p ∈ tree.visits) : Ignored heap p.nodeid ↔ p.ignore = true := by
  simp [Ignored, hl.get h hp, linked, Node.link, PlanNode.toNode]

theorem part_root {a : Int} (hl : IsLinked tree heap) (h : tree.ids.Nodup)
    (ht : t = tree ∧ a = 0 ∨ t.HangsIn a tree) :
    tree.Within t ∧ ∀ r, t.rootId? = some r →
      Leads heap (up tree.edges r) none ∧ lcardAbove tree heap r = a := by
  obtain ⟨rfl, rfl⟩ | ht := ht
  case inl =>
    refine ⟨.refl t, fun r hr => ?_⟩
    have hu := OpTree.up_root h hr
    exact ⟨.inl hu, by simp [lcardAbove, hu]⟩
  case inr =>
    obtain ⟨hw, p, hp, hi, ha, he⟩ := ht.within h
    refine ⟨hw, fun r hr => ?_⟩
    have hu := (OpTree.up_eq_some h).mpr (he r hr)
    have hget := hl.get h hp
    exact ⟨.inr ⟨rfl, p.nodeid, _, hu, hget, hi⟩,
      by simp [lcardAbove, hu, hget, linked, Node.link, PlanNode.toNode, ha]⟩

-- The explored nodes have all nodes of a part with its root.
theorem Explored.subset {r : Int} (he : Explored tree heap m [] done) (h : tree.ids.Nodup) (hw : tree.Within t)
    (hr : t.rootId? = some r) (hd : r ∈ done) : ∀ v ∈ t.ids, v ∈ done := by
  intro v hv
  by_contra hn
  obtain ⟨x, hx, hxn, hxd⟩ := (t.rooted (hw.nodup h)).exists_root (P := (· ∉ done))
    (fun u p hu hud hp hpd => hud (he.closed p hpd u
      (OpTree.mem_kids.mpr (hw.edges _ ((OpTree.up_eq_some (hw.nodup h)).mp hp)))))
    (List.mem_toFinset.mpr hv) hn
  have := OpTree.up_eq_none (List.mem_toFinset.mp hx) (hw.nodup h) hxn
  exact hxd (Option.some.inj (hr.symm.trans this) ▸ hd)

theorem exploreNodes_of_ignored (hi : Ignored heap m) {fuel : Nat} (hf : 1 < fuel) :
    exploreNodes columns fuel [some m] heap [] = .ok [] := by
  obtain ⟨n, hn, hi⟩ := hi
  obtain ⟨fuel, rfl⟩ := Nat.exists_eq_add_of_le' hf
  simp [exploreNodes, hn, hi]

-- If the loop ends, the part around the start up to the next ignored node has no ignored node.
theorem exists_part (hl : IsLinked tree heap) (h : tree.ids.Nodup) (hm : m ∈ tree.ids) {fuel : Nat}
    (hok : exploreNodes columns fuel [some m] heap [] = .ok counters) (hi : ¬Ignored heap m) :
    ∃ t a, (t = tree ∧ a = 0 ∨ t.HangsIn a tree) ∧ m ∈ t.ids ∧ ∀ n ∈ t.visits, n.ignore = false := by
  obtain ⟨done, he⟩ := exists_explored hl h hok (explores_nil hl h).get (.init tree heap m)
  have hmd : m ∈ done := he.start.resolve_right fun hn => hn.elim List.not_mem_nil hi
  obtain ⟨t, a, r, ht, hmt, hr, hrd⟩ := OpTree.exists_top (P := (· ∈ done)) h hm hmd fun p hp hpi c hc hcd => by
    obtain hd | hst | hig := he.climbs c hcd p.nodeid ((OpTree.up_eq_some h).mpr hc)
    case inl     => exact hd
    case inr.inl => exact absurd hst List.not_mem_nil
    case inr.inr => exact absurd ((hl.ignored_iff h hp).mp hig) (by simp [hpi])
  obtain ⟨hw, _⟩ := part_root hl h ht
  refine ⟨t, a, ht, hmt, fun n hn => ?_⟩
  have := he.kept _ (he.subset h hw hr hrd n.nodeid (List.mem_map_of_mem hn))
  rw [hl.ignored_iff h (hw.visits.subset hn)] at this
  simpa using this

theorem max?_nodes (hl : IsLinked tree heap) (h : tree.ids.Nodup) (hmax : (heap.map Prod.fst).max? = some m)
    (hm : m ∈ tree.ids) : (tree.nodes.map (·.nodeid)).max? = some m := by
  have hperm := tree.visits_perm.map (·.nodeid)
  rw [List.max?_eq_some_iff] at hmax ⊢
  refine ⟨hperm.subset hm, fun v hv => hmax.right v ?_⟩
  obtain ⟨p, hp, rfl⟩ := List.mem_map.mp (hperm.symm.subset hv)
  exact Dict.mem_keys_iff.mpr ⟨_, hl.get h hp⟩

-- The traversal starts at the greatest id. It ends and counts what is not ignored if the start is ignored, or if
-- no other node is ignored in the part around it, and there is nothing to count in the rest.
theorem processPlan_keptTotal_iff (columns : List String) (plan : Plan) (tree : OpTree)
    (hplan : plan.populate = .ok tree) (hne : plan ≠ .none) (hids : (tree.nodes.map (·.nodeid)).Nodup)
    (hcols : ∀ n ∈ tree.nodes, ∀ c ∈ n.op.columns, c ∈ columns) (hagg : ¬tree.RootIsAggregate) :
    (∃ steps counters, (∀ fuel, steps ≤ fuel → processPlan columns fuel plan = .ok counters) ∧
      ∀ column, (Dict.get? column counters).getD 0 = tree.keptTotal 0 column) ↔
    ∃ m, (tree.nodes.map (·.nodeid)).max? = some m ∧ tree.CountsKept m := by
  have hperm := tree.visits_perm
  have h : tree.ids.Nodup := (hperm.map _).nodup_iff.mpr hids
  have hcols : ∀ n ∈ tree.visits, ∀ c ∈ n.op.columns, c ∈ columns := fun n hn => hcols n (hperm.subset hn)
  obtain ⟨heap, m, hl, hmax, hm, hrun⟩ := processPlan_eq columns hplan hne h
  have hmax := max?_nodes hl h hmax hm
  have hmem : ∀ t : OpTree, m ∈ t.ids ↔ ∃ n ∈ t.nodes, n.nodeid = m := fun t => by
    rw [← List.mem_map, ← (t.visits_perm.map (·.nodeid)).mem_iff, OpTree.ids]
  constructor
  case mp =>
    rintro ⟨steps, counters, hok, ht⟩
    refine ⟨m, hmax, ?_⟩
    have hok : ∀ fuel, steps + tree.visits.length < fuel →
        exploreNodes columns fuel [some m] heap [] = .ok counters := by
      intro fuel hfuel
      rw [← hrun fuel (by omega)]
      exact hok fuel (by omega)
    by_cases hi : Ignored heap m
    case pos =>
      have hnil := (hok _ (by omega : _ < steps + tree.visits.length + 2)).symm.trans
        (exploreNodes_of_ignored hi (by omega))
      obtain ⟨p, hp, rfl⟩ := List.mem_map.mp hm
      refine .inl ⟨⟨p, hperm.subset hp, rfl, (hl.ignored_iff h hp).mp hi⟩, fun column => ?_⟩
      rw [← ht column, Except.ok.inj hnil]
      rfl
    case neg =>
      obtain ⟨t, a, hpart, hmt, hkept⟩ := exists_part hl h hm (hok _ (Nat.lt_succ_self _)) hi
      obtain ⟨hw, hroot⟩ := part_root hl h hpart
      obtain ⟨k, counters', hk, ht'⟩ := exploreNodes_part hl h hw hroot hkept hcols hagg hmt
      have he := (hok _ (by omega : _ < steps + tree.visits.length + k + 1)).symm.trans (hk _ (by omega))
      refine .inr ⟨t, a, hpart, (hmem t).mp hmt, fun n hn => hkept n (t.visits_perm.symm.subset hn), fun column => ?_⟩
      rw [← ht column, ← ht' column, Except.ok.inj he]
      rfl
  case mpr =>
    rintro ⟨m', hm', hcounts⟩
    obtain rfl : m = m' := Option.some.inj (hmax.symm.trans hm')
    obtain ⟨⟨n, hn, hnm, hi⟩, hzero⟩ | ⟨t, a, hpart, hmt, hkept, htotal⟩ := hcounts
    case inl =>
      have hig : Ignored heap m := hnm ▸ (hl.ignored_iff h (hperm.symm.subset hn)).mpr hi
      refine ⟨tree.visits.length + 2, [], fun fuel hfuel => ?_, fun column => (hzero column).symm⟩
      rw [hrun fuel (by omega)]
      exact exploreNodes_of_ignored hig (by omega)
    case inr =>
      obtain ⟨hw, hroot⟩ := part_root hl h hpart
      obtain ⟨k, counters, hk, ht⟩ := exploreNodes_part hl h hw hroot
        (fun n hn => hkept n (t.visits_perm.subset hn)) hcols hagg ((hmem t).mpr hmt)
      refine ⟨tree.visits.length + k + 1, counters, fun fuel hfuel => ?_, fun column => ?_⟩
      · rw [hrun fuel (by omega)]
        exact hk fuel (by omega)
      · rw [htotal]
        exact ht column

-- A scan of a table that is ignored.
def scanOfIgnored : Plan :=
  .node ⟨1, some "TableScan", some false, some 100, none, [("columns", ["o_custkey"])]⟩
    (.node ⟨0, some "GetTable", some true, none, none, []⟩ .none .none) .none

-- The nodes when the edges are set.
def scanOfIgnoredNodes : Nodes :=
  [(1, ⟨⟨1, false, 100, 0, .predicate ["o_custkey"]⟩, none, some 0, none, false⟩),
   (0, ⟨⟨0, true, 0, 0, .storedTable⟩, some 1, none, none, false⟩)]

theorem exploreNodes_scanOfIgnored (fuel : Nat) :
    exploreNodes ["o_custkey"] fuel [some 1] scanOfIgnoredNodes [] = .error .outOfFuel := by
  induction fuel using Nat.twoStepInduction
  case zero          => rfl
  case one           => rfl
  case more fuel h _ => exact h

-- The scan waits for the table, which is never marked.
theorem processPlan_scanOfIgnored :
    scanOfIgnored.populate = .ok (.node ⟨1, false, 100, 0, .predicate ["o_custkey"]⟩
      (.node ⟨0, true, 0, 0, .storedTable⟩ .none .none) .none) ∧
    ∀ fuel, processPlan ["o_custkey"] fuel scanOfIgnored = .error .outOfFuel := by
  refine ⟨by decide +kernel, fun fuel => ?_⟩
  rcases fuel with _ | _ | _ | fuel
  · rfl
  · decide +kernel
  · decide +kernel
  · exact exploreNodes_scanOfIgnored (fuel + 3)

-- The root is ignored, and it has nothing to count.
def ignoredAlias : Plan :=
  .node ⟨0, some "Alias", some true, some 100, none, []⟩
    (.node ⟨1, some "TableScan", some false, some 100, none, [("columns", ["o_custkey"])]⟩ .none .none) .none

def ignoredAliasTree : OpTree :=
  .node ⟨0, true, 100, 0, .alias⟩ (.node ⟨1, false, 100, 0, .predicate ["o_custkey"]⟩ .none .none) .none

theorem processPlan_ignoredAlias :
    ∃ steps counters, (∀ fuel, steps ≤ fuel → processPlan ["o_custkey"] fuel ignoredAlias = .ok counters) ∧
      ∀ column, (Dict.get? column counters).getD 0 = ignoredAliasTree.keptTotal 0 column := by
  apply (processPlan_keptTotal_iff ["o_custkey"] ignoredAlias ignoredAliasTree (by decide +kernel) (by decide)
    (by decide) (by decide) id).mpr
  refine ⟨1, by decide, .inr ⟨_, 100, .inr (.inl ⟨rfl, rfl, .inl rfl⟩), by decide, by decide, fun column => ?_⟩⟩
  simp [ignoredAliasTree, OpTree.keptTotal, OpTree.total]

end Hyrise
