import VldbArtifacts.Lib.Climb
import VldbArtifacts.Lib.Except
import VldbArtifacts.Hyrise.QueryPlan

-- The counters of a query plan are the sum over its operators.

namespace Hyrise

variable {columns : List String} {nodes : Nodes} {counters : Counters} {column : String}

-- The count of a column, which is not in the dictionary before it is first counted.
def tally (counters : Counters) (column : String) : Int :=
  (Dict.get? column counters).getD 0

section Count

open OpTree (perColumn contribution)

theorem perColumn_cons (c : String) (cs : List String) (rows : Int) (column : String) :
    perColumn (c :: cs) rows column = (if c = column then rows else 0) + perColumn cs rows column := by
  rw [perColumn, perColumn, List.count_cons]
  by_cases h : c = column
  case pos => simp [h]; ring
  case neg => simp [h]

theorem updateDictCounter_eq {key : String} (h : key ∈ columns) (incr : Int) (counters : Counters) :
    ∃ counters', updateDictCounter columns incr counters key = .ok counters' ∧
      ∀ column, tally counters' column = tally counters column + if key = column then incr else 0 := by
  refine ⟨_, if_neg (not_not_intro h), fun column => ?_⟩
  rw [tally, Dict.get?_set]
  by_cases hk : key = column
  case pos => simp [hk, tally]
  case neg => simp [hk, tally]

-- A loop over columns whose round counts the same for each of them.
theorem foldlM_tally {f : Counters → String → Script Counters} {cs : List String} {rows : Int}
    (hf : ∀ c ∈ cs, ∀ counters, ∃ counters', f counters c = .ok counters' ∧
      ∀ column, tally counters' column = tally counters column + if c = column then rows else 0)
    (counters : Counters) :
    ∃ counters', cs.foldlM f counters = .ok counters' ∧
      ∀ column, tally counters' column = tally counters column + perColumn cs rows column := by
  induction cs generalizing counters
  case nil => exact ⟨counters, rfl, fun _ => by simp [perColumn]⟩
  case cons c cs ih =>
    rw [List.forall_mem_cons] at hf
    have ⟨counters₁, h₁, ht₁⟩ := hf.left counters
    have ⟨counters₂, h₂, ht₂⟩ := ih hf.right counters₁
    refine ⟨counters₂, ?_, fun column => ?_⟩
    · rw [List.foldlM_cons, h₁]
      exact h₂
    · rw [ht₂, ht₁, perColumn_cons, add_assoc]

theorem foldlM_update (cs : List String) (h : ∀ c ∈ cs, c ∈ columns) (rows : Int)
    (counters : Counters) :
    ∃ counters', cs.foldlM (updateDictCounter columns rows) counters = .ok counters' ∧
      ∀ column, tally counters' column = tally counters column + perColumn cs rows column :=
  foldlM_tally (fun c hc counters => updateDictCounter_eq (h c hc) rows counters) counters

theorem countNode_eq {n : Node} {above : Int} (h : ∀ c ∈ n.op.columns, c ∈ columns)
    (habove : ∀ g gm a am oo oi, n.op = .aggregate g gm a am oo oi → parentLcard nodes n = .ok above)
    (counters : Counters) :
    ∃ counters', countNode columns nodes n counters = .ok counters' ∧ ∀ column,
      tally counters' column = tally counters column + contribution n.toPlanNode above column := by
  rw [countNode]
  cases hop : n.op
  case predicate cs =>
    rw [hop] at h
    simpa only [contribution, hop] using foldlM_update cs h n.lcard counters
  case projection fs cs =>
    rw [hop] at h
    simpa only [contribution, hop] using foldlM_update cs h n.lcard counters
  case sort cs ms =>
    rw [hop] at h
    simpa only [contribution, hop] using foldlM_update cs h n.lcard counters
  case joinHash ls rs =>
    rw [hop] at h
    have ⟨hl, hr⟩ := List.forall_mem_append.mp h
    have ⟨counters₁, h₁, ht₁⟩ := foldlM_update ls hl n.lcard counters
    have ⟨counters₂, h₂, ht₂⟩ := foldlM_update rs hr n.rcard counters₁
    refine ⟨counters₂, ?_, fun column => ?_⟩
    · simp only [h₁, Except.ok_bind, h₂]
    · rw [ht₂, ht₁, contribution, hop, add_assoc]
  case aggregate g gm a am oo oi =>
    rw [hop] at h
    have hp := habove g gm a am oo oi hop
    simp only [Operator.columns, List.forall_mem_append] at h
    have ⟨⟨⟨ha, hg⟩, hoo⟩, hoi⟩ := h
    have ⟨counters₁, h₁, ht₁⟩ := foldlM_update a ha n.lcard counters
    have hround : ∀ c ∈ g, ∀ counters, ∃ counters', (do
        let counters ← updateDictCounter columns n.lcard counters c
        updateDictCounter columns (← parentLcard nodes n) counters c) = .ok counters' ∧
        ∀ column, tally counters' column =
          tally counters column + if c = column then n.lcard + above else 0 := by
      intro c hc counters
      have ⟨counters₁, h₁, ht₁⟩ := updateDictCounter_eq (hg c hc) n.lcard counters
      have ⟨counters₂, h₂, ht₂⟩ := updateDictCounter_eq (hg c hc) above counters₁
      refine ⟨counters₂, by simp only [h₁, Except.ok_bind, hp, h₂], fun column => ?_⟩
      rw [ht₂, ht₁, add_assoc]
      split <;> simp
    have ⟨counters₂, h₂, ht₂⟩ := foldlM_tally hround counters₁
    have ⟨counters₃, h₃, ht₃⟩ := foldlM_update oo hoo above counters₂
    have ⟨counters₄, h₄, ht₄⟩ := foldlM_update oi hoi n.lcard counters₃
    refine ⟨counters₄, ?_, fun column => ?_⟩
    · simp only [hp, Except.ok_bind] at h₂ ⊢
      simp only [h₁, Except.ok_bind, h₂, h₃, h₄]
    · rw [ht₄, ht₃, ht₂, ht₁, contribution, hop]
      ring
  all_goals exact ⟨counters, rfl, fun _ => by simp [contribution, hop]⟩

end Count

namespace OpTree

-- The nodes in the order in which `process_plan` comes to them.
def visits : OpTree → List PlanNode
  | none       => []
  | node n l r => n :: (r.visits ++ l.visits)

def rootId? : OpTree → Option Int
  | none       => .none
  | node n _ _ => some n.nodeid

def edges : OpTree → List (Int × Int)
  | none       => []
  | node n l r =>
    l.rootId?.toList.map (n.nodeid, ·) ++ r.rootId?.toList.map (n.nodeid, ·) ++ (r.edges ++ l.edges)

end OpTree

def addNode (nodes : Nodes) (n : PlanNode) : Nodes :=
  Dict.set n.nodeid n.toNode nodes

section Collect

theorem populateNode_nodeid {d : DictNode} {n : PlanNode} (h : populateNode d = .ok n) :
    n.nodeid = d.nodeid := by
  have ⟨optype, _, h⟩ := Except.bind_eq_ok.mp h
  split at h
  case h_1 => contradiction
  case h_2 =>
    have ⟨op, _, h⟩ := Except.bind_eq_ok.mp h
    exact (Except.ok.inj h) ▸ rfl

theorem populate_node {d : DictNode} {l r : Plan} {tree : OpTree} (h : (Plan.node d l r).populate = .ok tree) :
    ∃ n tl tr, populateNode d = .ok n ∧ l.populate = .ok tl ∧ r.populate = .ok tr ∧ tree = .node n tl tr := by
  have ⟨n, hn, h⟩ := Except.bind_eq_ok.mp h
  have ⟨tl, hl, h⟩ := Except.bind_eq_ok.mp h
  have ⟨tr, hr, h⟩ := Except.bind_eq_ok.mp h
  exact ⟨n, tl, tr, hn, hl, hr, (Except.ok.inj h).symm⟩

theorem rootId?_eq {p : Plan} {tree : OpTree} (h : p.populate = .ok tree) : tree.rootId? = p.nodeid? := by
  cases p
  case none => exact Except.ok.inj h ▸ rfl
  case node d l r =>
    have ⟨n, tl, tr, hn, _, _, ht⟩ := populate_node h
    rw [ht, OpTree.rootId?, populateNode_nodeid hn]
    rfl

-- The plans on the stack and their operators.
def Populates (p : Plan) (tree : OpTree) : Prop :=
  p.populate = .ok tree ∧ p ≠ .none

-- A child that is there is put on the stack.
theorem exists_push {ps : List Plan} {trees : List OpTree} (h : List.Forall₂ Populates ps trees) {p : Plan}
    {tree : OpTree} (hp : p.populate = .ok tree) :
    ∃ trees', List.Forall₂ Populates (if p.nodeid?.toList = [] then ps else p :: ps) trees' ∧
      trees'.flatMap OpTree.visits = tree.visits ++ trees.flatMap OpTree.visits ∧
      trees'.flatMap OpTree.edges = tree.edges ++ trees.flatMap OpTree.edges := by
  cases p
  case none =>
    obtain rfl := Except.ok.inj hp
    exact ⟨trees, h, rfl, rfl⟩
  case node d l r => exact ⟨tree :: trees, .cons ⟨hp, nofun⟩ h, List.flatMap_cons, List.flatMap_cons⟩

theorem collect_eq {fuel : Nat} {ps : List Plan} {trees : List OpTree} (h : List.Forall₂ Populates ps trees)
    (hfuel : (trees.flatMap OpTree.visits).length < fuel) (nodes : Nodes) (edges : List (Int × Int)) :
    collect fuel ps nodes edges = .ok ((trees.flatMap OpTree.visits).foldl addNode nodes,
      edges ++ trees.flatMap OpTree.edges) := by
  induction fuel generalizing ps trees nodes edges
  case zero => contradiction
  case succ fuel ih =>
    cases h
    case nil => simp [collect]
    case cons p tree ps trees hp h =>
      cases p
      case none => exact absurd rfl hp.right
      case node d l r =>
        have ⟨n, tl, tr, hn, hl, hr, ht⟩ := populate_node hp.left
        have ⟨trees₁, h₁, hv₁, he₁⟩ := exists_push h hl
        have ⟨trees₂, h₂, hv₂, he₂⟩ := exists_push h₁ hr
        have hv : (tree :: trees).flatMap OpTree.visits = n :: trees₂.flatMap OpTree.visits := by
          rw [hv₂, hv₁, ht, List.flatMap_cons, OpTree.visits]
          simp
        rw [collect, hn]
        rw [hv, List.length_cons] at hfuel
        simp only [Except.ok_bind]
        rw [ih h₂ (by omega), hv, List.foldl_cons, he₂, he₁, ht, List.flatMap_cons, OpTree.edges,
          rootId?_eq hl, rootId?_eq hr, populateNode_nodeid hn, addNode, populateNode_nodeid hn]
        simp

end Collect

section Link

variable {edges : List (Int × Int)} {e : Int × Int} {v : Int}

def kids (edges : List (Int × Int)) (v : Int) : List Int :=
  (edges.filter (·.1 = v)).map Prod.snd

def up (edges : List (Int × Int)) (v : Int) : Option Int :=
  (edges.filter (·.2 = v)).getLast?.map Prod.fst

def Node.link (children : List Int) (parent : Option Int) (n : Node) : Node :=
  { n with parent := parent, lchild := children[0]?, rchild := children[1]? }

theorem addChild_link {ks : List Int} (h : ks.length ≤ 1) (p : Option Int) (n : Node) (child : Int) :
    (n.link ks p).addChild child = .ok (n.link (ks ++ [child]) p) := by
  match ks with
  | []          => rfl
  | [c]         => rfl
  | _ :: _ :: _ => simp at h

-- The node after all edges.
def linked (edges : List (Int × Int)) (v : Int) : Node → Node :=
  Node.link (kids edges v) (up edges v)

theorem kids_append (edges : List (Int × Int)) (e : Int × Int) (v : Int) :
    kids (edges ++ [e]) v = kids edges v ++ if e.1 = v then [e.2] else [] := by
  by_cases h : e.1 = v <;> simp [kids, h]

theorem up_append (edges : List (Int × Int)) (e : Int × Int) (v : Int) :
    up (edges ++ [e]) v = if e.2 = v then some e.1 else up edges v := by
  by_cases h : e.2 = v <;> simp [up, h]

theorem setEdge_eq (hmem : ∃ n, Dict.get? e.1 nodes = some n) (hmem' : ∃ n, Dict.get? e.2 nodes = some n)
    (hkids : (kids (edges ++ [e]) e.1).length ≤ 2) {nodes₁ : Nodes}
    (h : ∀ v, Dict.get? v nodes₁ = (Dict.get? v nodes).map (linked edges v)) :
    ∃ nodes₂, setEdge nodes₁ e = .ok nodes₂ ∧
      ∀ v, Dict.get? v nodes₂ = (Dict.get? v nodes).map (linked (edges ++ [e]) v) := by
  have ⟨n, hn⟩ := hmem
  have ⟨c, hc⟩ := hmem'
  have hself := kids_append edges e e.1
  rw [if_pos rfl] at hself
  rw [hself, List.length_append, List.length_singleton] at hkids
  have hat : nodeAt nodes₁ e.1 = .ok (linked edges e.1 n) := by rw [nodeAt, h, hn]; rfl
  have hadd : (linked edges e.1 n).addChild e.2 = .ok (n.link (kids (edges ++ [e]) e.1) (up edges e.1)) := by
    rw [hself]
    exact addChild_link (by omega) _ n e.2
  have hset : ∀ v, Dict.get? v (Dict.set e.1 (n.link (kids (edges ++ [e]) e.1) (up edges e.1)) nodes₁) =
      (Dict.get? v nodes).map (Node.link (kids (edges ++ [e]) v) (up edges v)) := by
    intro v
    rw [Dict.get?_set, h]
    by_cases hv : e.1 = v
    case pos => rw [if_pos hv, ← hv, hn]; rfl
    case neg => rw [if_neg hv, kids_append, if_neg hv, List.append_nil]; rfl
  refine ⟨Dict.set e.2 (linked (edges ++ [e]) e.2 c)
    (Dict.set e.1 (n.link (kids (edges ++ [e]) e.1) (up edges e.1)) nodes₁), ?_, fun v => ?_⟩
  · have hat' : nodeAt (Dict.set e.1 (n.link (kids (edges ++ [e]) e.1) (up edges e.1)) nodes₁) e.2 =
        .ok (c.link (kids (edges ++ [e]) e.2) (up edges e.2)) := by
      rw [nodeAt, hset, hc]
      rfl
    simp only [setEdge, hat, Except.ok_bind, hadd, hat']
    rw [linked, up_append, if_pos rfl]
    rfl
  · rw [Dict.get?_set, hset]
    by_cases hv : e.2 = v
    case pos => rw [if_pos hv, ← hv, hc]; rfl
    case neg => rw [if_neg hv, linked, up_append, if_neg hv]

theorem setEdges_eq (hbase : ∀ v n, Dict.get? v nodes = some n → ∃ p : PlanNode, n = p.toNode)
    (hmem : ∀ e ∈ edges, (∃ n, Dict.get? e.1 nodes = some n) ∧ ∃ n, Dict.get? e.2 nodes = some n)
    (hkids : ∀ v, (kids edges v).length ≤ 2) :
    ∃ nodes', edges.foldlM setEdge nodes = .ok nodes' ∧
      ∀ v, Dict.get? v nodes' = (Dict.get? v nodes).map (linked edges v) := by
  induction edges using List.reverseRecOn
  case nil =>
    refine ⟨nodes, rfl, fun v => ?_⟩
    cases hn : Dict.get? v nodes
    case none   => rfl
    case some n =>
      have ⟨p, hp⟩ := hbase v n hn
      exact hp ▸ rfl
  case append_singleton edges e ih =>
    rw [List.forall_mem_append, List.forall_mem_singleton] at hmem
    have ⟨nodes₁, h₁, hl₁⟩ := ih hmem.left fun v => by
      have := hkids v
      rw [kids_append, List.length_append] at this
      omega
    have ⟨nodes₂, h₂, hl₂⟩ := setEdge_eq hmem.right.left hmem.right.right (hkids e.1) hl₁
    refine ⟨nodes₂, ?_, hl₂⟩
    rw [List.foldlM_append, h₁, Except.ok_bind, List.foldlM_cons, h₂]
    rfl

end Link

end Hyrise
