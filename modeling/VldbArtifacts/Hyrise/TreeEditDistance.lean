import VldbArtifacts.Lib.TreeEdit
import VldbArtifacts.Hyrise.QueryPlan

-- tree_edit_distance.py and tree_edit_distance2.py: how similar two query plans are. The first script weighs
-- a column by how often it is accessed, the second one only looks at which columns are accessed.

namespace Hyrise

-- A plan as it is read from JSON. The value of the key of a child may also be missing or null.
mutual
inductive PlanDict
  | mk (d : DictNode) (lchild rchild : PlanValue)

inductive PlanValue
  | missing | null
  | dict (p : PlanDict)
end

-- A dictionary whose keys are columns.
structure AccessCounts (V : Type) where
  items : List (String × V)
  nodup : (items.map Prod.fst).Nodup

-- `[optype, access_counts]`.
structure NodeLabel (V : Type) where
  optype       : OpType
  accessCounts : AccessCounts V

-- zss compares with the label `''` when it inserts or removes a node.
inductive Label (V : Type)
  | empty
  | list (l : NodeLabel V)

abbrev TreeNode (V : Type) :=
  TreeEdit.Node (NodeLabel V)

variable {V : Type}

namespace AccessCounts

def empty : AccessCounts V where
  items := []
  nodup := List.nodup_nil

def get? (counts : AccessCounts V) (col : String) : Option V :=
  Dict.get? col counts.items

def set (counts : AccessCounts V) (col : String) (v : V) : AccessCounts V where
  items := Dict.set col v counts.items
  nodup := Dict.nodup_set counts.nodup

def keys (counts : AccessCounts V) : List String :=
  counts.items.map Prod.fst

-- `==` of two dictionaries, which does not depend on the order of the keys.
def eq [DecidableEq V] (x y : AccessCounts V) : Bool :=
  x.items.length = y.items.length && x.items.all fun p => y.get? p.1 = some p.2

end AccessCounts

namespace Label

-- `==` of two labels.
def eq [DecidableEq V] : Label V → Label V → Bool
  | empty,  empty  => true
  | list x, list y => x.optype = y.optype && x.accessCounts.eq y.accessCounts
  | _,      _      => false

def len : Label V → Int
  | empty  => 0
  | list _ => 2

end Label

def DictNode.card : Option Int → Script Int
  | none   => .error .keyError
  | some n => return n

-- The counts that `dict_to_node` collects with the script's `add_column_to_node_label`.
def accessCountsBy (add : AccessCounts V → List String → Int → AccessCounts V) (d : DictNode) :
    OpType → Script (AccessCounts V)
  | .predicate  => return add .empty (← d.list "columns") (← DictNode.card d.lcard)
  | .joinHash   => do
    let counts := add .empty (← d.list "lcolumn") (← DictNode.card d.lcard)
    return add counts (← d.list "rcolumn") (← DictNode.card d.rcard)
  | .projection => return add .empty (← d.list "noforward") (← DictNode.card d.lcard)
  | .aggregate  => do
    let counts := add .empty (← d.list "aggr_nomod") (← DictNode.card d.lcard)
    let counts := add counts (← d.list "grpby_nomod") (← DictNode.card d.lcard)
    let counts ← optional counts "aggr_onlyout"
    optional counts "aggr_onlyin"
  | .sort       => return add .empty (← d.list "col_nomod") (← DictNode.card d.lcard)
  | .alias | .union | .validate | .storedTable | .dummy => return .empty
where
  optional (counts : AccessCounts V) (key : String) : Script (AccessCounts V) :=
    match Dict.get? key d.lists with
    | none         => return counts
    | some columns => return add counts columns (← DictNode.card d.lcard)

def labelBy (add : AccessCounts V → List String → Int → AccessCounts V) (d : DictNode) :
    Script (NodeLabel V) :=
  match d.name with
  | none     => .error .keyError
  | some ops => do
    let optype ← typeFromName ops
    return { optype, accessCounts := ← accessCountsBy add d optype }

mutual
def dictToNodeBy (add : AccessCounts V → List String → Int → AccessCounts V) :
    PlanDict → Script (TreeNode V)
  | .mk d lchild rchild => do
    let label ← labelBy add d
    let left ← lchildBy add lchild
    let right ← rchildBy add rchild
    return .mk label (left ++ right)

def lchildBy (add : AccessCounts V → List String → Int → AccessCounts V) :
    PlanValue → Script (List (TreeNode V))
  | .missing => .error .keyError
  | .null    => return []
  | .dict p  => return [← dictToNodeBy add p]

-- The key of the right child may be missing.
def rchildBy (add : AccessCounts V → List String → Int → AccessCounts V) :
    PlanValue → Script (List (TreeNode V))
  | .missing => return []
  | .null    => return []
  | .dict p  => return [← dictToNodeBy add p]
end

-- What a column of the union adds.
def columnDist (both : V → V → Int) (one : V → Int) : Option V → Option V → Int
  | some v, some w => both v w
  | some v, none   => one v
  | none,   some w => one w
  | none,   none   => 0

def columnHammingDistBy (total : AccessCounts V → Int) (both : V → V → Int) (one : V → Int) :
    Label V → Label V → Int
  | .empty,  .list y => total y.accessCounts
  | .list x, .empty  => total x.accessCounts
  | .empty,  .empty  => 0
  | .list x, .list y =>
    ((x.accessCounts.keys ∪ y.accessCounts.keys).map fun col =>
      columnDist both one (x.accessCounts.get? col) (y.accessCounts.get? col)).sum

def nodeTypeCost : Int := 1

def columnCost : Int := 1

-- An argument that is `None` has no label at all.
def nodeDistBy [DecidableEq V] (columnHammingDist : Label V → Label V → Int) :
    Option (Label V) → Option (Label V) → Int
  | none,   none   => 0
  | none,   some y => (y.len - 1) * columnCost
  | some x, none   => nodeTypeCost + (x.len - 1) * columnCost
  | some x, some y => if x.eq y then 0 else nodeTypeCost + columnHammingDist x y

-- `zss.simple_distance`.
def simpleDistance (labelDist : Label V → Label V → Int) (t u : TreeNode V) : Int :=
  TreeEdit.dist (TreeEdit.simpleCosts labelDist .empty .list) t u

def compareJsonTreesBy (dictToTree : PlanDict → Script (TreeNode V))
    (nodeDist : Option (Label V) → Option (Label V) → Int) (plan1 plan2 : PlanDict) : Script Int := do
  let t1 ← dictToTree plan1
  let t2 ← dictToTree plan2
  return simpleDistance (fun x y => nodeDist (some x) (some y)) t1 t2

namespace TreeEditDistance

def addColumnToNodeLabel (accessCounts : AccessCounts Int) (columns : List String) (cardinality : Int) :
    AccessCounts Int :=
  columns.foldl (fun counts col =>
    match counts.get? col with
    | some n => counts.set col (n + cardinality)
    | none   => counts.set col cardinality) accessCounts

def dictToTree (plan : PlanDict) : Script (TreeNode Int) :=
  dictToNodeBy addColumnToNodeLabel plan

def sumUpDcitAccesses (dictionary : AccessCounts Int) : Int :=
  (dictionary.items.map Prod.snd).sum

def columnHammingDist : Label Int → Label Int → Int :=
  columnHammingDistBy sumUpDcitAccesses (fun v w => |v - w|) fun v => v

def nodeDist : Option (Label Int) → Option (Label Int) → Int :=
  nodeDistBy columnHammingDist

def compareJsonTrees (plan1 plan2 : PlanDict) : Script Int :=
  compareJsonTreesBy dictToTree nodeDist plan1 plan2

end TreeEditDistance

namespace TreeEditDistance2

def addColumnToNodeLabel (accessCounts : AccessCounts Bool) (columns : List String)
    (_cardinality : Int) : AccessCounts Bool :=
  columns.foldl (fun counts col => counts.set col true) accessCounts

def dictToTree (plan : PlanDict) : Script (TreeNode Bool) :=
  dictToNodeBy addColumnToNodeLabel plan

def numAccessedColumns (dictionary : AccessCounts Bool) : Int :=
  dictionary.items.length

def columnHammingDist : Label Bool → Label Bool → Int :=
  columnHammingDistBy numAccessedColumns (fun _ _ => 0) fun _ => 1

def nodeDist : Option (Label Bool) → Option (Label Bool) → Int :=
  nodeDistBy columnHammingDist

def compareJsonTrees (plan1 plan2 : PlanDict) : Script Int :=
  compareJsonTreesBy dictToTree nodeDist plan1 plan2

end TreeEditDistance2

end Hyrise
