import VldbArtifacts.Lib.Dict
import VldbArtifacts.Hyrise.Trace

-- process_query_plan.py: how often the operators of a query plan access each column.

namespace Hyrise

-- A dictionary of the plan without its children. The keys that have lists of columns are in `lists`.
structure DictNode where
  nodeid : Int
  name   : Option String
  ignore : Option Bool
  lcard  : Option Int
  rcard  : Option Int
  lists  : List (String × List String)
  deriving DecidableEq, Repr

-- A child is `none` if the key is missing or its value is null or empty.
inductive Plan
  | none
  | node (d : DictNode) (lchild rchild : Plan)
  deriving DecidableEq, Repr

inductive OpType
  | alias | projection | sort | aggregate | joinHash | validate | predicate | storedTable | dummy | union
  deriving DecidableEq, Repr

-- `"Join" in ops`.
def isJoin (ops : String) : Bool :=
  ops.toList.tails.any ("Join".toList.isPrefixOf ·)

def typeFromName (ops : String) : Script OpType :=
  if ops = "Alias" then return .alias
  else if ops = "Projection" then return .projection
  else if ops = "Sort" then return .sort
  else if ops = "AggregateHash" then return .aggregate
  else if isJoin ops then return .joinHash
  else if ops = "Validate" then return .validate
  else if ops = "TableScan" then return .predicate
  else if ops = "GetTable" then return .storedTable
  else if ops = "Union" then return .union
  else .error .exit

-- The type of an operator and the data that `populate_node` sets for it.
inductive Operator
  | alias | validate | storedTable | dummy | union
  | projection (forwardedColumns nonForwardedColumns : List String)
  | joinHash (lColumns rColumns : List String)
  | predicate (columns : List String)
  | aggregate (groupbyNomod groupbyMod aggregateNomod aggregateMod aggregateOnlyout
      aggregateOnlyin : List String)
  | sort (nomod mod : List String)
  deriving DecidableEq, Repr

structure PlanNode where
  nodeid : Int
  ignore : Bool
  lcard  : Int
  rcard  : Int
  op     : Operator
  deriving DecidableEq, Repr

def DictNode.list (d : DictNode) (key : String) : Script (List String) :=
  match Dict.get? key d.lists with
  | none    => .error .keyError
  | some cs => return cs

def operator (d : DictNode) : OpType → Script Operator
  | .projection  => return .projection (← d.list "forward") (← d.list "noforward")
  | .joinHash    => return .joinHash (← d.list "lcolumn") (← d.list "rcolumn")
  | .predicate   => return .predicate (← d.list "columns")
  | .aggregate   =>
    return .aggregate (← d.list "grpby_nomod") (← d.list "grpby_mod") (← d.list "aggr_nomod")
      (← d.list "aggr_mod") ((Dict.get? "aggr_onlyout" d.lists).getD [])
      ((Dict.get? "aggr_onlyin" d.lists).getD [])
  | .sort        => return .sort (← d.list "col_nomod") (← d.list "col_mod")
  | .alias       => return .alias
  | .validate    => return .validate
  | .storedTable => return .storedTable
  | .dummy       => return .dummy
  | .union       => return .union

def DictNode.optype (d : DictNode) : Script OpType :=
  match d.name with
  | none     => return .dummy
  | some ops => typeFromName ops

def populateNode (d : DictNode) : Script PlanNode := do
  let optype ← d.optype
  match d.ignore with
  | none        => .error .keyError
  | some ignore =>
    return { nodeid := d.nodeid, ignore, lcard := d.lcard.getD 0, rcard := d.rcard.getD 0,
             op := ← operator d optype }

-- A node with its references, which are the ids of the nodes.
structure Node extends PlanNode where
  parent     : Option Int
  lchild     : Option Int
  rchild     : Option Int
  isExplored : Bool
  deriving DecidableEq, Repr

abbrev Nodes :=
  List (Int × Node)

abbrev Counters :=
  List (String × Int)

def PlanNode.toNode (n : PlanNode) : Node :=
  { n with parent := none, lchild := none, rchild := none, isExplored := false }

def Plan.nodeid? : Plan → Option Int
  | none       => .none
  | node d _ _ => some d.nodeid

-- The first pass of `process_plan`. The top of the stack is its first item.
def collect : Nat → List Plan → Nodes → List (Int × Int) → Script (Nodes × List (Int × Int))
  | 0,        _,                         _,     _     => .error .outOfFuel
  | _ + 1,    [],                        nodes, edges => return (nodes, edges)
  | _ + 1,    .none :: _,                _,     _     => .error .keyError
  | fuel + 1, .node d l r :: toExplore,  nodes, edges => do
    let n ← populateNode d
    let lefts  := l.nodeid?.toList
    let rights := r.nodeid?.toList
    let toExplore := if lefts = [] then toExplore else l :: toExplore
    let toExplore := if rights = [] then toExplore else r :: toExplore
    collect fuel toExplore (Dict.set d.nodeid n.toNode nodes)
      (edges ++ lefts.map (d.nodeid, ·) ++ rights.map (d.nodeid, ·))

def Node.addChild (n : Node) (child : Int) : Script Node :=
  if n.lchild = none then
    return { n with lchild := some child }
  else if n.rchild = none then
    return { n with rchild := some child }
  else
    .error .exit

def nodeAt (nodes : Nodes) (nodeid : Int) : Script Node :=
  match Dict.get? nodeid nodes with
  | none   => .error .keyError
  | some n => return n

-- A round of the loop that sets the children and the parents.
def setEdge (nodes : Nodes) (edge : Int × Int) : Script Nodes := do
  let n ← (← nodeAt nodes edge.1).addChild edge.2
  let nodes := Dict.set edge.1 n nodes
  let child ← nodeAt nodes edge.2
  return Dict.set edge.2 { child with parent := some edge.1 } nodes

def updateDictCounter (columns : List String) (incr : Int) (dictionary : Counters) (key : String) :
    Script Counters :=
  if key ∉ columns then
    .error .exit
  else
    return Dict.set key ((Dict.get? key dictionary).getD 0 + incr) dictionary

-- `n.parent.lcard`.
def parentLcard (nodes : Nodes) (n : Node) : Script Int :=
  match n.parent.bind (Dict.get? · nodes) with
  | none   => .error .attributeError
  | some p => return p.lcard

-- What is counted for an operator.
def countNode (columns : List String) (nodes : Nodes) (n : Node) (counters : Counters) :
    Script Counters :=
  let update := updateDictCounter columns
  match n.op with
  | .predicate cs    => cs.foldlM (update n.lcard) counters
  | .joinHash ls rs  => do
    let counters ← ls.foldlM (update n.lcard) counters
    rs.foldlM (update n.rcard) counters
  | .projection _ cs => cs.foldlM (update n.lcard) counters
  | .aggregate groupbyNomod _ aggregateNomod _ aggregateOnlyout aggregateOnlyin => do
    let counters ← aggregateNomod.foldlM (update n.lcard) counters
    let counters ← groupbyNomod.foldlM (fun counters c => do
      let counters ← update n.lcard counters c
      update (← parentLcard nodes n) counters c) counters
    let counters ← aggregateOnlyout.foldlM (fun counters c => do
      update (← parentLcard nodes n) counters c) counters
    aggregateOnlyin.foldlM (update n.lcard) counters
  | .sort cs _       => cs.foldlM (update n.lcard) counters
  | _                => return counters

def isUnexplored (nodes : Nodes) (child : Option Int) : Bool :=
  (child.bind (Dict.get? · nodes)).any fun n => !n.isExplored

-- The loop of `access_counts_from_tree`. The top of the stack is its first item.
def exploreNodes (columns : List String) :
    Nat → List (Option Int) → Nodes → Counters → Script Counters
  | 0,        _,                  _,     _        => .error .outOfFuel
  | _ + 1,    [],                 _,     counters => return counters
  | fuel + 1, none :: stack,      nodes, counters => exploreNodes columns fuel stack nodes counters
  | fuel + 1, some nodeid :: stack, nodes, counters =>
    match Dict.get? nodeid nodes with
    | none   => .error .keyError
    | some n =>
      if n.isExplored || n.ignore then
        exploreNodes columns fuel stack nodes counters
      else
        let left  := isUnexplored nodes n.lchild
        let right := isUnexplored nodes n.rchild
        if left || right then
          let stack := if left then n.lchild :: some nodeid :: stack else stack
          let stack := if right then n.rchild :: some nodeid :: stack else stack
          exploreNodes columns fuel stack nodes counters
        else do
          let counters ← countNode columns nodes n counters
          let nodes := Dict.set nodeid { n with isExplored := true } nodes
          exploreNodes columns fuel (n.parent :: stack) nodes counters

def accessCountsFromTree (columns : List String) (fuel : Nat) (tree : Nodes) : Script Counters :=
  match (tree.map Prod.fst).max? with
  | none           => .error .valueError
  | some maxNodeId => exploreNodes columns fuel [some maxNodeId] tree []

def processPlan (columns : List String) (fuel : Nat) (plan : Plan) : Script Counters := do
  let (nodes, edges) ← collect fuel [plan] [] []
  let nodes ← edges.foldlM setEdge nodes
  accessCountsFromTree columns fuel nodes

-- The operators of a plan, each with the keys that it needs.
inductive OpTree
  | none
  | node (n : PlanNode) (lchild rchild : OpTree)
  deriving DecidableEq, Repr

namespace OpTree

def nodes : OpTree → List PlanNode
  | none       => []
  | node n l r => n :: (l.nodes ++ r.nodes)

-- How often a column is accessed if each column of the list is accessed for each row.
def perColumn (cs : List String) (rows : Int) (column : String) : Int :=
  cs.count column * rows

-- What an operator contributes. `above` is the left cardinality of its parent.
def contribution (n : PlanNode) (above : Int) (column : String) : Int :=
  match n.op with
  | .predicate cs => perColumn cs n.lcard column
  | .projection _ cs => perColumn cs n.lcard column
  | .sort cs _ => perColumn cs n.lcard column
  | .joinHash ls rs => perColumn ls n.lcard column + perColumn rs n.rcard column
  | .aggregate groupby _ nomod _ onlyout onlyin =>
    perColumn nomod n.lcard column + perColumn onlyin n.lcard column +
      perColumn groupby (n.lcard + above) column + perColumn onlyout above column
  | _ => 0

-- The sum over all nodes.
def total (above : Int) (column : String) : OpTree → Int
  | none       => 0
  | node n l r => contribution n above column + l.total n.lcard column + r.total n.lcard column

-- The sum over the nodes that are not ignored.
def keptTotal (above : Int) (column : String) : OpTree → Int
  | none       => 0
  | node n l r =>
    (if n.ignore then 0 else contribution n above column) + l.keptTotal n.lcard column +
      r.keptTotal n.lcard column

-- The tree is right below an ignored node of the plan. `above` is the left cardinality of that node.
def HangsIn (t : OpTree) (above : Int) : OpTree → Prop
  | none       => False
  | node n l r =>
    n.ignore = true ∧ n.lcard = above ∧ (t = l ∨ t = r) ∨ t.HangsIn above l ∨ t.HangsIn above r

-- The traversal starts at the node `m`. If it is ignored, nothing is counted. If not, the nodes around it are
-- counted, up to the next ignored node above: there must not be another ignored node among them. What is not
-- counted must not add anything.
def CountsKept (m : Int) (plan : OpTree) : Prop :=
  (∃ n ∈ plan.nodes, n.nodeid = m ∧ n.ignore = true) ∧ (∀ column, plan.keptTotal 0 column = 0) ∨
  ∃ t above, (t = plan ∧ above = 0 ∨ t.HangsIn above plan) ∧ (∃ n ∈ t.nodes, n.nodeid = m) ∧
    (∀ n ∈ t.nodes, n.ignore = false) ∧ ∀ column, plan.keptTotal 0 column = t.total above column

def RootIsAggregate : OpTree → Prop
  | node ⟨_, _, _, _, .aggregate ..⟩ _ _ => True
  | _                                    => False

end OpTree

-- The columns that are counted for an operator.
def Operator.columns : Operator → List String
  | predicate cs | projection _ cs | sort cs _  => cs
  | joinHash ls rs => ls ++ rs
  | aggregate groupby _ nomod _ onlyout onlyin => nomod ++ groupby ++ onlyout ++ onlyin
  | _ => []

-- The operators of a plan, if each has its keys.
def Plan.populate : Plan → Script OpTree
  | none       => return .none
  | node d l r => return .node (← populateNode d) (← l.populate) (← r.populate)

end Hyrise
