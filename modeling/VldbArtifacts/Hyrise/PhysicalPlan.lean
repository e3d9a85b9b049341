import VldbArtifacts.Hyrise.PlanText

-- The physical plans: the description of a join, and how process_query_plan.py and combine_lqp_pqp.py read it.

namespace Hyrise

open CXL (isSpace)

-- `s.split(sub)`. The number counts the characters of `sub` that are still to be skipped.
def splitText (sub : List Char) : Nat → List Char → List (List Char)
  | _,     []      => [[]]
  | 0,     c :: cs =>
    if sub.isPrefixOf (c :: cs) then
      [] :: splitText sub (sub.length - 1) cs
    else
      (splitText sub 0 cs).modifyHead (c :: ·)
  | n + 1, _ :: cs => splitText sub n cs

def itemAt (ws : List (List Char)) (i : Nat) : Script (List Char) :=
  match ws[i]? with
  | none   => .error .indexError
  | some w => return w

-- `s.split(' ')[-1]`.
def lastWord (s : List Char) : List Char :=
  ((s.splitOn ' ').getLast?).getD []

-- `s.split("FromLeft")[0].strip().split(' ')[-1]`.
def beforeFromLeft (s : List Char) : List Char :=
  lastWord (strip (((splitText "FromLeft".toList 0 s).head?).getD []))

-- `description.split("=")[1].split("FromRight")[0].strip()`.
def beforeFromRight (description : List Char) : Script (List Char) := do
  let s ← itemAt (description.splitOn '=') 1
  return strip (((splitText "FromRight".toList 0 s).head?).getD [])

def appendKnown (columns : List String) (col : List Char) (cs : List String) : List String :=
  if columns.contains (String.ofList col) then cs ++ [String.ofList col] else cs

def joinHashLists (columns : List String) (description : List Char) : Script ColumnLists := do
  let lcolumn := appendKnown columns (beforeFromLeft description) []
  let rcolumn := appendKnown columns (← beforeFromRight description) []
  if occursIn "AND".toList description && occursIn "Secondary".toList description then
    let secondary := strip (← itemAt (splitText "AND".toList 0 description) 1)
    let lcolumn := appendKnown columns (beforeFromLeft secondary) lcolumn
    let rcolumn := appendKnown columns (← beforeFromRight description) rcolumn
    return [("lcolumn", lcolumn), ("rcolumn", rcolumn)]
  else
    return [("lcolumn", lcolumn), ("rcolumn", rcolumn)]

def aggregateHashLists (columns : List String) (description : List Char) : Script ColumnLists := do
  let groupby := (← itemAt (description.splitOn '{') 1).takeWhile (· ≠ '}')
  let aggregate := strip (← itemAt (description.splitOn '}') 1)
  return aggregateColumnLists (exprColumns columns (groupby.splitOn ','))
    (exprColumns columns (aggregate.splitOn ','))

-- The expressions of a list, without the empty ones.
def nonEmptyExprs (s : List Char) : List (List Char) :=
  ((strip s).splitOn ',').filter (!·.isEmpty)

def pqpProjectionLists (columns : List String) (description : List Char) : Script ColumnLists := do
  let parts := description.splitOn '}'
  let forward ← itemAt ((parts.headD []).splitOn '{') 1
  let noforward ← itemAt ((← itemAt parts 1).splitOn '{') 1
  return [("forward", (nonEmptyExprs forward).map String.ofList),
    ("noforward", (nonEmptyExprs noforward).foldl (fun cs expr => addColumns columns (isIn expr) cs) [])]

-- The results of `temp.replace` are not used in this branch.
def pqpSortLists (columns : List String) (description : List Char) : ColumnLists :=
  let (mod, nomod) :=
    ((strip (removeAll "[Sort]".toList 0 description)).splitOn ',').foldl (fun (mod, nomod) expr =>
      if isArithmetic expr then
        (addColumns columns (isIn expr) mod, nomod)
      else
        (mod, addColumns columns (isIn expr) nomod)) ([], [])
  [("col_mod", mod), ("col_nomod", nomod)]

-- `string2rows(card.split(' ')[0])`.
def firstRows (card : Option (List Char)) : Script Int :=
  cardRows (card.map (·.takeWhile (· ≠ ' '))) false

def preprocessPqpNode (columns : List String) : Exported → Script Plan
  | .missing => .error .keyError
  | .empty   => return .none
  | .node description leftCard rightCard left right =>
    let oneChild (name : String) (rows : Script Int) (lists : Script ColumnLists) : Script Plan := do
      let lchild ← preprocessPqpNode columns left
      let lcard ← rows
      return .node (tempNode name (some lcard) none (← lists)) lchild .none
    let twoChildren (name : String) (lrows rrows : Script Int) (lists : Script ColumnLists) : Script Plan := do
      let lchild ← preprocessPqpNode columns left
      let rchild ← preprocessPqpNode columns right
      let lcard ← lrows
      let rcard ← rrows
      return .node (tempNode name (some lcard) (some rcard) (← lists)) lchild rchild
    let startsWith (header : String) : Bool := header.toList.isPrefixOf description
    if startsWith "GetTable" then
      return .node (tempNode "GetTable" none none []) .none .none
    else if startsWith "Validate" then
      oneChild "Validate" (firstRows leftCard) (return [])
    else if startsWith "UnionPositions" || startsWith "UnionAll" then
      twoChildren "Union" (cardRows leftCard true) (cardRows rightCard true) (return [])
    else if startsWith "Alias" then
      oneChild "Alias" (cardRows leftCard false) (return [])
    else if startsWith "TableScan" then
      oneChild "TableScan" (firstRows leftCard) (return predicateLists columns description)
    else if startsWith "JoinHash" then
      twoChildren "JoinHash" (firstRows leftCard) (firstRows rightCard) (joinHashLists columns description)
    else if startsWith "AggregateHash" then
      oneChild "AggregateHash" (firstRows leftCard) (aggregateHashLists columns description)
    else if startsWith "Projection" then
      oneChild "Projection" (firstRows leftCard) (pqpProjectionLists columns description)
    else if startsWith "[Sort]" then
      oneChild "Sort" (firstRows leftCard) (return pqpSortLists columns description)
    else
      .error .exit

-- `re.findall(r'(\w+)\s+' + key, s)`. The number counts the characters of a match that are still to be skipped.
def findWordsBefore (key : List Char) : Nat → List Char → List (List Char)
  | _,     []      => []
  | 0,     c :: cs =>
    let word := (c :: cs).takeWhile isWordChar
    let rest := (c :: cs).drop word.length
    let space := rest.takeWhile isSpace
    if word ≠ [] ∧ space ≠ [] ∧ key <+: rest.drop space.length then
      word :: findWordsBefore key (word.length + space.length + key.length - 1) cs
    else
      findWordsBefore key 0 cs
  | n + 1, _ :: cs => findWordsBefore key n cs

structure JoinColumns where
  joinType     : List Char
  leftColumns  : List (List Char)
  rightColumns : List (List Char)
  deriving DecidableEq, Repr

-- `re.search(r'^(\S+)\s(\((.*?)\))', s)`, and both groups with a blank between them.
def joinType (s : List Char) : Script (List Char) :=
  let op := s.takeWhile (!isSpace ·)
  match s.drop op.length with
  | c :: '(' :: rest =>
    let mode := rest.takeWhile (· ≠ ')')
    if op ≠ [] ∧ isSpace c ∧ ')' ∈ rest ∧ '\n' ∉ mode then
      return op ++ (' ' :: '(' :: (mode ++ [')']))
    else
      .error .attributeError
  | _ => .error .attributeError

def readJoin (description : List Char) : Script (Option JoinColumns) := do
  if occursIn "join".toList (description.map Char.toLower) then
    return some {
      joinType     := ← joinType description
      leftColumns  := findWordsBefore "FromLeft".toList 0 description
      rightColumns := findWordsBefore "FromRight".toList 0 description }
  else
    return none

-- What `traverse_pqp_helper` adds to the results of the logical plan.
inductive PqpCombined
  | untouched
  | node (join : Option JoinColumns) (leftCard rightCard : Option (List Char)) (left right : PqpCombined)
  deriving DecidableEq, Repr

-- `result["Left"]` and `result["Right"]`.
def Combined.left? : Combined → Script Combined
  | .node _ _ .missing _ | .missing | .empty => .error .keyError
  | .node _ _ left _                         => return left

def Combined.right? : Combined → Script Combined
  | .node _ _ _ .missing | .missing | .empty => .error .keyError
  | .node _ _ _ right                        => return right

def traversePqpHelper : Exported → Combined → Script PqpCombined
  | .missing, _ | .empty, _ => return .untouched
  | .node description leftCard rightCard left right, result => do
    let join ← readJoin description
    let l ← if left = .missing then pure .untouched else do traversePqpHelper left (← result.left?)
    let r ← if right = .missing then pure .untouched else do traversePqpHelper right (← result.right?)
    return .node join leftCard rightCard l r

inductive JoinMode
  | Inner | Left | Right | FullOuter | Cross | Semi | AntiNullAsTrue | AntiNullAsFalse
  deriving DecidableEq, Repr

def JoinMode.text : JoinMode → List Char
  | Inner           => "Inner".toList
  | Left            => "Left".toList
  | Right           => "Right".toList
  | FullOuter       => "FullOuter".toList
  | Cross           => "Cross".toList
  | Semi            => "Semi".toList
  | AntiNullAsTrue  => "AntiNullAsTrue".toList
  | AntiNullAsFalse => "AntiNullAsFalse".toList

-- A hash join whose predicates are equalities of columns.
structure HashJoin where
  mode            : JoinMode
  isSemiReduction : Bool
  primary         : String × String
  secondary       : List (String × String)
  deriving DecidableEq, Repr

namespace HashJoin

def modeText (j : HashJoin) : List Char :=
  if j.mode = .Semi ∧ j.isSemiReduction then "Semi Reduction".toList else j.mode.text

def predicateText (kind : List Char) (p : String × String) : List Char :=
  p.1.toList ++ (" FromLeft ".toList ++ (kind ++ (" = ".toList ++ (p.2.toList ++
    (" FromRight ".toList ++ (kind ++ [' ']))))))

def secondaryText (p : String × String) : List Char :=
  " AND ".toList ++ predicateText "Secondary".toList p

-- `AbstractJoinOperator::description` on a single line.
def description (j : HashJoin) : List Char :=
  "JoinHash (".toList ++ (j.modeText ++ (") ".toList ++
    (predicateText "Primary".toList j.primary ++ j.secondary.flatMap secondaryText)))

def predicates (j : HashJoin) : List (String × String) :=
  j.primary :: j.secondary

end HashJoin

end Hyrise
