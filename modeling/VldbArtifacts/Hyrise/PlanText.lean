import VldbArtifacts.Lib.Rounding
import VldbArtifacts.Lib.Words
import VldbArtifacts.Hyrise.QueryPlan

-- process_query_plan.py and combine_lqp_pqp.py: how the columns of an operator are read from its description in
-- the exported plan.

namespace Hyrise

open CXL (isSpace)

-- `sub in s`.
def occursIn (sub s : List Char) : Bool :=
  s.tails.any (sub.isPrefixOf ·)

def strip (s : List Char) : List Char :=
  (s.dropWhile isSpace).rdropWhile isSpace

-- `s.replace(sub, "")`. The number counts the characters that are still to be removed.
def removeAll (sub : List Char) : Nat → List Char → List Char
  | _,     []      => []
  | 0,     c :: cs =>
    if sub.isPrefixOf (c :: cs) then removeAll sub (sub.length - 1) cs else c :: removeAll sub 0 cs
  | n + 1, _ :: cs => removeAll sub n cs

-- `float(s)` for a number without an exponent. There is no largest float here.
def pyFloat (s : List Char) : Script ℚ :=
  match s.splitOn '.' with
  | [whole]       => return FloatFormat.double.round (← pyInt 10 whole)
  | [whole, frac] =>
    return FloatFormat.double.round ((← pyInt 10 (whole ++ frac)) / 10 ^ frac.length)
  | _             => .error .valueError

def string2rows (s : List Char) (lqp : Bool) : Script Int :=
  let number := ((strip s).takeWhile (· ≠ ' ')).filter (· ≠ ',')
  if lqp then do
    let rows ← pyFloat number
    if 2 ^ 1024 ≤ rows then .error .arithmeticError else return ⌊rows⌋
  else do
    return ← pyInt 10 number

-- A tree of the exported plan, as it is read from a file. A child is `missing` if there is no such key, and
-- `empty` if its value is null or an object without keys.
inductive Exported
  | missing
  | empty
  | node (description : List Char) (leftCard rightCard : Option (List Char)) (left right : Exported)
  deriving DecidableEq, Repr

def cardRows (card : Option (List Char)) (lqp : Bool) : Script Int :=
  match card with
  | none   => .error .keyError
  | some s => string2rows s lqp

-- The loop that appends each column that is found in a text to a list, if it is not there yet.
def addColumns (columns : List String) (found : String → Bool) (cs : List String) : List String :=
  columns.foldl (fun cs col => if found col && !cs.contains col then cs ++ [col] else cs) cs

-- `col in expr`.
def isIn (expr : List Char) (col : String) : Bool :=
  occursIn col.toList expr

def isArithmetic (expr : List Char) : Bool :=
  expr.contains '+' || expr.contains '-' || expr.contains '*' || expr.contains '/'

-- `description.split('[')[i].split(']')[0]`.
def bracketPart (description : List Char) (i : Nat) : Script (List Char) :=
  match (description.splitOn '[')[i]? with
  | none   => .error .indexError
  | some s => return s.takeWhile (· ≠ ']')

-- The columns and the expressions of a list, as the loops over `group_by_string` and `aggregate_string` set them.
structure ExprColumns where
  nomod : List String
  mod   : List String
  expr  : List String
  deriving DecidableEq, Repr

def ExprColumns.add (columns : List String) (x : ExprColumns) (expr : List Char) : ExprColumns :=
  if isArithmetic expr then
    { x with expr := x.expr ++ [String.ofList expr], mod := addColumns columns (isIn expr) x.mod }
  else
    { x with nomod := addColumns columns (isIn expr) x.nomod }

def exprColumns (columns : List String) (exprs : List (List Char)) : ExprColumns :=
  exprs.foldl (ExprColumns.add columns) ⟨[], [], []⟩

abbrev ColumnLists :=
  List (String × List String)

def predicateLists (columns : List String) (description : List Char) : ColumnLists :=
  [("columns", columns.filter (isIn description))]

def joinLists (columns : List String) (description : List Char) : ColumnLists :=
  let second := (description.splitOn ']').tail.map fun s =>
    match s.splitOn '[' with
    | _ :: s :: _ => strip s
    | _           => []
  let left := second.map fun s => match s.splitOn '=' with
    | s :: _ :: _ => strip s
    | _           => []
  let right := second.map fun s => match s.splitOn '=' with
    | _ :: s :: _ => strip s
    | _           => []
  [("lcolumn", (left.map String.ofList).filter columns.contains),
   ("rcolumn", (right.map String.ofList).filter columns.contains)]

def aggregateColumnLists (groupby aggregate : ExprColumns) : ColumnLists :=
  [("grpby_nomod", groupby.nomod), ("grpby_mod", groupby.mod), ("grpby_expr", groupby.expr),
   ("aggr_nomod", aggregate.nomod), ("aggr_mod", aggregate.mod), ("aggr_expr", aggregate.expr)]

def aggregateLists (columns : List String) (description : List Char) : Script ColumnLists := do
  let groupby := exprColumns columns (((← bracketPart description 2).splitOn ',').map strip)
  let aggregate := exprColumns columns (((← bracketPart description 3).splitOn ',').map strip)
  return aggregateColumnLists groupby aggregate

-- A loop over a text in Python is a loop over its characters.
def projectionLists (columns : List String) (description : List Char) : ColumnLists :=
  let (forward, noforward) :=
    (strip (removeAll "[Projection]".toList 0 description)).foldl (fun (forward, noforward) c =>
      if isArithmetic [c] then
        (forward, addColumns columns (isIn [c]) noforward)
      else
        (addColumns columns (isIn [c]) forward, noforward)) ([], [])
  [("forward", forward), ("noforward", noforward)]

def sortLists (columns : List String) (description : List Char) : ColumnLists :=
  let (mod, nomod) :=
    ((strip (removeAll "[Sort]".toList 0 description)).splitOn ',').foldl (fun (mod, nomod) expr =>
      if isArithmetic (strip (expr.takeWhile (· ≠ '('))) then
        (addColumns columns (isIn expr) mod, nomod)
      else
        (mod, addColumns columns (isIn expr) nomod)) ([], [])
  [("col_mod", mod), ("col_nomod", nomod)]

-- The ids are set later.
def tempNode (name : String) (lcard rcard : Option Int) (lists : ColumnLists) : DictNode :=
  { nodeid := 0, name := some name, ignore := some false, lcard, rcard, lists }

def preprocessLqpNode (columns : List String) : Exported → Script Plan
  | .missing => .error .keyError
  | .empty   => return .none
  | .node description leftCard rightCard left right =>
    let oneChild (name : String) (lists : Script ColumnLists) : Script Plan := do
      let lchild ← preprocessLqpNode columns left
      let lcard ← cardRows leftCard true
      return .node (tempNode name (some lcard) none (← lists)) lchild .none
    let twoChildren (name : String) (lists : ColumnLists) : Script Plan := do
      let lchild ← preprocessLqpNode columns left
      let rchild ← preprocessLqpNode columns right
      let lcard ← cardRows leftCard true
      let rcard ← cardRows rightCard true
      return .node (tempNode name (some lcard) (some rcard) lists) lchild rchild
    let startsWith (header : String) : Bool := header.toList.isPrefixOf description
    if startsWith "[StoredTable]" then
      return .node (tempNode "GetTable" none none []) .none .none
    else if startsWith "[Validate]" then
      oneChild "Validate" (return [])
    else if startsWith "[UnionNode]" then
      twoChildren "Union" []
    else if startsWith "[Alias]" then
      oneChild "Alias" (return [])
    else if startsWith "[Predicate]" then
      oneChild "TableScan" (return predicateLists columns description)
    else if startsWith "[Join]" then
      twoChildren "JoinHash" (joinLists columns description)
    else if startsWith "[Aggregate]" then
      oneChild "AggregateHash" (aggregateLists columns description)
    else if startsWith "[Projection]" then
      oneChild "Projection" (return projectionLists columns description)
    else if startsWith "[Sort]" then
      oneChild "Sort" (return sortLists columns description)
    else
      .error .exit

-- `\w` of a regular expression.
def isWordChar (c : Char) : Bool :=
  c.isAlphanum || c = '_'

-- `\b` between two characters.
def isWordBoundary (before after : Option Char) : Bool :=
  before.any isWordChar != after.any isWordChar

-- The expression `r'\b'+ref+r'\b'` matches at the start of `s`, in lower or upper case.
def matchesWord (ref : List Char) (before : Option Char) (s : List Char) : Bool :=
  let word := s.take ref.length
  let rest := s.drop ref.length
  isWordBoundary before s.head? && word.map Char.toLower == ref.map Char.toLower &&
    isWordBoundary (word.getLast?.or before) rest.head?

-- `re.search(r'\b'+ref+r'\b', s, re.IGNORECASE)`.
def searchWord (ref : List Char) : Option Char → List Char → Bool
  | before, []     => matchesWord ref before []
  | before, c :: s => matchesWord ref before (c :: s) || searchWord ref (some c) s

def isWordIn (expr : List Char) (col : String) : Bool :=
  searchWord col.toList none expr

def isOperated (col : List Char) : Bool :=
  col.contains '*' || col.contains '+' || col.contains '-' || col.contains '/' ||
    occursIn "EXTRACT".toList col && col != "COUNT(*)".toList

-- `re.search(r'\[(.*?)\]', s).group(1)`.
def bracketed : List Char → Script (List Char)
  | []      => .error .attributeError
  | c :: cs =>
    let word := cs.takeWhile (· ≠ ']')
    if c = '[' ∧ ']' ∈ cs ∧ '\n' ∉ word then return word else bracketed cs

-- The result for a tree of the plan.
inductive Combined
  | missing
  | empty
  | node (ops : List Char) (lists : ColumnLists) (left right : Combined)
  deriving DecidableEq, Repr

def combinedProjection (columns : List String) (description : List Char) : ColumnLists :=
  let exprs := ([' '].intercalate (description.wordsBy (!isSpace ·)).tail).splitOn ','
  let (forward, nonforward) := exprs.foldl (fun (forward, nonforward) expr =>
    if isOperated expr then
      (forward, addColumns columns (isWordIn expr) nonforward)
    else
      let col := String.ofList (expr.filter (!isSpace ·))
      (if forward.contains col then forward else forward ++ [col], nonforward)) ([], [])
  [("columns", exprs.map (String.ofList ∘ strip)), ("forward", forward), ("nonforward", nonforward)]

structure CombinedAggregate where
  modified   : List String
  unmodified : List String
  anyColumn  : List String
  deriving DecidableEq, Repr

-- The loop over the group-by columns is that over the aggregates without the branch for `ANY`.
def CombinedAggregate.add (columns : List String) (any : Bool) (x : CombinedAggregate) (expr : List Char) :
    CombinedAggregate :=
  if isOperated expr then
    { x with modified := addColumns columns (isWordIn expr) x.modified }
  else if any && occursIn "ANY".toList expr then
    { x with anyColumn := addColumns columns (isWordIn expr) x.anyColumn }
  else
    { x with unmodified := addColumns columns (isWordIn expr) x.unmodified }

def combinedAggregate (columns : List String) (description : List Char) : Script ColumnLists := do
  let grbyCols := (← bracketPart description 2).splitOn ','
  let aggrCols := (← bracketPart description 3).splitOn ','
  let groupby := grbyCols.foldl (CombinedAggregate.add columns false) ⟨[], [], []⟩
  let aggregate := aggrCols.foldl (CombinedAggregate.add columns true) ⟨[], [], []⟩
  return [("groupby_modified", groupby.modified), ("groupby_unmodified", groupby.unmodified),
    ("aggregate_modified", aggregate.modified), ("aggregate_unmodified", aggregate.unmodified),
    ("any_column", aggregate.anyColumn), ("aggr_columns", aggrCols.map (String.ofList ∘ strip)),
    ("grby_columns", grbyCols.map (String.ofList ∘ strip))]

def combinedLists (columns : List String) (ops description : List Char) : Script ColumnLists :=
  if ops = "Projection".toList then return combinedProjection columns description
  else if ops = "Aggregate".toList then combinedAggregate columns description
  else if ops = "Predicate".toList then
    return [("scan column", columns.filter (isWordIn description))]
  else return []

def traverseLqpHelper (columns : List String) : Exported → Script Combined
  | .missing => return .missing
  | .empty   => return .empty
  | .node description _ _ left right => do
    let ops ← bracketed description
    let lists ← combinedLists columns ops description
    let ops := if ops = "Predicate".toList then "Table Scan".toList else ops
    return .node ops lists (← traverseLqpHelper columns left) (← traverseLqpHelper columns right)

end Hyrise
