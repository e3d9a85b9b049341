import VldbArtifacts.Hyrise.PlanText

-- Logical plans and their export, and what it means that their columns are read.

namespace Hyrise

-- The words of a text.
abbrev words (text : List Char) : List (List Char) :=
  text.wordsBy isWordChar

-- An expression of identifiers, operators, numbers and parentheses. A word with an underscore is an identifier,
-- and identifiers are in lower case.
structure Expression where
  text  : List Char
  plain : ∀ c ∈ text, c ≠ '[' ∧ c ≠ ']'
  lower : ∀ w ∈ words text, '_' ∈ w → ∀ c ∈ w, c.toLower = c

-- `expression_descriptions`.
def joinTexts (exprs : List Expression) : List Char :=
  [',', ' '].intercalate (exprs.map Expression.text)

-- The number of rows that is written to an edge.
structure Card where
  text  : List Char
  rows  : Int
  reads : string2rows text true = .ok rows

def lqpNames : List (List Char) :=
  ["StoredTable".toList, "Validate".toList, "UnionNode".toList, "Alias".toList, "Predicate".toList,
   "Join".toList, "Aggregate".toList, "Projection".toList, "Sort".toList]

-- An operator that `preprocess_lqp_node` does not know, such as `[Limit]`.
structure OtherOp where
  name    : List Char
  rest    : List Char
  plain   : ∀ c ∈ name, c ≠ ']' ∧ c ≠ '\n'
  unknown : name ∉ lqpNames

inductive LqpLeaf
  | storedTable (rest : List Char)
  | other (op : OtherOp)

inductive LqpUnary
  | validate
  | alias (rest : List Char)
  | predicate (expr : Expression)
  | aggregate (groupby aggregates : List Expression)
  | projection (exprs : List Expression)
  | sort (rest : List Char)
  | other (op : OtherOp)

inductive LqpBinary
  | union (rest : List Char)
  | join (rest : List Char)
  | other (op : OtherOp)

def lqpDescription (name rest : List Char) : List Char :=
  '[' :: (name ++ ']' :: rest)

def OtherOp.description (op : OtherOp) : List Char :=
  lqpDescription op.name op.rest

def LqpLeaf.description : LqpLeaf → List Char
  | storedTable rest => lqpDescription "StoredTable".toList rest
  | other op         => op.description

def LqpUnary.description : LqpUnary → List Char
  | validate         => lqpDescription "Validate".toList []
  | .alias rest      => lqpDescription "Alias".toList rest
  | predicate expr   => lqpDescription "Predicate".toList (' ' :: expr.text)
  | aggregate groupby aggregates =>
    lqpDescription "Aggregate".toList (" GroupBy: [".toList ++ (joinTexts groupby ++
      ("] Aggregates: [".toList ++ (joinTexts aggregates ++ [']']))))
  | projection exprs => lqpDescription "Projection".toList (' ' :: joinTexts exprs)
  | sort rest        => lqpDescription "Sort".toList rest
  | other op         => op.description

def LqpBinary.description : LqpBinary → List Char
  | union rest => lqpDescription "UnionNode".toList rest
  | join rest  => lqpDescription "Join".toList rest
  | other op   => op.description

-- The tree that `LQPVisualizer::_build_subtree` makes of a plan. An operator with several consumers is `drawn`
-- at its second place.
inductive LogicalPlan
  | drawn
  | leaf (op : LqpLeaf)
  | unary (op : LqpUnary) (card : Card) (input : LogicalPlan)
  | binary (op : LqpBinary) (lcard rcard : Card) (left right : LogicalPlan)

namespace LogicalPlan

def exported : LogicalPlan → Exported
  | drawn                    => .empty
  | leaf op                  => .node op.description none none .missing .missing
  | unary op card input      => .node op.description (some card.text) none input.exported .missing
  | binary op lcard rcard l r =>
    .node op.description (some lcard.text) (some rcard.text) l.exported r.exported

-- The script knows all operators.
def Known : LogicalPlan → Prop
  | drawn          => True
  | leaf op        => ∀ o, op ≠ .other o
  | unary op _ input => (∀ o, op ≠ .other o) ∧ input.Known
  | binary op _ _ l r => (∀ o, op ≠ .other o) ∧ l.Known ∧ r.Known

end LogicalPlan

-- The expressions of a predicate or an aggregate.
def LqpUnary.readExprs : LqpUnary → List Expression
  | predicate expr => [expr]
  | aggregate groupby aggregates => groupby ++ aggregates
  | _ => []

def LqpUnary.IsRead : LqpUnary → Prop
  | predicate _ | aggregate .. => True
  | _ => False

-- The column is a complete identifier of an expression.
def Mentions (exprs : List Expression) (col : String) : Prop :=
  ∃ e ∈ exprs, col.toList ∈ words e.text

-- The columns in the lists with the given keys.
def listed (keys : List String) (lists : ColumnLists) : List String :=
  keys.flatMap fun key => (Dict.get? key lists).getD []

def readKeys : List String :=
  ["columns", "grpby_nomod", "grpby_mod", "aggr_nomod", "aggr_mod"]

def combinedKeys : List String :=
  ["scan column", "groupby_modified", "groupby_unmodified", "aggregate_modified", "aggregate_unmodified",
   "any_column"]

-- Both scripts find the columns that occur as complete identifiers.
def SameColumns (columns : List String) (exprs : List Expression) (lists combined : ColumnLists) : Prop :=
  ∀ col, (col ∈ listed readKeys lists ↔ col ∈ listed combinedKeys combined) ∧
    (col ∈ listed combinedKeys combined ↔ col ∈ columns ∧ Mentions exprs col)

namespace LogicalPlan

-- Both scripts find the same columns for each predicate and each aggregate.
def Agrees (columns : List String) : LogicalPlan → Plan → Combined → Prop
  | drawn,             .none,       .empty            => True
  | leaf _,            .node _ _ _, .node _ _ _ _     => True
  | unary op _ input,  .node d l _, .node _ lists l' _ =>
    (op.IsRead → SameColumns columns op.readExprs d.lists lists) ∧ input.Agrees columns l l'
  | binary _ _ _ l r,  .node _ pl pr, .node _ _ cl cr =>
    l.Agrees columns pl cl ∧ r.Agrees columns pr cr
  | _,                 _,           _                 => False

def unaryOps : LogicalPlan → List LqpUnary
  | drawn | leaf _     => []
  | unary op _ input   => op :: input.unaryOps
  | binary _ _ _ l r   => l.unaryOps ++ r.unaryOps

end LogicalPlan

-- The column is a part of an identifier of an expression.
def IsPart (exprs : List Expression) (col : String) : Prop :=
  ∃ e ∈ exprs, ∃ w ∈ words e.text, col.toList <:+: w

-- A column that is a part of an identifier is a complete identifier of the expressions, too.
def Unshadowed (columns : List String) (exprs : List Expression) : Prop :=
  ∀ col ∈ columns, IsPart exprs col → Mentions exprs col

-- The expression is computed, not forwarded.
def Expression.isComputed (e : Expression) : Bool :=
  isArithmetic e.text

-- The columns of the computed expressions are in `noforward`, those of the others in `forward`, and each column of
-- a computed expression is charged with the rows of the input.
structure ProjectionIsRight (columns : List String) (exprs : List Expression) (d : DictNode) : Prop where
  noforward : ∀ col, col ∈ listed ["noforward"] d.lists ↔
    col ∈ columns ∧ Mentions (exprs.filter (·.isComputed)) col
  forward   : ∀ col, col ∈ listed ["forward"] d.lists ↔
    col ∈ columns ∧ Mentions (exprs.filter (!·.isComputed)) col
  charges   : ∃ n, populateNode d = .ok n ∧ ∀ nodes counters, ∃ counters',
    countNode columns nodes n.toNode counters = .ok counters' ∧
    ∀ col ∈ columns, Mentions (exprs.filter (·.isComputed)) col →
      (Dict.get? col counters').getD 0 = (Dict.get? col counters).getD 0 + n.lcard

def LogicalPlan.ProjectionsAreRight (columns : List String) : LogicalPlan → Plan → Prop
  | drawn,            .none         => True
  | leaf _,           .node _ _ _   => True
  | unary op _ input, .node d l _   =>
    (∀ exprs, op = .projection exprs → ProjectionIsRight columns exprs d) ∧
      input.ProjectionsAreRight columns l
  | binary _ _ _ l r, .node _ pl pr => l.ProjectionsAreRight columns pl ∧ r.ProjectionsAreRight columns pr
  | _,                _             => False

end Hyrise
