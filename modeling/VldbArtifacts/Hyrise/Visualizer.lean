import VldbArtifacts.Lib.Traversal
import VldbArtifacts.Hyrise.PlanText

-- pqp_visualizer.cpp and lqp_visualizer.cpp: the tree of a plan that is written to a file.

namespace Hyrise

-- A plan whose nodes can have several consumers. `card` is the label of the edge from a node. `subqueries` are the
-- subquery expressions in the expressions of a node, in the order of `visit_expression`. There are no cycles.
structure PlanGraph (ν ψ : Type) where
  description : ν → List Char
  left        : ν → Option ν
  right       : ν → Option ν
  card        : ν → List Char
  subqueries  : ν → List ψ
  plan        : ψ → ν
  rank        : ν → Nat
  left_lt     : ∀ v, ∀ u ∈ left v, rank u < rank v
  right_lt    : ∀ v, ∀ u ∈ right v, rank u < rank v
  plan_lt     : ∀ v, ∀ q ∈ subqueries v, rank (plan q) < rank v

-- `visualized_ops`, and what is kept of the subqueries.
structure Visualized (ν σ : Type) where
  nodes      : List ν
  subqueries : σ
  deriving DecidableEq, Repr

section build

variable {ν ψ σ : Type} [DecidableEq ν]

def buildInput (build : ν → Visualized ν σ → Option (Exported × Visualized ν σ)) :
    Option ν → Visualized ν σ → Option (Exported × Visualized ν σ)
  | none,   s => return (.missing, s)
  | some u, s => build u s

-- The tree of a subquery is not used.
def visualizeSubquery (g : PlanGraph ν ψ) (emplace : ψ → Visualized ν σ → Option σ)
    (build : ν → Visualized ν σ → Option (Exported × Visualized ν σ)) (s : Visualized ν σ) (q : ψ) :
    Option (Visualized ν σ) :=
  match emplace q s with
  | none            => return s
  | some subqueries => do
    let (_, s) ← build (g.plan q) { s with subqueries }
    return s

-- Both visualizers. `visit` are the subqueries that are looked at, and `emplace` says whether a subquery is drawn.
-- The number bounds the depth.
def buildSubtree (g : PlanGraph ν ψ) (visit : ν → List ψ) (emplace : ψ → Visualized ν σ → Option σ) :
    Nat → ν → Visualized ν σ → Option (Exported × Visualized ν σ)
  | 0,     _, _ => none
  | n + 1, v, s =>
    if v ∈ s.nodes then
      return (.empty, s)
    else do
      let s := { s with nodes := v :: s.nodes }
      let (left, s) ← buildInput (buildSubtree g visit emplace n) (g.left v) s
      let (right, s) ← buildInput (buildSubtree g visit emplace n) (g.right v) s
      let s ← (visit v).foldlM (visualizeSubquery g emplace (buildSubtree g visit emplace n)) s
      return (.node (g.description v) ((g.left v).map g.card) ((g.right v).map g.card) left right, s)

end build

namespace PQPVisualizer

variable {ν ψ : Type} [DecidableEq ν]

inductive OperatorType
  | projection | tableScan | limit | other
  deriving DecidableEq, Repr

-- The other operators have no expressions.
def visit (g : PlanGraph ν ψ) (type : ν → OperatorType) (v : ν) : List ψ :=
  match type v with
  | .projection | .tableScan | .limit => g.subqueries v
  | .other                            => []

def emplace (_ : ψ) (s : Visualized ν Unit) : Option Unit :=
  some s.subqueries

def buildSubtree (g : PlanGraph ν ψ) (type : ν → OperatorType) (v : ν) (s : Visualized ν Unit) :
    Option (Exported × Visualized ν Unit) :=
  Hyrise.buildSubtree g (visit g type) emplace (g.rank v + 1) v s

end PQPVisualizer

namespace LQPVisualizer

variable {ν ψ : Type} [DecidableEq ν]

-- `visualized_sub_queries.emplace(subquery_expression).second`. Equal expressions can have different plans.
def emplace (equal : ψ → ψ → Bool) (q : ψ) (s : Visualized ν (List ψ)) : Option (List ψ) :=
  if s.subqueries.any (equal q) then none else some (q :: s.subqueries)

def buildSubtree (g : PlanGraph ν ψ) (equal : ψ → ψ → Bool) (v : ν) (s : Visualized ν (List ψ)) :
    Option (Exported × Visualized ν (List ψ)) :=
  Hyrise.buildSubtree g g.subqueries (emplace equal) (g.rank v + 1) v s

end LQPVisualizer

-- The description and the cards of each object in the file.
def Exported.entries : Exported → List (List Char × Option (List Char) × Option (List Char))
  | .missing | .empty                              => []
  | .node description leftCard rightCard left right =>
    (description, leftCard, rightCard) :: (left.entries ++ right.entries)

namespace PlanGraph

variable {ν ψ σ : Type} [DecidableEq ν] (g : PlanGraph ν ψ)

def inputs (v : ν) : List ν :=
  (g.left v).toList ++ (g.right v).toList

def Reaches : ν → ν → Prop :=
  Traversal.Reaches g.inputs

def entry (v : ν) : List Char × Option (List Char) × Option (List Char) :=
  (g.description v, (g.left v).map g.card, (g.right v).map g.card)

-- The file has each operator of the plan once, with its description and a card for each input.
def IsComplete (root : ν) (tree : Exported) : Prop :=
  ∃ ops : List ν, ops.Nodup ∧ (∀ v, v ∈ ops ↔ g.Reaches root v) ∧ tree.entries.Perm (ops.map g.entry)

-- A run with a log of the subqueries that are drawn, and of the nodes that are drawn before them.
def logged (emplace : ψ → Visualized ν σ → Option σ) (q : ψ) (s : Visualized ν (σ × List (ν × List ν))) :
    Option (σ × List (ν × List ν)) := do
  let subqueries ← emplace q ⟨s.nodes, s.subqueries.1⟩
  return (subqueries, s.subqueries.2 ++ [(g.plan q, s.nodes)])

def subqueryCalls (visit : ν → List ψ) (emplace : ψ → Visualized ν σ → Option σ) (root : ν) (subqueries : σ) :
    List (ν × List ν) :=
  match buildSubtree g visit (g.logged emplace) (g.rank root + 1) root ⟨[], subqueries, []⟩ with
  | none        => []
  | some (_, s) => s.subqueries.2

-- When a subquery is drawn, the operators of the plan that are below it are already drawn.
def SubqueriesFollow (visit : ν → List ψ) (emplace : ψ → Visualized ν σ → Option σ) (root : ν) (subqueries : σ) :
    Prop :=
  ∀ call ∈ g.subqueryCalls visit emplace root subqueries, ∀ v, g.Reaches root v → g.Reaches call.1 v → v ∈ call.2

end PlanGraph

end Hyrise
