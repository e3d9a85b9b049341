import VldbArtifacts.Lib.Dict
import VldbArtifacts.Lib.Rounding
import VldbArtifacts.Hyrise.Trace

-- table_partition_maker.py: the segments of each column are put into partitions.

namespace Hyrise

-- `a / b` of two integers in Python is a float.
def trueDiv (a b : Nat) : Script ℚ :=
  if b = 0 then
    .error .arithmeticError
  else
    let q := FloatFormat.double.round (a / b)
    if 2 ^ 1024 ≤ q then .error .arithmeticError else .ok q

def lookUp {α β : Type} [DecidableEq α] (d : List (α × β)) (k : α) : Script β :=
  match Dict.get? k d with
  | none   => .error .keyError
  | some v => return v

-- `f"{col}_{i}"`.
def partitionName (col : String) (i : Nat) : String :=
  String.ofList (col.toList ++ '_' :: decText i)

-- `'_'.join(col.split('_')[:-1])`.
def originalColName (name : String) : String :=
  String.ofList (['_'].intercalate (name.toList.splitOn '_').dropLast)

-- The number of accesses of each segment of a column.
abbrev SegmentCounts :=
  List ((String × Nat) × Int)

-- `math.ceil(col_segments[col]/number_partitions)`.
def numSegPerPartition (colSegments : List (String × Nat)) (numberPartitions : Nat) (col : String) :
    Script Nat := do
  return ⌈← trueDiv (← lookUp colSegments col) numberPartitions⌉₊

-- The ids of the segments of the partition.
def partitionRange (perPartition i : Nat) : List Nat :=
  List.range' (i * perPartition) perPartition

def partitionCount (counts : SegmentCounts) (col : String) (perPartition i : Nat) : Int :=
  (partitionRange perPartition i).foldl (fun sum k =>
    match Dict.get? (col, k) counts with
    | none       => sum
    | some count => sum + count) 0

-- The loops that set `new_partition_counts` and `partition_trace_counts`.
def partitionCounts (colSegments : List (String × Nat)) (numberPartitions : Nat)
    (counts : SegmentCounts) (cols : List String) : Script (List (String × Int)) :=
  cols.foldlM (fun partitions col => do
    let perPartition ← numSegPerPartition colSegments numberPartitions col
    return (List.range numberPartitions).foldl (fun partitions i =>
      Dict.set (partitionName col i) (partitionCount counts col perPartition i) partitions)
      partitions) []

-- The size in the line of a partition in size.csv.
def partitionSize (colSegments colSizes : List (String × Nat)) (numberPartitions : Nat)
    (name : String) : Script Nat := do
  let col := originalColName name
  let perPartition ← numSegPerPartition colSegments numberPartitions col
  let numActualPartitions := if perPartition > 1 then numberPartitions else 1
  return ⌊← trueDiv (← lookUp colSizes col) numActualPartitions⌋₊

structure Partitions where
  newPartitionCounts   : List (String × Int)
  sizes                : List (String × Nat)
  partitionTraceCounts : List (String × Int)
  deriving DecidableEq, Repr

def makePartitions (numberPartitions : Nat) (accessedCols : List String)
    (colSegments colSizes : List (String × Nat)) (delta segmentTraceCounts : SegmentCounts) :
    Script Partitions := do
  let newPartitionCounts ← partitionCounts colSegments numberPartitions delta accessedCols
  let sizes ← newPartitionCounts.mapM fun p => do
    return (p.1, ← partitionSize colSegments colSizes numberPartitions p.1)
  let partitionTraceCounts ←
    partitionCounts colSegments numberPartitions segmentTraceCounts (colSizes.map Prod.fst)
  return { newPartitionCounts, sizes, partitionTraceCounts }

-- The counts of segments that exist.
structure CountsOf (numSegments : String → Nat) where
  counts : SegmentCounts
  nodup  : (counts.map Prod.fst).Nodup
  lt     : ∀ e ∈ counts, e.1.2 < numSegments e.1.1

namespace CountsOf

variable {numSegments : String → Nat}

def total (counts : CountsOf numSegments) (col : String) : Int :=
  ((counts.counts.filter (·.1.1 = col)).map Prod.snd).sum

end CountsOf

-- Columns, each with its number of segments and its size, and their accesses.
structure ColumnTable where
  cols               : List String
  accessedCols       : List String
  numSegments        : String → Nat
  size               : String → Nat
  delta              : CountsOf numSegments
  segmentTraceCounts : CountsOf numSegments
  cols_nodup         : cols.Nodup
  accessed_nodup     : accessedCols.Nodup
  accessed_subset    : accessedCols ⊆ cols
  segments_pos       : ∀ col ∈ cols, 1 ≤ numSegments col

namespace ColumnTable

def colSegments (t : ColumnTable) : List (String × Nat) :=
  t.cols.map fun col => (col, t.numSegments col)

def colSizes (t : ColumnTable) : List (String × Nat) :=
  t.cols.map fun col => (col, t.size col)

def makePartitions (t : ColumnTable) (numberPartitions : Nat) : Script Partitions :=
  Hyrise.makePartitions numberPartitions t.accessedCols t.colSegments t.colSizes t.delta.counts
    t.segmentTraceCounts.counts

end ColumnTable

-- The values of the partitions of a column in a dictionary add up to the sum.
def AddUpTo {β : Type} [AddMonoid β] (numberPartitions : Nat) (col : String) (d : List (String × β))
    (sum : β) : Prop :=
  ∃ values : List β, values.sum = sum ∧
    (List.range numberPartitions).map (fun i => Dict.get? (partitionName col i) d) = values.map some

-- Each segment of the column is in one partition.
def IsPartitioned (t : ColumnTable) (numberPartitions : Nat) (col : String) : Prop :=
  ∃ perPartition, numSegPerPartition t.colSegments numberPartitions col = .ok perPartition ∧
    ∀ k < t.numSegments col, ∃! i, i < numberPartitions ∧ k ∈ partitionRange perPartition i

namespace Partitions

-- No access of the column is lost.
def ConservesCounts (r : Partitions) (t : ColumnTable) (numberPartitions : Nat) : Prop :=
  (∀ col ∈ t.cols, IsPartitioned t numberPartitions col ∧
    AddUpTo numberPartitions col r.partitionTraceCounts (t.segmentTraceCounts.total col)) ∧
  ∀ col ∈ t.accessedCols, AddUpTo numberPartitions col r.newPartitionCounts (t.delta.total col)

-- No byte of the column is lost, up to one for each partition.
def ConservesSizes (r : Partitions) (t : ColumnTable) (numberPartitions : Nat) : Prop :=
  ∀ col ∈ t.accessedCols, ∃ sum, AddUpTo numberPartitions col r.sizes sum ∧
    sum ≤ t.size col ∧ t.size col < sum + numberPartitions

end Partitions

-- The quotient is not rounded below a whole number.
def CeilsRight (a b : Nat) : Prop :=
  ∃ q, trueDiv a b = .ok q ∧ a ≤ b * ⌈q⌉₊

-- The quotient is not rounded to another whole part.
def FloorsRight (a b : Nat) : Prop :=
  ∃ q, trueDiv a b = .ok q ∧ ⌊q⌋₊ = a / b

end Hyrise
