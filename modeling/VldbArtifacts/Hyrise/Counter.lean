import Mathlib.Data.String.Basic
import VldbArtifacts.Hyrise.Remap

-- The accesses of each column: counter_trace_bridge.cpp, counter_trace_bridge_job.cpp and
-- column_count_from_job_trace.py.

namespace Hyrise

open CXL (split digitValue)

-- The columns of a benchmark.
structure Details where
  columns : List Column
  names   : (columns.map (·.name)).Nodup
  ids     : (columns.map fun c => (c.tableId, c.columnId)).Nodup

-- `std::hex << table_id << column_id`, without leading zeros.
def searchKey (c : Column) : List Char :=
  Nat.toDigits 16 c.tableId ++ Nat.toDigits 16 c.columnId

def loadTableDetails (columns : List Column) : AList fun _ : List Char => String :=
  columns.foldl (fun m c => m.insertNew (searchKey c) c.name) ∅

-- The maps that `count_columns` fills. `true` stands for CXL, `false` for the direct attached memory.
structure Counts where
  counter : AList fun _ : List Char => Nat
  mapping : AList fun _ : List Char => Bool

def Counts.init (details : AList fun _ : List Char => String) : Counts where
  counter := ∅
  mapping := details.keys.foldl (fun m key => m.insert key true) ∅

def counted (counter : AList fun _ : List Char => Nat) (key : List Char) : Nat :=
  (counter.lookup key).getD 0

-- A round of the loop of `count_columns`. The key has two characters in counter_trace_bridge and three
-- in counter_trace_bridge_job.
def countLine (width : Nat) (s : Counts) (ln : List Char) : Counts :=
  let subStr := ln.take 3
  if subStr = ['0', 'x', 'a'] ∨ subStr = ['0', 'x', 'b'] then
    let key := (ln.drop 3).take width
    { counter := s.counter.insert key (counted s.counter key + 1)
      mapping := s.mapping.insert key (subStr = ['0', 'x', 'b']) }
  else
    s

-- A line of the output. Only counter_trace_bridge_job prints where the column is.
structure Row where
  name  : String
  count : Nat
  cxl   : Bool
  deriving DecidableEq, Repr

-- The rows are in the order of the keys.
def countColumns (width : Nat) (columns : List Column) (text : List Char) : List Row :=
  let details := loadTableDetails columns
  let s := (split '\n' text).foldl (countLine width) (.init details)
  (details.keys.mergeSort (· ≤ ·)).map fun key =>
    { name  := (details.lookup key).getD ""
      count := counted s.counter key
      cxl   := (s.mapping.lookup key).getD false }

def counterTraceBridge : List Column → List Char → List Row :=
  countColumns 2

def counterTraceBridgeJob : List Column → List Char → List Row :=
  countColumns 3

def reported (rows : List Row) (name : String) : Option Nat :=
  (rows.find? (·.name = name)).map (·.count)

-- The table and the column of a line in column_count_from_job_trace.py.
def jobIds (ln : List Char) : Script (Nat × Nat) :=
  let addr := ln.takeWhile (· ≠ ' ')
  let impString := (addr.drop 3).take 3
  match impString.getLast? with
  | none   => .error .indexError
  | some c => do
    let columnId ← pyInt 16 [c]
    let tableId ← pyInt 16 impString.dropLast
    return (tableId, columnId)

def countJobLine (details : List ((Nat × Nat) × String)) (counts : List (String × Nat))
    (ln : List Char) : Script (List (String × Nat)) :=
  if find ['0', 'x', 'a'] ln = none ∧ find ['0', 'x', 'b'] ln = none then
    return counts
  else do
    let ids ← jobIds ln
    match Dict.get? ids details with
    | none      => .error .keyError
    | some name => return Dict.set name ((Dict.get? name counts).getD 0 + 1) counts

def loadColDetails (columns : List Column) : List ((Nat × Nat) × String) :=
  Dict.ofList (columns.map fun c => ((c.tableId, c.columnId), c.name))

def columnCountFromJobTrace (columns : List Column) (text : List Char) :
    Script (List (String × Nat)) := do
  let counts ← (split '\n' text).foldlM (countJobLine (loadColDetails columns)) []
  return counts.mergeSort fun p q => p.2 ≥ q.2

-- The digits that the counters take for the ids and the address.
def marked (addr : Nat) : Option (List Char) :=
  match Nat.toDigits 16 addr with
  | 'a' :: ds => some ds
  | 'b' :: ds => some ds
  | _         => none

def Block.IsOf (r : Block) (c : Column) : Prop :=
  (r.tableId.toNat, r.columnId.toNat) = (c.tableId, c.columnId)

instance (r : Block) (c : Column) : Decidable (r.IsOf c) :=
  inferInstanceAs (Decidable (_ = _))

namespace Layout

-- The address is in a range of the column.
def InColumn (l : Layout) (c : Column) (addr : Nat) : Prop :=
  ∃ r ∈ l.rangeOf? addr, r.IsOf c

-- The address has no tag, and its digits are read as if it had that of the column.
def Strays (l : Layout) (c : Column) (addr : Nat) : Prop :=
  l.tagOf? addr = none ∧ ∃ ds ∈ marked addr, searchKey c <+: ds

-- The address is in a range of the column, and isolate_hash did not tag it.
def Misses (l : Layout) (c : Column) (addr : Nat) : Prop :=
  l.Hides addr ∧ l.InColumn c addr

instance (l : Layout) (c : Column) (addr : Nat) : Decidable (l.InColumn c addr) :=
  inferInstanceAs (Decidable (∃ r ∈ l.rangeOf? addr, r.IsOf c))

instance (l : Layout) (c : Column) (addr : Nat) : Decidable (l.Strays c addr) :=
  inferInstanceAs (Decidable (_ ∧ ∃ ds ∈ marked addr, searchKey c <+: ds))

instance (l : Layout) (c : Column) (addr : Nat) : Decidable (l.Misses c addr) :=
  inferInstanceAs (Decidable (_ ∧ _))

end Layout

-- An address in the output of isolate_job is without digits for ids, or they are those of a column whose
-- table id has two digits.
def Details.Reads (d : Details) (addr : Nat) : Prop :=
  ∀ ds ∈ marked addr, ∃ c ∈ d.columns, 16 ≤ c.tableId ∧ searchKey c <+: ds

instance (d : Details) (addr : Nat) : Decidable (d.Reads addr) :=
  inferInstanceAs (Decidable (∀ ds ∈ marked addr, ∃ c ∈ d.columns, _ ∧ searchKey c <+: ds))

-- The two counters report the same for each column, where those that the script does not list have none.
def Details.Agree (d : Details) (text : List Char) : Prop :=
  ∃ counts, columnCountFromJobTrace d.columns text = .ok counts ∧ ∀ c ∈ d.columns,
    reported (counterTraceBridgeJob d.columns text) c.name =
      some ((Dict.get? c.name counts).getD 0)

end Hyrise
