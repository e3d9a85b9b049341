import VldbArtifacts.Lib.Map
import VldbArtifacts.Hyrise.Trace

-- isolate_hash.cpp and isolate_job.cpp. They differ in the tag.

namespace Hyrise

open CXL (split)

-- `hash_table_value` without `chunk_id`, which is only printed.
structure Block where
  startAddr : Nat
  endAddr   : Nat
  tableId   : UInt8
  columnId  : UInt8
  deriving DecidableEq, Repr

def Block.zero : Block :=
  ⟨0, 0, 0, 0⟩

def Block.Contains (r : Block) (addr : Nat) : Prop :=
  r.startAddr ≤ addr ∧ addr < r.endAddr

instance (r : Block) (addr : Nat) : Decidable (r.Contains addr) :=
  inferInstanceAs (Decidable (_ ∧ _))

def Block.Before (r r' : Block) : Prop :=
  r.endAddr ≤ r'.startAddr

instance (r r' : Block) : Decidable (r.Before r') :=
  inferInstanceAs (Decidable (_ ≤ _))

-- The ranges that Hyrise records for the columns that are in memory.
structure Layout where
  ranges   : List Block
  nonempty : ∀ r ∈ ranges, r.startAddr < r.endAddr
  below    : ∀ r ∈ ranges, r.endAddr ≤ 2 ^ 48
  disjoint : ranges.Pairwise fun r r' => r.Before r' ∨ r'.Before r

def Layout.rangeOf? (l : Layout) (addr : Nat) : Option Block :=
  l.ranges.find? (·.Contains addr)

abbrev AddrTable :=
  AList fun _ : Nat => Block

-- What `parse_mem_blk_file` makes of the ranges in its file.
def addrTable (ranges : List Block) : AddrTable :=
  ranges.foldl (fun m r => m.insert r.startAddr r) ∅

def searchAddrBlocks (addr : Nat) (m : AddrTable) : Block :=
  match m.floor? addr with
  | none   => .zero
  | some r => if r.Contains addr then r else .zero

-- The tag of isolate_hash has its first digit in bits 56 to 59, that of isolate_job in bits 60 to 63.
inductive Isolate
  | hash | job
  deriving DecidableEq, Repr

def Isolate.base : Isolate → Nat
  | hash => 0xa00000000000000
  | job  => 0xa000000000000000

-- The hexadecimal digits behind the first one of a tagged address.
def Isolate.digits : Isolate → Nat
  | hash => 14
  | job  => 15

def remap (v : Isolate) (addr : Nat) (h : Block) : Nat :=
  addr ||| v.base ||| h.tableId.toNat <<< 52 ||| h.columnId.toNat <<< 48

def remapIfFound (v : Isolate) (addr : Nat) (h : Block) : Nat :=
  if h.startAddr ≠ 0 ∨ h.endAddr ≠ 0 then remap v addr h else addr

def Access.isolatedBy (v : Isolate) (m : AddrTable) (a : Access) : Access :=
  { a with addr := remapIfFound v a.addr (searchAddrBlocks a.addr m) }

-- A round of the loop of `parse_trace_file`.
def traceLine (v : Isolate) (m : AddrTable) (ln : List Char) : Script (List Char) :=
  match split ',' ln with
  | gap :: type :: addr :: _ => do
    let addr ← stoull16 addr
    let addr := remapIfFound v addr (searchAddrBlocks addr m)
    return hexText addr ++ ' ' :: (type ++ ' ' :: gap)
  | _ => .error .missingField

def parseTraceFile (v : Isolate) (m : AddrTable) (text : List Char) : Script (List Char) := do
  return unlines (← (split '\n' text).mapM (traceLine v m))

-- The key that `main` prints the entry of. `operator[]` makes one if there is none.
def printedKey : Nat := 0x7f61c3a6f630

-- The map that `main` makes the lookups in.
def lookupTable (ranges : List Block) : AddrTable :=
  (addrTable ranges).insertNew printedKey .zero

-- The access as it should be in the output.
def Layout.tagged (v : Isolate) (l : Layout) (a : Access) : Access :=
  match l.rangeOf? a.addr with
  | none   => a
  | some r => { a with addr := remap v a.addr r }

-- The entry for the printed key hides the rest of the range that it is in.
def Layout.Hides (l : Layout) (addr : Nat) : Prop :=
  ∃ r ∈ l.ranges, r.Contains addr ∧ r.startAddr < printedKey ∧ printedKey ≤ addr

instance (l : Layout) (addr : Nat) : Decidable (l.Hides addr) :=
  inferInstanceAs (Decidable (∃ r ∈ _, _ ∧ _ ∧ _))

-- The access as it is in the output.
def Layout.isolated (v : Isolate) (l : Layout) (a : Access) : Access :=
  if l.Hides a.addr then a else l.tagged v a

def isolate (v : Isolate) (ranges : List Block) (text : List Char) : Script (List Char) :=
  parseTraceFile v (lookupTable ranges) text

def isolateHash : List Block → List Char → Script (List Char) :=
  isolate .hash

def isolateJob : List Block → List Char → Script (List Char) :=
  isolate .job

end Hyrise
