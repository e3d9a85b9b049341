import VldbArtifacts.Lib.Extent

-- src/lib/utils/coalesce.cpp and myscripts/coalesce.py: the blocks that the accesses to strings are in.

namespace Hyrise

def lineSize : Nat := 0x20

def roundDown (addr : Nat) : Nat :=
  if addr % lineSize = 0 then addr else addr - addr % lineSize

section Cpp

-- `COALESCE_BLK_SIZE`, which is `0x1 << 20` if it is not given.
variable (blkSize : Nat)

def roundUp (addr : Nat) : Nat :=
  if addr % lineSize = 0 then addr else (addr + (lineSize - addr % lineSize)) % 2 ^ 64

-- The test that `get_matching_blk_id` makes for a block. The address is rounded.
def matchesBlk (addr blk : Extent) : Bool :=
  if addr.hi ≥ blk.lo ∧ addr.hi - blk.lo ≤ blkSize then true
  else if blk.hi ≥ addr.lo ∧ blk.hi - addr.lo ≤ blkSize then true
  else if addr.lo ≥ blk.lo ∧ blk.lo ≥ addr.hi ∧ addr.hi ≥ blk.hi then true
  else if blk.lo ≥ addr.lo ∧ addr.lo ≥ blk.hi ∧ blk.hi ≥ addr.lo then true
  else false

-- -1 is `none`.
def getMatchingBlkId (addr : Extent) (blks : List Extent) : Option Nat :=
  let addr : Extent := ⟨roundDown addr.lo, roundUp addr.hi⟩
  blks.findIdx? (matchesBlk blkSize addr)

def coalesce (start size : Nat) (blks : List Extent) : List Extent :=
  let addr : Extent := ⟨start, (start + size) % 2 ^ 64⟩
  match getMatchingBlkId blkSize addr blks with
  | none       => blks ++ [⟨roundDown addr.lo, roundUp addr.hi⟩]
  | some blkId => blks.modify blkId fun blk =>
    let blk := if roundUp addr.hi > blk.hi then { blk with hi := roundUp addr.hi } else blk
    if roundDown addr.lo < blk.lo then { blk with lo := roundDown addr.lo } else blk

end Cpp

namespace Py

def roundUp (addr : Nat) : Nat :=
  if addr % lineSize = 0 then addr else addr + (lineSize - addr % lineSize)

-- The last case is not that of coalesce.cpp.
def matchesBlk (addr blk : Extent) : Bool :=
  let blkSize : Int := 2 ^ 20
  if (addr.hi : Int) - blk.lo ≥ 0 ∧ (addr.hi : Int) - blk.lo ≤ blkSize then true
  else if (blk.hi : Int) - addr.lo ≥ 0 ∧ (blk.hi : Int) - addr.lo ≤ blkSize then true
  else if addr.lo ≥ blk.lo ∧ blk.lo ≥ addr.hi ∧ addr.hi ≥ blk.hi then true
  else if blk.lo ≥ addr.lo ∧ addr.lo ≥ blk.hi ∧ blk.hi ≥ addr.hi then true
  else false

def giveMatchingBlkId (addr : Extent) (blks : List Extent) : Option Nat :=
  let addr : Extent := ⟨roundDown addr.lo, roundUp addr.hi⟩
  blks.findIdx? (matchesBlk addr)

def updateBlks (addr : Extent) (blks : List Extent) : List Extent :=
  match giveMatchingBlkId addr blks with
  | none       => blks ++ [⟨roundDown addr.lo, roundUp addr.hi⟩]
  | some blkId => blks.modify blkId fun blk =>
    let blk := if roundUp addr.hi > blk.hi then { blk with hi := roundUp addr.hi } else blk
    if roundDown addr.lo < blk.lo then { blk with lo := roundDown addr.lo } else blk

end Py

-- The arguments of a call of `coalesce`. They are the address and the size of a line of the log.
structure Chunk where
  start : Nat
  size  : Nat
  deriving DecidableEq, Repr

namespace Chunk

-- No address behind the range, or behind its last line, is beyond 64 bits.
def Fits (c : Chunk) : Prop :=
  c.start + c.size ≤ 2 ^ 64 - lineSize

instance : DecidablePred Fits :=
  fun c => inferInstanceAs (Decidable (c.start + c.size ≤ _))

def extent (c : Chunk) : Extent :=
  ⟨c.start, c.start + c.size⟩

-- The lines of the range.
def lines (c : Chunk) : Extent :=
  ⟨c.start / lineSize * lineSize, (c.start + c.size + (lineSize - 1)) / lineSize * lineSize⟩

-- The block that the range is added to.
def target (blkSize : Nat) (c : Chunk) (blks : List Extent) : Option Nat :=
  blks.findIdx? (matchesBlk blkSize c.lines)

-- The range and the block that it is added to have no address of another block between their ends.
def IsClear (blkSize : Nat) (c : Chunk) (blks : List Extent) : Prop :=
  c.lines.Clear blks (c.target blkSize blks)

instance (blkSize : Nat) (c : Chunk) (blks : List Extent) : Decidable (c.IsClear blkSize blks) :=
  inferInstanceAs (Decidable (Extent.Clear ..))

-- The range becomes a part of the block.
def MergesInto (blkSize : Nat) (c : Chunk) (blks : List Extent) (b : Extent) : Prop :=
  ∃ i, blks[i]? = some b ∧ coalesce blkSize c.start c.size blks = blks.set i (c.lines.hull b)

end Chunk

def coalesceAll (blkSize : Nat) (calls : List Chunk) : List Extent :=
  calls.foldl (fun blks c => coalesce blkSize c.start c.size blks) []

-- The loop over the lines of a file.
def Py.updateAll (calls : List Chunk) : List Extent :=
  calls.foldl (fun blks c => updateBlks ⟨c.start, c.start + c.size⟩ blks) []

end Hyrise
