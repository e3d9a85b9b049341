import VldbArtifacts.Hyrise.Coalesce
import VldbArtifacts.Hyrise.Segments

-- isolate_mt.cpp, and `Console::_coalesce` in src/bin/console/console.cpp, which writes the blocks of
-- the segments.

namespace Hyrise

open CXL (split)

-- What the variables have in them that are read before they are written: `encoded_sgmt_info`, and
-- `selected_idx` for each line of the trace.
structure Indeterminate where
  encodedSgmtInfo : Nat
  selectedIdx     : Nat → Nat

structure DecodedSgmt where
  tableId  : UInt8
  chunkId  : Nat
  columnId : UInt8
  deriving DecidableEq, Repr

def getSegDetails (encodedSgmt : Nat) : DecodedSgmt where
  columnId := UInt8.ofNat (encodedSgmt &&& 0x00000000000000ff)
  chunkId  := (encodedSgmt &&& 0x00ffffffffffff00) >>> 8
  tableId  := UInt8.ofNat ((encodedSgmt &&& 0xff00000000000000) >>> 56)

def encodeSgmt (tableId : UInt8) (chunkId : Nat) (colId : UInt8) : Nat :=
  tableId.toNat <<< 56 ||| chunkId <<< 8 % 2 ^ 64 ||| colId.toNat

-- The bounds of a block are both in it.
def Covers (blk : Extent) (addr : Nat) : Prop :=
  blk.lo ≤ addr ∧ addr ≤ blk.hi

instance (blk : Extent) : DecidablePred (Covers blk) :=
  fun addr => inferInstanceAs (Decidable (blk.lo ≤ addr ∧ addr ≤ blk.hi))

def getBlkIdx (addr : Nat) (addrBlocks : List Extent) (min max : Nat) : List Nat :=
  if addr < min ∨ addr > max then []
  else (addrBlocks.zipIdx.filter fun p => Covers p.1 addr).map Prod.snd

-- `addr_blocks[i].second - addr_blocks[i].first`.
def blkLength (addrBlocks : List Extent) (i : Nat) : Nat :=
  (addrBlocks[i]?.map fun b => (b.hi + (2 ^ 64 - b.lo)) % 2 ^ 64).getD 0

def selectIdx (addrBlocks : List Extent) (selectedIdx : Nat) : List Nat → Nat
  | []      => selectedIdx
  | [i]     => i
  | i :: is => (i :: is).foldl (fun selectedIdx j =>
      if blkLength addrBlocks j < blkLength addrBlocks selectedIdx then j else selectedIdx) i

def sgmtTag (addr : Nat) (s : DecodedSgmt) : Nat :=
  addr ||| 0xa00000000000000 ||| s.tableId.toNat <<< 52 ||| s.columnId.toNat <<< 48

-- A round of the loop of `process_file`. The bounds of `get_blk_idx` are its default arguments, and the test
-- `blk_idx.size() >= 0` always holds.
def processLine (selectedIdx : Nat) (addrBlocks : List Extent) (mappingIndex : List Nat)
    (ln : List Char) : Script (List Char) := do
  if (find "Segment".toList ln).isSome then
    return []
  let insGap ← stoull10 (← field ',' 0 ln)
  let addr ← stoull16 (← field ',' 2 ln)
  let selectedIdx := selectIdx addrBlocks selectedIdx (getBlkIdx addr addrBlocks 0 (2 ^ 64 - 1))
  match mappingIndex[selectedIdx]? with
  | none             => .error .missingField
  | some encodedSgmt =>
    let addr := sgmtTag addr (getSegDetails encodedSgmt)
    return hexText addr ++ ' ' :: (← field ',' 1 ln) ++ ' ' :: decText insGap ++ ['\n']

def processFile (selectedIdx : Nat → Nat) (addrBlocks : List Extent) (mappingIndex : List Nat)
    (text : List Char) : Script (List Char) := do
  return (← (split '\n' text).zipIdx.mapM fun p =>
    processLine (selectedIdx p.2) addrBlocks mappingIndex p.1).flatten

-- The variables of `parse_addr_blocks`.
structure AddrBlocks where
  addrBlks        : List Extent
  mappingIndex    : List Nat
  encodedSgmtInfo : Nat
  deriving DecidableEq, Repr

def addrBlocksLine (s : AddrBlocks) (ln : List Char) : Script AddrBlocks := do
  if (find "S".toList ln).isSome then
    let tableId ← stoiU8 (← field ',' 1 ln)
    let chunkId ← stoull10 (← field ',' 2 ln)
    let colId ← stoiU8 (← field ',' 3 ln)
    return { s with encodedSgmtInfo := encodeSgmt tableId chunkId colId }
  match split ',' ln with
  | [_, start, stop] =>
    let blk : Extent := ⟨← stoull16 start, ← stoull16 stop⟩
    return { s with
      addrBlks     := s.addrBlks ++ [blk]
      mappingIndex := s.mappingIndex ++ [s.encodedSgmtInfo] }
  | _ => .error .exit

def parseAddrBlocks (encodedSgmtInfo : Nat) (ranges : List Char) : Script AddrBlocks :=
  (split '\n' ranges).foldlM addrBlocksLine ⟨[], [], encodedSgmtInfo⟩

-- What a thread of `main` makes of its file.
def isolateMt (x : Indeterminate) (ranges text : List Char) : Script (List Char) := do
  let s ← parseAddrBlocks x.encodedSgmtInfo ranges
  processFile x.selectedIdx s.addrBlks s.mappingIndex text

-- A segment and its coalesced blocks.
structure SegmentBlocks where
  tableId   : Nat
  chunkId   : Nat
  columnId  : Nat
  blks      : List Extent
  table_lt  : tableId < 16
  chunk_lt  : chunkId < 2 ^ 48
  column_lt : columnId < 16
  blks_lt   : ∀ b ∈ blks, b.lo < 2 ^ 64 ∧ b.hi < 2 ^ 64

namespace SegmentBlocks

def header (s : SegmentBlocks) : List Char :=
  'S' :: ',' :: (decText s.tableId ++ ',' :: (decText s.chunkId ++ ',' :: decText s.columnId))

def blkLine (i : Nat) (b : Extent) : List Char :=
  decText i ++ ',' :: (Nat.toDigits 16 b.lo ++ ',' :: Nat.toDigits 16 b.hi)

def lines (s : SegmentBlocks) : List (List Char) :=
  s.header :: s.blks.mapIdx blkLine

def tag (addr : Nat) (s : SegmentBlocks) : Nat :=
  addr ||| 0xa00000000000000 ||| s.tableId <<< 52 ||| s.columnId <<< 48

end SegmentBlocks

-- The file that `_coalesce` writes.
def rangesText (segments : List SegmentBlocks) : List Char :=
  unlines (segments.flatMap SegmentBlocks.lines)

-- The blocks in the order of the file.
def blocksOf (segments : List SegmentBlocks) : List (SegmentBlocks × Extent) :=
  segments.flatMap fun s => s.blks.map (s, ·)

-- The block is the one with the index, a smallest one around the address and the first of those.
def IsTightest (segments : List SegmentBlocks) (addr i : Nat) (b : SegmentBlocks × Extent) : Prop :=
  (blocksOf segments)[i]? = some b ∧ Covers b.2 addr ∧
    ∀ j b', (blocksOf segments)[j]? = some b' → Covers b'.2 addr →
      b.2.hi - b.2.lo ≤ b'.2.hi - b'.2.lo ∧ (j < i → b.2.hi - b.2.lo < b'.2.hi - b'.2.lo)

-- The access in the output has the table and the column of the tightest block, or it is the one that it was if
-- there is no block around its address.
def IsIsolated (segments : List SegmentBlocks) (a a' : Access) : Prop :=
  (∃ i b, IsTightest segments a.addr i b ∧ a' = { a with addr := b.1.tag a.addr }) ∨
    (∀ b ∈ blocksOf segments, ¬Covers b.2 a.addr) ∧ a' = a

end Hyrise
