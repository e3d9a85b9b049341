import VldbArtifacts.CXLSim.Bus

-- The receiving side of a node. `CXLHost::FLIT_unpacker` and `CXLDevice::FLIT_unpacker` share how they
-- read the slots of a flit. What they check besides is in the modules of the nodes.

namespace CXL

structure UnpackerRules where
  unpackTime : TimeField
  singleName : BufName
  hdrName    : BufName

-- The last three fields record what was read. Nothing reads them: the messages without data, the ids of
-- the data slots since the last header, and the messages with data together with these ids.
@[ext]
structure RxPort (dir : Dir) (vcSize bufSize : Nat) where
  single           : CXLBuf vcSize Message
  hdr              : CXLBuf vcSize Message
  unpackerRollover : Nat
  lastHdr          : Message
  rxBuffer         : CXLBuf bufSize Flit
  singleLog        : List Message
  dataIds          : List Nat
  hdrLog           : List (Message × List Nat)

namespace RxPort

variable {dir : Dir} {vcSize bufSize : Nat} (rules : UnpackerRules) (currTick : Int)

def init : RxPort dir vcSize bufSize where
  single           := ∅
  hdr              := ∅
  unpackerRollover := 0
  lastHdr          := {}
  rxBuffer         := ∅
  singleLog        := []
  dataIds          := []
  hdrLog           := []

-- The `switch` on the rollover. With a rollover of 1 to 3, slot 0 may hold something else.
def rolloverRule (u : RxPort dir vcSize bufSize) (f : Flit) : Bool :=
  let isData i := (f.slots.getD i {}).type == .data
  match u.unpackerRollover with
  | 0 => true
  | 1 => isData 1
  | 2 => isData 1 && isData 2
  | 3 => isData 1 && isData 2 && isData 3
  | _ => isData 0 && isData 1 && isData 2 && isData 3

-- All data of the last header has arrived, so that it is put into its channel.
def enqueueHdr (u : RxPort dir vcSize bufSize) : Sim (RxPort dir vcSize bufSize) := do
  let lastHdr := u.lastHdr.setTime rules.unpackTime currTick
  let hdr ← u.hdr.enqueue rules.hdrName lastHdr
  return { u with lastHdr, hdr, hdrLog := u.hdrLog ++ [(lastHdr, u.dataIds)] }

-- A data slot is counted against the rollover. With the last one, the header is complete.
def consumeData (u : RxPort dir vcSize bufSize) (s : Slot) : Sim (RxPort dir vcSize bufSize) :=
  let u := { u with
    unpackerRollover := u.unpackerRollover - 1, dataIds := u.dataIds ++ [s.msg.msgId] }
  if u.unpackerRollover = 0 then u.enqueueHdr rules currTick else .ok u

-- The loop that deals with the data that belongs to a header of an earlier flit. Its slots are made
-- empty, and the loop is left with the last of them.
def takeRollover (u : RxPort dir vcSize bufSize) :
    List Slot → Sim (RxPort dir vcSize bufSize × List Slot)
  | []      => .ok (u, [])
  | s :: ss =>
    if s.type ≠ .data then do
      let (u, ss) ← u.takeRollover ss
      return (u, s :: ss)
    else do
      let u ← u.consumeData rules currTick s
      if u.unpackerRollover = 0 then
        return (u, { s with type := .empty } :: ss)
      else
        let (u, ss) ← u.takeRollover ss
        return (u, { s with type := .empty } :: ss)

def unpackSlot (u : RxPort dir vcSize bufSize) (s : Slot) : Sim (RxPort dir vcSize bufSize) :=
  if s.type = dir.single then do
    let m := s.msg.setTime rules.unpackTime currTick
    let single ← u.single.enqueue rules.singleName m
    return { u with single, singleLog := u.singleLog ++ [m] }
  else if s.type = dir.hdr then do
    assert (u.unpackerRollover = 0) .headerBeforeData
    return { u with unpackerRollover := 4, lastHdr := s.msg, dataIds := [] }
  else if s.type = .data then do
    assert (u.unpackerRollover > 0) .dataNotExpected
    u.consumeData rules currTick s
  else do
    assert (s.type = .empty) .illegalSlotType
    return u

def unpackSlots (u : RxPort dir vcSize bufSize) : List Slot → Sim (RxPort dir vcSize bufSize)
  | []      => .ok u
  | s :: ss => do
    let u ← u.unpackSlot rules currTick s
    u.unpackSlots ss

-- The slots that are left after the rollover are returned as well.
def unpackFlit (u : RxPort dir vcSize bufSize) (f : Flit) :
    Sim (RxPort dir vcSize bufSize × List Slot) := do
  let (u, slots) ← if u.unpackerRollover ≠ 0 then u.takeRollover rules currTick f.slots
    else pure (u, f.slots)
  let u ← u.unpackSlots rules currTick slots
  return (u, slots)

def checkRollover (u : RxPort dir vcSize bufSize) (f : Flit) : Sim Unit := do
  assert (u.unpackerRollover ≤ 4) .rolloverOutOfRange
  assert (u.rolloverRule f) .rolloverRuleViolated

def isStalled (u : RxPort dir vcSize bufSize) : Bool :=
  u.rxBuffer.isBufFull && u.single.isBufFull && u.hdr.isBufFull

def skipUnpackerCheck (params : CXLParams) (u : RxPort dir vcSize bufSize) : Bool :=
  u.rxBuffer.q.head?.all (currTick - ·.time.timeOfReceipt < params.delayRxBufToUnpack)

end RxPort

end CXL
