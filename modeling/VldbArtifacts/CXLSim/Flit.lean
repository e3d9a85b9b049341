import Mathlib.Tactic

-- Messages, slots and flits (include/message.h, include/flit.h, src/Misc.cpp).

namespace CXL

inductive Opcode
  | req | rwd | ndr | drs
  deriving DecidableEq, Repr

-- The life of a message. `readWrite` is false for a read. The two `ramulatorClk` entries count
-- memory cycles, all others are ticks.
structure MsgTiming where
  readWrite             : Bool := false
  tickCreated           : Int := 0
  tickPacked            : Int := 0
  tickTransmitted       : Int := 0
  tickSwitchDsRx        : Int := 0
  tickSwitchDsTx        : Int := 0
  tickReceived          : Int := 0
  tickUnpacked          : Int := 0
  tickAtRamulator       : Int := 0
  tickRamulatorComplete : Int := 0
  tickRepacked          : Int := 0
  tickRetransmitted     : Int := 0
  tickSwitchUsRx        : Int := 0
  tickSwitchUsTx        : Int := 0
  tickRespReceived      : Int := 0
  tickRespUnpacked      : Int := 0
  tickReqComplete       : Int := 0
  ramulatorClkStart     : Int := 0
  ramulatorClkEnd       : Int := 0
  deriving DecidableEq, Repr

-- The fields that the nodes, buses and the switch set on their way, with `flit::set_time` (whose
-- parameter is a pointer to member) or directly.
inductive TimeField
  | tickPacked | tickTransmitted | tickSwitchDsRx | tickSwitchDsTx | tickReceived | tickUnpacked
  | tickRepacked | tickRetransmitted | tickSwitchUsRx | tickSwitchUsTx | tickRespReceived
  | tickRespUnpacked
  deriving DecidableEq, Repr

def MsgTiming.set (t : MsgTiming) (v : Int) : TimeField → MsgTiming
  | .tickPacked        => { t with tickPacked := v }
  | .tickTransmitted   => { t with tickTransmitted := v }
  | .tickSwitchDsRx    => { t with tickSwitchDsRx := v }
  | .tickSwitchDsTx    => { t with tickSwitchDsTx := v }
  | .tickReceived      => { t with tickReceived := v }
  | .tickUnpacked      => { t with tickUnpacked := v }
  | .tickRepacked      => { t with tickRepacked := v }
  | .tickRetransmitted => { t with tickRetransmitted := v }
  | .tickSwitchUsRx    => { t with tickSwitchUsRx := v }
  | .tickSwitchUsTx    => { t with tickSwitchUsTx := v }
  | .tickRespReceived  => { t with tickRespReceived := v }
  | .tickRespUnpacked  => { t with tickRespUnpacked := v }

-- A message. The fields of the source's class that nothing reads (`valid`, `meta_field`, `tag`,
-- `ld_id`, ...) are left out.
structure Message where
  opCode  : Opcode := .req
  address : Nat := 0
  msgId   : Nat := 0
  time    : MsgTiming := {}
  deriving DecidableEq, Repr

def Message.setTime (m : Message) (member : TimeField) (value : Int) : Message :=
  { m with time := m.time.set value member }

inductive SlotType
  | m2sReq | m2sRwdHdr | s2mNdr | s2mDrsHdr | data | empty
  deriving DecidableEq, Repr

structure Slot where
  type : SlotType := .empty
  msg  : Message := {}
  deriving DecidableEq, Repr

@[ext]
structure Credits where
  reqCredit  : Int
  rspCredit  : Int
  dataCredit : Int
  deriving DecidableEq, Repr

structure FlitLifetime where
  timeOfCreation     : Int := 0
  timeOfTransmission : Int := 0
  timeOfReceipt      : Int := 0
  deriving DecidableEq, Repr

-- `resize(4)` value-initialises the record of slot types, so an untouched entry reads `m2s_req`.
structure FlitHeader where
  credit : Credits := ⟨0, 0, 0⟩
  slots  : List SlotType := List.replicate 4 .m2sReq
  deriving DecidableEq, Repr

structure Flit where
  time   : FlitLifetime := {}
  header : FlitHeader := {}
  slots  : List Slot := List.replicate 4 {}
  deriving DecidableEq, Repr

namespace Flit

def isFlitEmpty (f : Flit) : Bool :=
  f.slots.all (·.type == .empty)

def isFlitFull (f : Flit) : Bool :=
  f.slots.all (·.type != .empty)

def slotCountInFlit (f : Flit) (stype : SlotType) : Nat :=
  f.slots.countP (·.type == stype)

-- The loop of the source runs over the slots `pos + 1` and up, but stops before slot 3.
def areAllSlotsAfterThisEmpty (f : Flit) (pos : Nat) : Bool :=
  ((f.slots.take 3).drop (pos + 1)).all (·.type == .empty)

def setTime (f : Flit) (member : TimeField) (value : Int) : Flit :=
  { f with slots := f.slots.map fun s =>
      if s.type = .empty then s
      else { s with msg := s.msg.setTime member value } }

def getFirstAddress (f : Flit) : Nat :=
  match f.slots.find? (·.type ≠ .empty) with
  | some s => s.msg.address
  | none   => 0

end Flit

-- The two directions of a link. Towards the device a flit carries Req messages (one slot each) and
-- RwD headers (followed by four data slots), towards the host NDR messages and DRS headers.
inductive Dir
  | m2s | s2m
  deriving DecidableEq, Repr

namespace Dir

def single : Dir → SlotType
  | m2s => .m2sReq
  | s2m => .s2mNdr

def hdr : Dir → SlotType
  | m2s => .m2sRwdHdr
  | s2m => .s2mDrsHdr

def singleOp : Dir → Opcode
  | m2s => .req
  | s2m => .ndr

def hdrOp : Dir → Opcode
  | m2s => .rwd
  | s2m => .drs

end Dir

inductive RoundRobinState
  | R | r | w | W
  deriving DecidableEq, Repr

end CXL
