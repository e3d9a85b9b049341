import VldbArtifacts.CXLSim.Device
import VldbArtifacts.CXLSim.Trace

-- The host (src/CXLHost.cpp) without `text_to_trace`, which reaches into the rest of the system.

namespace CXL

-- The value of `device_under_consideration` that stands for no device.
def noDevice : Nat := 4096

@[ext]
structure HostFlow (n : Nat) where
  deviceUnderConsideration : Nat
  extCreds                 : Fin n → Credits
  intCred                  : Credits

namespace HostFlow

variable {n : Nat} (cfg : Config n)

-- The source leaves `device_under_consideration` uninitialised. The first packing sets it.
def init : HostFlow n where
  deviceUnderConsideration := noDevice
  extCreds _               := ⟨1, 0, 1⟩
  intCred                  := ⟨0, cfg.hostRespSize, cfg.hostRespSize⟩

def ready (currTick : Int) (s : HostFlow n) (m : Message) : Sim Bool :=
  if currTick - m.time.tickCreated ≥ cfg.params.delayVcToPack then do
    let dest ← cfg.destinationDevice m.address
    if s.deviceUnderConsideration = noDevice ∨ s.deviceUnderConsideration = dest then
      match m.opCode with
      | .req => return (s.extCreds dest).reqCredit ≠ 0 ∧ s.intCred.dataCredit ≠ 0
      | .rwd => return (s.extCreds dest).dataCredit ≠ 0 ∧ s.intCred.rspCredit ≠ 0
      | _    => return false
    else
      return false
  else
    .ok false

def consider (s : HostFlow n) (m : Message) : Sim (HostFlow n) :=
  if s.deviceUnderConsideration = noDevice then do
    let dest ← cfg.destinationDevice m.address
    return { s with deviceUnderConsideration := dest }
  else
    .ok s

def modifyExtCreds (s : HostFlow n) (d : Fin n) (f : Credits → Credits) : HostFlow n :=
  { s with extCreds := Function.update s.extCreds d (f (s.extCreds d)) }

def spendReq (s : HostFlow n) (m : Message) : Sim (HostFlow n) := do
  let dest ← cfg.destinationDevice m.address
  let s := s.modifyExtCreds dest fun c => { c with reqCredit := c.reqCredit - 1 }
  return { s with intCred := { s.intCred with dataCredit := s.intCred.dataCredit - 1 } }

def spendRwd (s : HostFlow n) (m : Message) : Sim (HostFlow n) := do
  let dest ← cfg.destinationDevice m.address
  let s := s.modifyExtCreds dest fun c => { c with dataCredit := c.dataCredit - 1 }
  return { s with intCred := { s.intCred with rspCredit := s.intCred.rspCredit - 1 } }

def creditSanityCheck (s : HostFlow n) : Sim Unit := do
  assert (s.intCred.reqCredit = 0) .reqCredNotZero
  assert (s.intCred.rspCredit ≥ 0 ∧ s.intCred.rspCredit ≤ cfg.hostRespSize) .rspCredOutOfRange
  assert (s.intCred.dataCredit ≥ 0 ∧ s.intCred.dataCredit ≤ cfg.hostRespSize) .dataCredOutOfRange

-- Each packed write comes with the credit for its NDR, each read with that for its DRS.
def getHostCredits (s : HostFlow n) (f : Flit) : Sim (Credits × HostFlow n) := do
  s.creditSanityCheck cfg
  return (⟨0, f.slotCountInFlit .m2sRwdHdr, f.slotCountInFlit .m2sReq⟩, s)

end HostFlow

def hostPackerRules {n : Nat} (cfg : Config n) : PackerRules .m2s (HostFlow n) where
  packerWaitTime := 10
  packTime       := .tickPacked
  transmitTime   := .tickTransmitted
  txName         := .hostTx
  marksHeader    := false
  ready          := HostFlow.ready cfg
  newFlit s r    := if r > 0 then s else { s with deviceUnderConsideration := noDevice }
  offered        := HostFlow.consider cfg
  spendSingle    := HostFlow.spendReq cfg
  spendHdr       := HostFlow.spendRwd cfg
  getCredits     := HostFlow.getHostCredits cfg
  sent s _       := .ok s

def hostUnpackerRules : UnpackerRules where
  unpackTime := .tickRespUnpacked
  singleName := .hostS2MNdr
  hdrName    := .hostS2MDrs

-- A row of `amat_per_table_cxl` or `amat_per_table_dam` (which has no `avgDram`). The source computes
-- with `double`.
structure AmatEntry where
  count   : Nat := 0
  avg     : Rat := 0
  avgDram : Rat := 0

def runningAverage (avg : Rat) (x : Int) (count : Nat) : Rat :=
  avg + (x - avg) / count

def tableOf (address : Nat) : Nat :=
  address >>> 48 &&& 0xFFF

-- `num_reqs_completed` and `msg_count` are global in the source. `issued` (with the tick) and
-- `completed` record the ids that went through. Nothing reads them.
structure CXLHost {n : Nat} (cfg : Config n) where
  tx                        : TxPort .m2s (cfg.hostVcSize / numVc) cfg.hostBufSize (HostFlow n)
  rx                        : RxPort .s2m cfg.hostRespSize cfg.hostBufSize
  curReqVc                  : Fin numVc
  curRWDVc                  : Fin numVc
  rcvdRspState              : RoundRobinState
  messagesSentToDevice      : AList fun _ : Nat => Message
  reqsInDam                 : AList fun _ : Nat => Int
  amatPerTableDam           : AList fun _ : Nat => AmatEntry
  amatPerTableCxl           : AList fun _ : Nat => AmatEntry
  -- `ext_creds` has an entry for a device that is not connected.
  extCredsUnknown           : Bool
  textToTraceBuf            : CXLBuf cfg.textToTraceSize (Nat × Message)
  traceIn                   : List Char
  isTraceFinished           : Bool
  lastTextToTraceBufDequeue : Int
  msgCount                  : Nat
  numReqsCompleted          : Nat
  issued                    : List (Nat × Int)
  completed                 : List Nat

namespace CXLHost

variable {n : Nat} {cfg : Config n} (currTick : Int)

def init (trace : List Char) : CXLHost cfg where
  tx                        := .init (.init cfg)
  rx                        := .init
  curReqVc                  := 0
  curRWDVc                  := 0
  rcvdRspState              := .R
  messagesSentToDevice      := ∅
  reqsInDam                 := ∅
  amatPerTableDam           := ∅
  amatPerTableCxl           := ∅
  extCredsUnknown           := false
  textToTraceBuf            := ∅
  traceIn                   := trace
  isTraceFinished           := false
  lastTextToTraceBufDequeue := 0
  msgCount                  := 0
  numReqsCompleted          := 0
  issued                    := []
  completed                 := []

def noActiveTransaction (h : CXLHost cfg) : Bool :=
  h.tx.single.allEmpty && h.tx.hdr.allEmpty && h.rx.hdr.isBufEmpty && h.rx.single.isBufEmpty &&
  h.reqsInDam.entries.isEmpty && h.messagesSentToDevice.entries.isEmpty

def flitPacker (h : CXLHost cfg) : Sim (CXLHost cfg) := do
  return { h with tx := ← h.tx.flitPacker (hostPackerRules cfg) currTick }

def transmit {busSize : Nat} (h : CXLHost cfg) (txBus : CXLBus busSize) :
    Sim (CXLHost cfg × CXLBus busSize) := do
  let (tx, txBus) ← h.tx.transmit (hostPackerRules cfg) currTick cfg.params txBus
  return ({ h with tx }, txBus)

end CXLHost

-- The first loop of `CXLHost::FLIT_unpacker`: the device all slots of a flit belong to.
def slotsDevice {n : Nat} (cfg : Config n) : List Slot → Nat → Sim Nat
  | [], deviceId      => .ok deviceId
  | s :: ss, deviceId =>
    if s.type = .empty then
      slotsDevice cfg ss deviceId
    else do
      let dest ← cfg.destinationDevice s.msg.address
      if deviceId = noDevice then
        slotsDevice cfg ss dest
      else
        assert (deviceId = dest) .singleFlitDifferentDevices
        slotsDevice cfg ss dest

namespace CXLHost

variable {n : Nat} {cfg : Config n} (currTick : Int)

def addExtCredits (h : CXLHost cfg) (deviceId : Nat) (c : Credits) : CXLHost cfg :=
  if hd : deviceId < n then
    { h with tx := { h.tx with flow := h.tx.flow.modifyExtCreds ⟨deviceId, hd⟩ fun e => { e with
        reqCredit  := e.reqCredit + c.reqCredit
        dataCredit := e.dataCredit + c.dataCredit } } }
  else
    { h with extCredsUnknown := true }

def flitUnpacker (h : CXLHost cfg) : Sim (CXLHost cfg) := do
  assert (¬h.rx.isStalled) .rxSideStall
  match h.rx.rxBuffer.q with
  | []     => return h
  | f :: _ =>
    if currTick - f.time.timeOfReceipt < cfg.params.delayRxBufToUnpack then
      return h
    else
      let deviceId ← slotsDevice cfg f.slots noDevice
      h.rx.checkRollover f
      assert (f.slotCountInFlit .s2mNdr ≤ 2 ∧ f.slotCountInFlit .data ≤ 4 ∧
        f.slotCountInFlit .s2mDrsHdr ≤ 1) .packingRuleViolated
      let (rx, _) ← h.rx.unpackFlit hostUnpackerRules currTick f
      let h := { h with rx := { rx with rxBuffer := rx.rxBuffer.dequeue } }
      return h.addExtCredits deviceId f.header.credit

def recordAmatCxl (h : CXLHost cfg) (m : Message) : CXLHost cfg :=
  let e := (h.amatPerTableCxl.lookup (tableOf m.address)).getD {}
  let e := { e with count := e.count + 1 }
  { h with amatPerTableCxl := h.amatPerTableCxl.insert (tableOf m.address) { e with
      avg     := runningAverage e.avg (m.time.tickReqComplete - m.time.tickCreated) e.count
      avgDram := runningAverage e.avgDram
        (m.time.tickRamulatorComplete - m.time.tickAtRamulator) e.count } }

-- `check_rx_vc` up to the dequeue, for the channel `vc`.
def checkRxVc (h : CXLHost cfg) (vc : CXLBuf cfg.hostRespSize Message) :
    Sim (Option (CXLHost cfg)) :=
  match vc.q with
  | []     => return none
  | m :: _ =>
    if currTick - m.time.tickRespUnpacked < cfg.params.delayVcToRetire then
      return none
    else do
      let m := { m with time := { m.time with tickReqComplete := currTick } }
      assert (m.msgId ∈ h.messagesSentToDevice) .responseUnknownRequest
      let h := { h.recordAmatCxl m with
        messagesSentToDevice := h.messagesSentToDevice.erase m.msgId
        numReqsCompleted     := h.numReqsCompleted + 1
        completed            := h.completed ++ [m.msgId] }
      let c := h.tx.flow.intCred
      match m.opCode with
      | .drs => return some { h with tx := { h.tx with flow := { h.tx.flow with
          intCred := { c with dataCredit := c.dataCredit + 1 } } } }
      | .ndr => return some { h with tx := { h.tx with flow := { h.tx.flow with
          intCred := { c with rspCredit := c.rspCredit + 1 } } } }
      | _    => .error .illegalMessageType

def checkS2MNdr (h : CXLHost cfg) (next : RoundRobinState) : Sim (Option (CXLHost cfg)) := do
  match ← h.checkRxVc currTick h.rx.single with
  | none   => return none
  | some h => return some { h with
      rx := { h.rx with single := h.rx.single.dequeue }, rcvdRspState := next }

def checkS2MDrs (h : CXLHost cfg) (next : RoundRobinState) : Sim (Option (CXLHost cfg)) := do
  match ← h.checkRxVc currTick h.rx.hdr with
  | none   => return none
  | some h => return some { h with
      rx := { h.rx with hdr := h.rx.hdr.dequeue }, rcvdRspState := next }

def checkIfReqCompleted (h : CXLHost cfg) : Sim (CXLHost cfg) :=
  if h.rx.hdr.isBufEmpty ∧ h.rx.single.isBufEmpty then
    return h
  else
    match h.rcvdRspState with
    | .R      => do
      return (← firstOf (h.checkS2MNdr currTick .w) (h.checkS2MDrs currTick .r)).getD h
    | .r | .w => do
      return (← firstOf (h.checkS2MDrs currTick .R) (h.checkS2MNdr currTick .w)).getD h
    | .W      => .error .unknownRoundRobinState

def skipReqCompleteCheck (h : CXLHost cfg) : Bool :=
  h.rx.hdr.q.head?.all (currTick - ·.time.tickRespUnpacked < cfg.params.delayVcToRetire) &&
  h.rx.single.q.head?.all (currTick - ·.time.tickRespUnpacked < cfg.params.delayVcToRetire)

-- `update` after the call of `text_to_trace`.
def updateNode {busSize : Nat} (b : Build) (h : CXLHost cfg) (txBus : CXLBus busSize) :
    Sim (CXLHost cfg × CXLBus busSize) := do
  assert (¬h.extCredsUnknown) .extCredsUnknownDevice
  let h ← skipIf (b.skipCycle ∧ h.tx.skipPackerCheck currTick cfg.params) h (h.flitPacker currTick)
  let (h, txBus) ← skipIf (b.skipCycle ∧ h.tx.skipTransmitCheck currTick cfg.params txBus) (h, txBus)
    (h.transmit currTick txBus)
  let h ← skipIf (b.skipCycle ∧ h.rx.skipUnpackerCheck currTick cfg.params) h
    (h.flitUnpacker currTick)
  let h ← skipIf (b.skipCycle ∧ h.skipReqCompleteCheck currTick) h (h.checkIfReqCompleted currTick)
  return (h, txBus)

end CXLHost

end CXL
