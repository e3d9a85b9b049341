import VldbArtifacts.Lib.Map
import VldbArtifacts.CXLSim.Memory
import VldbArtifacts.CXLSim.Packer
import VldbArtifacts.CXLSim.Unpacker

-- The device (src/CXLDevice.cpp, ramulator/src/RamDevice.cpp).

namespace CXL

-- `SKIP_CYCLE` as a flag. Without `fastForward`, `CXLHost::text_to_trace` does not advance the tick,
-- which is not a build of the source but what its jumps are compared with.
structure Build where
  skipCycle   : Bool := false
  fastForward : Bool := true

-- `cur_vc == NUM_VC - 1 ? 0 : cur_vc + 1`.
def nextEnqueueVc (i : Fin numVc) : Fin numVc :=
  if i = 3 then 0 else i + 1

-- The credits of a device. It has one host, so that `ext_creds` has one entry.
@[ext]
structure DeviceFlow where
  extCred         : Credits
  intCred         : Credits
  packerSeqLength : Nat

namespace DeviceFlow

variable {n : Nat} (cfg : Config n)

def seqThreshold : Nat := 5

def connectedHosts : Int := 1

def init : DeviceFlow where
  extCred         := ⟨0, 0, 0⟩
  intCred         := ⟨cfg.devVcSize - 1, 0, cfg.devVcSize - 1⟩
  packerSeqLength := 0

def ready (currTick : Int) (s : DeviceFlow) (m : Message) : Sim Bool :=
  if currTick - m.time.tickRamulatorComplete ≥ cfg.params.delayVcToPack then
    match m.opCode with
    | .ndr => .ok (s.extCred.rspCredit ≠ 0)
    | .drs => .ok (s.extCred.dataCredit ≠ 0 ∧ s.packerSeqLength < seqThreshold)
    | _    => .error .illegalMessageType
  else
    .ok false

def creditSanityCheck (s : DeviceFlow) : Sim Unit := do
  assert (s.intCred.rspCredit = 0) .rspCredNotZero
  assert (s.intCred.reqCredit ≥ 0 ∧ s.intCred.reqCredit ≤ cfg.devVcSize) .reqCredOutOfRange
  assert (s.intCred.dataCredit ≥ 0 ∧ s.intCred.dataCredit ≤ cfg.devVcSize) .dataCredOutOfRange

def share (credit : Int) : Int :=
  if credit = 1 then 1 else if credit > 1 then credit / connectedHosts else 0

def getDeviceCredits (s : DeviceFlow) : Sim (Credits × DeviceFlow) := do
  s.creditSanityCheck cfg
  let reqCredit  := share s.intCred.reqCredit
  let dataCredit := share s.intCred.dataCredit
  return (⟨reqCredit, 0, dataCredit⟩, { s with intCred := { s.intCred with
    reqCredit  := s.intCred.reqCredit - reqCredit
    dataCredit := s.intCred.dataCredit - dataCredit } })

def countSequence (s : DeviceFlow) (packerRollover : Nat) : Sim DeviceFlow := do
  let s := { s with packerSeqLength := if packerRollover > 0 then s.packerSeqLength + 1 else 0 }
  assert (¬(s.packerSeqLength = seqThreshold ∧ packerRollover > 0)) .sequenceThresholdViolated
  return s

end DeviceFlow

-- An NDR that is packed frees the place of its write, so that the host may send another one.
def devicePackerRules {n : Nat} (cfg : Config n) : PackerRules .s2m DeviceFlow where
  -- `(int64_t)(0.1 * (float)params.ticks_per_ns)`
  packerWaitTime  := cfg.params.ticksPerNs / 10
  packTime        := .tickRepacked
  transmitTime    := .tickRetransmitted
  txName          := .deviceTx
  marksHeader     := true
  ready           := DeviceFlow.ready cfg
  newFlit s _     := s
  offered s _     := .ok s
  spendSingle s _ := .ok { s with
    intCred := { s.intCred with dataCredit := s.intCred.dataCredit + 1 }
    extCred := { s.extCred with rspCredit := s.extCred.rspCredit - 1 } }
  spendHdr s _    := .ok { s with
    extCred := { s.extCred with dataCredit := s.extCred.dataCredit - 1 } }
  getCredits s _  := s.getDeviceCredits cfg
  sent            := DeviceFlow.countSequence

def deviceUnpackerRules : UnpackerRules where
  unpackTime := .tickUnpacked
  singleName := .deviceM2SReq
  hdrName    := .deviceM2SRwd

structure CXLDevice {n : Nat} (cfg : Config n) (M : Memory) where
  tx                  : TxPort .s2m (cfg.devVcSize / numVc) cfg.devBufSize DeviceFlow
  rx                  : RxPort .m2s cfg.devVcSize cfg.devBufSize
  dram                : Dram M
  messagesInRamulator : AList fun _ : Nat => Message
  ramulatorInpState   : RoundRobinState
  curNDRVc            : Fin numVc
  curDRSVc            : Fin numVc

namespace CXLDevice

variable {n : Nat} {cfg : Config n} {M : Memory} (currTick : Int)

def init : CXLDevice cfg M where
  tx                  := .init (.init cfg)
  rx                  := .init
  dram                := {}
  messagesInRamulator := ∅
  ramulatorInpState   := .R
  curNDRVc            := 0
  curDRSVc            := 0

def flitPacker (d : CXLDevice cfg M) : Sim (CXLDevice cfg M) := do
  return { d with tx := ← d.tx.flitPacker (devicePackerRules cfg) currTick }

def addExtCredits (d : CXLDevice cfg M) (c : Credits) : CXLDevice cfg M :=
  { d with tx := { d.tx with flow := { d.tx.flow with extCred := { d.tx.flow.extCred with
      rspCredit  := d.tx.flow.extCred.rspCredit + c.rspCredit
      dataCredit := d.tx.flow.extCred.dataCredit + c.dataCredit } } } }

-- The packing rule is checked on the slots that are left after the rollover.
def flitUnpacker (d : CXLDevice cfg M) : Sim (CXLDevice cfg M) := do
  assert (¬d.rx.isStalled) .rxSideStall
  match d.rx.rxBuffer.q with
  | []     => return d
  | f :: _ =>
    if currTick - f.time.timeOfReceipt < cfg.params.delayRxBufToUnpack then
      return d
    else
      d.rx.checkRollover f
      let (rx, slots) ← d.rx.unpackFlit deviceUnpackerRules currTick f
      assert (slots.countP (·.type == .m2sReq) ≤ 2 ∧ slots.countP (·.type == .m2sRwdHdr) ≤ 1 ∧
        slots.countP (·.type == .data) ≤ 4) .packingRuleViolated
      let d := { d with rx := { rx with rxBuffer := rx.rxBuffer.dequeue } }
      return d.addExtCredits f.header.credit

-- `check_rx_vc` up to the dequeue, for the channel `vc`.
def checkRxVc (d : CXLDevice cfg M) (vc : CXLBuf cfg.devVcSize Message) :
    Sim (Option (CXLDevice cfg M)) :=
  match vc.q with
  | []     => return none
  | m :: _ =>
    if currTick - m.time.tickUnpacked < cfg.params.delayVcToRamulator ∨ d.dram.inpBuf.isFull then
      return none
    else do
      let req ← message2RamulatorReq m
      let inpBuf ← d.dram.inpBuf.bufAdd req
      let d := { d with
        dram                := { d.dram with inpBuf }
        messagesInRamulator := d.messagesInRamulator.insertNew m.msgId m }
      match m.opCode with
      -- The place of a read is free again. That of a write is kept until its response is packed.
      | .req => return some { d with tx := { d.tx with flow := { d.tx.flow with
          intCred := { d.tx.flow.intCred with reqCredit := d.tx.flow.intCred.reqCredit + 1 } } } }
      | .rwd => return some d
      | _    => .error .illegalMessageType

def checkM2SReq (d : CXLDevice cfg M) (next : RoundRobinState) : Sim (Option (CXLDevice cfg M)) := do
  match ← d.checkRxVc currTick d.rx.single with
  | none   => return none
  | some d => return some { d with
      rx := { d.rx with single := d.rx.single.dequeue }, ramulatorInpState := next }

def checkM2SRwd (d : CXLDevice cfg M) (next : RoundRobinState) : Sim (Option (CXLDevice cfg M)) := do
  match ← d.checkRxVc currTick d.rx.hdr with
  | none   => return none
  | some d => return some { d with
      rx := { d.rx with hdr := d.rx.hdr.dequeue }, ramulatorInpState := next }

def sendToRamulator (d : CXLDevice cfg M) : Sim (CXLDevice cfg M) := do
  assert (¬(d.rx.single.isBufFull ∧ d.rx.hdr.isBufFull ∧ d.dram.inpBuf.isEmpty)) .ramulatorSideStall
  match d.ramulatorInpState with
  | .R      => return (← firstOf (d.checkM2SRwd currTick .w) (d.checkM2SReq currTick .r)).getD d
  | .r | .w => return (← firstOf (d.checkM2SReq currTick .R) (d.checkM2SRwd currTick .w)).getD d
  | .W      => .error .unknownRoundRobinState

def transmit {busSize : Nat} (d : CXLDevice cfg M) (txBus : CXLBus busSize) :
    Sim (CXLDevice cfg M × CXLBus busSize) := do
  let (tx, txBus) ← d.tx.transmit (devicePackerRules cfg) currTick cfg.params txBus
  return ({ d with tx }, txBus)

-- The callback of a request that the memory has completed.
def ramulatorReqNotification (d : CXLDevice cfg M) (r : Request) : Sim (CXLDevice cfg M) := do
  match d.messagesInRamulator.lookup r.reqId with
  | none   => .error .ramulatorCallbackUnknown
  | some m =>
    let time := { m.time with ramulatorClkEnd := d.dram.clks, tickRamulatorComplete := currTick }
    let messagesInRamulator := d.messagesInRamulator.erase r.reqId
    match m.opCode with
    | .req =>
      let m := { m with time, opCode := .drs }
      let hdr ← d.tx.hdr.enqueue .deviceS2MDrs d.curDRSVc m rfl
      return { d with
        tx := { d.tx with hdr }, curDRSVc := nextEnqueueVc d.curDRSVc, messagesInRamulator }
    | .rwd =>
      let m := { m with time, opCode := .ndr }
      let single ← d.tx.single.enqueue .deviceS2MNdr d.curNDRVc m rfl
      return { d with
        tx := { d.tx with single }, curNDRVc := nextEnqueueVc d.curNDRVc, messagesInRamulator }
    | _ => .error .unknownInputMessage

-- The memory has accepted a request, or none.
def requestAccepted (d : CXLDevice cfg M) : Option Request → Sim (CXLDevice cfg M)
  | none   => .ok d
  | some r =>
    match d.messagesInRamulator.lookup r.reqId with
    | none   => .error .reqNotInMessagesInRamulator
    | some m =>
      let time := { m.time with tickAtRamulator := currTick, ramulatorClkStart := d.dram.clks }
      .ok { d with messagesInRamulator := d.messagesInRamulator.insert r.reqId { m with time } }

-- `RamDevice::update`.
def updateDram (d : CXLDevice cfg M) : Sim (CXLDevice cfg M) :=
  if d.dram.isActive then do
    let d ← requestAccepted currTick { d with dram := d.dram.feed.2 } d.dram.feed.1
    let d' ← d.dram.tick.1.foldlM (ramulatorReqNotification currTick) d
    return { d' with dram := d.dram.tick.2 }
  else
    return d

def skipSendToRamCheck (d : CXLDevice cfg M) : Bool :=
  if d.dram.inpBuf.isFull then
    false
  else
    d.rx.single.q.head?.all (currTick - ·.time.tickUnpacked < cfg.params.delayVcToRamulator) &&
    d.rx.hdr.q.head?.all (currTick - ·.time.tickUnpacked < cfg.params.delayVcToRamulator)

def update {busSize : Nat} (b : Build) (d : CXLDevice cfg M) (txBus : CXLBus busSize) :
    Sim (CXLDevice cfg M × CXLBus busSize) := do
  let d ← skipIf (b.skipCycle ∧ d.tx.skipPackerCheck currTick cfg.params) d (d.flitPacker currTick)
  let d ← skipIf (b.skipCycle ∧ d.rx.skipUnpackerCheck currTick cfg.params) d
    (d.flitUnpacker currTick)
  let d ← skipIf (b.skipCycle ∧ d.skipSendToRamCheck currTick) d (d.sendToRamulator currTick)
  let (d, txBus) ← skipIf (b.skipCycle ∧ d.tx.skipTransmitCheck currTick cfg.params txBus) (d, txBus)
    (d.transmit currTick txBus)
  let d ← skipIf (currTick % cfg.params.delayRamulatorUpdate ≠ 0) d (d.updateDram currTick)
  return (d, txBus)

end CXLDevice

end CXL
