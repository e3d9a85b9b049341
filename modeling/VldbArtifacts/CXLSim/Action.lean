import VldbArtifacts.CXLSim.System

-- The calls that a tick of the system is made of. What holds after each of them, whenever it is made,
-- holds after a tick.

namespace CXL

inductive Action (n : Nat)
  | busToHost | busFromHost | busToDevice (i : Fin n) | busFromDevice (i : Fin n)
  | forwardH2D | route | sendDown (i : Fin n) | arbitrate | forwardD2H | sendUp
  | setSkipCycle (flag : Bool)
  | packDevice (i : Fin n) | unpackDevice (i : Fin n) | sendToRamulator (i : Fin n)
  | transmitDevice (i : Fin n) | updateDram (i : Fin n)
  | issueHead | readTrace | finishTrace
  | checkCreds | packHost | transmitHost | unpackHost | completeReq
  | checkDAM | updateDam
  | setTick (t : Int)

-- The tick that the call sets.
def Action.tick? {n : Nat} : Action n → Option Int
  | .setTick t => some t
  | _          => none

-- The assertions that the call can violate.
def Action.failures {n : Nat} : Action n → List Failure
  | .busToHost         => [.busSizeExceeded, .stagnantFlit, .addingToFullBuffer .hostRx]
  | .busFromHost       => [.busSizeExceeded, .stagnantFlit, .addingToFullBuffer .upstreamRx]
  | .busToDevice _     => [.busSizeExceeded, .stagnantFlit, .addingToFullBuffer .deviceRx]
  | .busFromDevice _   => [.busSizeExceeded, .stagnantFlit, .addingToFullBuffer .downstreamRx]
  | .forwardH2D        => [.addingToFullBuffer .arbNocH2D]
  | .route             => [.invalidAddress, .addingToFullBuffer .downstreamTx]
  | .arbitrate         => [.addingToFullBuffer .arbNocD2H]
  | .forwardD2H        => [.addingToFullBuffer .upstreamTx]
  | .sendDown _ | .sendUp | .transmitDevice _ | .transmitHost => [.addingToFullBus]
  | .packDevice _      => [.illegalMessageType, .unknownRoundRobinState, .packerRolloverIllegal,
      .packerPackingRuleViolated, .rspCredNotZero, .reqCredOutOfRange, .dataCredOutOfRange,
      .sequenceThresholdViolated, .addingToFullBuffer .deviceTx]
  | .packHost          => [.illegalMessageType, .unknownRoundRobinState, .packerRolloverIllegal,
      .packerPackingRuleViolated, .reqCredNotZero, .rspCredOutOfRange, .dataCredOutOfRange,
      .invalidAddress, .addingToFullBuffer .hostTx]
  | .unpackDevice _    => [.rxSideStall, .rolloverOutOfRange, .rolloverRuleViolated,
      .packingRuleViolated, .headerBeforeData, .dataNotExpected, .illegalSlotType,
      .addingToFullBuffer .deviceM2SReq, .addingToFullBuffer .deviceM2SRwd]
  | .unpackHost        => [.rxSideStall, .rolloverOutOfRange, .rolloverRuleViolated,
      .packingRuleViolated, .headerBeforeData, .dataNotExpected, .illegalSlotType, .invalidAddress,
      .singleFlitDifferentDevices, .addingToFullBuffer .hostS2MNdr, .addingToFullBuffer .hostS2MDrs]
  | .sendToRamulator _ => [.ramulatorSideStall, .illegalMessageType, .overflowRamulatorBuffer,
      .unknownRoundRobinState]
  | .updateDram _      => [.reqNotInMessagesInRamulator, .ramulatorCallbackUnknown,
      .unknownInputMessage, .addingToFullBuffer .deviceS2MDrs, .addingToFullBuffer .deviceS2MNdr]
  | .issueHead         => [.illegalMessageType, .overflowRamulatorBuffer,
      .addingToFullBuffer .hostM2SReq, .addingToFullBuffer .hostM2SRwd]
  | .readTrace         => [.incorrectStringSplitting, .illegalOpcode, .stoulException,
      .addingToFullBuffer .textToTrace]
  | .checkCreds        => [.extCredsUnknownDevice]
  | .completeReq       => [.responseUnknownRequest, .illegalMessageType, .unknownRoundRobinState]
  | .checkDAM          => [.nullDAM]
  | .setSkipCycle _ | .finishTrace | .updateDam | .setTick _ => []

namespace CXLSystem

open CXLSwitch

variable {n : Nat} {cfg : Config n} {M : Memory}

def setDevice (s : CXLSystem cfg M) (i : Fin n) (d : CXLDevice cfg M) : CXLSystem cfg M :=
  { s with devices := Function.update s.devices i d }

def perform (s : CXLSystem cfg M) : Action n → Sim (CXLSystem cfg M)
  | .busToHost => do
    let (busToHost, rxBuffer) ← s.busToHost.update cfg.params s.currTick .switchHost .hostRx
      s.host.rx.rxBuffer
    return { s with host := { s.host with rx := { s.host.rx with rxBuffer } }, busToHost }
  | .busFromHost => do
    let (busFromHost, upstreamRx) ← s.busFromHost.update cfg.params s.currTick .hostSwitch
      .upstreamRx s.switch.upstreamRx
    return { s with switch := { s.switch with upstreamRx }, busFromHost }
  | .busToDevice i => do
    let (bus, rxBuffer) ← (s.busToDevice i).update cfg.params s.currTick .switchDevice .deviceRx
      (s.devices i).rx.rxBuffer
    let s := s.setDevice i { s.devices i with rx := { (s.devices i).rx with rxBuffer } }
    return { s with busToDevice := Function.update s.busToDevice i bus }
  | .busFromDevice i => do
    let (bus, buf) ← (s.busFromDevice i).update cfg.params s.currTick .deviceSwitch .downstreamRx
      (s.switch.downstreamRx i)
    return { s with
      switch        := { s.switch with downstreamRx := Function.update s.switch.downstreamRx i buf }
      busFromDevice := Function.update s.busFromDevice i bus }
  | .forwardH2D => do
    let (upstreamRx, arbNocH2D) ← forward s.currTick cfg.params.delayCxlPortSwitch .arbNocH2D
      s.switch.upstreamRx s.switch.arbNocH2D
    return { s with switch := { s.switch with upstreamRx, arbNocH2D } }
  | .route => do
    return { s with switch := ← s.switch.route s.currTick }
  | .sendDown i => do
    let (buf, lt, bus) ← sendOut s.currTick cfg.params .tickSwitchDsTx (s.switch.downstreamTx i)
      (s.switch.downstreamLastTransmission i) (s.busToDevice i)
    return { s with
      switch      := { s.switch with
        downstreamTx               := Function.update s.switch.downstreamTx i buf
        downstreamLastTransmission := Function.update s.switch.downstreamLastTransmission i lt }
      busToDevice := Function.update s.busToDevice i bus }
  | .arbitrate => do
    return { s with switch := (← arbitrate s.currTick n s.switch).2 }
  | .forwardD2H => do
    let (arbNocD2H, upstreamTx) ← forward s.currTick cfg.params.delayCxlNocSwitch .upstreamTx
      s.switch.arbNocD2H s.switch.upstreamTx
    return { s with switch := { s.switch with arbNocD2H, upstreamTx } }
  | .sendUp => do
    let (upstreamTx, lastTransmission, busToHost) ← sendOut s.currTick cfg.params .tickSwitchUsTx
      s.switch.upstreamTx s.switch.lastTransmission s.busToHost
    return { s with switch := { s.switch with upstreamTx, lastTransmission }, busToHost }
  | .setSkipCycle flag => return { s with switch := { s.switch with skipCycle := flag } }
  | .packDevice i => return s.setDevice i (← (s.devices i).flitPacker s.currTick)
  | .unpackDevice i => return s.setDevice i (← (s.devices i).flitUnpacker s.currTick)
  | .sendToRamulator i => return s.setDevice i (← (s.devices i).sendToRamulator s.currTick)
  | .transmitDevice i => do
    let (d, bus) ← (s.devices i).transmit s.currTick (s.busFromDevice i)
    let s := s.setDevice i d
    return { s with busFromDevice := Function.update s.busFromDevice i bus }
  | .updateDram i => return s.setDevice i (← (s.devices i).updateDram s.currTick)
  | .issueHead => return (← s.issueHead).2
  | .readTrace => return { s with host := (← s.host.readTrace).2 }
  | .finishTrace => return { s with host := { s.host with isTraceFinished := true } }
  | .checkCreds => do
    assert (¬s.host.extCredsUnknown) .extCredsUnknownDevice
    return s
  | .packHost => return { s with host := ← s.host.flitPacker s.currTick }
  | .transmitHost => do
    let (host, busFromHost) ← s.host.transmit s.currTick s.busFromHost
    return { s with host, busFromHost }
  | .unpackHost => return { s with host := ← s.host.flitUnpacker s.currTick }
  | .completeReq => return { s with host := ← s.host.checkIfReqCompleted s.currTick }
  | .checkDAM => do
    assert cfg.hasDAM .nullDAM
    return s
  | .updateDam => return s.updateDam
  | .setTick t => return { s with currTick := t }

-- The part of a tick before the host is updated.
def updateOthers (b : Build) (s : CXLSystem cfg M) : Sim (CXLSystem cfg M) := do
  let s ← s.updateHostBuses
  let s ← s.updateSwitch b
  let s ← s.updateDeviceBuses
  s.updateDevices b

-- The part of a tick after the trace is read.
def updateRest (b : Build) (s : CXLSystem cfg M) : Sim (CXLSystem cfg M) := do
  let (host, busFromHost) ← s.host.updateNode s.currTick b s.busFromHost
  let s := { s with host, busFromHost }
  let s := if s.currTick % cfg.params.delayRamulatorUpdate = 0 ∧ cfg.hasDAM then s.updateDam else s
  return { s with currTick := s.currTick + 1 }

-- The request that `text_to_trace` jumps to.
def jumps (b : Build) (s : CXLSystem cfg M) : Option (Nat × Message) :=
  if b.fastForward ∧ s.host.noActiveTransaction then s.host.textToTraceBuf.q.head? else none

-- The tick after the jump, if there is one.
def jumpTick (b : Build) (s : CXLSystem cfg M) : Int :=
  match s.jumps b with
  | none   => s.currTick
  | some x => s.jumpTarget x.1

-- The computation makes some of the calls, one after the other, and nothing else.
def IsRun (s : CXLSystem cfg M) (x : Sim (CXLSystem cfg M)) : Prop :=
  ∃ as : List (Action n), as.foldlM perform s = x

-- The rule admits each of the calls in the state in which it is made.
def Admits (rule : CXLSystem cfg M → Action n → Prop) : CXLSystem cfg M → List (Action n) → Prop
  | _, []      => True
  | s, a :: as => rule s a ∧ match s.perform a with
    | .ok s'   => Admits rule s' as
    | .error _ => True

def decidableAdmits {rule : CXLSystem cfg M → Action n → Prop} [∀ s a, Decidable (rule s a)] :
    ∀ s as, Decidable (Admits rule s as)
  | _, []      => isTrue trivial
  | s, a :: as =>
    have : Decidable (match s.perform a with | .ok s' => Admits rule s' as | .error _ => True) :=
      match s.perform a with
      | .ok s'   => decidableAdmits s' as
      | .error _ => isTrue trivial
    inferInstanceAs (Decidable (_ ∧ _))

instance {rule : CXLSystem cfg M → Action n → Prop} [∀ s a, Decidable (rule s a)]
    (s : CXLSystem cfg M) (as : List (Action n)) : Decidable (Admits rule s as) :=
  decidableAdmits s as

def IsRunOf (rule : CXLSystem cfg M → Action n → Prop) (s : CXLSystem cfg M)
    (x : Sim (CXLSystem cfg M)) : Prop :=
  ∃ as : List (Action n), as.foldlM perform s = x ∧ Admits rule s as

-- The states that the calls lead to, in any order and at any ticks. Those between the calls of a tick
-- are among them.
def Reaches (trace : List Char) (s : CXLSystem cfg M) : Prop :=
  ∃ as : List (Action n), as.foldlM perform (init trace) = .ok s

-- The calls compute the first `k` rounds of the loop.
def Calls (b : Build) (trace : List Char) (k : Nat) (cfg : Config n) (M : Memory)
    (as : List (Action n)) : Prop :=
  as.foldlM perform (init trace : CXLSystem cfg M) = (init trace).run b k

-- One of the calls is made, in state `s`.
def CalledIn (trace : List Char) (as : List (Action n)) (a : Action n) (s : CXLSystem cfg M) : Prop :=
  ∃ as₁ as₂, as = as₁ ++ a :: as₂ ∧ as₁.foldlM perform (init trace) = .ok s

end CXLSystem

end CXL
