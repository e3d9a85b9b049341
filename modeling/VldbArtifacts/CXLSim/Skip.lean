import VldbArtifacts.CXLSim.Timeline

-- What a build that skips cycles has in common with one that does not.

namespace CXL

section Ports

variable {dir : Dir} {vcSize bufSize : Nat} {σ : Type}

-- The packer has a flit that waits, or data that rolls over into the next flit.
def TxPort.isActive (p : TxPort dir vcSize bufSize σ) : Bool :=
  p.isPackerWaiting || p.packerRollover ≠ 0

-- An inactive packer sets its scratch fields when it starts the next flit.
def TxPort.settle (rules : PackerRules dir σ) (p : TxPort dir vcSize bufSize σ) :
    TxPort dir vcSize bufSize σ :=
  { p with
    flitToPack       := if p.isActive then p.flitToPack else {}
    startedPackingAt := if p.isActive then p.startedPackingAt else 0
    flow             := if p.isActive then p.flow else rules.newFlit p.flow 0 }

end Ports

variable {n : Nat} {cfg : Config n} {M : Memory}

def CXLDevice.settle (d : CXLDevice cfg M) : CXLDevice cfg M :=
  { d with tx := d.tx.settle (devicePackerRules cfg) }

def CXLHost.settle (h : CXLHost cfg) : CXLHost cfg :=
  { h with tx := h.tx.settle (hostPackerRules cfg) }

def CXLSwitch.settle (s : CXLSwitch cfg) : CXLSwitch cfg :=
  { s with skipCycle := false }

namespace CXLSystem

-- The state up to the scratch fields of the inactive packers and the flag of the switch.
def settle (s : CXLSystem cfg M) : CXLSystem cfg M :=
  { s with
    host    := s.host.settle
    devices := fun i => (s.devices i).settle
    switch  := s.switch.settle }

-- `curr_tick` is set back only if there is no active transaction.
def InOrder (s : CXLSystem cfg M) (a : Action n) : Prop :=
  s.NotBack a ∨ s.host.noActiveTransaction

-- The states between such calls.
def ReachesInOrder (trace : List Char) (s : CXLSystem cfg M) : Prop :=
  ∃ as : List (Action n), as.foldlM perform (init trace) = .ok s ∧
    Admits InOrder (init trace : CXLSystem cfg M) as

-- Whenever a check of the build that skips cycles succeeds, the function that is not called would have
-- changed nothing that matters, unless it had aborted.
structure SkipsNothing (s : CXLSystem cfg M) : Prop where
  packHost        : s.host.tx.skipPackerCheck s.currTick cfg.params →
    ∀ h, s.host.flitPacker s.currTick = .ok h → h.settle = s.host.settle
  packDevice      : ∀ i, (s.devices i).tx.skipPackerCheck s.currTick cfg.params →
    ∀ d, (s.devices i).flitPacker s.currTick = .ok d → d.settle = (s.devices i).settle
  transmitHost    : s.host.tx.skipTransmitCheck s.currTick cfg.params s.busFromHost →
    s.host.transmit s.currTick s.busFromHost = .ok (s.host, s.busFromHost)
  transmitDevice  : ∀ i, (s.devices i).tx.skipTransmitCheck s.currTick cfg.params (s.busFromDevice i) →
    (s.devices i).transmit s.currTick (s.busFromDevice i) = .ok (s.devices i, s.busFromDevice i)
  unpackHost      : s.host.rx.skipUnpackerCheck s.currTick cfg.params →
    ∀ h, s.host.flitUnpacker s.currTick = .ok h → h = s.host
  unpackDevice    : ∀ i, (s.devices i).rx.skipUnpackerCheck s.currTick cfg.params →
    ∀ d, (s.devices i).flitUnpacker s.currTick = .ok d → d = s.devices i
  sendToRamulator : ∀ i, (s.devices i).skipSendToRamCheck s.currTick →
    ∀ d, (s.devices i).sendToRamulator s.currTick = .ok d → d = s.devices i
  completeReq     : s.host.skipReqCompleteCheck s.currTick →
    ∀ h, s.host.checkIfReqCompleted s.currTick = .ok h → h = s.host

end CXLSystem

end CXL
