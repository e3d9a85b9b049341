import VldbArtifacts.CXLSim.Credits

-- The flits and the messages that are on their way, each list in the order in which it will arrive.

namespace CXL

section Ports

variable {dir : Dir} {vcSize bufSize : Nat} {σ : Type}

-- The messages of the flit that a packer is working on. The flit of a packer that is not waiting has been
-- sent.
def TxPort.packing (hasData : Bool) (p : TxPort dir vcSize bufSize σ) : List Message :=
  if p.isPackerWaiting then p.flitToPack.starts dir hasData else []

-- The header whose data has not arrived yet.
def RxPort.pending (hasData : Bool) (u : RxPort dir vcSize bufSize) : List Message :=
  if hasData ∧ u.unpackerRollover ≠ 0 then [u.lastHdr.core] else []

-- The messages in a channel.
def RxPort.channel (hasData : Bool) (u : RxPort dir vcSize bufSize) : List Message :=
  if hasData then u.hdr.q else u.single.q

-- The messages that were put into a channel.
def RxPort.log (hasData : Bool) (u : RxPort dir vcSize bufSize) : List Message :=
  (if hasData then u.hdrLog.map Prod.fst else u.singleLog).map Message.core

end Ports

-- The places for requests that are taken although the requests are no longer in the channel: those of the
-- writes in the memory and of the writes whose NDR waits to be packed.
def CXLDevice.held {n : Nat} {cfg : Config n} {M : Memory} (hasData : Bool) (d : CXLDevice cfg M) : Nat :=
  if hasData then (mapTags d.messagesInRamulator).countP (·.isWrite) + d.tx.single.msgs.card else 0

namespace CXLSystem

variable {n : Nat} {cfg : Config n} {M : Memory}

def flitsToDevice (s : CXLSystem cfg M) (d : Fin n) : List Flit :=
  (s.devices d).rx.rxBuffer.q ++ (s.busToDevice d).flitSlots ++ (s.switch.downstreamTx d).q

-- The flits that the switch has not sent to a device yet.
def flitsFromHost (s : CXLSystem cfg M) : List Flit :=
  s.switch.arbNocH2D.q ++ s.switch.upstreamRx.q ++ s.busFromHost.flitSlots ++ s.host.tx.txBuffer.q

def flitsToHost (s : CXLSystem cfg M) : List Flit :=
  s.host.rx.rxBuffer.q ++ s.busToHost.flitSlots ++ s.switch.upstreamTx.q ++ s.switch.arbNocD2H.q

-- The flits that the arbiter has not moved yet.
def flitsFromDevice (s : CXLSystem cfg M) (d : Fin n) : List Flit :=
  (s.switch.downstreamRx d).q ++ (s.busFromDevice d).flitSlots ++ (s.devices d).tx.txBuffer.q

-- The requests to device `d` that were packed and that it has not read, or not with all of their data.
def requestsTo (s : CXLSystem cfg M) (d : Fin n) (hasData : Bool) : List Message :=
  (s.devices d).rx.pending hasData ++ (s.flitsToDevice d).flatMap (Flit.starts .m2s hasData) ++
    (s.flitsFromHost.flatMap (Flit.starts .m2s hasData) ++ s.host.tx.packing hasData).filter (·.isFor cfg d)

-- The credits for requests to device `d` that are on their way to the host.
def creditsToHost (s : CXLSystem cfg M) (d : Fin n) (hasData : Bool) : Int :=
  carried hasData (s.flitsFromDevice d) + carried hasData (s.flitsToHost.filter (·.isFrom cfg d))

end CXLSystem

def switchBuffers : List BufName :=
  [.upstreamTx, .upstreamRx, .downstreamTx, .downstreamRx, .arbNocH2D, .arbNocD2H]

-- A call of the system, or something that happens to the host from outside of it: a request comes to one of
-- its channels, or its credits change.
inductive HostEvent (n : Nat)
  | call (a : Action n)
  | req (i : Fin numVc) (m : Message) (h : m.opCode = .req)
  | rwd (i : Fin numVc) (m : Message) (h : m.opCode = .rwd)
  | credit (extCreds : Fin n → Credits) (intCred : Credits)

namespace CXLSystem

variable {n : Nat} {cfg : Config n} {M : Memory}

def setHostTx (s : CXLSystem cfg M)
    (tx : TxPort .m2s (cfg.hostVcSize / numVc) cfg.hostBufSize (HostFlow n)) : CXLSystem cfg M :=
  { s with host := { s.host with tx } }

def onHost (s : CXLSystem cfg M) : HostEvent n → Sim (CXLSystem cfg M)
  | .call a => s.perform a
  | .req i m h => do
    return s.setHostTx { s.host.tx with single := ← s.host.tx.single.enqueue .hostM2SReq i m h }
  | .rwd i m h => do
    return s.setHostTx { s.host.tx with hdr := ← s.host.tx.hdr.enqueue .hostM2SRwd i m h }
  | .credit extCreds intCred =>
    return s.setHostTx { s.host.tx with flow := { s.host.tx.flow with extCreds, intCred } }

end CXLSystem

end CXL
