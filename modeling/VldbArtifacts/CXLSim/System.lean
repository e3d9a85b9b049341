import VldbArtifacts.CXLSim.Host
import VldbArtifacts.CXLSim.Switch

-- The system of one host and `n` devices (src/CXLSys.cpp, ramulator/src/DirectAttached.cpp,
-- `CXLHost::text_to_trace`) and the loop of src/Main.cpp.

namespace CXL

-- `curr_tick` is global in the source.
structure CXLSystem {n : Nat} (cfg : Config n) (M : Memory) where
  host          : CXLHost cfg
  dam           : Dram M
  devices       : Fin n → CXLDevice cfg M
  switch        : CXLSwitch cfg
  busToHost     : CXLBus cfg.busSize
  busFromHost   : CXLBus cfg.busSize
  busToDevice   : Fin n → CXLBus cfg.busSize
  busFromDevice : Fin n → CXLBus cfg.busSize
  currTick      : Int

-- The callback of a request that the direct attached memory has completed.
def CXLHost.directAttachedReqComplete {n : Nat} {cfg : Config n} (currTick : Int) (h : CXLHost cfg)
    (r : Request) : CXLHost cfg :=
  let e := (h.amatPerTableDam.lookup (tableOf r.addr)).getD {}
  let e := { e with count := e.count + 1 }
  let latency := currTick - (h.reqsInDam.lookup r.reqId).getD 0
  { h with
    numReqsCompleted := h.numReqsCompleted + 1
    amatPerTableDam  := h.amatPerTableDam.insert (tableOf r.addr)
      { e with avg := runningAverage e.avg latency e.count }
    reqsInDam        := h.reqsInDam.erase r.reqId
    completed        := h.completed ++ [r.reqId] }

-- The end of `text_to_trace`: a line of the trace becomes a message in the buffer. It says whether the
-- file may have more lines.
def CXLHost.readTrace {n : Nat} {cfg : Config n} (h : CXLHost cfg) : Sim (Bool × CXLHost cfg) :=
  if h.textToTraceBuf.isBufFull then
    return (true, h)
  else
    match getline '\n' h.traceIn with
    | none            => return (false, h)
    | some (ln, rest) => do
      let (opCode, address, clkInterval) ← parseLine ln
      let m : Message := { opCode, address, msgId := h.msgCount }
      let textToTraceBuf ← h.textToTraceBuf.enqueue .textToTrace (clkInterval, m)
      return (true, { h with textToTraceBuf, traceIn := rest, msgCount := h.msgCount + 1 })

-- The head of the buffer goes to its virtual channel, unless that is full.
def CXLHost.issueToVc {n : Nat} {cfg : Config n} (currTick : Int) (h : CXLHost cfg) (m : Message) :
    Sim (Option (CXLHost cfg)) := do
  let m := { m with time := { m.time with tickCreated := currTick } }
  match hm : m.opCode with
  | .req =>
    if (h.tx.single.vcs h.curReqVc).isBufFull then
      return none
    else
      let m' := { m with time := { m.time with readWrite := false } }
      let single ← h.tx.single.enqueue .hostM2SReq h.curReqVc m' hm
      return some { h with
        tx                   := { h.tx with single }
        curReqVc             := nextEnqueueVc h.curReqVc
        textToTraceBuf       := h.textToTraceBuf.dequeue
        messagesSentToDevice := h.messagesSentToDevice.insertNew m.msgId m'
        issued               := h.issued ++ [(m.msgId, currTick)] }
  | .rwd =>
    if (h.tx.hdr.vcs h.curRWDVc).isBufFull then
      return none
    else
      let m' := { m with time := { m.time with readWrite := true } }
      let hdr ← h.tx.hdr.enqueue .hostM2SRwd h.curRWDVc m' hm
      return some { h with
        tx                   := { h.tx with hdr }
        curRWDVc             := nextEnqueueVc h.curRWDVc
        textToTraceBuf       := h.textToTraceBuf.dequeue
        messagesSentToDevice := h.messagesSentToDevice.insertNew m.msgId m'
        issued               := h.issued ++ [(m.msgId, currTick)] }
  | _ => .error .illegalMessageType

namespace CXLSystem

variable {n : Nat} {cfg : Config n} {M : Memory}

def init (trace : List Char) : CXLSystem cfg M where
  host            := .init trace
  dam             := {}
  devices _       := .init
  switch          := .init
  busToHost       := .init
  busFromHost     := .init
  busToDevice _   := .init
  busFromDevice _ := .init
  currTick        := 0

-- `DirectAttached::update`. Its map `reqs_in_ramulator` stays empty.
def updateDam (s : CXLSystem cfg M) : CXLSystem cfg M :=
  if s.dam.isActive then
    let (completed, dam) := s.dam.feed.2.tick
    { s with
      dam
      host := completed.foldl (CXLHost.directAttachedReqComplete s.currTick) s.host }
  else
    s

def updateMemories (s : CXLSystem cfg M) : Sim (CXLSystem cfg M) := do
  return { s with devices := ← Except.traverseFin fun i => (s.devices i).updateDram s.currTick }

-- The loop that catches up with the memory cycles of a jump: `i` takes `rounds` values 6 apart.
def catchUp : Nat → Int → CXLSystem cfg M → Sim (CXLSystem cfg M)
  | 0, _, s          => .ok s
  | rounds + 1, i, s => do
    assert (i = s.currTick ∨ cfg.hasDAM) .nullDAM
    let s := if i = s.currTick then s else s.updateDam
    let s ← s.updateMemories
    catchUp rounds (i + 6) s

-- The tick at which the head of the buffer may be issued, in the mixed arithmetic of the source.
def jumpTarget (s : CXLSystem cfg M) (interval : Nat) : Int :=
  toI64 (toU64 (s.currTick +
    (interval * cfg.params.ticksPerIns - (s.currTick - s.host.lastTextToTraceBufDequeue))))

def skipIdleTicks (s : CXLSystem cfg M) : Sim (CXLSystem cfg M) :=
  match s.host.textToTraceBuf.q with
  | []                 => return s
  | (interval, _) :: _ =>
    if s.host.noActiveTransaction then
      let target := s.jumpTarget interval
      let first  := (s.currTick.tdiv 6 + 1) * 6
      catchUp ((target - first) / 6 + 1).toNat first { s with currTick := target }
    else
      return s

def isInDam (cfg : Config n) (address : Nat) : Bool :=
  cfg.hasDAM && address ≥ cfg.damInterval.1 && address < cfg.damInterval.2

-- Move the head of the buffer to a channel or to the direct attached memory if it is time. The flag is
-- false if `text_to_trace` returns at once because the channel is full.
def issueHead (s : CXLSystem cfg M) : Sim (Bool × CXLSystem cfg M) :=
  match s.host.textToTraceBuf.q with
  | []                 => return (true, s)
  | (interval, m) :: _ =>
    if toU64 (s.currTick - s.host.lastTextToTraceBufDequeue) ≥
        toU64 (interval * cfg.params.ticksPerIns) then
      let h := { s.host with lastTextToTraceBufDequeue := s.currTick }
      if isInDam cfg m.address then
        if s.dam.inpBuf.isFull then
          return (true, { s with host := h })
        else do
          let req ← message2RamulatorReq m
          let inpBuf ← s.dam.inpBuf.bufAdd req
          return (true, { s with
            dam  := { s.dam with inpBuf }
            host := { h with
              reqsInDam      := h.reqsInDam.insertNew req.reqId s.currTick
              textToTraceBuf := h.textToTraceBuf.dequeue
              issued         := h.issued ++ [(req.reqId, s.currTick)] } })
      else do
        match ← h.issueToVc s.currTick m with
        | none   => return (false, { s with host := h })
        | some h => return (true, { s with host := h })
    else
      return (true, s)

def textToTrace (b : Build) (s : CXLSystem cfg M) : Sim (Bool × CXLSystem cfg M) := do
  let s ← skipIf (¬b.fastForward) s s.skipIdleTicks
  let (mayRead, s) ← s.issueHead
  if mayRead then
    let (more, host) ← s.host.readTrace
    return (more, { s with host })
  else
    return (true, s)

-- The start of `CXLHost::update`.
def updateTrace (b : Build) (s : CXLSystem cfg M) : Sim (CXLSystem cfg M) :=
  if ¬s.host.isTraceFinished ∨ ¬s.host.textToTraceBuf.isBufEmpty then do
    let (more, s) ← s.textToTrace b
    return { s with host := { s.host with isTraceFinished := s.host.isTraceFinished || !more } }
  else
    return s

def updateHost (b : Build) (s : CXLSystem cfg M) : Sim (CXLSystem cfg M) := do
  let s ← s.updateTrace b
  let (host, busFromHost) ← s.host.updateNode s.currTick b s.busFromHost
  return { s with host, busFromHost }

def updateHostBuses (s : CXLSystem cfg M) : Sim (CXLSystem cfg M) := do
  let (busToHost, rxBuffer) ← s.busToHost.update cfg.params s.currTick .switchHost .hostRx
    s.host.rx.rxBuffer
  let (busFromHost, upstreamRx) ← s.busFromHost.update cfg.params s.currTick .hostSwitch .upstreamRx
    s.switch.upstreamRx
  return { s with
    host   := { s.host with rx := { s.host.rx with rxBuffer } }
    switch := { s.switch with upstreamRx }
    busToHost, busFromHost }

def updateSwitch (b : Build) (s : CXLSystem cfg M) : Sim (CXLSystem cfg M) := do
  let (switch, busToHost, busToDevice) ← s.switch.update s.currTick b s.busToHost s.busToDevice
  return { s with switch, busToHost, busToDevice }

def updateDeviceBuses (s : CXLSystem cfg M) : Sim (CXLSystem cfg M) := do
  let bs ← Except.traverseFin fun i => do
    let down ← (s.busToDevice i).update cfg.params s.currTick .switchDevice .deviceRx
      (s.devices i).rx.rxBuffer
    let up ← (s.busFromDevice i).update cfg.params s.currTick .deviceSwitch .downstreamRx
      (s.switch.downstreamRx i)
    return (down, up)
  return { s with
    devices       := fun i => { s.devices i with
      rx := { (s.devices i).rx with rxBuffer := (bs i).1.2 } }
    switch        := { s.switch with downstreamRx := fun i => (bs i).2.2 }
    busToDevice   := fun i => (bs i).1.1
    busFromDevice := fun i => (bs i).2.1 }

def updateDevices (b : Build) (s : CXLSystem cfg M) : Sim (CXLSystem cfg M) := do
  let ds ← Except.traverseFin fun i => (s.devices i).update s.currTick b (s.busFromDevice i)
  return { s with devices := fun i => (ds i).1, busFromDevice := fun i => (ds i).2 }

def update (b : Build) (s : CXLSystem cfg M) : Sim (CXLSystem cfg M) := do
  let s ← s.updateHostBuses
  let s ← s.updateSwitch b
  let s ← s.updateDeviceBuses
  let s ← s.updateDevices b
  let s ← s.updateHost b
  if s.currTick % cfg.params.delayRamulatorUpdate = 0 ∧ cfg.hasDAM then
    return s.updateDam
  else
    return s

-- A round of the loop of `main`.
def tick (b : Build) (s : CXLSystem cfg M) : Sim (CXLSystem cfg M) := do
  let s ← s.update b
  return { s with currTick := s.currTick + 1 }

def run (b : Build) : Nat → CXLSystem cfg M → Sim (CXLSystem cfg M)
  | 0, s     => .ok s
  | k + 1, s => s.tick b >>= run b k

-- The states between two rounds of the loop.
inductive Reachable (b : Build) (trace : List Char) : CXLSystem cfg M → Prop
  | init : Reachable b trace (init trace)
  | tick {s s'} : Reachable b trace s → s.tick b = .ok s' → Reachable b trace s'

def numReqs (trace : List Char) : Nat :=
  trace.count '\n'

-- The test that leaves the loop of `main`.
def isFinished (numReqs : Nat) (s : CXLSystem cfg M) : Bool :=
  s.host.messagesSentToDevice.entries.isEmpty && s.host.reqsInDam.entries.isEmpty &&
  s.host.numReqsCompleted ≥ numReqs

end CXLSystem

end CXL
