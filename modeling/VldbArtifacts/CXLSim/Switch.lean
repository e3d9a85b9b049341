import VldbArtifacts.Lib.Except
import VldbArtifacts.CXLSim.Device

-- The switch (src/CXLSwitch.cpp).

namespace CXL

-- `moved` records the flits from the devices in the order in which they are arbitrated, with their
-- ports. Nothing reads it.
structure CXLSwitch {n : Nat} (cfg : Config n) where
  upstreamTx                 : CXLBuf cfg.switchBufSize Flit
  upstreamRx                 : CXLBuf cfg.switchBufSize Flit
  downstreamTx               : Fin n → CXLBuf cfg.switchBufSize Flit
  downstreamRx               : Fin n → CXLBuf cfg.switchBufSize Flit
  arbNocH2D                  : CXLBuf cfg.switchBufSize Flit
  arbNocD2H                  : CXLBuf cfg.switchBufSize Flit
  previousDestination        : Nat
  lastTransmission           : Nat
  downstreamLastTransmission : Fin n → Nat
  currPort                   : Nat
  expectedRollover           : Nat
  skipCycle                  : Bool
  moved                      : List (Fin n × Flit)

namespace CXLSwitch

variable {n size busSize : Nat} {cfg : Config n} (currTick : Int)

def init : CXLSwitch cfg where
  upstreamTx                   := ∅
  upstreamRx                   := ∅
  downstreamTx _               := ∅
  downstreamRx _               := ∅
  arbNocH2D                    := ∅
  arbNocD2H                    := ∅
  previousDestination          := 0
  lastTransmission             := 0
  downstreamLastTransmission _ := 0
  currPort                     := 0
  expectedRollover             := 0
  skipCycle                    := false
  moved                        := []

-- The head of a buffer, if it has waited for `delay` (`check_buffer_condition` without its flag).
def readyHead? (b : CXLBuf size Flit) (delay : Int) : Option Flit :=
  b.q.head?.filter (currTick - ·.time.timeOfReceipt ≥ delay)

-- The arithmetic is unsigned in the source.
def checkTransmission (params : CXLParams) (lt : Nat) (bus : CXLBus busSize) : Bool :=
  !bus.isFull && toU64 (currTick - lt) ≥ toU64 params.cxlBusTicksPerDequeue

-- Inside the switch, the time of receipt is the time at which a buffer received the flit.
def receive (f : Flit) : Flit :=
  { f with time := { f.time with timeOfReceipt := currTick } }

def forward (delay : Int) (name : BufName) (src dst : CXLBuf size Flit) :
    Sim (CXLBuf size Flit × CXLBuf size Flit) :=
  match readyHead? currTick src delay with
  | none   => return (src, dst)
  | some f => do
    let dst ← dst.enqueue name (receive currTick f)
    return (src.dequeue, dst)

-- From a port of the switch to its bus, with the tick of the last transmission.
def sendOut (params : CXLParams) (member : TimeField) (buf : CXLBuf size Flit) (lt : Nat)
    (bus : CXLBus busSize) : Sim (CXLBuf size Flit × Nat × CXLBus busSize) :=
  match readyHead? currTick buf params.delayCxlPortSwitch with
  | none   => return (buf, lt, bus)
  | some f =>
    if checkTransmission currTick params lt bus then do
      let f := { f with time := { f.time with timeOfTransmission := currTick } }
      let bus ← bus.addToBus currTick (f.setTime member currTick)
      return (buf.dequeue, toU64 currTick, bus)
    else
      return (buf, lt, bus)

-- A flit that starts with data belongs to the write whose header went before it.
def decodeDestination (s : CXLSwitch cfg) (f : Flit) : Sim Nat :=
  if (f.slots.getD 0 {}).type = .data then
    .ok s.previousDestination
  else do
    let dest ← cfg.destinationDevice f.getFirstAddress
    return dest

-- From the arbiter to the port of the destination. There is no buffer for a device that is not
-- connected: the one that `operator[]` makes has size 0.
def route (s : CXLSwitch cfg) : Sim (CXLSwitch cfg) :=
  match readyHead? currTick s.arbNocH2D cfg.params.delayCxlNocSwitch with
  | none   => return s
  | some f => do
    let dest ← s.decodeDestination f
    if hd : dest < n then
      let b ← (s.downstreamTx ⟨dest, hd⟩).enqueue .downstreamTx (receive currTick f)
      return { s with
        previousDestination := dest
        arbNocH2D           := s.arbNocH2D.dequeue
        downstreamTx        := Function.update s.downstreamTx ⟨dest, hd⟩ b }
    else
      .error (.addingToFullBuffer .downstreamTx)

def updatePort (s : CXLSwitch cfg) : CXLSwitch cfg :=
  if s.expectedRollover = 0 then
    { s with currPort := if s.currPort + 1 < n then s.currPort + 1 else 0 }
  else
    s

-- `expected_rollover` is unsigned.
def countRollover (r : Nat) : SlotType → Nat
  | .s2mDrsHdr => (r + 4) % 2 ^ 64
  | .data      => (r + (2 ^ 64 - 1)) % 2 ^ 64
  | _          => r

def updateRollover (s : CXLSwitch cfg) (f : Flit) : CXLSwitch cfg :=
  { s with expectedRollover := f.header.slots.foldl countRollover s.expectedRollover }

-- The loop that looks for a flit from a device, starting with the current port. The flag says that all
-- the buffers that were looked at are empty.
def arbitrate : Nat → CXLSwitch cfg → Sim (Bool × CXLSwitch cfg)
  | 0, s     => .ok (true, s)
  | k + 1, s =>
    if hp : s.currPort < n then
      let port : Fin n := ⟨s.currPort, hp⟩
      let b := s.downstreamRx port
      match readyHead? currTick b cfg.params.delayCxlPortSwitch with
      | some f => do
        let arbNocD2H ← s.arbNocD2H.enqueue .arbNocD2H (receive currTick f)
        let s := { s with
          arbNocD2H
          downstreamRx := Function.update s.downstreamRx port b.dequeue
          moved        := s.moved ++ [(port, f)] }
        return (false, (s.updateRollover f).updatePort)
      | none => do
        let (flag, s) ← arbitrate k s.updatePort
        return (b.isBufEmpty && flag, s)
    else
      arbitrate k s.updatePort

def allRxBufEmpty (s : CXLSwitch cfg) : Bool :=
  (List.finRange n).all (fun i => (s.downstreamRx i).isBufEmpty) && s.upstreamRx.isBufEmpty

-- The flow from the host to the devices, and whether its buffers are empty.
def updateH2D (s : CXLSwitch cfg) (busToDevice : Fin n → CXLBus busSize) :
    Sim (Bool × CXLSwitch cfg × (Fin n → CXLBus busSize)) := do
  let flag := s.upstreamRx.isBufEmpty
  let (upstreamRx, arbNocH2D) ← forward currTick cfg.params.delayCxlPortSwitch .arbNocH2D
    s.upstreamRx s.arbNocH2D
  let s := { s with upstreamRx, arbNocH2D }
  let flag := flag && s.arbNocH2D.isBufEmpty
  let s ← s.route currTick
  let flag := flag && (List.finRange n).all fun i => (s.downstreamTx i).isBufEmpty
  let ports ← Except.traverseFin fun i => sendOut currTick cfg.params .tickSwitchDsTx
    (s.downstreamTx i) (s.downstreamLastTransmission i) (busToDevice i)
  let s := { s with
    downstreamTx               := fun i => (ports i).1
    downstreamLastTransmission := fun i => (ports i).2.1 }
  return (flag, s, fun i => (ports i).2.2)

-- The flow from the devices to the host, and whether its buffers are empty.
def updateD2H (s : CXLSwitch cfg) (busToHost : CXLBus busSize) :
    Sim (Bool × CXLSwitch cfg × CXLBus busSize) := do
  let (flag, s) ← arbitrate currTick n s
  let flag := flag && s.arbNocD2H.isBufEmpty
  let (arbNocD2H, upstreamTx) ← forward currTick cfg.params.delayCxlNocSwitch .upstreamTx
    s.arbNocD2H s.upstreamTx
  let flag := flag && upstreamTx.isBufEmpty
  let (upstreamTx, lastTransmission, busToHost) ← sendOut currTick cfg.params .tickSwitchUsTx
    upstreamTx s.lastTransmission busToHost
  return (flag, { s with arbNocD2H, upstreamTx, lastTransmission }, busToHost)

def update (b : Build) (s : CXLSwitch cfg) (busToHost : CXLBus busSize)
    (busToDevice : Fin n → CXLBus busSize) :
    Sim (CXLSwitch cfg × CXLBus busSize × (Fin n → CXLBus busSize)) := do
  if b.skipCycle ∧ s.skipCycle ∧ s.allRxBufEmpty then
    return (s, busToHost, busToDevice)
  else
    let (flagH2D, s, busToDevice) ← s.updateH2D currTick busToDevice
    let (flagD2H, s, busToHost) ← s.updateD2H currTick busToHost
    let s := if b.skipCycle then { s with skipCycle := flagH2D && flagD2H } else s
    return (s, busToHost, busToDevice)

end CXLSwitch

end CXL
