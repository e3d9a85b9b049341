import VldbArtifacts.CXLSim.Params

-- The buses (include/CXLBus.h, src/CXLBus.cpp). A bus moves flits from its `from` buffer, whose owner
-- adds them, to its `to` buffer.

namespace CXL

inductive BusTerminals
  | hostDevice | deviceHost | hostSwitch | switchHost | deviceSwitch | switchDevice
  deriving DecidableEq, Repr

-- The stamp that the messages of a flit get when the flit leaves the bus.
def BusTerminals.timeField : BusTerminals → TimeField
  | hostSwitch   => .tickSwitchDsRx
  | switchDevice => .tickReceived
  | deviceSwitch => .tickSwitchUsRx
  | switchHost   => .tickRespReceived
  | hostDevice   => .tickReceived
  | deviceHost   => .tickRespReceived

structure CXLBus (size : Nat) where
  flitSlots         : List Flit
  timeOfLastDequeue : Int
  occupancy_le      : flitSlots.length ≤ size

namespace CXLBus

variable {size bufSize : Nat}

def init : CXLBus size where
  flitSlots         := []
  timeOfLastDequeue := 0
  occupancy_le      := Nat.zero_le _

def isFull (b : CXLBus size) : Bool :=
  b.flitSlots.length == size

def isEmpty (b : CXLBus size) : Bool :=
  b.flitSlots.isEmpty

def isFlitStagnant (p : CXLParams) (currTick : Int) (b : CXLBus size) : Bool :=
  match b.flitSlots with
  | []     => false
  | f :: _ => currTick - f.time.timeOfTransmission > p.cxlBusTotalLatency

def addToBus (currTick : Int) (b : CXLBus size) (f : Flit) : Sim (CXLBus size) :=
  if h : b.flitSlots.length = size then
    .error .addingToFullBus
  else
    .ok {
      flitSlots         := b.flitSlots ++ [f]
      timeOfLastDequeue := if b.isEmpty then currTick else b.timeOfLastDequeue
      occupancy_le      := by
        have := b.occupancy_le
        simp only [List.length_append, List.length_singleton]
        omega
    }

def sendToNode (p : CXLParams) (currTick : Int) (busType : BusTerminals) (name : BufName) :
    CXLBus size → CXLBuf bufSize Flit → Sim (CXLBus size × CXLBuf bufSize Flit)
  | ⟨[], t, h⟩, toBuf => .ok (⟨[], t, h⟩, toBuf)
  | ⟨f :: fs, t, h⟩, toBuf =>
    if currTick - f.time.timeOfTransmission ≥ p.cxlBusTotalLatency then do
      let f := { f with time := { f.time with timeOfReceipt := currTick } }
      let toBuf ← toBuf.enqueue name (f.setTime busType.timeField currTick)
      return (⟨fs, currTick, by simp at h; omega⟩, toBuf)
    else
      .ok (⟨f :: fs, t, h⟩, toBuf)

def update (p : CXLParams) (currTick : Int) (busType : BusTerminals) (name : BufName)
    (b : CXLBus size) (toBuf : CXLBuf bufSize Flit) : Sim (CXLBus size × CXLBuf bufSize Flit) := do
  assert (b.flitSlots.length ≤ size) .busSizeExceeded
  assert (¬b.isFlitStagnant p currTick) .stagnantFlit
  if currTick - b.timeOfLastDequeue ≥ p.cxlBusTicksPerDequeue ∧ ¬b.isEmpty then
    b.sendToNode p currTick busType name toBuf
  else
    return (b, toBuf)

end CXLBus

end CXL
