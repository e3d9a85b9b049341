import VldbArtifacts.Ramulator.Controller

-- The memory of a device (ramulator/src/Memory.h), as `RamDevice` and `DirectAttached` set it up: without a
-- mapping file, which only DDR3 reads, and without a translation of pages.

namespace Ramulator

open DDR4

namespace DDR4

-- `calc_log2` counts how often a number can be halved.
def calcLog2 (val : Nat) : Nat :=
  val.log2

-- `addr_bits`. The memory counts columns by transactions.
def addrBits (spec : DDR4) : Level → Nat
  | .column => calcLog2 (spec.orgEntry.count .column) - calcLog2 prefetchSize
  | level   => calcLog2 (spec.orgEntry.count level)

-- The size of a transaction, and its logarithm `tx_bits`.
def tx : Nat :=
  prefetchSize * channelWidth / 8

def txBits : Nat :=
  calcLog2 tx

def levels : List Level :=
  [.channel, .rank, .bankGroup, .bank, .row, .column]

def maxAddress (spec : DDR4) : Nat :=
  levels.foldl (fun size level => size * spec.orgEntry.count level) (channelWidth / 8)

end DDR4

inductive Memory.Type
  | chRaBaRoCo | roBaRaCoCh
  deriving DecidableEq, Repr

structure Memory where
  ctrls : List Controller
  type  : Memory.Type := .roBaRaCoCh

namespace Memory

-- The levels of an address, the lowest bits first.
def Type.order : Memory.Type → List Level
  | .chRaBaRoCo => [.column, .row, .bank, .bankGroup, .rank, .channel]
  | .roBaRaCoCh => [.channel, .column, .rank, .bankGroup, .bank, .row]

def sliceLowerBits (addr bits : Nat) : Nat × Nat :=
  (addr &&& (1 <<< bits - 1), addr >>> bits)

def clearLowerBits (addr bits : Nat) : Nat :=
  addr >>> bits

def mapAddr (spec : DDR4) (type : Memory.Type) (addr : Nat) : AddrVec :=
  let slice (s : Nat × AddrVec) (level : Level) :=
    let (lbits, addr) := sliceLowerBits s.1 (spec.addrBits level)
    (addr, s.2.set level.toNat lbits)
  (type.order.foldl slice (clearLowerBits addr txBits, List.replicate levels.length 0)).2

def new (spec : DDR4) (scheduler : Scheduler) (type : Memory.Type) : Memory :=
  { ctrls := (List.range spec.orgEntry.channels).map (Controller.new spec scheduler), type }

-- The channel of an address is always one of the memory.
def send (spec : DDR4) (m : Memory) (req : CXL.Request) : Bool × Memory :=
  let addrVec := mapAddr spec m.type req.addr
  let k := (addrVec.at .channel).toNat
  match m.ctrls[k]? with
  | none      => (false, m)
  | some ctrl =>
    let (accepted, ctrl) := ctrl.enqueue { req with addrVec }
    (accepted, { m with ctrls := m.ctrls.set k ctrl })

-- The controllers tick one after the other. What each of them is seen to do is returned.
def tick (spec : DDR4) (m : Memory) : Except Failure (List Controller.Outcome × Memory) := do
  let res ← m.ctrls.mapM (·.tick spec)
  return (res.map (·.1), { m with ctrls := res.map (·.2) })

def pendingRequests (m : Memory) : Nat :=
  (m.ctrls.map fun ctrl =>
    ctrl.readq.length + ctrl.writeq.length + ctrl.otherq.length + ctrl.actq.length + ctrl.pending.length).sum

-- The watermark is given in tenths.
def setHighWriteqWatermark (m : Memory) (watermark : Nat) : Memory :=
  { m with ctrls := m.ctrls.map fun ctrl => { ctrl with wrHighWatermark := watermark } }

end Memory

end Ramulator
