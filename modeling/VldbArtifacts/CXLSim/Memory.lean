import VldbArtifacts.CXLSim.Params

-- The memories behind the simulator (ramulator/src/Request.h, CXLInterface.cpp, RamDevice.cpp,
-- DirectAttached.cpp). The DRAM model itself is vendored code and stays a parameter.

namespace CXL

inductive Request.Type
  | read | write | refresh
  deriving DecidableEq, Repr

structure Request where
  addr  : Nat
  type  : Request.Type
  reqId : Nat
  deriving DecidableEq, Repr

-- `ramulator::Memory`. A tick calls back the requests it completes, in the order of the list. The laws
-- say that every accepted request is called back at most once, and only accepted requests are: what
-- is outstanding is exactly what was accepted and not called back yet.
structure Memory where
  State                  : Type
  init                   : State
  send                   : State → Request → Bool × State
  tick                   : State → List Request × State
  pendingRequests        : State → Bool
  setHighWriteqWatermark : State → State
  outstanding            : State → Multiset Request
  outstanding_init       : outstanding init = 0
  outstanding_send       : ∀ s r, outstanding (send s r).2 =
                             if (send s r).1 then r ::ₘ outstanding s else outstanding s
  outstanding_tick       : ∀ s, outstanding s = (tick s).1 + outstanding (tick s).2
  outstanding_watermark  : ∀ s, outstanding (setHighWriteqWatermark s) = outstanding s

-- A memory that completes one request in each cycle, in the order in which they came.
def Memory.fifo : Memory where
  State                     := List Request
  init                      := []
  send s r                  := (true, s ++ [r])
  tick s                    := (s.take 1, s.drop 1)
  pendingRequests s         := !s.isEmpty
  setHighWriteqWatermark s  := s
  outstanding s             := s
  outstanding_init          := rfl
  outstanding_send s r      := Multiset.coe_eq_coe.mpr List.perm_append_comm
  outstanding_tick s        := by rw [Multiset.coe_add, List.take_append_drop]
  outstanding_watermark _   := rfl

inductive StatusType
  | valid | empty | «end»
  deriving DecidableEq, Repr

structure RamulatorReq where
  reqId   : Nat
  type    : StatusType
  reqAddr : Nat
  reqType : Request.Type
  deriving DecidableEq, Repr

-- `CXL_if_buf`.
structure CXLIfBuf where
  buf : List RamulatorReq := []

namespace CXLIfBuf

def size : Nat := 32

def isEmpty (b : CXLIfBuf) : Bool :=
  b.buf.isEmpty

def isFull (b : CXLIfBuf) : Bool :=
  b.buf.length ≥ size

def bufAdd (b : CXLIfBuf) (r : RamulatorReq) : Sim CXLIfBuf :=
  if b.isFull then .error .overflowRamulatorBuffer else .ok ⟨b.buf ++ [r]⟩

end CXLIfBuf

def message2RamulatorReq (m : Message) : Sim RamulatorReq :=
  match m.opCode with
  | .req => .ok { reqId := m.msgId, type := .valid, reqAddr := m.address, reqType := .read }
  | .rwd => .ok { reqId := m.msgId, type := .valid, reqAddr := m.address, reqType := .write }
  | _    => .error .illegalMessageType

-- The members that `RamDevice` and `DirectAttached` share: the memory, the input buffer, the registers
-- `addr`, `type` and `req_id` (kept here as one request), and those members of `dramtrace_state` that
-- are read.
structure Dram (M : Memory) where
  memory : M.State := M.init
  inpBuf : CXLIfBuf := {}
  reg    : Request := ⟨0, .read, 0⟩
  stall  : Bool := false
  status : StatusType := .valid
  clks   : Nat := 0

namespace Dram

variable {M : Memory}

-- `CXL_if_buf::get_dramtrace_request`, with the registers as its reference parameters.
def getDramtraceRequest (d : Dram M) : Dram M :=
  match d.inpBuf.buf with
  | []     => { d with reg := { d.reg with addr := 0, type := .refresh }, status := .empty }
  | r :: q =>
    if r.type = .end then
      { d with status := .end }
    else
      { d with reg := ⟨r.reqAddr, r.reqType, r.reqId⟩, inpBuf := ⟨q⟩, status := .valid }

-- The part of `update` before `memory->tick()`: fetch the next request unless one is stalled, and offer
-- it to the memory. The request is returned if the memory accepted it.
def feed (d : Dram M) : Option Request × Dram M :=
  let d := if d.status ≠ .end ∧ ¬d.stall then d.getDramtraceRequest else d
  match d.status with
  | .valid =>
    let (accepted, memory) := M.send d.memory d.reg
    (if accepted then some d.reg else none, { d with memory, stall := !accepted })
  | .empty => (none, d)
  | .end   => (none, { d with memory := M.setHighWriteqWatermark d.memory })

-- `memory->tick()` and `state.clks++`. The requests called back are returned.
def tick (d : Dram M) : List Request × Dram M :=
  let (completed, memory) := M.tick d.memory
  (completed, { d with memory, clks := d.clks + 1 })

def isActive (d : Dram M) : Bool :=
  d.status ≠ .end || M.pendingRequests d.memory

end Dram

end CXL
