import VldbArtifacts.Ramulator.Memory

-- The runs of a memory, and what is seen of each of its channels.

namespace Ramulator

open DDR4

-- A request as it was sent, with the vector of its address.
def Request.sent (req : Request) : CXL.Request × AddrVec :=
  (req.toRequest, req.addrVec)

-- The command that serves a request, and where it goes.
def Request.demand (req : Request) : Command × AddrVec :=
  (translate req.type, req.addrVec)

-- The commands of a trace that serve requests.
def Issue.accesses (is : List Issue) : Multiset (Command × AddrVec) :=
  (is.filter fun i => i.cmd ∈ [.rd, .wr, .ref]).map fun i => (i.cmd, i.addr)

namespace Controller

-- The requests in the queues for reads, for writes and for those that a row was opened for.
def queued (c : Controller) : Multiset Request :=
  (c.readq : Multiset Request) + c.writeq + c.actq

-- The requests that wait for their callback.
def waiting (c : Controller) : Multiset (CXL.Request × AddrVec) :=
  (c.queued + c.pending).map Request.sent

def demands (c : Controller) : Multiset (Command × AddrVec) :=
  (c.queued + c.otherq).map Request.demand

-- A read is answered by a write that waits.
def forwards (c : Controller) (req : Request) : Bool :=
  req.type = .read && c.writeq.any fun wreq => req.addr = wreq.addr

-- What `inject_refresh` asks of a channel.
def refreshDemands (spec : DDR4) (k : Nat) : Multiset (Command × AddrVec) :=
  (List.range spec.orgEntry.ranks).map fun rank : Nat => (Command.ref, [(k : Int), rank, -1, -1, -1, -1])

end Controller

-- What is seen of a channel, the last first: the requests that it accepted, and those of them that a write
-- answered, the requests that it called back and when it did, and the commands that it issued.
structure Trace where
  accepted   : List Request := []
  forwarded  : List Request := []
  calledBack : List (Request × Int) := []
  issued     : List Issue := []

namespace Trace

def enqueued (t : Trace) (c : Controller) (req : Request) : Trace :=
  if (c.enqueue req).1 then
    { t with
      accepted  := req :: t.accepted
      forwarded := if c.forwards req then req :: t.forwarded else t.forwarded }
  else t

-- The accepted requests that are to be called back, and those that were.
def expected (t : Trace) : Multiset (CXL.Request × AddrVec) :=
  (t.accepted.filter fun req => req.type ≠ .refresh).map Request.sent

def completed (t : Trace) : Multiset (CXL.Request × AddrVec) :=
  t.calledBack.map fun (req, _) => req.sent

def ticked (t : Trace) (o : Controller.Outcome) (clk : Int) : Trace :=
  { t with
    calledBack := o.calledBack.map (·, clk) ++ t.calledBack
    issued     := o.issued ++ t.issued }

end Trace

namespace Memory

def waiting (m : Memory) : Multiset (CXL.Request × AddrVec) :=
  (m.ctrls.map Controller.waiting).sum

-- The traces of the channels.
abbrev Log := Nat → Trace

def Log.sent (spec : DDR4) (log : Log) (m : Memory) (req : CXL.Request) : Log :=
  let addrVec := mapAddr spec m.type req.addr
  let k := (addrVec.at .channel).toNat
  match m.ctrls[k]? with
  | none      => log
  | some ctrl => Function.update log k ((log k).enqueued ctrl { req with addrVec })

def Log.ticked (log : Log) (outs : List Controller.Outcome) (m : Memory) : Log := fun k =>
  match outs[k]?, m.ctrls[k]? with
  | some o, some ctrl => (log k).ticked o ctrl.clk
  | _, _              => log k

-- The requests that a memory of some channels was sent, and those that it called back.
def Log.expected (log : Log) (channels : Nat) : Multiset (CXL.Request × AddrVec) :=
  ((List.range channels).map fun k => (log k).expected).sum

def Log.completed (log : Log) (channels : Nat) : Multiset (CXL.Request × AddrVec) :=
  ((List.range channels).map fun k => (log k).completed).sum

-- The requests come and the cycles go by in any order.
inductive Reaches (spec : DDR4) : Log → Memory → Prop
  | new scheduler type : Reaches spec (fun _ => {}) (Memory.new spec scheduler type)
  | send {log m} (req) : Reaches spec log m → Reaches spec (log.sent spec m req) (m.send spec req).2
  | tick {log m outs m'} : Reaches spec log m → m.tick spec = .ok (outs, m') → Reaches spec (log.ticked outs m') m'
  | setHighWriteqWatermark {log m} (watermark) :
      Reaches spec log m → Reaches spec log (m.setHighWriteqWatermark watermark)

inductive Step
  | send (req : CXL.Request) | tick | setHighWriteqWatermark (watermark : Nat)

def step (spec : DDR4) (s : Log × Memory) : Step → Except Failure (Log × Memory)
  | .send req                         => .ok (s.1.sent spec s.2 req, (s.2.send spec req).2)
  | .tick                             => do
    let (outs, m) ← s.2.tick spec
    return (s.1.ticked outs m, m)
  | .setHighWriteqWatermark watermark => .ok (s.1, s.2.setHighWriteqWatermark watermark)

-- A run of the memory as the devices make it.
def run (spec : DDR4) (steps : List Step) : Except Failure (Log × Memory) :=
  steps.foldlM (step spec) (fun _ => {}, .new spec {} .roBaRaCoCh)

end Memory

end Ramulator
