import VldbArtifacts.CXLSim.Ledger
import VldbArtifacts.CXLSim.Links

-- Where the credits of the system are.

namespace CXL

variable {n : Nat} (cfg : Config n)

-- The credit for a request with data, or for one without.
def Credits.request (hasData : Bool) (c : Credits) : Int :=
  if hasData then c.dataCredit else c.reqCredit

-- The credit for the response to such a request.
def Credits.response (hasData : Bool) (c : Credits) : Int :=
  if hasData then c.rspCredit else c.dataCredit

structure Credits.Nonneg (c : Credits) : Prop where
  req  : 0 ≤ c.reqCredit
  rsp  : 0 ≤ c.rspCredit
  data : 0 ≤ c.dataCredit

-- The assertions about credits, and about the channels that credits stand for.
def creditFailures : List Failure :=
  [.reqCredNotZero, .rspCredNotZero, .reqCredOutOfRange, .rspCredOutOfRange, .dataCredOutOfRange,
    .addingToFullBuffer .deviceM2SReq, .addingToFullBuffer .deviceM2SRwd,
    .addingToFullBuffer .hostS2MNdr, .addingToFullBuffer .hostS2MDrs]

-- The request credits that flits carry.
def carried (hasData : Bool) (fs : List Flit) : Int :=
  (fs.map fun f => f.header.credit.request hasData).sum

-- The host takes the flit for one of device `d`.
def Flit.isFrom (d : Fin n) (f : Flit) : Bool :=
  match slotsDevice cfg f.slots noDevice with
  | .ok k    => k = d.val
  | .error _ => false

-- The messages that wait to be packed, those with data or those without.
def Sender.channel {σ : Type} (hasData : Bool) (x : Sender σ) : Multiset Message :=
  if hasData then x.hdr else x.single

namespace Receiver

-- The number of requests that have been read with all of their data.
def read (hasData : Bool) (u : Receiver) : Nat :=
  if hasData then u.deframer.hdrs.length else u.deframer.singles.length

def channel (hasData : Bool) (u : Receiver) : List Message :=
  if hasData then u.hdr else u.single

end Receiver

namespace DeviceNode

-- A write keeps its place until its NDR is packed, a read only until the memory has it.
def held (hasData : Bool) (x : DeviceNode) : Nat :=
  if hasData then x.mem.countP (·.isWrite) + x.tx.single.card else 0

-- The places for requests that the device and its flits know of. A request that has been read is no longer
-- the host's.
def places (x : DeviceNode) (hasData : Bool) : Int :=
  x.tx.flow.intCred.request hasData + carried hasData x.out - x.rx.read hasData +
    (x.rx.channel hasData).length + x.held hasData

end DeviceNode

-- The places at device `d` that the host knows of: those that are free and those of all requests so far.
def HostNode.places (x : HostNode n) (d : Fin n) (hasData : Bool) : Int :=
  carried hasData (x.inp.filter (·.isFrom cfg d)) + (x.tx.flow.extCreds d).request hasData +
    x.tx.packed.countP (·.IsRequest cfg d hasData)

def Net.places (x : Net n) (d : Fin n) (hasData : Bool) : Int :=
  (x.dev d).places hasData + x.host.places cfg d hasData

end CXL
