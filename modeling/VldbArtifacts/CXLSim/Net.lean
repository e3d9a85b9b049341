import VldbArtifacts.CXLSim.Action
import VldbArtifacts.CXLSim.Receiver

-- The abstract system: requests and responses that move between senders, queues of flits, receivers and
-- memories. It knows no times, and a queue is all the buffers and buses that a flit passes unchanged.

namespace CXL

open Framing

def Opcode.isWrite : Opcode → Bool
  | .rwd | .ndr => true
  | .req | .drs => false

-- What a request and its response have in common.
structure Tag where
  isWrite : Bool
  msgId   : Nat
  address : Nat
  deriving DecidableEq

def Message.tag (m : Message) : Tag :=
  ⟨m.opCode.isWrite, m.msgId, m.address⟩

-- A map from ids to messages, as far as its tags. A message whose id is present is not inserted.
def record (ts : Multiset Tag) (t : Tag) : Multiset Tag :=
  if t.msgId ∈ ts.map Tag.msgId then ts else t ::ₘ ts

-- The place of a read is free again when the memory has it.
def DeviceFlow.release (s : DeviceFlow) : Opcode → DeviceFlow
  | .req => { s with intCred := { s.intCred with reqCredit := s.intCred.reqCredit + 1 } }
  | _    => s

def DeviceFlow.grant (s : DeviceFlow) (c : Credits) : DeviceFlow :=
  { s with extCred := { s.extCred with
      rspCredit  := s.extCred.rspCredit + c.rspCredit
      dataCredit := s.extCred.dataCredit + c.dataCredit } }

-- The credits of a flit whose slots belong to device `d`, if there is such a device.
def HostFlow.grant {n : Nat} (s : HostFlow n) (d : Nat) (c : Credits) : HostFlow n :=
  if hd : d < n then
    s.modifyExtCreds ⟨d, hd⟩ fun e => { e with
      reqCredit  := e.reqCredit + c.reqCredit
      dataCredit := e.dataCredit + c.dataCredit }
  else
    s

-- The credit for a response comes back when the request is retired.
def HostFlow.retire {n : Nat} (s : HostFlow n) : Opcode → HostFlow n
  | .drs => { s with intCred := { s.intCred with dataCredit := s.intCred.dataCredit + 1 } }
  | _    => { s with intCred := { s.intCred with rspCredit := s.intCred.rspCredit + 1 } }

-- The host, with the flits that are on their way to it and those that are on their way from it to the
-- router of the switch. `sent` and `reqsInDam` are its maps of active requests, `dam` has the ids in the
-- direct attached memory.
@[ext]
structure HostNode (n : Nat) where
  inp       : List Flit
  rx        : Receiver
  tx        : Sender (HostFlow n)
  out       : List Flit
  sent      : Multiset Tag
  reqsInDam : Multiset Nat
  dam       : Multiset Nat
  nextId    : Nat
  completed : List Nat

-- A device, with the flits that are on their way from the router to it and those that are on their way
-- from it to the arbiter of the switch. `mem` is its map of active requests, `dram` has the ids in its
-- memory.
@[ext]
structure DeviceNode where
  inp  : List Flit
  rx   : Receiver
  mem  : Multiset Tag
  dram : Multiset Nat
  tx   : Sender DeviceFlow
  out  : List Flit

@[ext]
structure Net (n : Nat) where
  host     : HostNode n
  dev      : Fin n → DeviceNode
  prev     : Nat
  port     : Nat
  expected : Nat
  moved    : List (Fin n × Flit)

def Sender.init {σ : Type} (flow : σ) : Sender σ where
  frame  := .fresh 0 {}
  flow   := flow
  single := 0
  hdr    := 0
  packed := []
  sent   := []

def Receiver.init : Receiver where
  deframer := { owed := 0, last := {}, ids := [], singles := [], hdrs := [] }
  single   := []
  hdr      := []

def HostNode.init {n : Nat} (cfg : Config n) : HostNode n where
  inp       := []
  rx        := .init
  tx        := .init (.init cfg)
  out       := []
  sent      := 0
  reqsInDam := 0
  dam       := 0
  nextId    := 0
  completed := []

def DeviceNode.init {n : Nat} (cfg : Config n) : DeviceNode where
  inp  := []
  rx   := .init
  mem  := 0
  dram := 0
  tx   := .init (.init cfg)
  out  := []

def Net.init {n : Nat} (cfg : Config n) : Net n where
  host     := .init cfg
  dev _    := .init cfg
  prev     := 0
  port     := 0
  expected := 0
  moved    := []

-- The receiver has read a flit.
structure Receiver.Reads (dir : Dir) (u : Receiver) (f : Flit) (u' : Receiver) : Prop where
  deframer : u.deframer.receiveFrame (f.cells dir) = some u'.deframer
  single   : ∃ ms, u'.deframer.singles = u.deframer.singles ++ ms ∧ u'.single = u.single ++ ms
  hdr      : ∃ ms, u'.deframer.hdrs = u.deframer.hdrs ++ ms ∧ u'.hdr = u.hdr ++ ms.map Prod.fst

-- The flit is a frame that carries the data the receiver is waiting for.
def Flit.IsFrameFor (dir : Dir) (f : Flit) (u : Receiver) : Prop :=
  ∃ fr : Frame Message, fr.Valid ∧ u.deframer.owed = fr.owed ∧
    f.slots = (frameSlots dir fr).map Slot.core

-- Why the receiver may fail to read a flit: a channel is too small, or the flit is not a frame for it.
inductive Receiver.Rejects (dir : Dir) (size : Nat) (rules : UnpackerRules) (u : Receiver)
    (f : Flit) : Failure → Prop
  | single (h : size < u.single.length + (f.singles dir).length) :
    Rejects dir size rules u f (.addingToFullBuffer rules.singleName)
  | hdr (h : size < u.hdr.length + u.deframer.pending.length + (f.hdrs dir).length) :
    Rejects dir size rules u f (.addingToFullBuffer rules.hdrName)
  | rule {e} (he : e ∈ [.rolloverOutOfRange, .rolloverRuleViolated, .headerBeforeData,
      .dataNotExpected, .illegalSlotType, .packingRuleViolated]) (hf : ¬f.IsFrameFor dir u) :
    Rejects dir size rules u f e

-- The failures that nothing is said about: those of the trace, the memories, the buses and the
-- buffers that no credit stands for.
def Failure.IsOther : Failure → Prop
  | .addingToFullBuffer b => b ∉ [.hostS2MNdr, .hostS2MDrs, .deviceM2SReq, .deviceM2SRwd]
  | .busSizeExceeded | .stagnantFlit | .addingToFullBus | .overflowRamulatorBuffer
  | .unknownInputMessage | .ramulatorSideStall | .rxSideStall | .illegalMessageType
  | .unknownRoundRobinState | .extCredsUnknownDevice | .invalidAddress | .incorrectStringSplitting
  | .illegalOpcode | .stoulException | .nullDAM => True
  | _ => False

variable {n : Nat} (cfg : Config n)

inductive HostNode.Step : HostNode n → HostNode n → Prop
  | issueRead {x m} :
    m.msgId = x.nextId →
    m.opCode = .req →
    Step x { x with
      tx     := { x.tx with single := m ::ₘ x.tx.single }
      sent   := record x.sent m.tag
      nextId := x.nextId + 1 }
  | issueWrite {x m} :
    m.msgId = x.nextId →
    m.opCode = .rwd →
    Step x { x with
      tx     := { x.tx with hdr := m ::ₘ x.tx.hdr }
      sent   := record x.sent m.tag
      nextId := x.nextId + 1 }
  | issueDam {x} :
    Step x { x with
      dam       := x.nextId ::ₘ x.dam
      reqsInDam := if x.nextId ∈ x.reqsInDam then x.reqsInDam else x.nextId ::ₘ x.reqsInDam
      nextId    := x.nextId + 1 }
  | pack {x tick y fs} :
    Sender.Step (hostPackerRules cfg) tick x.tx y →
    y.sent = x.tx.sent ++ fs →
    Step x { x with tx := y, out := x.out ++ fs }
  | unpack {x f rest dest u} :
    x.inp = f :: rest →
    slotsDevice cfg f.slots noDevice = .ok dest →
    x.rx.Reads .s2m f u →
    Step x { x with
      inp := rest
      rx  := u
      tx  := { x.tx with flow := x.tx.flow.grant dest f.header.credit } }
  | retireWrite {x m t rest} :
    x.rx.single = m :: rest →
    t ∈ x.sent →
    t.msgId = m.msgId →
    (m.opCode = .drs ∨ m.opCode = .ndr) →
    Step x { x with
      rx        := { x.rx with single := rest }
      sent      := x.sent.erase t
      tx        := { x.tx with flow := x.tx.flow.retire m.opCode }
      completed := x.completed ++ [m.msgId] }
  | retireRead {x m t rest} :
    x.rx.hdr = m :: rest →
    t ∈ x.sent →
    t.msgId = m.msgId →
    (m.opCode = .drs ∨ m.opCode = .ndr) →
    Step x { x with
      rx        := { x.rx with hdr := rest }
      sent      := x.sent.erase t
      tx        := { x.tx with flow := x.tx.flow.retire m.opCode }
      completed := x.completed ++ [m.msgId] }
  | completeDam {x id ids} :
    x.dam = id ::ₘ ids →
    Step x { x with
      dam       := ids
      reqsInDam := x.reqsInDam.erase id
      completed := x.completed ++ [id] }

inductive DeviceNode.Step : DeviceNode → DeviceNode → Prop
  | unpack {x f rest u} :
    x.inp = f :: rest →
    x.rx.Reads .m2s f u →
    Step x { x with
      inp := rest
      rx  := u
      tx  := { x.tx with flow := x.tx.flow.grant f.header.credit } }
  | sendRead {x m rest} :
    x.rx.single = m :: rest →
    (m.opCode = .req ∨ m.opCode = .rwd) →
    Step x { x with
      rx   := { x.rx with single := rest }
      mem  := record x.mem m.tag
      dram := m.msgId ::ₘ x.dram
      tx   := { x.tx with flow := x.tx.flow.release m.opCode } }
  | sendWrite {x m rest} :
    x.rx.hdr = m :: rest →
    (m.opCode = .req ∨ m.opCode = .rwd) →
    Step x { x with
      rx   := { x.rx with hdr := rest }
      mem  := record x.mem m.tag
      dram := m.msgId ::ₘ x.dram
      tx   := { x.tx with flow := x.tx.flow.release m.opCode } }
  | respondRead {x m ids} :
    m.tag ∈ x.mem →
    x.dram = m.msgId ::ₘ ids →
    m.opCode = .drs →
    Step x { x with
      mem  := x.mem.erase m.tag
      dram := ids
      tx   := { x.tx with hdr := m ::ₘ x.tx.hdr } }
  | respondWrite {x m ids} :
    m.tag ∈ x.mem →
    x.dram = m.msgId ::ₘ ids →
    m.opCode = .ndr →
    Step x { x with
      mem  := x.mem.erase m.tag
      dram := ids
      tx   := { x.tx with single := m ::ₘ x.tx.single } }
  | pack {x tick y fs} :
    Sender.Step (devicePackerRules cfg) tick x.tx y →
    y.sent = x.tx.sent ++ fs →
    Step x { x with tx := y, out := x.out ++ fs }

abbrev HostNode.Steps : HostNode n → HostNode n → Prop :=
  Relation.ReflTransGen (HostNode.Step cfg)

abbrev DeviceNode.Steps : DeviceNode → DeviceNode → Prop :=
  Relation.ReflTransGen (DeviceNode.Step cfg)

inductive HostNode.Fails (x : HostNode n) : Failure → Prop
  | pack {tick e} : Sender.Fails (hostPackerRules cfg) tick x.tx e → Fails x e
  | unpack {f rest e} :
    x.inp = f :: rest →
    x.rx.Rejects .s2m cfg.hostRespSize hostUnpackerRules f e →
    Fails x e
  | mixedFlit {f rest e} :
    x.inp = f :: rest →
    slotsDevice cfg f.slots noDevice = .error e →
    Fails x e
  | unknownResponse {m} :
    m ∈ x.rx.single ++ x.rx.hdr →
    m.msgId ∉ x.sent.map Tag.msgId →
    Fails x .responseUnknownRequest
  | other {e} : e.IsOther → Fails x e

inductive DeviceNode.Fails (x : DeviceNode) : Failure → Prop
  | pack {tick e} : Sender.Fails (devicePackerRules cfg) tick x.tx e → Fails x e
  | unpack {f rest e} :
    x.inp = f :: rest →
    x.rx.Rejects .m2s cfg.devVcSize deviceUnpackerRules f e →
    Fails x e
  | unknownCallback {id e} :
    id ∈ x.dram →
    id ∉ x.mem.map Tag.msgId →
    e = .ramulatorCallbackUnknown ∨ e = .reqNotInMessagesInRamulator →
    Fails x e
  | other {e} : e.IsOther → Fails x e

namespace Net

def setDev (x : Net n) (d : Fin n) (y : DeviceNode) : Net n :=
  { x with dev := Function.update x.dev d y }

-- Where the switch sends a flit.
def RoutesTo (x : Net n) (f : Flit) (d : Fin n) : Prop :=
  if (f.slots.getD 0 {}).type = .data then x.prev = d.val else
    cfg.destinationDevice f.getFirstAddress = .ok d

inductive Step : Net n → Net n → Prop
  | host {x y} : HostNode.Step cfg x.host y → Step x { x with host := y }
  | device {x d y} : DeviceNode.Step cfg (x.dev d) y → Step x (x.setDev d y)
  | route {x f rest} {d : Fin n} :
    x.host.out = f :: rest →
    x.RoutesTo cfg f d →
    Step x { x.setDev d { x.dev d with inp := (x.dev d).inp ++ [f] } with
      host := { x.host with out := rest }
      prev := d.val }
  | turn {x} :
    x.expected = 0 →
    Step x { x with port := if x.port + 1 < n then x.port + 1 else 0 }
  | move {x f rest} {d : Fin n} :
    x.port = d.val →
    (x.dev d).out = f :: rest →
    Step x { x.setDev d { x.dev d with out := rest } with
      host     := { x.host with inp := x.host.inp ++ [f] }
      expected := f.header.slots.foldl CXLSwitch.countRollover x.expected
      moved    := x.moved ++ [(d, f)] }

abbrev Steps : Net n → Net n → Prop :=
  Relation.ReflTransGen (Step cfg)

def Reachable (x : Net n) : Prop :=
  Steps cfg (init cfg) x

inductive Fails (x : Net n) : Failure → Prop
  | host {e} : HostNode.Fails cfg x.host e → Fails x e
  | device {d e} : DeviceNode.Fails cfg (x.dev d) e → Fails x e
  | other {e} : e.IsOther → Fails x e

end Net

-- The ids of the requests that a memory has taken and not called back.
def Dram.ids {M : Memory} (d : Dram M) : Multiset Nat :=
  d.inpBuf.buf.map RamulatorReq.reqId + (if d.stall then {d.reg.reqId} else 0) +
    (M.outstanding d.memory).map Request.reqId

-- Only requests go through the registers of a memory, never its end marker.
structure Dram.Live {M : Memory} (d : Dram M) : Prop where
  valid  : ∀ r ∈ d.inpBuf.buf, r.type = .valid
  status : d.status ≠ .end
  stall  : d.stall → d.status = .valid

def mapTags (m : AList fun _ : Nat => Message) : Multiset Tag :=
  m.entries.map fun e => e.2.tag

-- Every message is under its own id.
def KeysMatch (m : AList fun _ : Nat => Message) : Prop :=
  ∀ e ∈ m.entries, e.2.msgId = e.1

variable {cfg} {M : Memory}

-- The lines of the trace are numbered in their order. Those before `nextId` have been issued.
structure CXLHost.Numbered (h : CXLHost cfg) : Prop where
  ids    : h.textToTraceBuf.q.map (·.2.msgId) =
             List.range' (h.msgCount - h.textToTraceBuf.q.length) h.textToTraceBuf.q.length
  le     : h.textToTraceBuf.q.length ≤ h.msgCount
  issued : h.issued.map Prod.fst = List.range (h.msgCount - h.textToTraceBuf.q.length)

-- The abstract host, given the flits between the switch and its buffers, the direct attached memory and
-- the frame its packer is working on.
def CXLHost.node (h : CXLHost cfg) (inp out : List Flit) (dam : Dram M) (fr : Frame Message) :
    HostNode n where
  inp       := (h.rx.rxBuffer.q ++ inp).map Flit.core
  rx        := h.rx.receiver
  tx        := h.tx.sender fr
  out       := (out ++ h.tx.txBuffer.q).map Flit.core
  sent      := mapTags h.messagesSentToDevice
  reqsInDam := h.reqsInDam.keys
  dam       := dam.ids
  nextId    := h.msgCount - h.textToTraceBuf.q.length
  completed := h.completed

structure CXLHost.Implements (h : CXLHost cfg) (inp out : List Flit) (dam : Dram M)
    (x : HostNode n) : Prop where
  shape    : h.tx.Shape (hostPackerRules cfg) x.tx.frame
  sent     : KeysMatch h.messagesSentToDevice
  live     : dam.Live
  numbered : h.Numbered
  view     : x = h.node inp out dam x.tx.frame

def CXLDevice.node (d : CXLDevice cfg M) (inp out : List Flit) (fr : Frame Message) :
    DeviceNode where
  inp  := (d.rx.rxBuffer.q ++ inp).map Flit.core
  rx   := d.rx.receiver
  mem  := mapTags d.messagesInRamulator
  dram := d.dram.ids
  tx   := d.tx.sender fr
  out  := (out ++ d.tx.txBuffer.q).map Flit.core

structure CXLDevice.Implements (d : CXLDevice cfg M) (inp out : List Flit) (x : DeviceNode) :
    Prop where
  shape : d.tx.Shape (devicePackerRules cfg) x.tx.frame
  mem   : KeysMatch d.messagesInRamulator
  dram  : d.dram.Live
  view  : x = d.node inp out x.tx.frame

-- The state is one of those that the abstract state stands for.
structure CXLSystem.Implements (s : CXLSystem cfg M) (x : Net n) : Prop where
  host     : s.host.Implements
               (s.busToHost.flitSlots ++ s.switch.upstreamTx.q ++ s.switch.arbNocD2H.q)
               (s.switch.arbNocH2D.q ++ s.switch.upstreamRx.q ++ s.busFromHost.flitSlots)
               s.dam x.host
  device   : ∀ d, (s.devices d).Implements
               ((s.busToDevice d).flitSlots ++ (s.switch.downstreamTx d).q)
               ((s.switch.downstreamRx d).q ++ (s.busFromDevice d).flitSlots)
               (x.dev d)
  prev     : x.prev = s.switch.previousDestination
  port     : x.port = s.switch.currPort
  expected : x.expected = s.switch.expectedRollover
  moved    : x.moved = s.switch.moved.map fun y => (y.1, y.2.core)

end CXL
