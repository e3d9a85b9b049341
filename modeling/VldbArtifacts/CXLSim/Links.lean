import VldbArtifacts.Lib.FrameStream
import VldbArtifacts.CXLSim.Net

-- The two directions of the system by themselves. A link is open at its ends: messages come to the
-- channels of its senders and credits change at any time, and what has arrived is taken at any time.

namespace CXL

open Framing

section Messages

variable {n : Nat} (cfg : Config n)

-- The address belongs to device `d`.
def Config.sendsTo (d : Fin n) (address : Nat) : Bool :=
  match cfg.destinationDevice address with
  | .ok i    => i = d
  | .error _ => false

def Message.isFor (d : Fin n) (m : Message) : Bool :=
  cfg.sendsTo d m.address

-- All that a frame carries is for device `d`.
abbrev FrameFor (d : Fin n) (fr : Frame Message) : Prop :=
  fr.All fun m => m.isFor cfg d

end Messages

-- The slots of the flit are the cells of a frame without stamps.
structure Flit.Shows (dir : Dir) (f : Flit) (fr : Frame Message) : Prop where
  valid    : fr.Valid
  nonempty : ¬fr.IsEmpty
  core     : fr.map Message.core = fr
  slots    : f.slots = frameSlots dir fr

-- The messages with data, or those without.
def Dir.op (dir : Dir) (hasData : Bool) : Opcode :=
  if hasData then dir.hdrOp else dir.singleOp

def frameStarts (hasData : Bool) (fr : Frame Message) : List Message :=
  if hasData then fr.hdr.toList else fr.singles

def Flit.starts (dir : Dir) (hasData : Bool) (f : Flit) : List Message :=
  if hasData then f.hdrs dir else f.singles dir

-- What a receiver has read so far, whether or not all the data has arrived.
def Receiver.starts (hasData : Bool) (u : Receiver) : List Message :=
  if hasData then u.deframer.hdrs.map Prod.fst ++ u.deframer.pending else u.deframer.singles

-- The message is a request to device `d`, with data or without.
structure Message.IsRequest {n : Nat} (cfg : Config n) (d : Fin n) (hasData : Bool) (m : Message) : Prop where
  opCode : m.opCode = Dir.op .m2s hasData
  isFor  : m.isFor cfg d

instance {n : Nat} {cfg : Config n} {d : Fin n} {hasData : Bool} {m : Message} :
    Decidable (m.IsRequest cfg d hasData) :=
  decidable_of_iff (m.opCode = Dir.op .m2s hasData ∧ m.isFor cfg d)
    ⟨fun h => ⟨h.left, h.right⟩, fun h => ⟨h.opCode, h.isFor⟩⟩

-- The assertions about the slots of a flit that is read.
def slotFailures : List Failure :=
  [.rolloverOutOfRange, .rolloverRuleViolated, .headerBeforeData, .dataNotExpected, .illegalSlotType,
    .packingRuleViolated, .singleFlitDifferentDevices]

-- From the host to the devices.
@[ext]
structure Downlink (n : Nat) where
  tx   : Sender (HostFlow n)
  out  : List Flit
  prev : Nat
  inp  : Fin n → List Flit
  rx   : Fin n → Receiver

-- From the devices to the host.
@[ext]
structure Uplink (n : Nat) where
  tx       : Fin n → Sender DeviceFlow
  out      : Fin n → List Flit
  port     : Nat
  expected : Nat
  moved    : List (Fin n × Flit)
  inp      : List Flit
  rx       : Receiver

variable {n : Nat} (cfg : Config n)

namespace Downlink

def init : Downlink n where
  tx    := .init (.init cfg)
  out   := []
  prev  := 0
  inp _ := []
  rx _  := .init

def RoutesTo (x : Downlink n) (f : Flit) (d : Fin n) : Prop :=
  if (f.slots.getD 0 {}).type = .data then x.prev = d.val else
    cfg.destinationDevice f.getFirstAddress = .ok d

inductive Step : Downlink n → Downlink n → Prop
  | arriveSingle {x m} :
    m.opCode = .req →
    Step x { x with tx := { x.tx with single := m ::ₘ x.tx.single } }
  | arriveHdr {x m} :
    m.opCode = .rwd →
    Step x { x with tx := { x.tx with hdr := m ::ₘ x.tx.hdr } }
  | credit {x flow} :
    flow.deviceUnderConsideration = x.tx.flow.deviceUnderConsideration →
    Step x { x with tx := { x.tx with flow } }
  | pack {x tick y fs} :
    Sender.Step (hostPackerRules cfg) tick x.tx y →
    y.sent = x.tx.sent ++ fs →
    Step x { x with tx := y, out := x.out ++ fs }
  | route {x f rest} {d : Fin n} :
    x.out = f :: rest →
    x.RoutesTo cfg f d →
    Step x { x with
      out := rest, prev := d.val, inp := Function.update x.inp d (x.inp d ++ [f]) }
  | unpack {x d f rest u} :
    x.inp d = f :: rest →
    (x.rx d).Reads .m2s f u →
    Step x { x with inp := Function.update x.inp d rest, rx := Function.update x.rx d u }
  | take {x d single hdr} :
    Step x { x with rx := Function.update x.rx d { x.rx d with single, hdr } }

abbrev Steps : Downlink n → Downlink n → Prop :=
  Relation.ReflTransGen (Step cfg)

end Downlink

namespace Uplink

def init : Uplink n where
  tx _     := .init (.init cfg)
  out _    := []
  port     := 0
  expected := 0
  moved    := []
  inp      := []
  rx       := .init

-- The messages of device `d` satisfy `own d`.
inductive Step (own : Fin n → Message → Prop) : Uplink n → Uplink n → Prop
  | arriveSingle {x d m} :
    m.opCode = .ndr →
    own d m →
    Step own x { x with tx := Function.update x.tx d { x.tx d with single := m ::ₘ (x.tx d).single } }
  | arriveHdr {x d m} :
    m.opCode = .drs →
    own d m →
    Step own x { x with tx := Function.update x.tx d { x.tx d with hdr := m ::ₘ (x.tx d).hdr } }
  | credit {x d flow} :
    Step own x { x with tx := Function.update x.tx d { x.tx d with flow } }
  | pack {x d tick y fs} :
    Sender.Step (devicePackerRules cfg) tick (x.tx d) y →
    y.sent = (x.tx d).sent ++ fs →
    Step own x { x with
      tx := Function.update x.tx d y, out := Function.update x.out d (x.out d ++ fs) }
  | turn {x} :
    x.expected = 0 →
    Step own x { x with port := if x.port + 1 < n then x.port + 1 else 0 }
  | move {x f rest} {d : Fin n} :
    x.port = d.val →
    x.out d = f :: rest →
    Step own x { x with
      out      := Function.update x.out d rest
      inp      := x.inp ++ [f]
      expected := f.header.slots.foldl CXLSwitch.countRollover x.expected
      moved    := x.moved ++ [(d, f)] }
  | unpack {x f rest u} :
    x.inp = f :: rest →
    x.rx.Reads .s2m f u →
    Step own x { x with inp := rest, rx := u }
  | take {x single hdr} :
    Step own x { x with rx := { x.rx with single, hdr } }

abbrev Steps (own : Fin n → Message → Prop) : Uplink n → Uplink n → Prop :=
  Relation.ReflTransGen (Step cfg own)

end Uplink

namespace Net

def downlink (x : Net n) : Downlink n where
  tx    := x.host.tx
  out   := x.host.out
  prev  := x.prev
  inp d := (x.dev d).inp
  rx d  := (x.dev d).rx

def uplink (x : Net n) : Uplink n where
  tx d     := (x.dev d).tx
  out d    := (x.dev d).out
  port     := x.port
  expected := x.expected
  moved    := x.moved
  inp      := x.host.inp
  rx       := x.host.rx

end Net

end CXL
