import VldbArtifacts.Lib.Deframing
import VldbArtifacts.CXLSim.Sender
import VldbArtifacts.CXLSim.Unpacker

-- The abstract unpacker: what `FLIT_unpacker` does to the channels and to the header whose data it is
-- waiting for.

namespace CXL

open Framing

def slotCell (dir : Dir) (s : Slot) : Cell Message Nat :=
  if s.type = dir.single then .single s.msg.core
  else if s.type = dir.hdr then .hdr s.msg.core
  else if s.type = .data then .data s.msg.msgId
  else .blank

-- The slot types of a direction.
def Slot.Legal (dir : Dir) (s : Slot) : Prop :=
  s.type = dir.single ∨ s.type = dir.hdr ∨ s.type = .data ∨ s.type = .empty

def Flit.cells (dir : Dir) (f : Flit) : List (Cell Message Nat) :=
  f.slots.map (slotCell dir)

-- The messages that start in a flit.
def Flit.singles (dir : Dir) (f : Flit) : List Message :=
  (f.cells dir).filterMap Cell.single?

def Flit.hdrs (dir : Dir) (f : Flit) : List Message :=
  (f.cells dir).filterMap Cell.hdr?

@[ext]
structure Receiver where
  deframer : Deframer Message Nat
  single   : List Message
  hdr      : List Message

namespace RxPort

variable {dir : Dir} {vcSize bufSize : Nat}

def deframer (u : RxPort dir vcSize bufSize) : Deframer Message Nat where
  owed    := u.unpackerRollover
  last    := u.lastHdr.core
  ids     := u.dataIds
  singles := u.singleLog.map Message.core
  hdrs    := u.hdrLog.map fun x => (x.1.core, x.2)

def receiver (u : RxPort dir vcSize bufSize) : Receiver where
  deframer := u.deframer
  single   := u.single.q.map Message.core
  hdr      := u.hdr.q.map Message.core

end RxPort

end CXL
