import Mathlib.Algebra.BigOperators.Fin
import Mathlib.Data.Fintype.Basic
import VldbArtifacts.Lib.Framing
import VldbArtifacts.CXLSim.Packer

-- The abstract packer: what `FLIT_packer` does to a frame, without the times, the registers and the order
-- in which the channels are looked at.

namespace CXL

open Framing

def Message.core (m : Message) : Message :=
  { m with time := { readWrite := m.time.readWrite, tickCreated := m.time.tickCreated } }

def Slot.core (s : Slot) : Slot :=
  { s with msg := s.msg.core }

-- A flit without the stamps it gets on its way.
def Flit.core (f : Flit) : Flit where
  header := f.header
  slots  := f.slots.map Slot.core

-- What a data slot tells about its header.
def Message.mark (m : Message) : Nat × Nat :=
  (m.msgId, m.address)

def cellSlot (dir : Dir) : Cell Message (Nat × Nat) → Slot
  | .single m => ⟨dir.single, m⟩
  | .hdr m    => ⟨dir.hdr, m⟩
  | .data b   => ⟨.data, { msgId := b.1, address := b.2 }⟩
  | .blank    => {}

def frameSlots (dir : Dir) (fr : Frame Message) : List Slot :=
  (fr.cells Message.mark).map (cellSlot dir)

-- The copy of the slot types in the header of a flit. An empty slot leaves the entry as it was.
def frameMarks (marksHeader : Bool) (slots : List Slot) : List SlotType :=
  if marksHeader then slots.map fun s => if s.type = .empty then .m2sReq else s.type
  else List.replicate 4 .m2sReq

variable {dir : Dir} {σ : Type}

def frameFlit (rules : PackerRules dir σ) (fr : Frame Message) (credit : Credits) : Flit where
  header := ⟨credit, frameMarks rules.marksHeader (frameSlots dir fr)⟩
  slots  := (frameSlots dir fr).map Slot.core

-- The messages that wait in the channels, the frame under construction, and what was sent so far.
@[ext]
structure Sender (σ : Type) where
  frame  : Frame Message
  flow   : σ
  single : Multiset Message
  hdr    : Multiset Message
  packed : List Message
  sent   : List Flit

namespace Sender

variable (rules : PackerRules dir σ) (tick : Int)

inductive Step : Sender σ → Sender σ → Prop
  | start {x} :
    x.frame = .fresh x.frame.owed x.frame.last →
    Step x { x with flow := rules.newFlit x.flow x.frame.owed }
  | refuse {x m s} :
    rules.ready tick x.flow m = .ok true →
    rules.offered x.flow m = .ok s →
    Step x { x with flow := s }
  | single {x m s s' rest} :
    x.frame.hdr = none →
    (x.frame.addSingle m).Valid →
    x.single = m ::ₘ rest →
    rules.ready tick x.flow m = .ok true →
    rules.offered x.flow m = .ok s →
    rules.spendSingle s m = .ok s' →
    Step x { x with
      frame := x.frame.addSingle m, flow := s', single := rest, packed := x.packed ++ [m] }
  | hdr {x m s s' rest} :
    x.frame.hdr = none →
    (x.frame.addHdr m).Valid →
    x.hdr = m ::ₘ rest →
    rules.ready tick x.flow m = .ok true →
    rules.offered x.flow m = .ok s →
    rules.spendHdr s m = .ok s' →
    Step x { x with
      frame := x.frame.addHdr m, flow := s', hdr := rest, packed := x.packed ++ [m] }
  | emit {x f c s s'} :
    ¬x.frame.IsEmpty →
    f.slots = frameSlots dir x.frame →
    rules.getCredits x.flow f = .ok (c, s) →
    rules.sent s x.frame.nextOwed = .ok s' →
    Step x { x with
      frame := x.frame.next, flow := s', sent := x.sent ++ [frameFlit rules x.frame c] }

abbrev Steps : Sender σ → Sender σ → Prop :=
  Relation.ReflTransGen (Step rules tick)

-- The failures that are left to the rules of the node.
inductive Fails : Sender σ → Failure → Prop
  | ready {x m e} :
    m ∈ x.single + x.hdr → rules.ready tick x.flow m = .error e → Fails x e
  | offered {x m e} :
    m ∈ x.single + x.hdr → rules.ready tick x.flow m = .ok true →
    rules.offered x.flow m = .error e → Fails x e
  | spendSingle {x m s e} :
    m ∈ x.single → rules.ready tick x.flow m = .ok true →
    rules.offered x.flow m = .ok s → rules.spendSingle s m = .error e → Fails x e
  | spendHdr {x m s e} :
    m ∈ x.hdr → rules.ready tick x.flow m = .ok true →
    rules.offered x.flow m = .ok s → rules.spendHdr s m = .error e → Fails x e
  | getCredits {x f e} :
    ¬x.frame.IsEmpty → f.slots = frameSlots dir x.frame →
    rules.getCredits x.flow f = .error e → Fails x e
  | sent {x f c s e} :
    ¬x.frame.IsEmpty → f.slots = frameSlots dir x.frame →
    rules.getCredits x.flow f = .ok (c, s) → rules.sent s x.frame.nextOwed = .error e → Fails x e

end Sender

-- A message that is not ready stays so when another one is considered. The slot loop relies on it: once
-- it has refused a message, it does not find a header any more.
structure PackerRules.Lawful (rules : PackerRules dir σ) : Prop where
  ready_offered : ∀ {tick s s' m m'}, rules.offered s m = .ok s' →
    rules.ready tick s m' = .ok false → rules.ready tick s' m' = .ok false

namespace VcArray

variable {size : Nat} {op : Opcode}

def msgs (a : VcArray size op) : Multiset Message :=
  (Finset.univ : Finset (Fin numVc)).sum fun i => ((a.vcs i).q : Multiset Message)

end VcArray

namespace TxPort

variable {vcSize bufSize : Nat}

def sender (p : TxPort dir vcSize bufSize σ) (fr : Frame Message) : Sender σ where
  frame  := fr
  flow   := p.flow
  single := p.single.msgs
  hdr    := p.hdr.msgs
  packed := p.packed
  sent   := p.sent.map Flit.core

variable (rules : PackerRules dir σ)

-- The flit under construction and the registers that belong to it are those of the frame.
structure Built (p : TxPort dir vcSize bufSize σ) (fr : Frame Message) : Prop where
  valid    : fr.Valid
  state    : p.pkr2State ≠ .W
  slots    : p.flitToPack.slots = frameSlots dir fr
  marks    : p.flitToPack.header.slots = frameMarks rules.marksHeader (frameSlots dir fr)
  rollover : p.packerRollover = fr.nextOwed
  lastHdr  : ∀ h, fr.hdr = some h → p.lastHdr = h
  -- After a second message without data, headers have priority.
  one      : fr.hdr = none → fr.singles.length = 1 → p.pkr2State ≠ .w
  two      : fr.hdr = none → fr.singles.length = 2 → p.pkr2State = .R

-- The data owed by a port that is not in the middle of a flit is in its registers.
structure Idle (p : TxPort dir vcSize bufSize σ) (fr : Frame Message) : Prop where
  valid   : fr.Valid
  state   : p.pkr2State ≠ .W
  fresh   : fr = .fresh p.packerRollover fr.last
  lastHdr : 0 < fr.owed → p.lastHdr = fr.last

inductive Shape (p : TxPort dir vcSize bufSize σ) (fr : Frame Message) : Prop
  | idle (waiting : p.isPackerWaiting = false) (idle : p.Idle fr)
  | waiting (waiting : p.isPackerWaiting = true) (built : p.Built rules fr)
    (nonempty : ¬fr.IsEmpty)

end TxPort

end CXL
