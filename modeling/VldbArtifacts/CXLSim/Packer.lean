import VldbArtifacts.CXLSim.Bus

-- The transmitting side of a node. `CXLHost::FLIT_packer` and `CXLDevice::FLIT_packer` are one algorithm
-- that differs in its message types, its credits and the stamps it sets. These are `PackerRules`.

namespace CXL

-- The virtual channels of one message type.
structure VcArray (size : Nat) (op : Opcode) where
  vcs       : Fin numVc → CXLBuf size Message
  opCode_eq : ∀ i, ∀ m ∈ (vcs i).q, m.opCode = op

namespace VcArray

variable {size : Nat} {op : Opcode}

def init : VcArray size op where
  vcs _         := ∅
  opCode_eq _ _ := nofun

def head? (a : VcArray size op) (i : Fin numVc) : Option Message :=
  (a.vcs i).q.head?

def allEmpty (a : VcArray size op) : Bool :=
  (List.finRange numVc).all fun i => (a.vcs i).isBufEmpty

def dequeue (a : VcArray size op) (i : Fin numVc) : VcArray size op where
  vcs       := Function.update a.vcs i (a.vcs i).dequeue
  opCode_eq := by
    intro j m hm
    by_cases h : j = i
    case pos =>
      subst h
      rw [Function.update_self] at hm
      exact a.opCode_eq j m (List.mem_of_mem_tail hm)
    case neg =>
      rw [Function.update_of_ne h] at hm
      exact a.opCode_eq j m hm

def enqueue (name : BufName) (a : VcArray size op) (i : Fin numVc) (m : Message)
    (hm : m.opCode = op) : Sim (VcArray size op) :=
  match h : (a.vcs i).enqueue name m with
  | .error e => .error e
  | .ok b    => .ok {
      vcs       := Function.update a.vcs i b
      opCode_eq := by
        intro j m' hm'
        by_cases hj : j = i
        case pos =>
          subst hj
          rw [Function.update_self, CXLBuf.enqueue_q h, List.mem_append] at hm'
          rcases hm' with hm' | hm'
          case inl => exact a.opCode_eq j m' hm'
          case inr => rwa [List.mem_singleton.mp hm']
        case neg =>
          rw [Function.update_of_ne hj] at hm'
          exact a.opCode_eq j m' hm'
    }

-- The loop of `check_vcs_for_packing` over the channels `i % NUM_VC`. `ready` is what the node asks of
-- the message at the head of a channel.
def checkVcsForPacking (a : VcArray size op) (ready : Message → Sim Bool) :
    List Nat → Sim (Option (Fin numVc × Message))
  | []      => .ok none
  | i :: is =>
    match a.head? (Fin.ofNat numVc i) with
    | none   => a.checkVcsForPacking ready is
    | some m => do
      if ← ready m then
        return some (Fin.ofNat numVc i, m)
      else
        a.checkVcsForPacking ready is

end VcArray

-- What distinguishes the packer of the host from that of a device. `σ` holds the credits and whatever
-- else the packer of the node keeps.
structure PackerRules (dir : Dir) (σ : Type) where
  packerWaitTime : Int
  packTime       : TimeField
  transmitTime   : TimeField
  txName         : BufName
  -- Only the device copies the slot types into the header.
  marksHeader    : Bool
  -- The latency and credit checks of `check_vcs_for_packing`.
  ready          : Int → σ → Message → Sim Bool
  -- What happens to `device_under_consideration` when a new flit is started, given the rollover.
  newFlit        : σ → Nat → σ
  -- What happens to `device_under_consideration` when a message is found.
  offered        : σ → Message → Sim σ
  -- The credits spent on a packed message.
  spendSingle    : σ → Message → Sim σ
  spendHdr       : σ → Message → Sim σ
  -- The credits that the flit carries to the other side.
  getCredits     : σ → Flit → Sim (Credits × σ)
  -- The bookkeeping after the flit is in the buffer, given the rollover.
  sent           : σ → Nat → Sim σ

-- `packed` and `sent` record the messages that were dequeued and the flits that were put into the
-- buffer, in this order. Nothing reads them.
@[ext]
structure TxPort (dir : Dir) (vcSize bufSize : Nat) (σ : Type) where
  single            : VcArray vcSize dir.singleOp
  hdr               : VcArray vcSize dir.hdrOp
  packerCurVc       : Nat
  pkr2State         : RoundRobinState
  packerRollover    : Nat
  isPackerWaiting   : Bool
  startedPackingAt  : Int
  flitToPack        : Flit
  lastHdr           : Message
  flow              : σ
  txBuffer          : CXLBuf bufSize Flit
  lastTransmittedAt : Int
  packed            : List Message
  sent              : List Flit

namespace TxPort

variable {dir : Dir} {vcSize bufSize busSize : Nat} {σ : Type} (rules : PackerRules dir σ)
variable (currTick : Int)

def init (flow : σ) : TxPort dir vcSize bufSize σ where
  single            := .init
  hdr               := .init
  packerCurVc       := 0
  pkr2State         := .R
  packerRollover    := 0
  isPackerWaiting   := false
  startedPackingAt  := 0
  flitToPack        := {}
  lastHdr           := {}
  flow              := flow
  txBuffer          := ∅
  lastTransmittedAt := 0
  packed            := []
  sent              := []

-- A message found by `get_msg_from_vcs`, with the port after it if the message stays in its channel and
-- if it is dequeued.
structure Offer (dir : Dir) (vcSize bufSize : Nat) (σ : Type) where
  msg     : Message
  refused : TxPort dir vcSize bufSize σ
  taken   : TxPort dir vcSize bufSize σ

def nextVc (packerCurVc i : Nat) : Nat :=
  if packerCurVc = numVc - 1 then 0 else i + 1

def offerSingle (p : TxPort dir vcSize bufSize σ) (next : RoundRobinState) :
    Sim (Option (Offer dir vcSize bufSize σ)) := do
  match ← p.single.checkVcsForPacking (rules.ready currTick p.flow)
      (List.range' p.packerCurVc numVc) with
  | none        => return none
  | some (i, m) =>
    let p := { p with packerCurVc := nextVc p.packerCurVc i, pkr2State := next }
    return some { msg := m, refused := p, taken := { p with single := p.single.dequeue i } }

def offerHdr (p : TxPort dir vcSize bufSize σ) (next : RoundRobinState) :
    Sim (Option (Offer dir vcSize bufSize σ)) := do
  match ← p.hdr.checkVcsForPacking (rules.ready currTick p.flow)
      (List.range' p.packerCurVc numVc) with
  | none        => return none
  | some (i, m) =>
    let p := { p with packerCurVc := nextVc p.packerCurVc i, pkr2State := next }
    return some { msg := m, refused := p, taken := { p with hdr := p.hdr.dequeue i } }

def getMsgFromVcs (p : TxPort dir vcSize bufSize σ) : Sim (Option (Offer dir vcSize bufSize σ)) :=
  match p.pkr2State with
  | .r => firstOf (p.offerSingle rules currTick .R) (p.offerHdr rules currTick .w)
  | .R => firstOf (p.offerHdr rules currTick .w) (p.offerSingle rules currTick .R)
  | .w => firstOf (p.offerSingle rules currTick .r) (p.offerHdr rules currTick .w)
  | .W => .error .unknownRoundRobinState

-- `slots[i].type = ...; slots[i].msg = ...`, and `header.slots[i] = ...` on the device.
def setSlot (p : TxPort dir vcSize bufSize σ) (i : Nat) (s : Slot) : TxPort dir vcSize bufSize σ :=
  { p with flitToPack := { p.flitToPack with
      slots  := p.flitToPack.slots.set i s
      header := if rules.marksHeader then
          { p.flitToPack.header with slots := p.flitToPack.header.slots.set i s.type }
        else
          p.flitToPack.header } }

-- A data slot names the message of its header. The slot it replaces is untouched since the flit was
-- created.
def dataSlot (p : TxPort dir vcSize bufSize σ) : Slot where
  type := .data
  msg  := { msgId := p.lastHdr.msgId, address := p.lastHdr.address }

def addData (p : TxPort dir vcSize bufSize σ) (i : Nat) : TxPort dir vcSize bufSize σ :=
  { p.setSlot rules i p.dataSlot with packerRollover := p.packerRollover - 1 }

def packSingle (p : TxPort dir vcSize bufSize σ) (i : Nat) (m : Message) (flow : σ) :
    TxPort dir vcSize bufSize σ :=
  { p.setSlot rules i ⟨dir.single, m⟩ with flow, packed := p.packed ++ [m] }

def packHdr (p : TxPort dir vcSize bufSize σ) (i : Nat) (m : Message) (flow : σ) :
    TxPort dir vcSize bufSize σ :=
  { p.setSlot rules i ⟨dir.hdr, m⟩ with
    flow, lastHdr := m, packerRollover := 4, packed := p.packed ++ [m] }

-- One round of the slot loop of `FLIT_packer`. There is no port if the loop is left because no channel
-- has a message to offer.
def packSlot (p : TxPort dir vcSize bufSize σ) (i : Nat) :
    Sim (Option (TxPort dir vcSize bufSize σ)) :=
  if (p.flitToPack.slots.getD i {}).type ≠ .empty then
    return some p
  else if p.packerRollover ≠ 0 ∧ i ≠ 0 then
    return some (p.addData rules i)
  else do
    match ← p.getMsgFromVcs rules currTick with
    | none   => return none
    | some o =>
      let flow ← rules.offered p.flow o.msg
      if o.msg.opCode = dir.singleOp then
        if p.flitToPack.slotCountInFlit dir.single ≤ 1 then
          let flow ← rules.spendSingle flow o.msg
          return some (o.taken.packSingle rules i o.msg flow)
        else
          return some { o.refused with flow }
      else if o.msg.opCode = dir.hdrOp then
        if p.flitToPack.slotCountInFlit dir.hdr = 0 ∧
            (i = 0 ∨ p.flitToPack.areAllSlotsAfterThisEmpty i) then
          let flow ← rules.spendHdr flow o.msg
          return some (o.taken.packHdr rules i o.msg flow)
        else
          return some { o.refused with flow }
      else
        .error .illegalMessageType

def packSlots (p : TxPort dir vcSize bufSize σ) : List Nat → Sim (TxPort dir vcSize bufSize σ)
  | []      => .ok p
  | i :: is => do
    match ← p.packSlot rules currTick i with
    | none   => return p
    | some p => p.packSlots is

-- The slot loop and the rest of `FLIT_packer` after it.
def packFlit (p : TxPort dir vcSize bufSize σ) : Sim (TxPort dir vcSize bufSize σ) := do
  let p ← p.packSlots rules currTick [0, 1, 2, 3]
  let singles := p.flitToPack.slotCountInFlit dir.single
  let hdrs    := p.flitToPack.slotCountInFlit dir.hdr
  let datas   := p.flitToPack.slotCountInFlit .data
  assert (singles ≤ 2 ∧ datas ≤ 4 ∧ hdrs ≤ 1 ∧ hdrs + datas + singles ≤ 4)
    .packerPackingRuleViolated
  return { p with isPackerWaiting := p.isPackerWaiting || !p.flitToPack.isFlitEmpty }

def addFlitToBuf (p : TxPort dir vcSize bufSize σ) : Sim (TxPort dir vcSize bufSize σ) := do
  let (credit, flow) ← rules.getCredits p.flow p.flitToPack
  let f := { p.flitToPack with
    time   := { p.flitToPack.time with timeOfCreation := currTick }
    header := { p.flitToPack.header with credit } }
  let f := f.setTime rules.packTime currTick
  let txBuffer ← p.txBuffer.enqueue rules.txName f
  let flow ← rules.sent flow p.packerRollover
  return { p with
    flitToPack := f, flow, txBuffer, isPackerWaiting := false, sent := p.sent ++ [f] }

-- If the port is idle, a new flit is started.
def startFlit (p : TxPort dir vcSize bufSize σ) : TxPort dir vcSize bufSize σ :=
  if p.isPackerWaiting then
    p
  else
    { p with
      flitToPack       := {}
      startedPackingAt := currTick
      flow             := rules.newFlit p.flow p.packerRollover }

-- A waiting flit is sent if it is full, or if it has waited for too long and is not empty.
def isFlitDue (p : TxPort dir vcSize bufSize σ) : Bool :=
  p.isPackerWaiting && (p.flitToPack.isFlitFull ||
    currTick - p.startedPackingAt > rules.packerWaitTime && !p.flitToPack.isFlitEmpty)

def flitPacker (p : TxPort dir vcSize bufSize σ) : Sim (TxPort dir vcSize bufSize σ) := do
  let p := p.startFlit rules currTick
  if p.isFlitDue rules currTick then
    if p.txBuffer.isBufFull then
      return p
    else
      p.addFlitToBuf rules currTick
  else
    assert (p.packerRollover ≤ 4) .packerRolloverIllegal
    if p.isPackerWaiting then
      p.packFlit rules currTick
    else
      -- The data that rolls over goes to slot 1 and up, or fills the flit.
      match p.packerRollover with
      | 4 =>
        let p := [0, 1, 2, 3].foldl (addData rules) p
        if p.txBuffer.isBufFull then
          return { p with isPackerWaiting := true }
        else
          p.addFlitToBuf rules currTick
      | k =>
        let p := (List.range' 1 k).foldl (addData rules) p
        p.packFlit rules currTick

def transmit (params : CXLParams) (p : TxPort dir vcSize bufSize σ) (txBus : CXLBus busSize) :
    Sim (TxPort dir vcSize bufSize σ × CXLBus busSize) :=
  match p.txBuffer.q with
  | []     => return (p, txBus)
  | f :: _ =>
    if txBus.isFull ∨ currTick - f.time.timeOfCreation < params.delayTxBufToBus ∨
        currTick - p.lastTransmittedAt < params.cxlBusTicksPerDequeue then
      return (p, txBus)
    else do
      let f := { f with time := { f.time with timeOfTransmission := currTick } }
      let txBus ← txBus.addToBus currTick (f.setTime rules.transmitTime currTick)
      return ({ p with lastTransmittedAt := currTick, txBuffer := p.txBuffer.dequeue }, txBus)

-- The checks of a build that skips idle cycles. They test `tick_created`, whatever `ready` tests.
def skipPackerCheck (params : CXLParams) (p : TxPort dir vcSize bufSize σ) : Bool :=
  if p.packerRollover ≠ 0 ∨ p.isPackerWaiting then
    false
  else
    (List.finRange numVc).all fun i =>
      (p.hdr.head? i).all (currTick - ·.time.tickCreated < params.delayVcToPack) &&
      (p.single.head? i).all (currTick - ·.time.tickCreated < params.delayVcToPack)

def skipTransmitCheck (params : CXLParams) (p : TxPort dir vcSize bufSize σ)
    (txBus : CXLBus busSize) : Bool :=
  match p.txBuffer.q with
  | []     => true
  | f :: _ => txBus.isFull || (currTick - f.time.timeOfCreation < params.delayTxBufToBus ||
      currTick - p.lastTransmittedAt < params.cxlBusTicksPerDequeue)

end TxPort

end CXL
