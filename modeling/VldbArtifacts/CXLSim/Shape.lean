import VldbArtifacts.CXLSim.Packer

-- The flit under construction after a call of `FLIT_packer`, and the packer with another test of the slots
-- behind a header.

namespace CXL

-- What `are_all_slots_after_this_empty` would answer if its loop looked at slot 3, too.
def Flit.allSlotsAfterEmpty (f : Flit) (pos : Nat) : Bool :=
  (f.slots.drop (pos + 1)).all (·.type == .empty)

namespace TxPort

variable {dir : Dir} {vcSize bufSize : Nat} {σ : Type}

structure FlitShape (p : TxPort dir vcSize bufSize σ) : Prop where
  singles  : p.flitToPack.slotCountInFlit dir.single ≤ 2
  hdrs     : p.flitToPack.slotCountInFlit dir.hdr ≤ 1
  full     : 0 < p.flitToPack.slotCountInFlit dir.hdr → p.flitToPack.isFlitFull
  rollover : 0 < p.packerRollover → p.isPackerWaiting = false ∨ p.flitToPack.isFlitFull
  state    : p.flitToPack.slotCountInFlit dir.single = 2 → ¬p.flitToPack.isFlitFull → p.pkr2State = .R

variable (rules : PackerRules dir σ) (currTick : Int)

-- The second test of `FLIT_packer`, after the one for a full flit: the flit has waited for too long.
def IsTimedOut (p : TxPort dir vcSize bufSize σ) : Prop :=
  p.isPackerWaiting ∧ ¬p.flitToPack.isFlitFull ∧
    currTick - p.startedPackingAt > rules.packerWaitTime ∧ ¬p.flitToPack.isFlitEmpty

-- How a call of the packer goes on after its tests, with the port by then.
inductive Phase (dir : Dir) (vcSize bufSize : Nat) (σ : Type)
  | stay (p : TxPort dir vcSize bufSize σ)
  | send (p : TxPort dir vcSize bufSize σ)
  | pack (p : TxPort dir vcSize bufSize σ)

def phase (p : TxPort dir vcSize bufSize σ) : Sim (Phase dir vcSize bufSize σ) := do
  let p := p.startFlit rules currTick
  if p.isFlitDue rules currTick then
    return if p.txBuffer.isBufFull then .stay p else .send p
  else
    assert (p.packerRollover ≤ 4) .packerRolloverIllegal
    if p.isPackerWaiting then
      return .pack p
    else if p.packerRollover = 4 then
      let p := [0, 1, 2, 3].foldl (addData rules) p
      return if p.txBuffer.isBufFull then .stay { p with isPackerWaiting := true } else .send p
    else
      return .pack ((List.range' 1 p.packerRollover).foldl (addData rules) p)

variable (allAfterEmpty : Flit → Nat → Bool)

def packSlotBy (p : TxPort dir vcSize bufSize σ) (i : Nat) :
    Sim (Option (TxPort dir vcSize bufSize σ)) :=
  if (p.flitToPack.slots.getD i {}).type ≠ .empty then
    return some p
  else if p.packerRollover ≠ 0 ∧ i ≠ 0 then
    return some (p.addData rules i)
  else do
    match ← p.getMsgFromVcs rules currTick with
    | none   => return none
    | some o =>
      let flow ← rules.offered p.flow o.msg
      if o.msg.opCode = dir.singleOp then
        if p.flitToPack.slotCountInFlit dir.single ≤ 1 then
          let flow ← rules.spendSingle flow o.msg
          return some (o.taken.packSingle rules i o.msg flow)
        else
          return some { o.refused with flow }
      else if o.msg.opCode = dir.hdrOp then
        if p.flitToPack.slotCountInFlit dir.hdr = 0 ∧ (i = 0 ∨ allAfterEmpty p.flitToPack i) then
          let flow ← rules.spendHdr flow o.msg
          return some (o.taken.packHdr rules i o.msg flow)
        else
          return some { o.refused with flow }
      else
        .error .illegalMessageType

def packSlotsBy (p : TxPort dir vcSize bufSize σ) : List Nat → Sim (TxPort dir vcSize bufSize σ)
  | []      => .ok p
  | i :: is => do
    match ← p.packSlotBy rules currTick allAfterEmpty i with
    | none   => return p
    | some p => p.packSlotsBy is

def packFlitBy (p : TxPort dir vcSize bufSize σ) : Sim (TxPort dir vcSize bufSize σ) := do
  let p ← p.packSlotsBy rules currTick allAfterEmpty [0, 1, 2, 3]
  let singles := p.flitToPack.slotCountInFlit dir.single
  let hdrs    := p.flitToPack.slotCountInFlit dir.hdr
  let datas   := p.flitToPack.slotCountInFlit .data
  assert (singles ≤ 2 ∧ datas ≤ 4 ∧ hdrs ≤ 1 ∧ hdrs + datas + singles ≤ 4)
    .packerPackingRuleViolated
  return { p with isPackerWaiting := p.isPackerWaiting || !p.flitToPack.isFlitEmpty }

-- The packer with `allAfterEmpty` in the place of `are_all_slots_after_this_empty`.
def flitPackerBy (p : TxPort dir vcSize bufSize σ) : Sim (TxPort dir vcSize bufSize σ) := do
  match ← p.phase rules currTick with
  | .stay p => return p
  | .send p => p.addFlitToBuf rules currTick
  | .pack p => p.packFlitBy rules currTick allAfterEmpty

theorem packSlotsBy_self (p : TxPort dir vcSize bufSize σ) (is : List Nat) :
    p.packSlotsBy rules currTick Flit.areAllSlotsAfterThisEmpty is = p.packSlots rules currTick is := by
  induction is generalizing p
  case nil => rfl
  case cons i is ih =>
    have hslot : p.packSlotBy rules currTick Flit.areAllSlotsAfterThisEmpty i =
        p.packSlot rules currTick i := rfl
    rw [packSlotsBy, packSlots, hslot]
    apply bind_congr
    rintro (_ | q)
    case none => rfl
    case some => exact ih q

theorem packFlitBy_self (p : TxPort dir vcSize bufSize σ) :
    p.packFlitBy rules currTick Flit.areAllSlotsAfterThisEmpty = p.packFlit rules currTick := by
  rw [packFlitBy, packFlit, packSlotsBy_self]

-- With the test of the source, it is the packer of the source.
theorem flitPackerBy_self (p : TxPort dir vcSize bufSize σ) :
    p.flitPackerBy rules currTick Flit.areAllSlotsAfterThisEmpty = p.flitPacker rules currTick := by
  rw [flitPackerBy, flitPacker, phase]
  generalize p.startFlit rules currTick = p
  by_cases hdue : p.isFlitDue rules currTick
  case pos =>
    by_cases hfull : p.txBuffer.isBufFull
    case pos => simp [hdue, hfull]
    case neg => simp [hdue, hfull]
  case neg =>
    simp only [hdue, packFlitBy_self, Bool.false_eq_true, if_false, bind_assoc]
    apply bind_congr
    intro _
    by_cases hw : p.isPackerWaiting
    case pos => simp [hw]
    case neg =>
      simp only [hw, Bool.false_eq_true, if_false]
      split
      case _ h4 =>
        by_cases hfull : ([0, 1, 2, 3].foldl (addData rules) p).txBuffer.isBufFull
        case pos => simp only [h4, hfull, if_true, pure_bind]
        case neg => simp only [h4, hfull, Bool.false_eq_true, if_false, pure_bind]
      case _ => simp only [pure_bind]

end TxPort

end CXL
