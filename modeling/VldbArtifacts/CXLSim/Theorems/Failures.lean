import VldbArtifacts.CXLSim.Action
import VldbArtifacts.CXLSim.Theorems.Basic

-- Which assertions a call can violate.

namespace CXL

-- The computation aborts with one of the failures, if it does.
def Raises {α : Type} (es : List Failure) (x : Sim α) : Prop :=
  x.Meets (fun _ => True) (· ∈ es)

namespace Raises

variable {α β : Type} {es : List Failure} {x : Sim α}

theorem ok (a : α) : Raises es (.ok a : Sim α) :=
  trivial

theorem bind {f : α → Sim β} (hx : Raises es x) (hf : ∀ a, Raises es (f a)) : Raises es (x >>= f) :=
  Except.Meets.bind hx fun a _ => hf a

theorem mono {es' : List Failure} (hx : Raises es x) (h : es ⊆ es') : Raises es' x :=
  Except.Meets.mono hx (fun _ => id) fun _ he => h he

theorem ite {c : Prop} [Decidable c] {y : Sim α} (hx : Raises es x) (hy : Raises es y) :
    Raises es (if c then x else y) :=
  Except.Meets.ite (fun _ => hx) fun _ => hy

theorem error {e : Failure} (h : e ∈ es) : Raises es (.error e : Sim α) :=
  h

theorem assert {p : Prop} [Decidable p] {e : Failure} (h : e ∈ es) : Raises es (CXL.assert p e) :=
  (assert_meets fun _ => h).imp fun _ _ => trivial

theorem enqueue {size : Nat} {name : BufName} {b : CXLBuf size α} {a : α}
    (h : .addingToFullBuffer name ∈ es) : Raises es (b.enqueue name a) :=
  CXLBuf.enqueue_meets.mono (fun _ _ => trivial) fun _ he => he.left ▸ h

theorem firstOf {x y : Sim (Option α)} (hx : Raises es x) (hy : Raises es y) :
    Raises es (firstOf x y) := by
  refine hx.bind fun o => ?_
  cases o
  case none   => exact hy
  case some a => exact ok _

theorem foldlM {γ : Type} {g : α → γ → Sim α} (hg : ∀ a c, Raises es (g a c)) (l : List γ) (a : α) :
    Raises es (l.foldlM g a) :=
  Except.Meets.foldlM (fun a c _ _ => hg a c) trivial

end Raises

theorem CXLBus.update_raises {size bufSize : Nat} (p : CXLParams) (currTick : Int) (t : BusTerminals)
    (name : BufName) (b : CXLBus size) (buf : CXLBuf bufSize Flit) :
    Raises [.busSizeExceeded, .stagnantFlit, .addingToFullBuffer name]
      (b.update p currTick t name buf) := by
  refine (Raises.assert (by simp)).bind fun _ => (Raises.assert (by simp)).bind fun _ => .ite ?_ (.ok _)
  unfold sendToNode
  split
  case h_1 => exact .ok _
  case h_2 => exact .ite (.bind (.enqueue (by simp)) fun _ => .ok _) (.ok _)

theorem CXLBus.addToBus_raises {size : Nat} (currTick : Int) (b : CXLBus size) (f : Flit) :
    Raises [.addingToFullBus] (b.addToBus currTick f) := by
  unfold addToBus
  split
  case isTrue  => exact .error (by simp)
  case isFalse => exact .ok _

namespace CXLSwitch

variable {n size busSize : Nat} {cfg : Config n} (currTick : Int)

theorem forward_raises (delay : Int) (name : BufName) (src dst : CXLBuf size Flit) :
    Raises [.addingToFullBuffer name] (forward currTick delay name src dst) := by
  unfold forward
  split
  case h_1 => exact .ok _
  case h_2 => exact .bind (.enqueue (by simp)) fun _ => .ok _

theorem sendOut_raises (params : CXLParams) (member : TimeField) (buf : CXLBuf size Flit) (lt : Nat)
    (bus : CXLBus busSize) : Raises [.addingToFullBus] (sendOut currTick params member buf lt bus) := by
  unfold sendOut
  split
  case h_1 => exact .ok _
  case h_2 => exact .ite (.bind (bus.addToBus_raises currTick _) fun _ => .ok _) (.ok _)

end CXLSwitch

theorem Config.destinationDevice_raises {n : Nat} (cfg : Config n) (addr : Nat) :
    Raises [.invalidAddress] (cfg.destinationDevice addr) := by
  unfold Config.destinationDevice
  split
  case h_1 => exact .ok _
  case h_2 => exact .error (by simp)

namespace CXLSwitch

variable {n : Nat} {cfg : Config n} (currTick : Int) (s : CXLSwitch cfg)

theorem route_raises :
    Raises [.invalidAddress, .addingToFullBuffer .downstreamTx] (s.route currTick) := by
  unfold route
  split
  case h_1 => exact .ok _
  case h_2 =>
    refine .bind ?_ fun dest => ?_
    · unfold decodeDestination
      exact .ite (.ok _) (.bind ((cfg.destinationDevice_raises _).mono (by simp)) fun _ => .ok _)
    · split
      case isTrue  => exact .bind (.enqueue (by simp)) fun _ => .ok _
      case isFalse => exact .error (by simp)

theorem arbitrate_raises (k : Nat) :
    Raises [.addingToFullBuffer .arbNocD2H] (arbitrate currTick k s) := by
  induction k generalizing s
  case zero => exact .ok _
  case succ k ih =>
    rw [arbitrate]
    split
    case isFalse => exact ih _
    case isTrue =>
      simp only
      split
      case h_1 => exact .bind (.enqueue (by simp)) fun _ => .ok _
      case h_2 => exact .bind (ih _) fun _ => .ok _

end CXLSwitch

-- What the rules of a packer may raise.
structure PackerRules.Raises {dir : Dir} {σ : Type} (rules : PackerRules dir σ) (es : List Failure) :
    Prop where
  ready       : ∀ t s m, CXL.Raises es (rules.ready t s m)
  offered     : ∀ s m, CXL.Raises es (rules.offered s m)
  spendSingle : ∀ s m, CXL.Raises es (rules.spendSingle s m)
  spendHdr    : ∀ s m, CXL.Raises es (rules.spendHdr s m)
  getCredits  : ∀ s f, CXL.Raises es (rules.getCredits s f)
  sent        : ∀ s r, CXL.Raises es (rules.sent s r)
  own         : [.illegalMessageType, .unknownRoundRobinState, .packerRolloverIllegal,
    .packerPackingRuleViolated, .addingToFullBuffer rules.txName] ⊆ es

namespace TxPort

variable {dir : Dir} {vcSize bufSize busSize : Nat} {σ : Type} {rules : PackerRules dir σ}
  {es : List Failure} (hr : rules.Raises es) (currTick : Int) (p : TxPort dir vcSize bufSize σ)

theorem checkVcsForPacking_raises {size : Nat} {op : Opcode} (a : VcArray size op)
    {ready : Message → Sim Bool} (h : ∀ m, Raises es (ready m)) (is : List Nat) :
    Raises es (a.checkVcsForPacking ready is) := by
  induction is
  case nil => exact .ok _
  case cons i is ih =>
    rw [VcArray.checkVcsForPacking]
    split
    case h_1 => exact ih
    case h_2 => exact .bind (h _) fun b => .ite (.ok _) ih

include hr

theorem offerSingle_raises (next : RoundRobinState) : Raises es (p.offerSingle rules currTick next) := by
  refine .bind (checkVcsForPacking_raises _ (hr.ready _ _) _) fun o => ?_
  cases o <;> exact .ok _

theorem offerHdr_raises (next : RoundRobinState) : Raises es (p.offerHdr rules currTick next) := by
  refine .bind (checkVcsForPacking_raises _ (hr.ready _ _) _) fun o => ?_
  cases o <;> exact .ok _

theorem getMsgFromVcs_raises : Raises es (p.getMsgFromVcs rules currTick) := by
  have hs := p.offerSingle_raises hr currTick
  have hh := p.offerHdr_raises hr currTick
  unfold getMsgFromVcs
  split
  case h_1 => exact .firstOf (hs _) (hh _)
  case h_2 => exact .firstOf (hh _) (hs _)
  case h_3 => exact .firstOf (hs _) (hh _)
  case h_4 => exact .error (hr.own (by simp))

theorem packSlot_raises (i : Nat) : Raises es (p.packSlot rules currTick i) := by
  refine .ite (.ok _) (.ite (.ok _) (.bind (p.getMsgFromVcs_raises hr currTick) fun o => ?_))
  cases o
  case none => exact .ok _
  case some o =>
    refine .bind (hr.offered _ _) fun flow => .ite ?_ (.ite ?_ (.error (hr.own (by simp))))
    · exact .ite (.bind (hr.spendSingle _ _) fun _ => .ok _) (.ok _)
    · exact .ite (.bind (hr.spendHdr _ _) fun _ => .ok _) (.ok _)

theorem packSlots_raises (is : List Nat) : Raises es (p.packSlots rules currTick is) := by
  induction is generalizing p
  case nil => exact .ok _
  case cons i is ih =>
    refine .bind (p.packSlot_raises hr currTick i) fun o => ?_
    cases o
    case none   => exact .ok _
    case some p => exact ih p

theorem packFlit_raises : Raises es (p.packFlit rules currTick) :=
  .bind (p.packSlots_raises hr currTick _) fun _ =>
    .bind (.assert (hr.own (by simp))) fun _ => .ok _

theorem addFlitToBuf_raises : Raises es (p.addFlitToBuf rules currTick) :=
  .bind (hr.getCredits _ _) fun _ => .bind (.enqueue (hr.own (by simp))) fun _ =>
    .bind (hr.sent _ _) fun _ => .ok _

theorem flitPacker_raises : Raises es (p.flitPacker rules currTick) := by
  refine .ite (.ite (.ok _) (addFlitToBuf_raises hr currTick _))
    (.bind (.assert (hr.own (by simp))) fun _ => .ite (packFlit_raises hr currTick _) ?_)
  split
  case h_1 => exact .ite (.ok _) (addFlitToBuf_raises hr currTick _)
  case h_2 => exact packFlit_raises hr currTick _

omit hr

theorem transmit_raises (params : CXLParams) (txBus : CXLBus busSize) :
    Raises [.addingToFullBus] (p.transmit rules currTick params txBus) := by
  unfold transmit
  split
  case h_1 => exact .ok _
  case h_2 => exact .ite (.ok _) (.bind (txBus.addToBus_raises currTick _) fun _ => .ok _)

end TxPort

namespace RxPort

variable {dir : Dir} {vcSize bufSize : Nat} {rules : UnpackerRules} (currTick : Int)
  (u : RxPort dir vcSize bufSize)

def failures (rules : UnpackerRules) : List Failure :=
  [.headerBeforeData, .dataNotExpected, .illegalSlotType, .addingToFullBuffer rules.singleName,
    .addingToFullBuffer rules.hdrName]

theorem consumeData_raises (s : Slot) : Raises (failures rules) (u.consumeData rules currTick s) := by
  refine .ite ?_ (.ok _)
  exact .bind (.enqueue (by simp [failures])) fun _ => .ok _

theorem takeRollover_raises (ss : List Slot) :
    Raises (failures rules) (u.takeRollover rules currTick ss) := by
  induction ss generalizing u
  case nil => exact .ok _
  case cons s ss ih =>
    refine .ite (.bind (ih u) fun _ => .ok _) (.bind (u.consumeData_raises currTick s) fun u => ?_)
    exact .ite (.ok _) (.bind (ih u) fun _ => .ok _)

theorem unpackSlot_raises (s : Slot) : Raises (failures rules) (u.unpackSlot rules currTick s) := by
  refine .ite (.bind (.enqueue (by simp [failures])) fun _ => .ok _) (.ite ?_ (.ite ?_ ?_))
  · exact .bind (.assert (by simp [failures])) fun _ => .ok _
  · exact .bind (.assert (by simp [failures])) fun _ => u.consumeData_raises currTick s
  · exact .bind (.assert (by simp [failures])) fun _ => .ok _

theorem unpackSlots_raises (ss : List Slot) :
    Raises (failures rules) (u.unpackSlots rules currTick ss) := by
  induction ss generalizing u
  case nil          => exact .ok _
  case cons s ss ih => exact .bind (u.unpackSlot_raises currTick s) ih

theorem unpackFlit_raises (f : Flit) : Raises (failures rules) (u.unpackFlit rules currTick f) := by
  refine .ite ?_ ?_
  · exact .bind (u.takeRollover_raises currTick _) fun r =>
      .bind (r.1.unpackSlots_raises currTick r.2) fun _ => .ok _
  · exact .bind (.ok _) fun r => .bind (r.1.unpackSlots_raises currTick r.2) fun _ => .ok _

theorem checkRollover_raises (f : Flit) :
    Raises [.rolloverOutOfRange, .rolloverRuleViolated] (u.checkRollover f) :=
  .bind (.assert (by simp)) fun _ => .assert (by simp)

end RxPort

section Memory

theorem message2RamulatorReq_raises (m : Message) :
    Raises [.illegalMessageType] (message2RamulatorReq m) := by
  unfold message2RamulatorReq
  split
  case h_1 => exact .ok _
  case h_2 => exact .ok _
  case h_3 => exact .error (by simp)

theorem CXLIfBuf.bufAdd_raises (b : CXLIfBuf) (r : RamulatorReq) :
    Raises [.overflowRamulatorBuffer] (b.bufAdd r) :=
  .ite (.error (by simp)) (.ok _)

theorem VcArray.enqueue_raises {size : Nat} {op : Opcode} {name : BufName} (a : VcArray size op)
    (i : Fin numVc) (m : Message) (hm : m.opCode = op) :
    Raises [.addingToFullBuffer name] (a.enqueue name i m hm) := by
  unfold VcArray.enqueue
  split
  case h_1 e he => exact (CXLBuf.enqueue_meets.of_error he).left ▸ .error (by simp)
  case h_2      => exact .ok _

end Memory

namespace CXLDevice

variable {n : Nat} {cfg : Config n} {M : Memory} (currTick : Int) (d : CXLDevice cfg M)

theorem devicePackerRules_raises (i : Fin n) :
    (devicePackerRules cfg).Raises (Action.packDevice i).failures where
  ready t s m := by
    refine .ite ?_ (.ok _)
    split
    case h_1 => exact .ok _
    case h_2 => exact .ok _
    case h_3 => exact .error (by simp [Action.failures])
  offered _ _     := .ok _
  spendSingle _ _ := .ok _
  spendHdr _ _    := .ok _
  getCredits s _  :=
    .bind (.bind (.assert (by simp [Action.failures])) fun _ =>
      .bind (.assert (by simp [Action.failures])) fun _ => .assert (by simp [Action.failures]))
      fun _ => .ok _
  sent _ _        := .bind (.assert (by simp [Action.failures])) fun _ => .ok _
  own             := by simp [Action.failures, devicePackerRules]

theorem flitUnpacker_raises (i : Fin n) :
    Raises (Action.unpackDevice i).failures (d.flitUnpacker currTick) := by
  refine .bind (.assert (by simp [Action.failures])) fun _ => ?_
  split
  case h_1 => exact .ok _
  case h_2 f _ _ =>
    refine .ite (.ok _) (.bind ((d.rx.checkRollover_raises f).mono (by simp [Action.failures])) fun _ => ?_)
    refine .bind ((d.rx.unpackFlit_raises currTick f).mono ?_) fun _ => ?_
    · simp [RxPort.failures, Action.failures, deviceUnpackerRules]
    · exact .bind (.assert (by simp [Action.failures])) fun _ => .ok _

theorem checkRxVc_raises (vc : CXLBuf cfg.devVcSize Message) :
    Raises [.illegalMessageType, .overflowRamulatorBuffer] (d.checkRxVc currTick vc) := by
  unfold checkRxVc
  split
  case h_1 => exact .ok _
  case h_2 m _ _ =>
    refine .ite (.ok _) (.bind ((message2RamulatorReq_raises m).mono (by simp)) fun r => ?_)
    refine .bind ((d.dram.inpBuf.bufAdd_raises r).mono (by simp)) fun _ => ?_
    split
    case h_1 => exact .ok _
    case h_2 => exact .ok _
    case h_3 => exact .error (by simp)

theorem ramulatorReqNotification_raises (i : Fin n) (r : Request) :
    Raises (Action.updateDram i).failures (d.ramulatorReqNotification currTick r) := by
  unfold ramulatorReqNotification
  split
  case h_1 => exact .error (by simp [Action.failures])
  case h_2 =>
    simp only
    split
    case h_1 => exact .bind ((d.tx.hdr.enqueue_raises _ _ _).mono (by simp [Action.failures])) fun _ => .ok _
    case h_2 =>
      exact .bind ((d.tx.single.enqueue_raises _ _ _).mono (by simp [Action.failures])) fun _ => .ok _
    case h_3 => exact .error (by simp [Action.failures])

theorem updateDram_raises (i : Fin n) :
    Raises (Action.updateDram i).failures (d.updateDram currTick) := by
  refine .ite (.bind ?_ fun d => ?_) (.ok _)
  · unfold requestAccepted
    split
    case h_1 => exact .ok _
    case h_2 =>
      split
      case h_1 => exact .error (by simp [Action.failures])
      case h_2 => exact .ok _
  · exact .bind (.foldlM (fun d r => d.ramulatorReqNotification_raises currTick i r) _ _) fun _ => .ok _

-- What the assertion of `send_to_ramulator` forbids. Its message speaks of a full input buffer.
def IsStalled : Prop :=
  d.rx.single.isBufFull ∧ d.rx.hdr.isBufFull ∧ d.dram.inpBuf.isEmpty

theorem sendToRamulator_stalls : (d.sendToRamulator currTick).Meets (fun _ => ¬d.IsStalled)
    (fun e => d.IsStalled ∧ e = .ramulatorSideStall ∨ ¬d.IsStalled ∧
      e ∈ [.illegalMessageType, .overflowRamulatorBuffer, .unknownRoundRobinState]) := by
  have hreq (next : RoundRobinState) :
      Raises [.illegalMessageType, .overflowRamulatorBuffer, .unknownRoundRobinState]
        (d.checkM2SReq currTick next) := by
    refine .bind ((d.checkRxVc_raises currTick _).mono (by simp)) fun o => ?_
    cases o <;> exact .ok _
  have hrwd (next : RoundRobinState) :
      Raises [.illegalMessageType, .overflowRamulatorBuffer, .unknownRoundRobinState]
        (d.checkM2SRwd currTick next) := by
    refine .bind ((d.checkRxVc_raises currTick _).mono (by simp)) fun o => ?_
    cases o <;> exact .ok _
  refine Except.Meets.bind (P := fun _ => ¬d.IsStalled) ?_ fun _ h => ?_
  · refine (assert_meets fun h => .inl ⟨not_not.mp h, rfl⟩).imp fun _ h => h
  · refine Except.Meets.mono (P := fun _ => True) ?_ (fun _ _ => h) fun e he => .inr ⟨h, he⟩
    split
    case h_1 => exact Raises.bind (.firstOf (hrwd _) (hreq _)) fun _ => .ok _
    case h_2 => exact Raises.bind (.firstOf (hreq _) (hrwd _)) fun _ => .ok _
    case h_3 => exact Raises.bind (.firstOf (hreq _) (hrwd _)) fun _ => .ok _
    case h_4 => exact Raises.error (by simp)

theorem sendToRamulator_raises (i : Fin n) :
    Raises (Action.sendToRamulator i).failures (d.sendToRamulator currTick) := by
  refine (d.sendToRamulator_stalls currTick).mono (fun _ _ => trivial) fun e he => ?_
  rcases he with ⟨_, rfl⟩ | ⟨_, he⟩
  case inl => simp [Action.failures]
  case inr => exact List.mem_cons_of_mem _ he

theorem sendToRamulator_stall_iff :
    d.sendToRamulator currTick = .error .ramulatorSideStall ↔ d.IsStalled := by
  have h := d.sendToRamulator_stalls currTick
  cases hx : d.sendToRamulator currTick
  case ok d'   => simpa using h.of_ok hx
  case error e =>
    rcases h.of_error hx with ⟨hs, rfl⟩ | ⟨hs, he⟩
    case inl => simp [hs]
    case inr =>
      simp only [hs, iff_false, Except.error.injEq]
      rintro rfl
      simp at he

end CXLDevice

section Trace

theorem stoul_raises (s : List Char) : Raises [.stoulException] (stoul s) :=
  .ite (.error (by simp)) (.ok _)

theorem parseLine_raises (s : List Char) :
    Raises [.incorrectStringSplitting, .illegalOpcode, .stoulException] (parseLine s) := by
  unfold parseLine
  split
  case h_1 =>
    refine .bind ((stoul_raises _).mono (by simp)) fun _ => .ite ?_ (.ite ?_ ?_)
    · exact .bind (.ok _) fun _ => .bind ((stoul_raises _).mono (by simp)) fun _ => .ok _
    · exact .bind (.ok _) fun _ => .bind ((stoul_raises _).mono (by simp)) fun _ => .ok _
    · exact .error (by simp)
  case h_2 => exact .error (by simp)

end Trace

theorem slotsDevice_raises {n : Nat} (cfg : Config n) (ss : List Slot) (deviceId : Nat) :
    Raises [.invalidAddress, .singleFlitDifferentDevices] (slotsDevice cfg ss deviceId) := by
  induction ss generalizing deviceId
  case nil => exact .ok _
  case cons s ss ih =>
    refine .ite (ih _) (.bind ((cfg.destinationDevice_raises _).mono (by simp)) fun dest => ?_)
    exact .ite (ih _) (.bind (.assert (by simp)) fun _ => ih _)

namespace CXLHost

variable {n : Nat} {cfg : Config n} (currTick : Int) (h : CXLHost cfg)

theorem hostPackerRules_raises :
    (hostPackerRules cfg).Raises (Action.packHost (n := n)).failures where
  ready t s m := by
    refine .ite (.bind ((cfg.destinationDevice_raises _).mono (by simp [Action.failures]))
      fun dest => .ite ?_ (.ok _)) (.ok _)
    split <;> exact .ok _
  offered _ _     := .ite (.bind ((cfg.destinationDevice_raises _).mono (by simp [Action.failures]))
    fun _ => .ok _) (.ok _)
  spendSingle _ _ := .bind ((cfg.destinationDevice_raises _).mono (by simp [Action.failures]))
    fun _ => .ok _
  spendHdr _ _    := .bind ((cfg.destinationDevice_raises _).mono (by simp [Action.failures]))
    fun _ => .ok _
  getCredits s _  :=
    .bind (.bind (.assert (by simp [Action.failures])) fun _ =>
      .bind (.assert (by simp [Action.failures])) fun _ => .assert (by simp [Action.failures]))
      fun _ => .ok _
  sent _ _        := .ok _
  own             := by simp [Action.failures, hostPackerRules]

theorem flitUnpacker_raises :
    Raises (Action.unpackHost (n := n)).failures (h.flitUnpacker currTick) := by
  refine .bind (.assert (by simp [Action.failures])) fun _ => ?_
  split
  case h_1 => exact .ok _
  case h_2 f _ _ =>
    refine .ite (.ok _) (.bind ((slotsDevice_raises cfg _ _).mono (by simp [Action.failures]))
      fun _ => ?_)
    refine .bind ((h.rx.checkRollover_raises f).mono (by simp [Action.failures])) fun _ => ?_
    refine .bind (.assert (by simp [Action.failures])) fun _ => ?_
    refine .bind ((h.rx.unpackFlit_raises currTick f).mono ?_) fun _ => .ok _
    simp [RxPort.failures, Action.failures, hostUnpackerRules]

theorem checkRxVc_raises (vc : CXLBuf cfg.hostRespSize Message) :
    Raises [.responseUnknownRequest, .illegalMessageType] (h.checkRxVc currTick vc) := by
  unfold checkRxVc
  split
  case h_1 => exact .ok _
  case h_2 =>
    refine .ite (.ok _) (.bind (.assert (by simp)) fun _ => ?_)
    simp only
    split
    case h_1 => exact .ok _
    case h_2 => exact .ok _
    case h_3 => exact .error (by simp)

theorem checkIfReqCompleted_raises :
    Raises (Action.completeReq (n := n)).failures (h.checkIfReqCompleted currTick) := by
  have hndr (next : RoundRobinState) :
      Raises (Action.completeReq (n := n)).failures (h.checkS2MNdr currTick next) := by
    refine .bind ((h.checkRxVc_raises currTick _).mono (by simp [Action.failures])) fun o => ?_
    cases o <;> exact .ok _
  have hdrs (next : RoundRobinState) :
      Raises (Action.completeReq (n := n)).failures (h.checkS2MDrs currTick next) := by
    refine .bind ((h.checkRxVc_raises currTick _).mono (by simp [Action.failures])) fun o => ?_
    cases o <;> exact .ok _
  refine .ite (.ok _) ?_
  split
  case h_1 => exact .bind (.firstOf (hndr _) (hdrs _)) fun _ => .ok _
  case h_2 => exact .bind (.firstOf (hdrs _) (hndr _)) fun _ => .ok _
  case h_3 => exact .bind (.firstOf (hdrs _) (hndr _)) fun _ => .ok _
  case h_4 => exact .error (by simp [Action.failures])

theorem readTrace_raises : Raises (Action.readTrace (n := n)).failures h.readTrace := by
  refine .ite (.ok _) ?_
  split
  case h_1 => exact .ok _
  case h_2 =>
    refine .bind ((parseLine_raises _).mono (by simp [Action.failures])) fun _ => ?_
    exact .bind (.enqueue (by simp [Action.failures])) fun _ => .ok _

theorem issueToVc_raises (m : Message) :
    Raises (Action.issueHead (n := n)).failures (h.issueToVc currTick m) := by
  unfold issueToVc
  simp only
  split
  case h_1 =>
    refine .ite (.ok _) (.bind ?_ fun _ => .ok _)
    exact (h.tx.single.enqueue_raises _ _ _).mono (by simp [Action.failures])
  case h_2 =>
    refine .ite (.ok _) (.bind ?_ fun _ => .ok _)
    exact (h.tx.hdr.enqueue_raises _ _ _).mono (by simp [Action.failures])
  case h_3 => exact .error (by simp [Action.failures])

end CXLHost

namespace CXLSystem

variable {n : Nat} {cfg : Config n} {M : Memory} (s : CXLSystem cfg M)

theorem issueHead_raises : Raises (Action.issueHead (n := n)).failures s.issueHead := by
  unfold issueHead
  split
  case h_1 => exact .ok _
  case h_2 m _ _ =>
    refine .ite (.ite (.ite (.ok _) ?_) (.bind (CXLHost.issueToVc_raises _ _ m) fun o => ?_)) (.ok _)
    · refine .bind ((message2RamulatorReq_raises m).mono (by simp [Action.failures])) fun r => ?_
      exact .bind ((s.dam.inpBuf.bufAdd_raises r).mono (by simp [Action.failures])) fun _ => .ok _
    · cases o <;> exact .ok _

theorem perform_raises (a : Action n) : Raises a.failures (s.perform a) := by
  cases a
  case busToHost         => exact .bind (CXLBus.update_raises ..) fun _ => .ok _
  case busFromHost       => exact .bind (CXLBus.update_raises ..) fun _ => .ok _
  case busToDevice       => exact .bind (CXLBus.update_raises ..) fun _ => .ok _
  case busFromDevice     => exact .bind (CXLBus.update_raises ..) fun _ => .ok _
  case forwardH2D        => exact .bind (CXLSwitch.forward_raises ..) fun _ => .ok _
  case route             => exact .bind (CXLSwitch.route_raises ..) fun _ => .ok _
  case sendDown          => exact .bind (CXLSwitch.sendOut_raises ..) fun _ => .ok _
  case arbitrate         => exact .bind (CXLSwitch.arbitrate_raises ..) fun _ => .ok _
  case forwardD2H        => exact .bind (CXLSwitch.forward_raises ..) fun _ => .ok _
  case sendUp            => exact .bind (CXLSwitch.sendOut_raises ..) fun _ => .ok _
  case setSkipCycle      => exact .ok _
  case packDevice i      =>
    exact .bind (.bind (TxPort.flitPacker_raises (CXLDevice.devicePackerRules_raises i) ..)
      fun _ => .ok _) fun _ => .ok _
  case unpackDevice i    => exact .bind (CXLDevice.flitUnpacker_raises ..) fun _ => .ok _
  case sendToRamulator i => exact .bind (CXLDevice.sendToRamulator_raises ..) fun _ => .ok _
  case transmitDevice    =>
    exact .bind (.bind (TxPort.transmit_raises ..) fun _ => .ok _) fun _ => .ok _
  case updateDram i      => exact .bind (CXLDevice.updateDram_raises ..) fun _ => .ok _
  case issueHead         => exact .bind s.issueHead_raises fun _ => .ok _
  case readTrace         => exact .bind s.host.readTrace_raises fun _ => .ok _
  case finishTrace       => exact .ok _
  case checkCreds        => exact .bind (.assert (by simp [Action.failures])) fun _ => .ok _
  case packHost          =>
    exact .bind (.bind (TxPort.flitPacker_raises CXLHost.hostPackerRules_raises ..)
      fun _ => .ok _) fun _ => .ok _
  case transmitHost      =>
    exact .bind (.bind (TxPort.transmit_raises ..) fun _ => .ok _) fun _ => .ok _
  case unpackHost        => exact .bind (CXLHost.flitUnpacker_raises ..) fun _ => .ok _
  case completeReq       => exact .bind (CXLHost.checkIfReqCompleted_raises ..) fun _ => .ok _
  case checkDAM          => exact .bind (.assert (by simp [Action.failures])) fun _ => .ok _
  case updateDam         => exact .ok _
  case setTick           => exact .ok _

theorem mem_failures_of_perform {a : Action n} {e : Failure} (h : s.perform a = .error e) :
    e ∈ a.failures :=
  Except.Meets.of_error (s.perform_raises a) h

-- A run aborts in one of its calls.
theorem Calls.error_iff {b : Build} {k : Nat} {trace : List Char} {as : List (Action n)} {e : Failure}
    (h : Calls b trace k cfg M as) : (init trace : CXLSystem cfg M).run b k = .error e ↔
      ∃ a s, CalledIn trace as a s ∧ perform (s : CXLSystem cfg M) a = .error e := by
  rw [← h, Except.foldlM_eq_error]
  constructor
  case mp =>
    rintro ⟨as₁, a, as₂, s, has, hs, he⟩
    exact ⟨a, s, ⟨as₁, as₂, has, hs⟩, he⟩
  case mpr =>
    rintro ⟨a, s, ⟨as₁, as₂, has, hs⟩, he⟩
    exact ⟨as₁, a, as₂, s, has, hs, he⟩

end CXLSystem

end CXL
