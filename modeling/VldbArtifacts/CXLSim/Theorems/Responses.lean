import VldbArtifacts.Lib.RoundRobin
import VldbArtifacts.CXLSim.Theorems.Backpressure
import VldbArtifacts.CXLSim.Theorems.Idle
import VldbArtifacts.CXLSim.Theorems.Quiet

-- The runs that abort because a response finds its channel full.

namespace CXL

-- A channel that is not full gets one message more.
theorem VcArray.enqueue_fills {size : Nat} {op : Opcode} {name : BufName} (a : VcArray size op)
    {i : Fin numVc} {m : Message} {hm : m.opCode = op} :
    (a.enqueue name i m hm).Meets
      (fun a' => (a.vcs i).q.length < size ∧ (fun j => (a'.vcs j).q.length) =
        Function.update (fun j => (a.vcs j).q.length) i ((a.vcs i).q.length + 1))
      (fun e => e = .addingToFullBuffer name ∧ (a.vcs i).q.length = size) := by
  unfold enqueue
  split
  case h_1 e he =>
    have ⟨he, hf⟩ := CXLBuf.enqueue_meets.of_error he
    exact ⟨he, by simpa [CXLBuf.isBufFull] using hf⟩
  case h_2 b hb =>
    have hq := CXLBuf.enqueue_q hb
    have hle := b.occupancy_le
    rw [hq, List.length_append, List.length_singleton] at hle
    refine ⟨hle, funext fun j => ?_⟩
    by_cases hj : j = i
    case pos => simp [hj, hq]
    case neg => simp [hj]

namespace CXLDevice

variable {n : Nat} {cfg : Config n} {M : Memory} {d : CXLDevice cfg M} {tick : Int}

-- The response channels of one kind: how many responses each holds, and which one is next.
def waiting (d : CXLDevice cfg M) : Bool → Fin numVc → Nat
  | false => fun i => (d.tx.hdr.vcs i).q.length
  | true  => fun i => (d.tx.single.vcs i).q.length

def curVc (d : CXLDevice cfg M) : Bool → Fin numVc
  | false => d.curDRSVc
  | true  => d.curNDRVc

-- The kind of a request that the memory calls back.
def kindOf (d : CXLDevice cfg M) (r : Request) : Option Bool :=
  (d.messagesInRamulator.lookup r.reqId).bind fun m =>
    match m.opCode with
    | .req => some false
    | .rwd => some true
    | _    => none

-- The response channels have room for the responses to the requests.
def HasRoomFor (d : CXLDevice cfg M) (rs : List Request) : Prop :=
  ∀ kind, RoundRobin.HasRoom (cfg.devVcSize / numVc) (d.waiting kind) (d.curVc kind)
    (rs.countP (d.kindOf · = some kind))

theorem turn_one (i : Fin numVc) : RoundRobin.turn i 1 = nextEnqueueVc i := by
  decide +revert

-- The response to `r` took its place, and its channel was not full.
structure Notified (d : CXLDevice cfg M) (r : Request) (kind : Bool) (d' : CXLDevice cfg M) : Prop where
  kindOf  : d.kindOf r = some kind
  lt      : d.waiting kind (d.curVc kind) < cfg.devVcSize / numVc
  waiting : d'.waiting = Function.update d.waiting kind (Function.update (d.waiting kind) (d.curVc kind)
    (d.waiting kind (d.curVc kind) + 1))
  curVc   : d'.curVc = Function.update d.curVc kind (RoundRobin.turn (d.curVc kind) 1)
  erased  : d'.messagesInRamulator = d.messagesInRamulator.erase r.reqId

theorem ramulatorReqNotification_notified {r : Request} :
    (d.ramulatorReqNotification tick r).Meets (fun d' => ∃ kind, d.Notified r kind d')
      fun e => d.kindOf r = none ∧ e ∈ [.ramulatorCallbackUnknown, .unknownInputMessage] ∨
        ∃ kind, d.kindOf r = some kind ∧ d.waiting kind (d.curVc kind) = cfg.devVcSize / numVc ∧
          e ∈ [.addingToFullBuffer .deviceS2MDrs, .addingToFullBuffer .deviceS2MNdr] := by
  unfold ramulatorReqNotification
  split
  case h_1 hl => exact .inl ⟨by simp [kindOf, hl], by simp⟩
  case h_2 m hl =>
    simp only
    split
    case h_1 ho =>
      have hk : d.kindOf r = some false := by simp [kindOf, hl, ho]
      refine ((d.tx.hdr.enqueue_fills).mono (fun _ => id) fun e he => ?_).bind fun a ⟨hlt, ha⟩ => ?_
      · exact .inr ⟨false, hk, he.right, by simp [he.left]⟩
      · refine ⟨false, hk, hlt, funext fun kind => ?_, funext fun kind => ?_, rfl⟩
        · cases kind
          case false => exact ha
          case true  => rfl
        · cases kind
          case false => exact (turn_one _).symm
          case true  => rfl
    case h_2 ho =>
      have hk : d.kindOf r = some true := by simp [kindOf, hl, ho]
      refine ((d.tx.single.enqueue_fills).mono (fun _ => id) fun e he => ?_).bind fun a ⟨hlt, ha⟩ => ?_
      · exact .inr ⟨true, hk, he.right, by simp [he.left]⟩
      · refine ⟨true, hk, hlt, funext fun kind => ?_, funext fun kind => ?_, rfl⟩
        · cases kind
          case false => rfl
          case true  => exact ha
        · cases kind
          case false => rfl
          case true  => exact (turn_one _).symm
    case h_3 h₁ h₂ =>
      refine .inl ⟨?_, by simp⟩
      simp only [kindOf, hl, Option.bind_some]

namespace Notified

variable {d' : CXLDevice cfg M} {r : Request} {kind : Bool}

theorem kindOf_eq (h : d.Notified r kind d') {r' : Request} :
    d'.kindOf r' = if r'.reqId = r.reqId then none else d.kindOf r' := by
  rw [CXLDevice.kindOf, h.erased]
  by_cases hr : r'.reqId = r.reqId
  case pos => rw [hr, AList.lookup_erase, if_pos rfl, Option.bind_none]
  case neg => rw [AList.lookup_erase_ne hr, if_neg hr, CXLDevice.kindOf]

theorem hasRoom_iff (h : d.Notified r kind d') {c c' : Bool → Nat}
    (hc : c = Function.update c' kind (c' kind + 1)) :
    (∀ k, RoundRobin.HasRoom (cfg.devVcSize / numVc) (d.waiting k) (d.curVc k) (c k)) ↔
      ∀ k, RoundRobin.HasRoom (cfg.devVcSize / numVc) (d'.waiting k) (d'.curVc k) (c' k) := by
  apply forall_congr'
  intro k
  rw [h.waiting, h.curVc, hc]
  by_cases hk : k = kind
  case pos =>
    subst hk
    simp only [Function.update_self, RoundRobin.hasRoom_succ]
    exact and_iff_right h.lt
  case neg => simp only [Function.update_of_ne hk]

end Notified

theorem countP_kindOf_cons {r : Request} {rs : List Request} {kind : Bool}
    (h : d.kindOf r = some kind) (k : Bool) :
    (r :: rs).countP (d.kindOf · = some k) =
      Function.update (fun k => rs.countP (d.kindOf · = some k)) kind
        (rs.countP (d.kindOf · = some kind) + 1) k := by
  by_cases hk : k = kind
  case pos => simp [hk, h]
  case neg => simp [hk, h, Ne.symm hk]

-- The callbacks find room for their responses, or there is not enough of it and they abort, unless they
-- abort for another reason.
theorem notify_hasRoomFor (rs : List Request) (d : CXLDevice cfg M) :
    (rs.foldlM (ramulatorReqNotification tick) d).Meets
      (fun _ => d.HasRoomFor rs ∧ ∀ r ∈ rs, d.kindOf r ≠ none)
      fun e => e ∈ [.ramulatorCallbackUnknown, .unknownInputMessage] ∨ ¬d.HasRoomFor rs ∧
        e ∈ [.addingToFullBuffer .deviceS2MDrs, .addingToFullBuffer .deviceS2MNdr] := by
  induction rs generalizing d
  case nil => exact ⟨fun kind i hi => absurd hi (Nat.not_lt_zero i), nofun⟩
  case cons r rs ih =>
    rw [List.foldlM_cons]
    refine (ramulatorReqNotification_notified.mono (fun _ => id) fun e he => ?_).bind
      fun d' ⟨kind, hd'⟩ => (ih d').mono (fun _ ⟨hroom, hknown⟩ => ?_) fun e he => ?_
    · rcases he with ⟨_, he⟩ | ⟨kind, hk, hfull, he⟩
      case inl => exact .inl he
      case inr =>
        refine .inr ⟨fun hroom => ?_, he⟩
        have := hroom kind
        rw [countP_kindOf_cons hk, Function.update_self] at this
        exact absurd hfull (Nat.ne_of_lt this.head)
    · -- A request that comes twice would be unknown the second time.
      have hne : ∀ r' ∈ rs, r'.reqId ≠ r.reqId := fun r' hr' h => hknown r' hr' (by simp [hd'.kindOf_eq, h])
      have hsame : ∀ r' ∈ rs, d'.kindOf r' = d.kindOf r' := fun r' hr' => by
        rw [hd'.kindOf_eq, if_neg (hne r' hr')]
      refine ⟨(hd'.hasRoom_iff (funext (countP_kindOf_cons hd'.kindOf))).mpr fun k => ?_, ?_⟩
      · have hcount : rs.countP (d'.kindOf · = some k) = rs.countP (d.kindOf · = some k) :=
          List.countP_congr fun r' hr' => by rw [hsame r' hr']
        exact hcount ▸ hroom k
      · intro r' hr'
        rcases List.mem_cons.mp hr' with rfl | hr'
        case inl => simp [hd'.kindOf]
        case inr => exact hsame r' hr' ▸ hknown r' hr'
    · refine he.imp_right fun ⟨hroom, he⟩ => ⟨fun h => hroom fun k => ?_, he⟩
      refine ((hd'.hasRoom_iff (funext (countP_kindOf_cons hd'.kindOf))).mp h k).mono ?_
      apply List.countP_mono_left
      intro r' _ hk
      simp only [hd'.kindOf_eq, decide_eq_true_eq] at hk ⊢
      split at hk
      case isTrue  => cases hk
      case isFalse => exact hk

-- The response channels have room for what the memory completes when it is updated.
def RoomForResponses (d : CXLDevice cfg M) : Prop :=
  d.dram.isActive → d.HasRoomFor d.dram.feed.2.tick.1

theorem hasRoomFor_congr {d' : CXLDevice cfg M} {rs : List Request} (hw : d'.waiting = d.waiting)
    (hc : d'.curVc = d.curVc) (hk : d'.kindOf = d.kindOf) : d'.HasRoomFor rs ↔ d.HasRoomFor rs := by
  simp only [HasRoomFor, hw, hc, hk]

theorem requestAccepted_hasRoomFor (o : Option Request) (rs : List Request) :
    (d.requestAccepted tick o).Meets (fun d' => d'.dram = d.dram ∧ (d'.HasRoomFor rs ↔ d.HasRoomFor rs))
      (· = .reqNotInMessagesInRamulator) := by
  unfold requestAccepted
  split
  case h_1 => exact ⟨rfl, Iff.rfl⟩
  case h_2 r =>
    split
    case h_1 => rfl
    case h_2 m hl =>
      refine ⟨rfl, hasRoomFor_congr rfl rfl (funext fun r' => ?_)⟩
      by_cases hr : r'.reqId = r.reqId
      case pos => rw [kindOf, kindOf, hr, AList.lookup_insert, hl, Option.bind_some, Option.bind_some]
      case neg => simp only [kindOf, AList.lookup_insert_ne hr]

theorem updateDram_room (d : CXLDevice cfg M) (tick : Int) : (d.updateDram tick).Meets (fun _ => d.RoomForResponses)
    fun e => e ∈ [.reqNotInMessagesInRamulator, .ramulatorCallbackUnknown, .unknownInputMessage] ∨
      ¬d.RoomForResponses ∧
        e ∈ [.addingToFullBuffer .deviceS2MDrs, .addingToFullBuffer .deviceS2MNdr] := by
  unfold updateDram
  refine .ite (fun ha => ?_) fun ha h => absurd h ha
  refine ((requestAccepted_hasRoomFor _ d.dram.feed.2.tick.1).mono (fun _ => id) fun e he => ?_).bind
    fun d' ⟨hd, hroom⟩ => ?_
  · exact .inl (by simp [he])
  · have hd' : d'.dram.tick.1 = d.dram.feed.2.tick.1 := by rw [hd]
    rw [hd']
    refine ((notify_hasRoomFor _ d').mono (fun _ => id) fun e he => ?_).bind fun _ h _ => hroom.mp h.left
    rcases he with he | ⟨hn, he⟩
    case inl => exact .inl (List.mem_cons_of_mem _ he)
    case inr => exact .inr ⟨fun h => hn (hroom.mpr (h ha)), he⟩

end CXLDevice

-- A map of reads and writes.
def OnlyRequests (a : AList fun _ : Nat => Message) : Prop :=
  ∀ id m, a.lookup id = some m → m.opCode = .req ∨ m.opCode = .rwd

namespace OnlyRequests

variable {a : AList fun _ : Nat => Message} {k : Nat} {m : Message}

theorem erase (h : OnlyRequests a) : OnlyRequests (a.erase k) := by
  intro id m hl
  by_cases hk : id = k
  case pos => rw [hk, AList.lookup_erase] at hl; cases hl
  case neg => exact h id m (AList.lookup_erase_ne hk ▸ hl)

theorem insert (h : OnlyRequests a) (hm : m.opCode = .req ∨ m.opCode = .rwd) :
    OnlyRequests (a.insert k m) := by
  intro id m' hl
  by_cases hk : id = k
  case pos =>
    rw [hk, AList.lookup_insert] at hl
    exact Option.some.inj hl ▸ hm
  case neg => exact h id m' (AList.lookup_insert_ne hk ▸ hl)

theorem insertNew (h : OnlyRequests a) (hm : m.opCode = .req ∨ m.opCode = .rwd) :
    OnlyRequests (a.insertNew k m) := by
  unfold AList.insertNew
  split
  case isTrue  => exact h
  case isFalse => exact h.insert hm

end OnlyRequests

namespace CXLDevice

variable {n : Nat} {cfg : Config n} {M : Memory} {d : CXLDevice cfg M} {tick : Int}

theorem checkRxVc_onlyRequests (h : OnlyRequests d.messagesInRamulator)
    (vc : CXLBuf cfg.devVcSize Message) : (d.checkRxVc tick vc).Meets
      (fun o => ∀ d', o = some d' → OnlyRequests d'.messagesInRamulator) fun _ => True := by
  unfold checkRxVc
  split
  case h_1 => exact Except.meets_pure.mpr fun _ hd => nomatch hd
  case h_2 m _ _ =>
    refine .ite (fun _ => Except.meets_pure.mpr fun _ hd => nomatch hd) fun _ => ?_
    refine ((message2RamulatorReq_meets (m := m)).mono (fun _ => id) fun _ _ => trivial).bind
      fun r hr => (Except.Meets.any _).bind fun b _ => ?_
    have hd : OnlyRequests (d.messagesInRamulator.insertNew m.msgId m) := h.insertNew hr.right.right
    split
    case h_1 => exact Except.meets_pure.mpr fun _ he => Option.some.inj he ▸ hd
    case h_2 => exact Except.meets_pure.mpr fun _ he => Option.some.inj he ▸ hd
    case h_3 => trivial

theorem sendToRamulator_onlyRequests (h : OnlyRequests d.messagesInRamulator) :
    (d.sendToRamulator tick).Meets (fun d' => OnlyRequests d'.messagesInRamulator) fun _ => True := by
  have hreq (next : RoundRobinState) : (d.checkM2SReq tick next).Meets
      (fun o => ∀ d', o = some d' → OnlyRequests d'.messagesInRamulator) fun _ => True := by
    refine (checkRxVc_onlyRequests h _).bind fun o ho => ?_
    cases o
    case none   => exact Except.meets_pure.mpr fun _ he => nomatch he
    case some d => exact Except.meets_pure.mpr fun _ he => Option.some.inj he ▸ ho d rfl
  have hrwd (next : RoundRobinState) : (d.checkM2SRwd tick next).Meets
      (fun o => ∀ d', o = some d' → OnlyRequests d'.messagesInRamulator) fun _ => True := by
    refine (checkRxVc_onlyRequests h _).bind fun o ho => ?_
    cases o
    case none   => exact Except.meets_pure.mpr fun _ he => nomatch he
    case some d => exact Except.meets_pure.mpr fun _ he => Option.some.inj he ▸ ho d rfl
  refine (Except.Meets.any _).bind fun _ _ => ?_
  split
  case h_1 => exact firstOf_getD_meets (hrwd _) (hreq _) h
  case h_2 => exact firstOf_getD_meets (hreq _) (hrwd _) h
  case h_3 => exact firstOf_getD_meets (hreq _) (hrwd _) h
  case h_4 => trivial

theorem ramulatorReqNotification_onlyRequests {r : Request} (h : OnlyRequests d.messagesInRamulator) :
    (d.ramulatorReqNotification tick r).Meets (fun d' => OnlyRequests d'.messagesInRamulator)
      (· ≠ .unknownInputMessage) := by
  unfold ramulatorReqNotification
  split
  case h_1 => exact Except.meets_error.mpr (by simp)
  case h_2 m hl =>
    simp only
    split
    case h_1 =>
      refine (VcArray.enqueue_fills _).mono (fun _ => id) (fun e he => ?_) |>.bind fun _ _ => h.erase
      simp [he.left]
    case h_2 =>
      refine (VcArray.enqueue_fills _).mono (fun _ => id) (fun e he => ?_) |>.bind fun _ _ => h.erase
      simp [he.left]
    case h_3 h₁ h₂ => exact absurd (h _ m hl) (not_or_intro h₁ h₂)

theorem updateDram_onlyRequests (h : OnlyRequests d.messagesInRamulator) :
    (d.updateDram tick).Meets (fun d' => OnlyRequests d'.messagesInRamulator)
      (· ≠ .unknownInputMessage) := by
  refine .ite (fun _ => ?_) fun _ => h
  refine Except.Meets.bind (P := fun d' => OnlyRequests d'.messagesInRamulator) ?_ fun d' hd' => ?_
  · unfold requestAccepted
    split
    case h_1 => exact h
    case h_2 =>
      split
      case h_1      => exact fun he => nomatch he
      case h_2 m hl => exact h.insert (h _ m hl)
  · refine (Except.Meets.foldlM (fun _ _ _ hd => ramulatorReqNotification_onlyRequests hd) hd').bind
      fun _ hd => hd

end CXLDevice

namespace CXLSystem

variable {n : Nat} {cfg : Config n} {M : Memory} {s : CXLSystem cfg M} {trace : List Char}

theorem forall_setDevice {P : CXLDevice cfg M → Prop} {i : Fin n} {d : CXLDevice cfg M}
    (h : ∀ j, P (s.devices j)) (hd : P d) : ∀ j, P ((s.setDevice i d).devices j) := by
  intro j
  by_cases hj : j = i
  case pos => simpa [setDevice, hj] using hd
  case neg => simpa [setDevice, hj] using h j

def OnlyRequests (s : CXLSystem cfg M) : Prop :=
  ∀ i, CXL.OnlyRequests (s.devices i).messagesInRamulator

theorem OnlyRequests.setDevice {i : Fin n} {d : CXLDevice cfg M} (h : s.OnlyRequests)
    (hd : CXL.OnlyRequests d.messagesInRamulator) : (s.setDevice i d).OnlyRequests :=
  forall_setDevice (P := fun d => CXL.OnlyRequests d.messagesInRamulator) h hd

theorem updateDam_devices (s : CXLSystem cfg M) : s.updateDam.devices = s.devices := by
  unfold updateDam
  split <;> rfl

theorem issueHead_devices (s : CXLSystem cfg M) :
    s.issueHead.Meets (fun r => r.2.devices = s.devices) fun _ => True := by
  unfold issueHead
  split
  case h_1 => rfl
  case h_2 =>
    refine .ite (fun _ => .ite (fun _ => .ite (fun _ => rfl) fun _ => ?_) fun _ => ?_) fun _ => rfl
    · exact (Except.Meets.any _).bind fun _ _ => (Except.Meets.any _).bind fun _ _ => rfl
    · refine (Except.Meets.any _).bind fun o _ => ?_
      cases o <;> rfl

theorem perform_onlyRequests (h : s.OnlyRequests) (a : Action n) :
    (s.perform a).Meets OnlyRequests fun _ => True := by
  cases a
  case busToDevice i     => exact (Except.Meets.any _).bind fun _ _ => h.setDevice (h i)
  case packDevice i      =>
    refine Except.Meets.bind (P := fun d => CXL.OnlyRequests d.messagesInRamulator) ?_
      fun d hd => h.setDevice hd
    exact (Except.Meets.any _).bind fun _ _ => h i
  case unpackDevice i    =>
    refine Except.Meets.bind (P := fun d => CXL.OnlyRequests d.messagesInRamulator) ?_
      fun d hd => h.setDevice hd
    refine (Except.Meets.any _).bind fun _ _ => ?_
    split
    case h_1 => exact h i
    case h_2 =>
      refine .ite (fun _ => h i) fun _ => (Except.Meets.any _).bind fun _ _ => ?_
      exact (Except.Meets.any _).bind fun _ _ => (Except.Meets.any _).bind fun _ _ => h i
  case sendToRamulator i =>
    exact (CXLDevice.sendToRamulator_onlyRequests (h i)).bind fun d hd => h.setDevice hd
  case transmitDevice i  =>
    refine Except.Meets.bind (P := fun r => CXL.OnlyRequests r.1.messagesInRamulator) ?_
      fun d hd => h.setDevice hd
    exact (Except.Meets.any _).bind fun _ _ => h i
  case updateDram i      =>
    exact ((CXLDevice.updateDram_onlyRequests (h i)).mono (fun _ => id) fun _ _ => trivial).bind
      fun d hd => h.setDevice hd
  case updateDam         => exact Except.meets_ok.mpr fun i => s.updateDam_devices ▸ h i
  case setSkipCycle      => exact h
  case finishTrace       => exact h
  case setTick           => exact h
  case issueHead         =>
    exact s.issueHead_devices.bind fun r hr => Except.meets_pure.mpr fun i => hr ▸ h i
  all_goals exact (Except.Meets.any _).bind fun _ _ => h

theorem Reaches.onlyRequests (h : Reaches trace s) : s.OnlyRequests := by
  have ⟨as, has⟩ := h
  have hm : (as.foldlM perform (init trace : CXLSystem cfg M)).Meets OnlyRequests fun _ => True :=
    .foldlM (fun _ a _ h => perform_onlyRequests h a) fun _ _ _ hl => by cases hl
  exact hm.of_ok has

theorem perform_full_iff (h : Reaches trace s) {a : Action n} :
    (s.perform a = .error (.addingToFullBuffer .deviceS2MDrs) ∨
      s.perform a = .error (.addingToFullBuffer .deviceS2MNdr)) ↔
    ∃ i, a = .updateDram i ∧ ¬(s.devices i).RoomForResponses := by
  have hperform {i : Fin n} {e : Failure} : s.perform (.updateDram i) = .error e ↔
      (s.devices i).updateDram s.currTick = .error e := by
    simp [perform, Except.bind_eq_error]
  have hroom (i : Fin n) := (s.devices i).updateDram_room s.currTick
  constructor
  case mp =>
    intro he
    have hmem : .addingToFullBuffer .deviceS2MDrs ∈ a.failures ∨
        .addingToFullBuffer .deviceS2MNdr ∈ a.failures :=
      he.imp s.mem_failures_of_perform s.mem_failures_of_perform
    cases a
    case updateDram i =>
      refine ⟨i, rfl, ?_⟩
      rcases he with he | he
      · simpa using (hroom i).of_error (hperform.mp he)
      · simpa using (hroom i).of_error (hperform.mp he)
    all_goals simp [Action.failures] at hmem
  case mpr =>
    rintro ⟨i, rfl, hn⟩
    cases hd : (s.devices i).updateDram s.currTick
    case ok d    => exact absurd ((hroom i).of_ok hd) hn
    case error e =>
      have he := hperform.mpr hd
      obtain ⟨_, hx, hf⟩ := (perform_tracks h.tracks).of_error he
      have hknown := hx.known hf
      have hreq := (CXLDevice.updateDram_onlyRequests (h.onlyRequests i)).of_error hd
      have := (hroom i).of_error hd
      rw [he]
      grind

theorem CalledIn.reaches {as : List (Action n)} {a : Action n} (h : CalledIn trace as a s) :
    Reaches trace s :=
  have ⟨as₁, _, _, hs⟩ := h
  ⟨as₁, hs⟩

-- However a run is made of calls, a response finds its channel full if and only if a memory is updated
-- that completes more requests than the channels of its device have room for.
theorem run_responses_full_iff (b : Build) (trace : List Char) (k : Nat) :
    (∃ as, Calls b trace k cfg M as) ∧ ∀ as, Calls b trace k cfg M as →
      ((init trace : CXLSystem cfg M).run b k = .error (.addingToFullBuffer .deviceS2MDrs) ∨
          (init trace : CXLSystem cfg M).run b k = .error (.addingToFullBuffer .deviceS2MNdr) ↔
        ∃ i, ∃ s : CXLSystem cfg M,
          CalledIn trace as (.updateDram i) s ∧ ¬(s.devices i).RoomForResponses) := by
  refine ⟨run_isRun b k (init trace), fun as has => ?_⟩
  rw [has.error_iff, has.error_iff]
  constructor
  case mp =>
    rintro (⟨a, s, hs, he⟩ | ⟨a, s, hs, he⟩)
    · have ⟨i, ha, hi⟩ := (perform_full_iff hs.reaches).mp (.inl he)
      exact ⟨i, s, ha ▸ hs, hi⟩
    · have ⟨i, ha, hi⟩ := (perform_full_iff hs.reaches).mp (.inr he)
      exact ⟨i, s, ha ▸ hs, hi⟩
  case mpr =>
    rintro ⟨i, s, hs, hi⟩
    rcases (perform_full_iff hs.reaches).mpr ⟨i, rfl, hi⟩ with he | he
    · exact .inl ⟨_, s, hs, he⟩
    · exact .inr ⟨_, s, hs, he⟩

end CXLSystem

-- A memory that completes writes at once and reads when it has five of them.
def Memory.fiveReads : Memory where
  State                    := List Request
  init                     := []
  send s r                 := (true, s ++ [r])
  tick s                   :=
    if 5 ≤ s.countP (·.type = .read) then (s, [])
    else (s.filter (·.type = .write), s.filter (¬·.type = .write))
  pendingRequests s        := !s.isEmpty
  setHighWriteqWatermark s := s
  outstanding s            := s
  outstanding_init         := Memory.fifo.outstanding_init
  outstanding_send         := Memory.fifo.outstanding_send
  outstanding_tick s       := by
    split
    case isTrue  => exact (add_zero _).symm
    case isFalse =>
      simp only [decide_not, Multiset.coe_add]
      exact Multiset.coe_eq_coe.mpr (List.filter_append_perm _ s).symm
  outstanding_watermark    := Memory.fifo.outstanding_watermark

instance : DecidableEq Memory.fiveReads.State :=
  inferInstanceAs (DecidableEq (List Request))

-- The delays of src/Main.cpp, and four places in each channel of the device.
def Config.fourPlaces : Config 1 where
  devVcSize          := 4
  addressIntervals _ := (0, 64)
  damInterval        := (64, 128)
  devVcSize_pos      := Nat.zero_lt_succ 3

namespace CXLSystem

-- The response to the write brings back the credits of the device, and the credit of the first read,
-- which is still in the memory, is among them. Then four more reads are sent.
def fiveReads : List Char :=
  "0x0 R 1\n0x0 W 0\n0x0 R 190\n0x0 R 0\n0x0 R 0\n0x0 R 0\n".toList

-- The ticks of the run in which something is due, each time with the number of those that follow and
-- in which nothing is.
def fiveReadsTicks : List (Nat × Nat) :=
  [(7, 13), (16, 96), (2, 10), (2, 136), (2, 10), (2, 116), (2, 10), (2, 86), (2, 10), (2, 116), (2, 10),
    (3, 135), (2, 10), (2, 96), (2, 10), (2, 6), (40, 108), (2, 148), (3, 127), (2, 98), (2, 128),
    (3, 147), (2, 108), (2, 18), (2, 39), (5, 15), (25, 96), (2, 10), (2, 136), (2, 10), (2, 116),
    (2, 10), (2, 86), (2, 10), (2, 116), (2, 10), (3, 135), (2, 10), (2, 96), (2, 10), (2, 6), (22, 0)]

theorem run_fiveReads_full :
    (init fiveReads : CXLSystem Config.fourPlaces Memory.fiveReads).run { skipCycle := true } 2854 =
      .error (.addingToFullBuffer .deviceS2MDrs) := by
  have h : ((init fiveReads : CXLSystem Config.fourPlaces Memory.fiveReads).runBy
      { skipCycle := true } fiveReadsTicks).map Except.failure? =
        some (some (.addingToFullBuffer .deviceS2MDrs)) := by decide +kernel
  have ⟨r, hr, hf⟩ := Option.map_eq_some_iff.mp h
  rw [Except.failure?_eq_some] at hf
  rw [← hf]
  exact run_of_runBy (by decide) rfl (by decide) hr

-- A write finds room for its response.
theorem run_responses_full_iff_write :
    ∃ as, Calls {} "0x0 W 1\n".toList 40 Config.slowHandOff Memory.fifo as ∧
      ¬∃ i, ∃ s : CXLSystem Config.slowHandOff Memory.fifo,
        CalledIn "0x0 W 1\n".toList as (.updateDram i) s ∧ ¬(s.devices i).RoomForResponses := by
  have ⟨⟨as, has⟩, h⟩ := @run_responses_full_iff _ Config.slowHandOff Memory.fifo {}
    "0x0 W 1\n".toList 40
  have hrun : ((init "0x0 W 1\n".toList : CXLSystem Config.slowHandOff Memory.fifo).run {}
      40).failure? = none := by decide +kernel
  refine ⟨as, has, fun hs => ?_⟩
  rcases (h as has).mpr hs with he | he
  · rw [he] at hrun
    cases hrun
  · rw [he] at hrun
    cases hrun

end CXLSystem

end CXL
