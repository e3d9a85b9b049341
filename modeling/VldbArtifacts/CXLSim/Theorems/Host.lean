import VldbArtifacts.CXLSim.Theorems.Device

-- The host does what the abstract host does.

namespace CXL

open Framing

variable {n : Nat} {cfg : Config n} {M : Memory} {tick : Int}

theorem hostPackerRules_lawful (cfg : Config n) : (hostPackerRules cfg).Lawful where
  ready_offered := by
    intro tick s s' m m' ho hr
    simp only [hostPackerRules, HostFlow.consider] at ho hr ⊢
    by_cases hd : s.deviceUnderConsideration = noDevice
    case neg =>
      rw [if_neg hd] at ho
      cases ho
      exact hr
    case pos =>
      rw [if_pos hd, Except.bind_eq_ok] at ho
      obtain ⟨dest, _, ⟨⟩⟩ := ho
      simp only [HostFlow.ready, hd, true_or, ↓reduceIte] at hr ⊢
      split at hr
      case isFalse ht => rw [if_neg ht]
      case isTrue ht =>
        rw [if_pos ht]
        cases hm : cfg.destinationDevice m'.address
        case error e => simp [hm] at hr
        case ok dest' =>
          simp only [hm, Except.ok_bind] at hr ⊢
          split
          case isTrue  => exact hr
          case isFalse => rfl

theorem destinationDevice_meets {address : Nat} : (cfg.destinationDevice address).Meets (fun _ => True)
    (fun e => e = .invalidAddress) := by
  unfold Config.destinationDevice
  split
  case _ => exact trivial
  case _ => exact rfl

-- The packer of the host fails on a bad address or on its credits.
theorem hostPackerRules_fails {x : Sender (HostFlow n)} {e : Failure}
    (h : Sender.Fails (hostPackerRules cfg) tick x e) :
    e = .invalidAddress ∨ x.flow.creditSanityCheck cfg = .error e := by
  have haddr {α : Type} {m : Message} {f : Fin n → Sim α} (hf : ∀ d e, f d ≠ .error e)
      (h : cfg.destinationDevice m.address >>= f = .error e) : e = .invalidAddress := by
    rcases Except.bind_eq_error.mp h with h | ⟨d, _, h⟩
    case inl => exact destinationDevice_meets.of_error h
    case inr => exact absurd h (hf d e)
  cases h
  case ready m _ h =>
    simp only [hostPackerRules, HostFlow.ready] at h
    split at h
    case isFalse => cases h
    case isTrue  =>
      refine .inl (haddr (fun d e => ?_) h)
      split
      case isTrue  => cases m.opCode <;> nofun
      case isFalse => nofun
  case offered m _ _ h =>
    simp only [hostPackerRules, HostFlow.consider] at h
    split at h
    case isTrue  => exact .inl (haddr (fun _ _ h => by cases h) h)
    case isFalse => cases h
  case spendSingle h => exact .inl (haddr (fun _ _ h => by cases h) h)
  case spendHdr h    => exact .inl (haddr (fun _ _ h => by cases h) h)
  case getCredits h  =>
    rcases Except.bind_eq_error.mp h with h | ⟨_, _, h⟩
    case inl => exact .inr h
    case inr => cases h
  case sent h => cases h

theorem HostFlow.creditSanityCheck_meets {s : HostFlow n} : (s.creditSanityCheck cfg).Meets
    (fun _ => True)
    (fun e => e ∈ [.reqCredNotZero, .rspCredOutOfRange, .dataCredOutOfRange]) := by
  unfold HostFlow.creditSanityCheck
  refine (assert_meets fun _ => by simp).bind fun _ _ => ?_
  refine (assert_meets fun _ => by simp).bind fun _ _ => ?_
  exact (assert_meets fun _ => by simp).imp fun _ _ => trivial

theorem HostNode.steps_pack {x : HostNode n} {y : Sender (HostFlow n)}
    (h : Sender.Steps (hostPackerRules cfg) tick x.tx y) :
    ∃ fs, y.sent = x.tx.sent ++ fs ∧ Steps cfg x { x with tx := y, out := x.out ++ fs } := by
  induction h
  case refl => exact ⟨[], by simp, by simpa using .refl⟩
  case tail y z _ hs ih =>
    have ⟨fs, hf, hx⟩ := ih
    have ⟨gs, hg⟩ := hs.sent_append
    refine ⟨fs ++ gs, by simp [hg, hf], hx.tail ?_⟩
    have := HostNode.Step.pack (x := { x with tx := y, out := x.out ++ fs }) hs hg
    simpa using this

theorem stoul_meets {s : List Char} : (stoul s).Meets (fun _ => True) Failure.IsOther := by
  unfold stoul
  split
  split
  exact .ite (fun _ => trivial) fun _ => trivial

theorem parseLine_meets {s : List Char} :
    (parseLine s).Meets (fun p => p.1 = .req ∨ p.1 = .rwd) Failure.IsOther := by
  unfold parseLine
  split
  case _ =>
    refine stoul_meets.bind fun _ _ => ?_
    refine .ite (fun _ => stoul_meets.bind fun _ _ => .inl rfl) fun _ => ?_
    exact .ite (fun _ => stoul_meets.bind fun _ _ => .inr rfl) fun _ => trivial
  case _ => exact trivial

namespace CXLHost

variable {h h' : CXLHost cfg} {inp out : List Flit} {dam : Dram M} {x : HostNode n}

theorem Implements.exists_frame (hi : h.Implements inp out dam x) :
    ∃ fr, x = h.node inp out dam fr ∧ h.tx.Shape (hostPackerRules cfg) fr :=
  ⟨x.tx.frame, hi.view, hi.shape⟩

theorem Numbered.congr (hn : h.Numbered) (hb : h'.textToTraceBuf = h.textToTraceBuf)
    (hc : h'.msgCount = h.msgCount) (hi : h'.issued = h.issued) : h'.Numbered := by
  refine ⟨?_, ?_, ?_⟩
  all_goals rw [hb, hc]
  case _ => exact hn.ids
  case _ => exact hn.le
  case _ => rw [hi]; exact hn.issued

-- The host takes steps of the abstract one.
def Goes (x : HostNode n) (inp out : List Flit) (dam : Dram M) (h' : CXLHost cfg) : Prop :=
  ∃ x', HostNode.Steps cfg x x' ∧ h'.Implements inp out dam x'

-- The abstract host takes steps to a failure.
def Stops (cfg : Config n) (x : HostNode n) (e : Failure) : Prop :=
  ∃ x', HostNode.Steps cfg x x' ∧ x'.Fails cfg e

theorem Stops.other {e : Failure} (h : e.IsOther) : Stops cfg x e :=
  ⟨x, .refl, .other h⟩

theorem Goes.refl (hi : h.Implements inp out dam x) : Goes x inp out dam h :=
  ⟨x, .refl, hi⟩

theorem flitPacker_meets (hi : h.Implements inp out dam x) :
    (h.flitPacker tick).Meets (Goes x inp out dam) (Stops cfg x) := by
  have ⟨fr, hx, hs⟩ := hi.exists_frame
  subst hx
  refine ((TxPort.flitPacker_meets (hostPackerRules_lawful cfg) hs).mono (fun _ => id)
    fun e he => ?_).bind fun p hp => ?_
  case _ =>
    have ⟨y, hy, hf⟩ := he
    have ⟨fs, _, hx⟩ := HostNode.steps_pack (x := h.node inp out dam fr) hy
    exact ⟨_, hx, .pack hf⟩
  case _ =>
    have ⟨fr', hr⟩ := hp
    have ⟨fs, hf, hx⟩ := HostNode.steps_pack (x := h.node inp out dam fr) hr.steps
    have ⟨gs, hq, hg⟩ := hr.sent
    have hfg : fs = gs.map Flit.core := by
      have : (p.sender fr').sent = (h.tx.sender fr).sent ++ gs.map Flit.core := by
        simp [TxPort.sender, hg]
      exact List.append_cancel_left (hf.symm.trans this)
    refine ⟨_, hx, hr.shape, hi.sent, hi.live, hi.numbered.congr rfl rfl rfl, ?_⟩
    simp [node, hq, hfg]

theorem slotsDevice_core (slots : List Slot) (k : Nat) :
    slotsDevice cfg (slots.map Slot.core) k = slotsDevice cfg slots k := by
  induction slots generalizing k
  case nil => rfl
  case cons s ss ih =>
    simp only [List.map_cons, slotsDevice, ih]
    rfl

theorem slotsDevice_meets {slots : List Slot} {k : Nat} : (slotsDevice cfg slots k).Meets
    (fun _ => True) (fun e => e = .invalidAddress ∨ e = .singleFlitDifferentDevices) := by
  induction slots generalizing k
  case nil => exact trivial
  case cons s ss ih =>
    unfold slotsDevice
    refine .ite (fun _ => ih) fun _ => ?_
    refine (destinationDevice_meets.mono (fun _ => id) fun _ => .inl).bind fun d _ => ?_
    refine .ite (fun _ => ih) fun _ => ?_
    exact (assert_meets fun _ => .inr rfl).bind fun _ _ => ih

theorem Implements.addExtCredits (hi : h.Implements inp out dam x) (k : Nat) (c : Credits) :
    (h.addExtCredits k c).Implements inp out dam
      { x with tx := { x.tx with flow := x.tx.flow.grant k c } } := by
  have ⟨fr, hx, hs⟩ := hi.exists_frame
  subst hx
  unfold CXLHost.addExtCredits HostFlow.grant
  split
  case isTrue  =>
    exact ⟨hs.congr rfl rfl rfl rfl rfl, hi.sent, hi.live, hi.numbered.congr rfl rfl rfl, rfl⟩
  case isFalse => exact ⟨hs, hi.sent, hi.live, hi.numbered.congr rfl rfl rfl, rfl⟩

theorem flitUnpacker_meets (hi : h.Implements inp out dam x) :
    (h.flitUnpacker tick).Meets (Goes x inp out dam) (Stops cfg x) := by
  unfold flitUnpacker
  refine (assert_meets fun _ => .other trivial).bind fun _ _ => ?_
  split
  case _ => exact .refl hi
  case _ f fs hq =>
    refine .ite (fun _ => .refl hi) fun _ => ?_
    have ⟨fr, hx, hs⟩ := hi.exists_frame
    subst hx
    have hinp : (h.node inp out dam fr).inp = f.core :: (fs ++ inp).map Flit.core := by
      simp [node, hq]
    have hrej {e} (he : h.rx.receiver.Rejects .s2m cfg.hostRespSize hostUnpackerRules f.core e) :
        Stops cfg (h.node inp out dam fr) e := ⟨_, .refl, .unpack hinp he⟩
    refine ((Except.meets_self _).mono (fun _ => id) fun e he => ?_).bind fun k hk => ?_
    case _ => exact ⟨_, .refl, .mixedFlit hinp ((slotsDevice_core f.slots _).trans he)⟩
    refine (RxPort.checkRollover_meets.mono (fun _ => id) fun _ => hrej).bind fun _ _ => ?_
    refine (assert_meets fun hn => hrej <| .rule (by simp) fun hf => hn ?_).bind fun _ _ => ?_
    case _ =>
      have hc : f.slots.map (slotCell .s2m) = Deframer.back 0 (f.core.cells .s2m) := by
        rw [Flit.core_cells, Deframer.back]
        rfl
      have hp := packingRule_frame hf hc
      exact ⟨hp.1, hp.2.2, hp.2.1⟩
    refine (RxPort.unpackFlit_meets.mono (fun _ => id) fun _ h => hrej h.rejects).bind fun r hr => ?_
    have ht := hr.1
    have hstep : HostNode.Step cfg (h.node inp out dam fr) _ :=
      .unpack hinp ((slotsDevice_core f.slots _).trans hk) ht.reads
    refine ⟨_, .single hstep, ?_⟩
    have hrx : CXLHost.Implements { h with rx := { r.1 with rxBuffer := r.1.rxBuffer.dequeue } }
        inp out dam
        { h.node inp out dam fr with inp := (fs ++ inp).map Flit.core, rx := r.1.receiver } := by
      refine ⟨hs, hi.sent, hi.live, hi.numbered.congr rfl rfl rfl, ?_⟩
      simp only [node, ht.rxBuffer, CXLBuf.dequeue, hq, List.tail_cons, TxPort.sender_frame]
      rfl
    exact hrx.addExtCredits k _

-- The request of the response at the head of a channel is retired.
structure Retires (h : CXLHost cfg) (m : Message) (h' : CXLHost cfg) : Prop where
  opCode : m.opCode = .drs ∨ m.opCode = .ndr
  mem    : m.msgId ∈ h.messagesSentToDevice
  rest   : h' = { h with
             amatPerTableCxl      := h'.amatPerTableCxl
             messagesSentToDevice := h.messagesSentToDevice.erase m.msgId
             numReqsCompleted     := h.numReqsCompleted + 1
             completed            := h.completed ++ [m.msgId]
             tx                   := { h.tx with flow := h.tx.flow.retire m.opCode } }

theorem checkRxVc_meets {vc : CXLBuf cfg.hostRespSize Message} : (h.checkRxVc tick vc).Meets
    (fun o => ∀ h' ∈ o, ∃ m rest, vc.q = m :: rest ∧ h.Retires m h')
    (fun e => e.IsOther ∨ e = .responseUnknownRequest ∧
      ∃ m ∈ vc.q, m.msgId ∉ h.messagesSentToDevice) := by
  unfold checkRxVc
  split
  case _ => exact Except.meets_pure.mpr (by simp)
  case _ m rest hq =>
    refine .ite (fun _ => Except.meets_pure.mpr (by simp)) fun _ => ?_
    refine (assert_meets fun hn => ?_).bind fun _ hm => ?_
    case _ => exact .inr ⟨rfl, m, by simp [hq], hn⟩
    dsimp only
    split
    case _ ho =>
      refine Except.meets_pure.mpr fun _ he => ?_
      cases he
      exact ⟨m, rest, hq, .inl ho, hm, by simp [HostFlow.retire, ho, recordAmatCxl]⟩
    case _ ho =>
      refine Except.meets_pure.mpr fun _ he => ?_
      cases he
      exact ⟨m, rest, hq, .inr ho, hm, by simp [HostFlow.retire, ho, recordAmatCxl]⟩
    case _ => exact .inl trivial

theorem checkRxVc_stops {vc : CXLBuf cfg.hostRespSize Message} {e : Failure}
    (hi : h.Implements inp out dam x)
    (hv : ∀ m ∈ vc.q, m.core ∈ x.rx.single ++ x.rx.hdr)
    (he : e.IsOther ∨ e = .responseUnknownRequest ∧
      ∃ m ∈ vc.q, m.msgId ∉ h.messagesSentToDevice) : Stops cfg x e := by
  rcases he with he | ⟨rfl, m, hm, hn⟩
  case inl => exact .other he
  case inr =>
    refine ⟨x, .refl, .unknownResponse (hv m hm) fun hc => hn ?_⟩
    rw [hi.view] at hc
    exact (mem_map_msgId_mapTags hi.sent).mp hc

theorem exists_tag {m : Message} (hi : h.Implements inp out dam x)
    (hm : m.msgId ∈ h.messagesSentToDevice) : ∃ t ∈ x.sent, t.msgId = m.msgId ∧
      x.sent.erase t = mapTags (h.messagesSentToDevice.erase m.msgId) := by
  have ⟨v, hv⟩ := Option.isSome_iff_exists.mp (AList.lookup_isSome.mpr hm)
  have hx : x.sent = mapTags h.messagesSentToDevice := congrArg HostNode.sent hi.view
  rw [hx, tags_erase hv]
  exact ⟨v.tag, by simp, msgId_of_lookup hi.sent hv, by simp⟩

theorem checkS2MNdr_meets {next : RoundRobinState} (hi : h.Implements inp out dam x) :
    (h.checkS2MNdr tick next).Meets (fun o => ∀ h' ∈ o, Goes x inp out dam h') (Stops cfg x) := by
  have ⟨fr, hx, hs⟩ := hi.exists_frame
  subst hx
  refine (checkRxVc_meets.mono (fun _ => id) fun e => checkRxVc_stops hi fun m hm => ?_).bind
    fun o ho => ?_
  case _ => exact List.mem_append_left _ (List.mem_map_of_mem hm)
  match o with
  | none    => exact Except.meets_pure.mpr (by simp)
  | some h' =>
    refine Except.meets_pure.mpr fun _ he => ?_
    cases he
    obtain ⟨m, rest, hq, hop, hm, hrest⟩ := ho h' rfl
    have ⟨t, ht, hid, herase⟩ := exists_tag hi hm
    generalize h'.amatPerTableCxl = amat at hrest
    subst hrest
    have hq' : (h.node inp out dam fr).rx.single = m.core :: rest.map Message.core := by
      simp [node, RxPort.receiver, hq]
    refine ⟨_, .single (.retireWrite hq' ht hid hop), hs.congr rfl rfl rfl rfl rfl,
      keysMatch_erase hi.sent, hi.live, hi.numbered.congr rfl rfl rfl, ?_⟩
    rw [herase]
    simp only [node, CXLBuf.dequeue, RxPort.receiver, hq, List.tail_cons]
    rfl

theorem checkS2MDrs_meets {next : RoundRobinState} (hi : h.Implements inp out dam x) :
    (h.checkS2MDrs tick next).Meets (fun o => ∀ h' ∈ o, Goes x inp out dam h') (Stops cfg x) := by
  have ⟨fr, hx, hs⟩ := hi.exists_frame
  subst hx
  refine (checkRxVc_meets.mono (fun _ => id) fun e => checkRxVc_stops hi fun m hm => ?_).bind
    fun o ho => ?_
  case _ => exact List.mem_append_right _ (List.mem_map_of_mem hm)
  match o with
  | none    => exact Except.meets_pure.mpr (by simp)
  | some h' =>
    refine Except.meets_pure.mpr fun _ he => ?_
    cases he
    obtain ⟨m, rest, hq, hop, hm, hrest⟩ := ho h' rfl
    have ⟨t, ht, hid, herase⟩ := exists_tag hi hm
    generalize h'.amatPerTableCxl = amat at hrest
    subst hrest
    have hq' : (h.node inp out dam fr).rx.hdr = m.core :: rest.map Message.core := by
      simp [node, RxPort.receiver, hq]
    refine ⟨_, .single (.retireRead hq' ht hid hop), hs.congr rfl rfl rfl rfl rfl,
      keysMatch_erase hi.sent, hi.live, hi.numbered.congr rfl rfl rfl, ?_⟩
    rw [herase]
    simp only [node, CXLBuf.dequeue, RxPort.receiver, hq, List.tail_cons]
    rfl

theorem checkIfReqCompleted_meets (hi : h.Implements inp out dam x) :
    (h.checkIfReqCompleted tick).Meets (Goes x inp out dam) (Stops cfg x) := by
  unfold checkIfReqCompleted
  refine .ite (fun _ => Except.meets_pure.mpr (.refl hi)) fun _ => ?_
  split
  case _ => exact firstOf_getD_meets (checkS2MNdr_meets hi) (checkS2MDrs_meets hi) (.refl hi)
  case _ => exact firstOf_getD_meets (checkS2MDrs_meets hi) (checkS2MNdr_meets hi) (.refl hi)
  case _ => exact firstOf_getD_meets (checkS2MDrs_meets hi) (checkS2MNdr_meets hi) (.refl hi)
  case _ => exact .other trivial

theorem Numbered.read (hn : h.Numbered) {b : CXLBuf cfg.textToTraceSize (Nat × Message)}
    {rest : List Char} {y : Nat × Message} (hb : b.q = h.textToTraceBuf.q ++ [y])
    (hy : y.2.msgId = h.msgCount) :
    CXLHost.Numbered { h with textToTraceBuf := b, traceIn := rest, msgCount := h.msgCount + 1 } where
  ids := by
    have := hn.le
    simp only [hb, List.map_append, List.map_cons, List.map_nil, List.length_append,
      List.length_singleton, hn.ids, hy, List.range'_concat, Nat.add_sub_add_right]
    simp
    omega
  le  := by
    have := hn.le
    simp only [hb, List.length_append, List.length_singleton]
    omega
  issued := by simpa [hb] using hn.issued

theorem readTrace_meets (hi : h.Implements inp out dam x) :
    h.readTrace.Meets (fun r => r.2.Implements inp out dam x) Failure.IsOther := by
  unfold readTrace
  refine .ite (fun _ => Except.meets_pure.mpr hi) fun _ => ?_
  split
  case _ => exact Except.meets_pure.mpr hi
  case _ ln rest _ =>
    refine parseLine_meets.bind fun p _ => ?_
    refine (CXLBuf.enqueue_meets.mono (fun _ => id) fun e he => ?_).bind fun b hb => ?_
    case _ => rw [he.left]; simp [Failure.IsOther]
    refine Except.meets_pure.mpr ⟨hi.shape, hi.sent, hi.live, hi.numbered.read hb rfl, ?_⟩
    have := hi.numbered.le
    rw [hi.view]
    simp [node, hb]

section Issue

variable {interval : Nat} {m : Message} {rest : List (Nat × Message)}

theorem Numbered.head (hn : h.Numbered) (hq : h.textToTraceBuf.q = (interval, m) :: rest) :
    m.msgId = h.msgCount - h.textToTraceBuf.q.length := by
  have := hn.ids
  rw [hq, List.length_cons, List.range'_succ] at this
  simp only [hq, List.length_cons]
  exact (List.cons.inj this).left

-- The number of the next line to be issued, after one has been.
theorem Numbered.next (hn : h.Numbered) (hq : h.textToTraceBuf.q = (interval, m) :: rest) :
    h.msgCount - h.textToTraceBuf.dequeue.q.length = h.msgCount - h.textToTraceBuf.q.length + 1 := by
  have := hn.le
  simp only [CXLBuf.dequeue, hq, List.tail_cons, List.length_cons] at this ⊢
  omega

theorem Numbered.dequeue (hn : h.Numbered) (hq : h.textToTraceBuf.q = (interval, m) :: rest)
    (t : Int) :
    CXLHost.Numbered { h with
      textToTraceBuf := h.textToTraceBuf.dequeue
      issued         := h.issued ++ [(m.msgId, t)] } where
  ids := by
    have := hn.ids
    have hx := hn.next hq
    simp only [hx]
    simp only [CXLBuf.dequeue, hq, List.tail_cons, List.length_cons, List.range'_succ,
      List.map_cons] at this ⊢
    exact (List.cons.inj this).right
  le  := by
    have := hn.le
    simp only [CXLBuf.dequeue, List.length_tail]
    omega
  issued := by
    simp only [hn.next hq, List.map_append, hn.issued, List.range_succ, hn.head hq, List.map_cons,
      List.map_nil]

theorem issueToVc_meets (hi : h.Implements inp out dam x)
    (hq : h.textToTraceBuf.q = (interval, m) :: rest) :
    (h.issueToVc tick m).Meets (fun o => ∀ h' ∈ o, Goes x inp out dam h') Failure.IsOther := by
  have ⟨fr, hx, hs⟩ := hi.exists_frame
  subst hx
  have hid := hi.numbered.head hq
  have hnext := hi.numbered.next hq
  have hnum := hi.numbered.dequeue hq tick
  unfold issueToVc
  dsimp only
  split
  case _ ho =>
    refine .ite (fun _ => Except.meets_pure.mpr (by simp)) fun _ => ?_
    refine ((VcArray.enqueue_meets _).mono (fun _ => id) fun e he => ?_).bind fun a ha => ?_
    case _ => rw [he.left]; simp [Failure.IsOther]
    refine Except.meets_pure.mpr fun _ he => ?_
    cases he
    let m' := { m with time := { m.time with tickCreated := tick, readWrite := false } }
    have hstep : HostNode.Step cfg (h.node inp out dam fr) _ := .issueRead (m := m') hid ho
    refine ⟨_, .single hstep, hs.congr rfl rfl rfl rfl rfl, insertNew_keysMatch (m := m') hi.sent,
      hi.live, hnum.congr rfl rfl rfl, ?_⟩
    simp only [node, hnext, TxPort.sender, ha]
    rw [insertNew_tags (m := m') hi.sent]
  case _ ho =>
    refine .ite (fun _ => Except.meets_pure.mpr (by simp)) fun _ => ?_
    refine ((VcArray.enqueue_meets _).mono (fun _ => id) fun e he => ?_).bind fun a ha => ?_
    case _ => rw [he.left]; simp [Failure.IsOther]
    refine Except.meets_pure.mpr fun _ he => ?_
    cases he
    let m' := { m with time := { m.time with tickCreated := tick, readWrite := true } }
    have hstep : HostNode.Step cfg (h.node inp out dam fr) _ := .issueWrite (m := m') hid ho
    refine ⟨_, .single hstep, hs.congr rfl rfl rfl rfl rfl, insertNew_keysMatch (m := m') hi.sent,
      hi.live, hnum.congr rfl rfl rfl, ?_⟩
    simp only [node, hnext, TxPort.sender, ha]
    rw [insertNew_tags (m := m') hi.sent]
  case _ => exact trivial

theorem issueDam_goes {req : RamulatorReq} {b : CXLIfBuf} {t u : Int} (hi : h.Implements inp out dam x)
    (hq : h.textToTraceBuf.q = (interval, m) :: rest) (hr : req.reqId = m.msgId)
    (hv : req.type = .valid) (hb : b.buf = dam.inpBuf.buf ++ [req]) :
    Goes x inp out { dam with inpBuf := b } { h with
      lastTextToTraceBufDequeue := t
      reqsInDam                 := h.reqsInDam.insertNew req.reqId u
      textToTraceBuf            := h.textToTraceBuf.dequeue
      issued                    := h.issued ++ [(req.reqId, u)] } := by
  have ⟨fr, hx, hs⟩ := hi.exists_frame
  subst hx
  have hnum := hi.numbered.dequeue hq u
  refine ⟨_, .single .issueDam, hs, hi.sent, hi.live.bufAdd hb hv, hnum.congr rfl rfl (hr ▸ rfl), ?_⟩
  have hid : req.reqId = h.msgCount - h.textToTraceBuf.q.length := hr.trans (hi.numbered.head hq)
  simp only [node, hi.numbered.next hq, Dram.ids_bufAdd hb, hid, TxPort.sender_frame,
    AList.keys_insertNew, Multiset.mem_coe]
  split <;> rfl

end Issue

-- The host while the requests called back by the direct attached memory are being noted.
def noting (h : CXLHost cfg) (inp out : List Flit) (fr : Frame Message) (reqs : List Request)
    (dam : Dram M) : HostNode n :=
  { h.node inp out dam fr with dam := reqs.map Request.reqId + dam.ids }

theorem directAttachedReqComplete_goes {dam' : Dram M} {rs : List Request}
    (hi : h.Implements inp out dam x) (hd : dam'.Live) (hr : dam.ids = rs.map Request.reqId + dam'.ids) :
    Goes x inp out dam' (rs.foldl (directAttachedReqComplete tick) h) := by
  have ⟨fr, hx, hs⟩ := hi.exists_frame
  have hx' : x = h.noting inp out fr rs dam' := by simp [hx, noting, node, hr]
  have hk := hi.sent
  have hn := hi.numbered
  clear hi hr hx
  subst hx'
  induction rs generalizing h
  case nil => exact ⟨_, .refl, hs, hk, hd, hn, by simp [noting, node]⟩
  case cons r rs ih =>
    have hids : (h.noting inp out fr (r :: rs) dam').dam =
        r.reqId ::ₘ (rs.map Request.reqId + dam'.ids) := by
      simp [noting, ← Multiset.cons_coe]
    have hstep : HostNode.Step cfg (h.noting inp out fr (r :: rs) dam')
        ((h.directAttachedReqComplete tick r).noting inp out fr rs dam') := by
      convert HostNode.Step.completeDam hids using 1
      simp [noting, node, directAttachedReqComplete, AList.keys_erase]
    have ⟨x', hx, hi⟩ := ih (h := h.directAttachedReqComplete tick r) hs hk (hn.congr rfl rfl rfl)
    exact ⟨x', .head hstep hx, hi⟩

end CXLHost

end CXL
