import VldbArtifacts.CXLSim.Theorems.Skip

-- Builds that skip cycles simulate the same system.

namespace CXL

variable {n : Nat} {cfg : Config n} {M : Memory} {tick : Int}

theorem MsgTiming.Timely.stamp_le {t : MsgTiming} {k j : Nat} (h : t.Timely cfg k) (hj : j ≤ k) :
    t.stamp 0 ≤ t.stamp j := by
  induction j
  case zero      => exact le_refl _
  case succ j ih => exact (ih (Nat.le_of_succ_le hj)).trans (h j hj).left

theorem CXLDevice.Timely.inOrder {d : CXLDevice cfg M} (h : d.Timely tick) : d.InOrder := by
  intro i m hm
  have hw : m.time.Waited cfg 8 0 tick :=
    hm.elim (fun hm => h.tx.hdr m (VcArray.mem_of_head? hm))
      fun hm => h.tx.single m (VcArray.mem_of_head? hm)
  exact hw.left.stamp_le (le_refl 8)

section Quiet

variable {dir : Dir} {vcSize bufSize : Nat} {σ : Type}

theorem TxPort.Quiet.timely {p : TxPort dir vcSize bufSize σ} (h : p.Quiet) (cfg : Config n)
    (tick : Int) : p.Timely cfg tick := by
  have hmsgs {op : Opcode} {a : VcArray vcSize op} (ha : ∀ i, (a.vcs i).q = []) : a.msgs = 0 :=
    Finset.sum_eq_zero fun i _ => by rw [ha i, Multiset.coe_nil]
  constructor
  case single   => exact fun m hm => absurd (hmsgs h.single ▸ hm) (Multiset.notMem_zero m)
  case hdr      => exact fun m hm => absurd (hmsgs h.hdr ▸ hm) (Multiset.notMem_zero m)
  case packing  => exact fun hw => absurd (h.isPackerWaiting.symm.trans hw) Bool.false_ne_true
  case txBuffer => exact fun f hf => absurd (h.txBuffer ▸ hf) List.not_mem_nil

theorem RxPort.Quiet.timely {u : RxPort dir vcSize bufSize} (h : u.Quiet) (cfg : Config n) (tick : Int) :
    u.Timely cfg tick where
  rxBuffer    := h.rxBuffer ▸ .nil
  lastHdr hr  := absurd h.unpackerRollover hr
  single _ hm := absurd (h.single ▸ hm) List.not_mem_nil
  hdr _ hm    := absurd (h.hdr ▸ hm) List.not_mem_nil

theorem CXLDevice.Quiet.timely {d : CXLDevice cfg M} (h : d.Quiet) (tick : Int) : d.Timely tick := by
  refine ⟨h.tx.timely cfg tick, h.rx.timely cfg tick, ?_⟩
  have ha : d.messagesInRamulator = ∅ := AList.ext h.messagesInRamulator
  rw [ha, h.dram.outstanding]
  exact ⟨fun id m h => absurd ((AList.lookup_empty id).symm.trans h) (Option.some_ne_none m).symm,
    fun r hr => absurd hr (Multiset.notMem_zero r)⟩

end Quiet

-- The switch without the buffers that the buses write to.
def CXLSwitch.inner (w : CXLSwitch cfg) : CXLSwitch cfg :=
  { w with upstreamRx := ∅, downstreamRx := fun _ => ∅ }

theorem CXLSwitch.IsDrained.of_inner {w w' : CXLSwitch cfg} (h : w.IsDrained) (hi : w'.inner = w.inner) :
    w'.IsDrained where
  arbNocH2D      := congrArg (·.arbNocH2D.q) hi ▸ h.arbNocH2D
  downstreamTx i := congrArg (fun w => (w.downstreamTx i).q) hi ▸ h.downstreamTx i
  arbNocD2H      := congrArg (·.arbNocD2H.q) hi ▸ h.arbNocD2H
  upstreamTx     := congrArg (·.upstreamTx.q) hi ▸ h.upstreamTx

namespace CXLSystem

variable {s s' : CXLSystem cfg M}

theorem updateHostBuses_settle : s.settle.updateHostBuses = s.updateHostBuses.map settle := by
  have hrx : s.settle.host.rx.rxBuffer = s.host.rx.rxBuffer := rfl
  have hup : s.settle.switch.upstreamRx = s.switch.upstreamRx := rfl
  have hbus : s.settle.busToHost = s.busToHost ∧ s.settle.busFromHost = s.busFromHost := ⟨rfl, rfl⟩
  have htick : s.settle.currTick = s.currTick := rfl
  simp only [updateHostBuses, hrx, hup, hbus, htick, Except.map_bind]
  rfl

theorem updateDeviceBuses_settle : s.settle.updateDeviceBuses = s.updateDeviceBuses.map settle := by
  have hrx (i : Fin n) : (s.settle.devices i).rx.rxBuffer = (s.devices i).rx.rxBuffer := rfl
  have hup : s.settle.switch.downstreamRx = s.switch.downstreamRx := rfl
  have hbus : s.settle.busToDevice = s.busToDevice ∧ s.settle.busFromDevice = s.busFromDevice := ⟨rfl, rfl⟩
  have htick : s.settle.currTick = s.currTick := rfl
  simp only [updateDeviceBuses, hrx, hup, hbus, htick, Except.map_bind]
  rfl

theorem updateMemories_settle : s.settle.updateMemories = s.updateMemories.map settle := by
  have hm : Except.traverseFin (fun i => (s.devices i).settle.updateDram s.currTick) =
      (Except.traverseFin fun i => (s.devices i).updateDram s.currTick).map
        fun ds i => (ds i).settle :=
    Except.traverseFin_map fun i => CXLDevice.updateDram_settle
  change (Except.traverseFin (fun i => (s.devices i).settle.updateDram s.currTick) >>= fun ds =>
    .ok { s.settle with devices := ds }) = _
  rw [hm, updateMemories, Except.map_bind]
  cases Except.traverseFin fun i => (s.devices i).updateDram s.currTick <;> rfl

theorem directAttachedReqComplete_settle (rs : List Request) (h : CXLHost cfg) :
    rs.foldl (CXLHost.directAttachedReqComplete tick) h.settle =
      (rs.foldl (CXLHost.directAttachedReqComplete tick) h).settle := by
  induction rs generalizing h
  case nil          => rfl
  case cons r rs ih => exact ih (CXLHost.directAttachedReqComplete tick h r)

theorem updateDam_settle : s.settle.updateDam = s.updateDam.settle := by
  have hdam : s.settle.dam = s.dam := rfl
  rw [updateDam, updateDam, hdam]
  split
  case isFalse => rfl
  case isTrue =>
    have hh : s.dam.feed.2.tick.1.foldl (CXLHost.directAttachedReqComplete s.currTick) s.host.settle =
      _ := directAttachedReqComplete_settle _ s.host
    exact congrArg (fun host => { s.settle with dam := s.dam.feed.2.tick.2, host }) hh

theorem catchUp_settle (rounds : Nat) (i : Int) (s : CXLSystem cfg M) :
    catchUp rounds i s.settle = (catchUp rounds i s).map settle := by
  induction rounds generalizing i s
  case zero => rfl
  case succ rounds ih =>
    have htick : s.settle.currTick = s.currTick := rfl
    have hdam : (if i = s.currTick then s.settle else s.settle.updateDam) =
        (if i = s.currTick then s else s.updateDam).settle := by
      rw [updateDam_settle]
      split <;> rfl
    simp only [catchUp, htick, hdam, updateMemories_settle, Except.map_bind]
    congr 1; funext _
    cases updateMemories (if i = s.currTick then s else s.updateDam)
    case error => rfl
    case ok s' => exact ih (i + 6) s'

theorem skipIdleTicks_settle : s.settle.skipIdleTicks = s.skipIdleTicks.map settle := by
  have hq : s.settle.host.textToTraceBuf.q = s.host.textToTraceBuf.q := rfl
  have hn : s.settle.host.noActiveTransaction = s.host.noActiveTransaction := rfl
  rw [skipIdleTicks, skipIdleTicks, hq, hn]
  cases s.host.textToTraceBuf.q
  case nil => rfl
  case cons x q =>
    dsimp only
    split
    case isFalse => rfl
    case isTrue  => exact catchUp_settle _ _ { s with currTick := s.jumpTarget x.1 }

theorem issueToVc_settle (t : Int) (h : CXLHost cfg) (m : Message) :
    h.settle.issueToVc t m = (h.issueToVc t m).map (Option.map CXLHost.settle) := by
  have hvc : h.settle.curReqVc = h.curReqVc ∧ h.settle.curRWDVc = h.curRWDVc := ⟨rfl, rfl⟩
  have htx : h.settle.tx.single = h.tx.single ∧ h.settle.tx.hdr = h.tx.hdr := ⟨rfl, rfl⟩
  rw [CXLHost.issueToVc, CXLHost.issueToVc]
  simp only [hvc, htx]
  split
  case h_1 =>
    split
    case isTrue => rfl
    case isFalse =>
      rw [Except.map_bind]
      rfl
  case h_2 =>
    split
    case isTrue => rfl
    case isFalse =>
      rw [Except.map_bind]
      rfl
  case h_3 => rfl

theorem issueHead_settle : s.settle.issueHead = s.issueHead.map (Prod.map id settle) := by
  have hq : s.settle.host.textToTraceBuf.q = s.host.textToTraceBuf.q := rfl
  have hlast : s.settle.host.lastTextToTraceBufDequeue = s.host.lastTextToTraceBufDequeue := rfl
  have htick : s.settle.currTick = s.currTick := rfl
  have hdam : s.settle.dam = s.dam := rfl
  rw [issueHead, issueHead, hq, hlast, htick, hdam]
  cases s.host.textToTraceBuf.q
  case nil => rfl
  case cons x q =>
    dsimp only
    split
    case isFalse => rfl
    case isTrue =>
      split
      case isTrue =>
        split
        case isTrue => rfl
        case isFalse =>
          simp only [Except.map_bind]
          rfl
      case isFalse =>
        have hvc := issueToVc_settle s.currTick { s.host with lastTextToTraceBufDequeue := s.currTick } x.2
        change (CXLHost.settle { s.host with lastTextToTraceBufDequeue := s.currTick }).issueToVc s.currTick
          x.2 >>= _ = _
        rw [hvc, Except.map_bind]
        cases CXLHost.issueToVc s.currTick { s.host with lastTextToTraceBufDequeue := s.currTick } x.2
        case error => rfl
        case ok o => cases o <;> rfl

theorem readTrace_settle {h : CXLHost cfg} :
    h.settle.readTrace = h.readTrace.map (Prod.map id CXLHost.settle) := by
  have hbuf : h.settle.textToTraceBuf = h.textToTraceBuf := rfl
  have hin : h.settle.traceIn = h.traceIn := rfl
  have hcount : h.settle.msgCount = h.msgCount := rfl
  rw [CXLHost.readTrace, CXLHost.readTrace, hbuf, hin, hcount]
  split
  case isTrue => rfl
  case isFalse =>
    cases getline '\n' h.traceIn
    case none => rfl
    case some x =>
      simp only [Except.map_bind]
      rfl

theorem textToTrace_settle (b : Build) :
    s.settle.textToTrace b = (s.textToTrace b).map (Prod.map id settle) := by
  have hskip : skipIf (¬b.fastForward) s.settle s.settle.skipIdleTicks =
      (skipIf (¬b.fastForward) s s.skipIdleTicks).map settle := by
    rw [skipIf, skipIf, skipIdleTicks_settle]
    split <;> rfl
  rw [textToTrace, textToTrace, hskip, Except.map_bind]
  cases skipIf (¬b.fastForward) s s.skipIdleTicks
  case error => rfl
  case ok s₁ =>
    simp only [Except.ok_map, Except.ok_bind, issueHead_settle, Except.map_bind]
    cases s₁.issueHead
    case error => rfl
    case ok r =>
      obtain ⟨mayRead, s₂⟩ := r
      cases mayRead
      case false => rfl
      case true =>
        have hread : s₂.settle.host.readTrace = _ := readTrace_settle
        simp only [Except.ok_map, Except.ok_bind, Prod.map, id_eq, hread, ↓reduceIte, Except.map_bind]
        cases s₂.host.readTrace <;> rfl

theorem updateTrace_settle (b : Build) : s.settle.updateTrace b = (s.updateTrace b).map settle := by
  have hfin : s.settle.host.isTraceFinished = s.host.isTraceFinished := rfl
  have hbuf : s.settle.host.textToTraceBuf = s.host.textToTraceBuf := rfl
  rw [updateTrace, updateTrace, hfin, hbuf]
  split
  case isFalse => rfl
  case isTrue =>
    simp only [textToTrace_settle, Except.map_bind]
    cases s.textToTrace b <;> rfl

theorem eq_of_settle (h : s.settle = s'.settle) : ∃ host devices switch,
    s' = { s with host, devices, switch } ∧ s.host.settle = host.settle ∧
      (∀ i, (s.devices i).settle = (devices i).settle) ∧ s.switch.settle = switch.settle := by
  refine ⟨s'.host, s'.devices, s'.switch, ?_, (congrArg host h :), fun i => (congrArg (·.devices i) h :),
    (congrArg switch h :)⟩
  cases s
  cases s'
  injection h
  subst_vars
  rfl

section Agree

theorem updateHostBuses_agree (h : s.settle = s'.settle) :
    Except.Agree (·.settle = ·.settle) s.updateHostBuses s'.updateHostBuses :=
  .of_map (fun s => updateHostBuses_settle (s := s)) h

theorem updateDeviceBuses_agree (h : s.settle = s'.settle) :
    Except.Agree (·.settle = ·.settle) s.updateDeviceBuses s'.updateDeviceBuses :=
  .of_map (fun s => updateDeviceBuses_settle (s := s)) h

theorem updateTrace_agree (b : Build) (h : s.settle = s'.settle) :
    Except.Agree (·.settle = ·.settle) (s.updateTrace b) (s'.updateTrace b) :=
  .of_map (fun s => updateTrace_settle (s := s) b) h

variable {b b' : Build} (hb : b'.skipCycle = false) (h : s.settle = s'.settle)

include hb h

theorem updateSwitch_agree (hs : s.switch.skipCycle → s.switch.IsDrained)
    (hp : 0 < n → s.switch.currPort < n) :
    Except.Agree (·.settle = ·.settle) (s.updateSwitch b) (s'.updateSwitch b') := by
  obtain ⟨host, devices, switch, rfl, -, -, hw⟩ := eq_of_settle h
  refine (CXLSwitch.update_agree hb hw hs hp).bind fun r r' hr => .ok ?_
  obtain ⟨w, buses⟩ := r
  obtain ⟨w', _⟩ := r'
  obtain ⟨hw, rfl⟩ := hr
  exact congrArg₂ (fun s w => { s with switch := w, busToHost := buses.1, busToDevice := buses.2 }) h hw

theorem updateDevices_agree (hd : ∀ i, (s.devices i).InOrder) :
    Except.Agree (·.settle = ·.settle) (s.updateDevices b) (s'.updateDevices b') := by
  obtain ⟨host, devices, switch, rfl, -, hdevices, -⟩ := eq_of_settle h
  refine (Except.Agree.traverseFin fun i => CXLDevice.update_agree hb (hd i) (hdevices i)).bind
    fun r r' hr => .ok ?_
  have hds : (fun i => (r i).1.settle) = fun i => (r' i).1.settle := funext fun i => (hr i).left
  have hbuses : (fun i => (r i).2) = fun i => (r' i).2 := funext fun i => (hr i).right
  change { s.settle with devices := fun i => (r i).1.settle, busFromDevice := fun i => (r i).2 } = _
  rw [hds, hbuses, h]
  rfl

theorem updateRest_agree : Except.Agree (·.settle = ·.settle) (s.updateRest b) (s'.updateRest b') := by
  obtain ⟨host, devices, switch, rfl, hhost, -, -⟩ := eq_of_settle h
  refine (CXLHost.updateNode_agree hb hhost).bind fun r r' hr => .ok ?_
  obtain ⟨h₁, bus⟩ := r
  obtain ⟨h₂, _⟩ := r'
  obtain ⟨hh, rfl⟩ := hr
  have hs : settle { s with host := h₁, busFromHost := bus } =
      settle { s with host := h₂, devices, switch, busFromHost := bus } :=
    congrArg₂ (fun s host => { s with host, busFromHost := bus }) h hh
  have hdam := congrArg updateDam hs
  rw [updateDam_settle, updateDam_settle] at hdam
  dsimp only
  split
  case isTrue  => exact congrArg (fun s => { s with currTick := s.currTick + 1 }) hdam
  case isFalse => exact congrArg (fun s => { s with currTick := s.currTick + 1 }) hs

end Agree

theorem Quiet.timely (h : s.Quiet) : s.Timely where
  host            := ⟨h.tx.timely cfg _, h.rx.timely cfg _⟩
  device i        := (h.devices i).timely _
  switch          := ⟨h.switch.upstreamRx ▸ .nil, h.switch.arbNocH2D ▸ .nil,
    fun i => h.switch.downstreamTx i ▸ .nil, fun i => h.switch.downstreamRx i ▸ .nil,
    h.switch.arbNocD2H ▸ .nil, h.switch.upstreamTx ▸ .nil⟩
  busFromHost     := h.busFromHost ▸ .nil
  busToDevice i   := h.busToDevice i ▸ .nil
  busFromDevice i := h.busFromDevice i ▸ .nil
  busToHost       := h.busToHost ▸ .nil

-- With nothing on its way, the tick may be set to anything.
theorem perform_inOrder {a : Action n} (h : s.Timely ∧ s.Tracks) (ha : s.InOrder a) :
    (s.perform a).Meets (fun s => s.Timely ∧ s.Tracks) fun _ => True := by
  have htracks := (perform_tracks (a := a) h.right).mono (fun _ => id) fun _ _ => trivial
  have htimely : (s.perform a).Meets Timely fun _ => True := by
    rcases ha with ha | ha
    case _ => exact perform_timely h.left h.right ha
    case _ =>
      cases a
      case setTick t =>
        have hq := h.right.quiet ha
        exact Quiet.timely (s := { s with currTick := t }) { hq with }
      all_goals exact perform_timely h.left h.right (le_refl s.currTick)
  exact Except.meets_iff.mpr ⟨fun s' hs' => ⟨htimely.of_ok hs', htracks.of_ok hs'⟩, fun _ _ => trivial⟩

theorem IsRunOf.inOrder {x : Sim (CXLSystem cfg M)} (hx : s.IsRunOf InOrder x) (h : s.Timely ∧ s.Tracks) :
    x.Meets (fun s => s.Timely ∧ s.Tracks) fun _ => True := by
  obtain ⟨as, rfl, ha⟩ := hx
  rw [← List.append_nil as] at ha
  exact Except.meets_iff.mpr ⟨fun s' hs' => Admits.invariant (fun _ _ => perform_inOrder) h ha hs',
    fun _ _ => trivial⟩

theorem inOrder_of_tick {a : Action n} (ha : a.tick? = none) : s.InOrder a := by
  refine .inl ?_
  rw [NotBack, ha]
  exact le_refl _

-- The simulator jumps only if it finds no active transaction.
theorem inOrder_jump (b : Build) (s : CXLSystem cfg M) : s.InOrder (.setTick (s.jumpTick b)) := by
  rw [jumpTick]
  cases hj : s.jumps b
  case none => exact .inl (le_refl s.currTick)
  case some x =>
    refine .inr ?_
    rw [jumps] at hj
    split at hj
    case isTrue h  => exact h.right
    case isFalse h => cases hj

theorem inOrder_next (s : CXLSystem cfg M) : s.InOrder (.setTick (s.currTick + 1)) :=
  .inl (Int.le_add_one (le_refl s.currTick))

theorem tick_inOrder (b : Build) (s : CXLSystem cfg M) : s.IsRunOf InOrder (s.tick b) :=
  tick_isRunOf (fun _ _ => inOrder_of_tick) b s (fun s _ => inOrder_jump b s) inOrder_next

-- What the checks rely on: no response is older than its request, and the flag of the switch is only set
-- if nothing is inside.
structure Skippable (s : CXLSystem cfg M) : Prop where
  timely  : s.Timely
  tracks  : s.Tracks
  port    : 0 < n → s.switch.currPort < n
  drained : s.switch.skipCycle → s.switch.IsDrained

theorem init_skippable (trace : List Char) : (init trace : CXLSystem cfg M).Skippable where
  timely    := init_timely trace
  tracks    := Reaches.tracks ⟨[], rfl⟩
  port hn   := hn
  drained h := absurd h Bool.false_ne_true

-- A part of a tick that leaves the inside of the switch alone.
theorem Skippable.part {x : Sim (CXLSystem cfg M)} (h : s.Skippable) (hx : s.IsRunOf InOrder x)
    (hi : x.Meets (fun s' => s'.switch.inner = s.switch.inner) fun _ => True) :
    x.Meets Skippable fun _ => True := by
  have ht := hx.inOrder ⟨h.timely, h.tracks⟩
  refine Except.meets_iff.mpr ⟨fun s' hs' => ?_, fun _ _ => trivial⟩
  have hi := hi.of_ok hs'
  have hport : s'.switch.currPort = s.switch.currPort := (congrArg CXLSwitch.currPort hi :)
  have hflag : s'.switch.skipCycle = s.switch.skipCycle := (congrArg CXLSwitch.skipCycle hi :)
  constructor
  case timely  => exact (ht.of_ok hs').left
  case tracks  => exact (ht.of_ok hs').right
  case port    => exact hport ▸ h.port
  case drained => exact fun hf => (h.drained (hflag ▸ hf)).of_inner hi

theorem updateHostBuses_skippable (h : s.Skippable) :
    s.updateHostBuses.Meets Skippable fun _ => True := by
  refine h.part (updateHostBuses_isRunOf fun _ _ => inOrder_of_tick) ?_
  exact (Except.Meets.any _).bind fun _ _ => (Except.Meets.any _).bind fun _ _ => rfl

theorem updateSwitch_skippable {b : Build} (hb : b.skipCycle) (h : s.Skippable) :
    (s.updateSwitch b).Meets Skippable fun _ => True := by
  have ht := (updateSwitch_isRunOf (b := b) fun _ _ => inOrder_of_tick).inOrder ⟨h.timely, h.tracks⟩
  refine Except.meets_iff.mpr ⟨fun s' hs' => ?_, fun _ _ => trivial⟩
  obtain ⟨r, hr, he⟩ := Except.bind_eq_ok.mp hs'
  have hsteps := (CXLSwitch.update_steps b s.busToHost s.busToDevice).of_ok hr
  have hdrained := (CXLSwitch.update_isDrained hb h.drained).of_ok hr
  cases he
  exact ⟨(ht.of_ok hs').left, (ht.of_ok hs').right, hsteps.port_lt h.port, hdrained⟩

theorem updateDeviceBuses_skippable (h : s.Skippable) :
    s.updateDeviceBuses.Meets Skippable fun _ => True :=
  h.part (updateDeviceBuses_isRunOf fun _ _ => inOrder_of_tick) ((Except.Meets.any _).bind fun _ _ => rfl)

theorem updateDevices_skippable {b : Build} (h : s.Skippable) :
    (s.updateDevices b).Meets Skippable fun _ => True :=
  h.part (updateDevices_isRunOf fun _ _ => inOrder_of_tick) ((Except.Meets.any _).bind fun _ _ => rfl)

theorem updateDam_switch : s.updateDam.switch = s.switch := by
  unfold updateDam
  split <;> rfl

theorem catchUp_switch (rounds : Nat) (i : Int) (s : CXLSystem cfg M) :
    (catchUp rounds i s).Meets (·.switch = s.switch) fun _ => True := by
  induction rounds generalizing i s
  case zero => rfl
  case succ rounds ih =>
    refine (Except.Meets.any _).bind fun _ _ => ?_
    refine Except.Meets.bind (P := (·.switch = s.switch)) ?_ fun s₁ h₁ => ?_
    case _ =>
      refine (Except.Meets.any _).bind fun _ _ => ?_
      change (if i = s.currTick then s else s.updateDam).switch = s.switch
      split
      case isTrue  => rfl
      case isFalse => exact updateDam_switch
    case _ => exact h₁ ▸ ih (i + 6) s₁

theorem issueHead_switch : s.issueHead.Meets (·.2.switch = s.switch) fun _ => True := by
  unfold issueHead
  split
  case h_1 => rfl
  case h_2 =>
    refine .ite (fun _ => .ite (fun _ => .ite (fun _ => rfl) fun _ => ?_) fun _ => ?_) fun _ => rfl
    case _ => exact (Except.Meets.any _).bind fun _ _ => (Except.Meets.any _).bind fun _ _ => rfl
    case _ =>
      refine (Except.Meets.any _).bind fun o _ => ?_
      cases o <;> rfl

theorem skipIdleTicks_switch : s.skipIdleTicks.Meets (·.switch = s.switch) fun _ => True := by
  unfold skipIdleTicks
  split
  case h_1 => rfl
  case h_2 => exact .ite (fun _ => catchUp_switch _ _ _) fun _ => rfl

theorem updateTrace_switch (b : Build) :
    (s.updateTrace b).Meets (·.switch = s.switch) fun _ => True := by
  refine .ite (fun _ => ?_) fun _ => rfl
  refine Except.Meets.bind (P := fun r : Bool × CXLSystem cfg M => r.2.switch = s.switch) ?_
    fun r hr => hr
  refine Except.Meets.bind (P := (·.switch = s.switch)) ?_ fun s₁ h₁ => ?_
  case _ => exact .ite (fun _ => rfl) fun _ => skipIdleTicks_switch
  case _ =>
    refine (issueHead_switch.imp fun _ h => h.trans h₁).bind fun r hr => ?_
    exact .ite (fun _ => (Except.Meets.any _).bind fun _ _ => hr) fun _ => hr

theorem updateTrace_skippable {b : Build} (h : s.Skippable) :
    (s.updateTrace b).Meets Skippable fun _ => True :=
  h.part (updateTrace_isRunOf (fun _ _ => inOrder_of_tick) s (inOrder_jump b s))
    ((updateTrace_switch b).imp fun _ => congrArg CXLSwitch.inner)

theorem updateRest_skippable {b : Build} (h : s.Skippable) :
    (s.updateRest b).Meets Skippable fun _ => True := by
  refine h.part (updateRest_isRunOf (fun _ _ => inOrder_of_tick) b s inOrder_next) ?_
  refine (Except.Meets.any _).bind fun r _ => ?_
  rw [Except.meets_pure]
  split
  case isTrue  => exact congrArg CXLSwitch.inner updateDam_switch
  case isFalse => rfl

theorem tick_skippable {b : Build} (hb : b.skipCycle) (h : s.Skippable) :
    (s.tick b).Meets Skippable fun _ => True := by
  rw [tick_eq]
  have hothers : (s.updateOthers b).Meets Skippable fun _ => True := by
    refine (updateHostBuses_skippable h).bind fun _ h => ?_
    refine (updateSwitch_skippable hb h).bind fun _ h => ?_
    exact (updateDeviceBuses_skippable h).bind fun _ h => updateDevices_skippable h
  exact hothers.bind fun _ h => (updateTrace_skippable h).bind fun _ h => updateRest_skippable h

theorem tick_agree {b b' : Build} (hb : b.skipCycle) (hb' : b'.skipCycle = false)
    (hf : b'.fastForward = b.fastForward) (hs : s.Skippable) (h : s.settle = s'.settle) :
    Except.Agree (·.settle = ·.settle) (s.tick b) (s'.tick b') := by
  rw [tick_eq, tick_eq]
  refine Except.Agree.bind (R := fun s s' => s.settle = s'.settle) ?_ fun s s' h => ?_
  case _ =>
    refine ((updateHostBuses_agree h).meets (updateHostBuses_skippable hs)).bind fun s s' h => ?_
    refine ((updateSwitch_agree hb' h.right h.left.drained h.left.port).meets
      (updateSwitch_skippable hb h.left)).bind fun s s' h => ?_
    refine ((updateDeviceBuses_agree h.right).meets (updateDeviceBuses_skippable h.left)).bind
      fun s s' h => ?_
    exact updateDevices_agree hb' h.right fun i => (h.left.timely.device i).inOrder
  case _ =>
    have htrace : s'.updateTrace b' = s'.updateTrace b := by
      rw [updateTrace, updateTrace, textToTrace, textToTrace, hf]
    rw [htrace]
    exact (updateTrace_agree b h).bind fun _ _ => updateRest_agree hb'

theorem run_skippable {b : Build} (hb : b.skipCycle) (k : Nat) (h : s.Skippable) :
    (s.run b k).Meets Skippable fun _ => True := by
  induction k generalizing s
  case zero      => exact h
  case succ k ih => exact (tick_skippable hb h).bind fun _ => ih

theorem run_agree {b b' : Build} (hb : b.skipCycle) (hb' : b'.skipCycle = false)
    (hf : b'.fastForward = b.fastForward) (k : Nat) (hs : s.Skippable) (h : s.settle = s'.settle) :
    Except.Agree (·.settle = ·.settle) (s.run b k) (s'.run b' k) := by
  induction k generalizing s s'
  case zero => exact .ok h
  case succ k ih =>
    have htick := (tick_agree hb hb' hf hs h).meets (tick_skippable hb hs)
    exact htick.bind fun _ _ h => ih h.left h.right

theorem ReachesInOrder.skipsNothing {trace : List Char} (h : ReachesInOrder trace s) :
    s.SkipsNothing := by
  obtain ⟨as, has, ha⟩ := h
  have hs : s.Timely ∧ s.Tracks := by
    have hx : (init trace).IsRunOf InOrder (.ok s) := ⟨as, has, ha⟩
    exact hx.inOrder ⟨init_timely trace, Reaches.tracks ⟨[], rfl⟩⟩
  constructor
  case packHost        => exact fun hc _ => (CXLHost.flitPacker_of_skip hc).of_ok
  case packDevice      =>
    intro i hc d
    exact (CXLDevice.flitPacker_of_skip (hs.left.device i).inOrder hc).of_ok
  case transmitHost    => exact CXLHost.transmit_of_skip
  case transmitDevice  => exact fun i => CXLDevice.transmit_of_skip
  case unpackHost      => exact fun hc _ => (CXLHost.flitUnpacker_of_skip hc).of_ok
  case unpackDevice    => exact fun i hc _ => (CXLDevice.flitUnpacker_of_skip hc).of_ok
  case sendToRamulator => exact fun i hc _ => (CXLDevice.sendToRamulator_of_skip hc).of_ok
  case completeReq     => exact fun hc _ => (CXLHost.checkIfReqCompleted_of_skip hc).of_ok

end CXLSystem

end CXL
