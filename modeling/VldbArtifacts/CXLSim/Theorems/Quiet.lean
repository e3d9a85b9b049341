import VldbArtifacts.CXLSim.Theorems.Data

-- The test for idleness sees only the host, but when it succeeds the whole system is quiet.

namespace CXL

open Framing

variable {n : Nat} {cfg : Config n} {M : Memory}

section Ports

variable {dir : Dir} {vcSize bufSize : Nat} {σ : Type}

theorem VcArray.eq_nil_of_msgs {op : Opcode} {a : VcArray vcSize op} (h : a.msgs = 0)
    (i : Fin numVc) : (a.vcs i).q = [] := by
  have := Finset.sum_eq_zero_iff.mp h i (Finset.mem_univ i)
  simpa using this

theorem TxPort.Shape.quiet {rules : PackerRules dir σ} {p : TxPort dir vcSize bufSize σ}
    {fr : Frame Message} (h : p.Shape rules fr) (hw : (p.sender fr).waiting = 0)
    (hp : (p.sender fr).packing = 0) (ho : fr.owed = 0) (hq : p.txBuffer.q = []) : p.Quiet := by
  obtain ⟨hs, hh⟩ : p.single.msgs = 0 ∧ p.hdr.msgs = 0 := by
    simpa [Sender.waiting, sender] using hw
  have hm : fr.messages = [] := by simpa [Sender.packing] using hp
  obtain ⟨hm₁, hm₂⟩ := List.append_eq_nil_iff.mp hm
  refine ⟨VcArray.eq_nil_of_msgs hs, VcArray.eq_nil_of_msgs hh, ?_, ?_, hq⟩
  all_goals cases h
  case _ hw _       => exact hw
  case _ hn         => exact absurd ⟨ho, hm₁, by simpa using hm₂⟩ hn
  case _ hi         =>
    have := congrArg Frame.owed hi.fresh
    exact this.symm.trans ho
  case _ hn         => exact absurd ⟨ho, hm₁, by simpa using hm₂⟩ hn

theorem RxPort.quiet {u : RxPort dir vcSize bufSize} (ha : u.receiver.arrived = 0)
    (ho : u.receiver.deframer.owed = 0) (hq : u.rxBuffer.q = []) : u.Quiet := by
  have ⟨hs, hh⟩ : u.single.q = [] ∧ u.hdr.q = [] := by
    simpa [Receiver.arrived, receiver] using ha
  exact ⟨hs, hh, ho, hq⟩

theorem Dram.quiet {d : Dram M} (h : d.ids = 0) : d.Quiet := by
  have ⟨⟨hb, hs⟩, ho⟩ : (d.inpBuf.buf = [] ∧ d.stall = false) ∧ M.outstanding d.memory = 0 := by
    simpa [ids] using h
  exact ⟨hb, hs, ho⟩

end Ports

namespace CXLSystem

variable {s : CXLSystem cfg M} {x : Net n}

theorem Implements.quiet (hi : s.Implements x) (hl : x.Ledger) (hq : x.Quiet)
    (hr : s.host.reqsInDam.keys = []) : s.Quiet := by
  have hall := hq.tags
  simp only [Net.tags, HostNode.requests, HostNode.responses, add_eq_zero] at hall
  obtain ⟨⟨⟨⟨hw, hp⟩, _⟩, hdev⟩, ⟨_, _⟩, ha⟩ := hall
  have hd (d : Fin n) : (x.dev d).rx.arrived = 0 ∧ (x.dev d).mem = 0 ∧ (x.dev d).tx.waiting = 0 ∧
      (x.dev d).tx.packing = 0 := by
    have := Finset.sum_eq_zero_iff.mp hdev d (Finset.mem_univ d)
    simp only [DeviceNode.tags, add_eq_zero] at this
    grind
  have hhost := hi.host.view
  have hout := hq.hostOut
  have hinp := hq.hostInp
  have hdam := hl.host.dam
  obtain ⟨how, hor⟩ := hq.hostOwed
  have hshape := hi.host.shape
  generalize x.host.tx.frame = fr at hhost hshape how
  rw [hhost] at hw hp ha hout hinp hdam hor
  simp only [CXLHost.node, List.map_eq_nil_iff, List.append_eq_nil_iff] at hout hinp
  simp only [CXLHost.node, hr] at hdam
  have hdevice (d : Fin n) : (s.devices d).Quiet ∧
      (s.busToDevice d).flitSlots = [] ∧ (s.switch.downstreamTx d).q = [] ∧
      (s.switch.downstreamRx d).q = [] ∧ (s.busFromDevice d).flitSlots = [] := by
    obtain ⟨ha, hm, hw, hp⟩ := hd d
    obtain ⟨how, hor⟩ := hq.devOwed d
    have hview := (hi.device d).view
    have hshape := (hi.device d).shape
    have hout := hq.devOut d
    have hinp := hq.devInp d
    have hdram := hl.dram d
    rw [hm, Multiset.map_zero] at hdram
    generalize (x.dev d).tx.frame = fr at hview hshape how
    rw [hview] at ha hm hw hp hout hinp hdram hor
    simp only [CXLDevice.node, List.map_eq_nil_iff, List.append_eq_nil_iff] at hout hinp
    refine ⟨⟨hshape.quiet hw hp how hout.right, RxPort.quiet ha hor hinp.left, ?_, Dram.quiet hdram⟩,
      hinp.right.left, hinp.right.right, hout.left.left, hout.left.right⟩
    simpa [CXLDevice.node, mapTags] using hm
  exact {
    tx            := hshape.quiet hw hp how hout.right
    rx            := RxPort.quiet ha hor hinp.left
    dam           := Dram.quiet hdam.symm
    devices       := fun d => (hdevice d).left
    switch        := {
      upstreamTx       := hinp.right.left.right
      upstreamRx       := hout.left.left.right
      downstreamTx     := fun d => (hdevice d).right.right.left
      downstreamRx     := fun d => (hdevice d).right.right.right.left
      arbNocH2D        := hout.left.left.left
      arbNocD2H        := hinp.right.right
      expectedRollover := hi.expected.symm.trans hq.expected }
    busToHost     := hinp.right.left.left
    busFromHost   := hout.left.right
    busToDevice   := fun d => (hdevice d).right.left
    busFromDevice := fun d => (hdevice d).right.right.right.right }

theorem Tracks.quiet (h : s.Tracks) (hn : s.host.noActiveTransaction) : s.Quiet := by
  have ⟨x, hx, hi⟩ := h
  simp only [CXLHost.noActiveTransaction, Bool.and_eq_true, List.isEmpty_iff] at hn
  have hsent : x.tags = 0 := by
    rw [Net.tags, hx.ledger.host.tags, hi.host.view]
    simp [CXLHost.node, mapTags, hn.right]
  apply hi.quiet hx.ledger (Net.quiet hx.conserves hsent)
  simp [AList.keys, hn.left.right, List.keys]

theorem Reaches.tracks {trace : List Char} (h : Reaches trace s) : s.Tracks := by
  have ⟨as, ha⟩ := h
  have hm : (as.foldlM perform (init trace : CXLSystem cfg M)).Meets Tracks _ :=
    .foldlM (fun _ _ _ => perform_tracks) ⟨_, .refl, init_implements trace⟩
  exact hm.of_ok ha

theorem Reachable.reaches {b : Build} {trace : List Char} (h : Reachable b trace s) :
    Reaches trace s := by
  induction h
  case init => exact ⟨[], rfl⟩
  case tick s s' _ ht ih =>
    have ⟨as, ha⟩ := ih
    have ⟨bs, hb⟩ := tick_isRun b s
    exact ⟨as ++ bs, by rw [List.foldlM_append, ha, Except.ok_bind, hb, ht]⟩

theorem noActiveTransaction_sound {trace : List Char} (h : Reaches trace s)
    (hn : s.host.noActiveTransaction) : s.Quiet :=
  h.tracks.quiet hn

-- A line has been read, but it is not time to issue it.
theorem noActiveTransaction_sound_read : ∃ s : CXLSystem Config.small Memory.fifo,
    s.host.textToTraceBuf.q.length = 1 ∧ s.host.noActiveTransaction ∧ s.Quiet := by
  have h : ((init "0 R 1\n".toList : CXLSystem Config.small Memory.fifo).run {} 1).toOption.map
      (fun s => (s.host.textToTraceBuf.q.length, s.host.noActiveTransaction)) = some (1, true) := by
    decide +kernel
  match hr : (init "0 R 1\n".toList : CXLSystem Config.small Memory.fifo).run {} 1, h with
  | .ok s, h =>
    have ⟨hl, hn⟩ := Prod.mk.inj (Option.some.inj h)
    exact ⟨s, hl, hn, noActiveTransaction_sound (Reachable.init.run 1 hr).reaches hn⟩

end CXLSystem

end CXL
