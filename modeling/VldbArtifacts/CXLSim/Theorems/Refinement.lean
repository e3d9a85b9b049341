import VldbArtifacts.CXLSim.Theorems.Host
import VldbArtifacts.CXLSim.Theorems.Run

-- Every call of the system is a sequence of steps of the abstract system.

namespace CXL

open Framing

variable {n : Nat} {cfg : Config n} {M : Memory}

namespace Net

theorem steps_host {x : Net n} {y : HostNode n} (h : HostNode.Steps cfg x.host y) :
    Steps cfg x { x with host := y } :=
  h.lift (fun y => { x with host := y }) fun _ _ h => .host h

theorem setDev_self (x : Net n) (d : Fin n) : x.setDev d (x.dev d) = x := by
  simp [setDev]

theorem steps_device {x : Net n} {d : Fin n} {y : DeviceNode}
    (h : DeviceNode.Steps cfg (x.dev d) y) : Steps cfg x (x.setDev d y) := by
  have hs {a b} (hab : DeviceNode.Step cfg a b) : Step cfg (x.setDev d a) (x.setDev d b) := by
    have := Step.device (x := x.setDev d a) (d := d) (y := b) (by simpa [setDev] using hab)
    simpa [setDev] using this
  have hl : Steps cfg (x.setDev d (x.dev d)) (x.setDev d y) := h.lift (x.setDev d) fun _ _ => hs
  rwa [setDev_self] at hl

end Net

section Hop

variable {inp inp' out out' : List Flit}

theorem CXLHost.Implements.hop {h : CXLHost cfg} {dam : Dram M} {x : HostNode n}
    (hi : h.Implements inp out dam x) {b c : CXLBuf cfg.hostBufSize Flit} {t : Int}
    (hin : (b.q ++ inp').map Flit.core = (h.rx.rxBuffer.q ++ inp).map Flit.core)
    (hout : (out' ++ c.q).map Flit.core = (out ++ h.tx.txBuffer.q).map Flit.core) :
    CXLHost.Implements { h with
        rx := { h.rx with rxBuffer := b }
        tx := { h.tx with txBuffer := c, lastTransmittedAt := t } } inp' out' dam x where
  shape    := hi.shape.congr rfl rfl rfl rfl rfl
  sent     := hi.sent
  live     := hi.live
  numbered := hi.numbered.congr rfl rfl rfl
  view     := by
    have := hi.view
    simp only [CXLHost.node, hin, hout]
    exact this

theorem CXLDevice.Implements.hop {d : CXLDevice cfg M} {x : DeviceNode} (hi : d.Implements inp out x)
    (inp' out' : List Flit) {b c : CXLBuf cfg.devBufSize Flit} {t : Int}
    (hin : (b.q ++ inp').map Flit.core = (d.rx.rxBuffer.q ++ inp).map Flit.core)
    (hout : (out' ++ c.q).map Flit.core = (out ++ d.tx.txBuffer.q).map Flit.core) :
    CXLDevice.Implements { d with
        rx := { d.rx with rxBuffer := b }
        tx := { d.tx with txBuffer := c, lastTransmittedAt := t } } inp' out' x where
  shape := hi.shape.congr rfl rfl rfl rfl rfl
  mem   := hi.mem
  dram  := hi.dram
  view  := by
    have := hi.view
    simp only [CXLDevice.node, hin, hout]
    exact this

end Hop

namespace CXLSystem

variable {s s' : CXLSystem cfg M} {x : Net n}

def Goes (x : Net n) (s' : CXLSystem cfg M) : Prop :=
  ∃ x', Net.Steps cfg x x' ∧ s'.Implements x'

def Stops (cfg : Config n) (x : Net n) (e : Failure) : Prop :=
  ∃ x', Net.Steps cfg x x' ∧ x'.Fails cfg e

theorem Stops.other {e : Failure} (h : e.IsOther) : Stops cfg x e :=
  ⟨x, .refl, .other h⟩

theorem Stops.host {e : Failure} (h : CXLHost.Stops cfg x.host e) : Stops cfg x e :=
  have ⟨_, hy, hf⟩ := h
  ⟨_, Net.steps_host hy, .host hf⟩

theorem Stops.device {e : Failure} {d : Fin n} (h : CXLDevice.Stops cfg (x.dev d) e) :
    Stops cfg x e := by
  have ⟨y, hy, hf⟩ := h
  refine ⟨_, Net.steps_device hy, .device (d := d) ?_⟩
  simpa [Net.setDev] using hf

theorem Implements.goes_host (hi : s.Implements x) {h : CXLHost cfg} {dam : Dram M}
    (hg : CXLHost.Goes x.host
      (s.busToHost.flitSlots ++ s.switch.upstreamTx.q ++ s.switch.arbNocD2H.q)
      (s.switch.arbNocH2D.q ++ s.switch.upstreamRx.q ++ s.busFromHost.flitSlots) dam h) :
    Goes x { s with host := h, dam := dam } := by
  have ⟨y, hy, hi'⟩ := hg
  exact ⟨_, Net.steps_host hy, hi', hi.device, hi.prev, hi.port, hi.expected, hi.moved⟩

-- The parts of the state that belong to one device.
theorem Implements.update (hi : s.Implements x) (i : Fin n) {d : CXLDevice cfg M} {y : DeviceNode}
    {down up : CXLBus cfg.busSize} {tx rx : CXLBuf cfg.switchBufSize Flit}
    (hd : d.Implements (down.flitSlots ++ tx.q) (rx.q ++ up.flitSlots) y) :
    CXLSystem.Implements { s with
        devices       := Function.update s.devices i d
        switch        := { s.switch with
          downstreamTx := Function.update s.switch.downstreamTx i tx
          downstreamRx := Function.update s.switch.downstreamRx i rx }
        busToDevice   := Function.update s.busToDevice i down
        busFromDevice := Function.update s.busFromDevice i up } (x.setDev i y) where
  host     := hi.host
  device j := by
    by_cases hj : j = i
    case pos => subst hj; simpa [Net.setDev] using hd
    case neg => simpa [Net.setDev, hj] using hi.device j
  prev     := hi.prev
  port     := hi.port
  expected := hi.expected
  moved    := hi.moved

theorem Implements.goes_device (hi : s.Implements x) {i : Fin n} {d : CXLDevice cfg M}
    (hg : CXLDevice.Goes (x.dev i)
      ((s.busToDevice i).flitSlots ++ (s.switch.downstreamTx i).q)
      ((s.switch.downstreamRx i).q ++ (s.busFromDevice i).flitSlots) d) :
    Goes x (s.setDevice i d) := by
  have ⟨y, hy, hd⟩ := hg
  refine ⟨_, Net.steps_device hy, ?_⟩
  simpa [setDevice] using hi.update i hd

theorem Goes.refl (hi : s.Implements x) : Goes x s :=
  ⟨x, .refl, hi⟩

theorem Goes.head {x' : Net n} (h : Net.Steps cfg x x') (hg : Goes x' s) : Goes x s :=
  have ⟨y, hy, hi⟩ := hg
  ⟨y, h.trans hy, hi⟩

section Switch

theorem slots_core_getD (f : Flit) (i : Nat) :
    (f.core.slots.getD i {}).type = (f.slots.getD i {}).type := by
  simp only [Flit.core, List.getD_eq_getElem?_getD, List.getElem?_map]
  cases f.slots[i]? <;> rfl

theorem getFirstAddress_core (f : Flit) : f.core.getFirstAddress = f.getFirstAddress := by
  unfold Flit.getFirstAddress Flit.core
  rw [List.find?_map, show (fun s : Slot => decide (s.type ≠ .empty)) ∘ Slot.core =
    fun s => decide (s.type ≠ .empty) from rfl]
  cases f.slots.find? fun s => decide (s.type ≠ .empty) <;> rfl

theorem decodeDestination_meets (hi : s.Implements x) {f : Flit} :
    (s.switch.decodeDestination f).Meets
      (fun k => ∀ hk : k < n, x.RoutesTo cfg f.core ⟨k, hk⟩) Failure.IsOther := by
  unfold CXLSwitch.decodeDestination Net.RoutesTo
  rw [slots_core_getD, getFirstAddress_core]
  refine .ite (fun h hk => ?_) fun h => ?_
  case _ => rw [if_pos h]; exact hi.prev
  refine ((Except.meets_self _).mono (fun _ => id) fun e he => ?_).bind fun d hd hk => ?_
  case _ => rw [destinationDevice_meets.of_error he]; exact trivial
  case _ => rwa [if_neg h]

theorem route_meets (hi : s.Implements x) : (s.switch.route s.currTick).Meets
    (fun w => Goes x { s with switch := w }) Failure.IsOther := by
  unfold CXLSwitch.route
  split
  case _ => exact Except.meets_pure.mpr (.refl hi)
  case _ f hf =>
    refine (decodeDestination_meets hi).bind fun k hk => ?_
    split
    case isFalse => simp [Failure.IsOther]
    case isTrue hkn =>
      refine (CXLBuf.enqueue_meets.mono (fun _ => id) fun e he => ?_).bind fun b hb => ?_
      case _ => rw [he.left]; simp [Failure.IsOther]
      have hq := CXLSwitch.readyHead?_eq hf
      have hout : x.host.out = f.core :: (s.switch.arbNocH2D.dequeue.q ++ s.switch.upstreamRx.q ++
          s.busFromHost.flitSlots ++ s.host.tx.txBuffer.q).map Flit.core := by
        rw [hi.host.view]
        simp [CXLHost.node, hq]
      have hd := hi.device ⟨k, hkn⟩
      have hdev : (s.devices ⟨k, hkn⟩).Implements ((s.busToDevice ⟨k, hkn⟩).flitSlots ++ b.q)
          ((s.switch.downstreamRx ⟨k, hkn⟩).q ++ (s.busFromDevice ⟨k, hkn⟩).flitSlots)
          { x.dev ⟨k, hkn⟩ with inp := (x.dev ⟨k, hkn⟩).inp ++ [f.core] } := by
        refine ⟨hd.shape, hd.mem, hd.dram, ?_⟩
        rw [hd.view]
        simp [CXLDevice.node, hb, CXLSwitch.receive, Flit.core]
      have hu := hi.update ⟨k, hkn⟩ hdev
      refine ⟨_, .single (.route hout (hk hkn)), ?_, ?_, rfl, hi.port, hi.expected, hi.moved⟩
      case _ =>
        refine ⟨hi.host.shape, hi.host.sent, hi.host.live, hi.host.numbered, ?_⟩
        rw [hi.host.view]
        simp [CXLHost.node]
      case _ => simpa using hu.device

theorem updatePort_goes (hi : s.Implements x) : Goes x { s with switch := s.switch.updatePort } := by
  unfold CXLSwitch.updatePort
  split
  case isTrue h =>
    refine ⟨_, .single (.turn (hi.expected.trans h)), hi.host, hi.device, hi.prev, ?_, hi.expected,
      hi.moved⟩
    simp only [hi.port]
  case isFalse => exact .refl hi

theorem move_goes (hi : s.Implements x) (port : Fin n) (hp : s.switch.currPort = port.val) {f : Flit}
    (hq : (s.switch.downstreamRx port).q = f :: (s.switch.downstreamRx port).dequeue.q)
    {b : CXLBuf cfg.switchBufSize Flit} {t : Int}
    (hb : b.q = s.switch.arbNocD2H.q ++ [CXLSwitch.receive t f]) :
    Goes x { s with switch := CXLSwitch.updateRollover { s.switch with
      arbNocD2H    := b
      downstreamRx := Function.update s.switch.downstreamRx port (s.switch.downstreamRx port).dequeue
      moved        := s.switch.moved ++ [(port, f)] } f } := by
  have hd := hi.device port
  have hout : (x.dev port).out = f.core :: ((s.switch.downstreamRx port).dequeue.q ++
      (s.busFromDevice port).flitSlots ++ (s.devices port).tx.txBuffer.q).map Flit.core := by
    rw [hd.view]
    simp only [CXLDevice.node]
    rw [hq]
    simp
  have hdev : (s.devices port).Implements
      ((s.busToDevice port).flitSlots ++ (s.switch.downstreamTx port).q)
      ((s.switch.downstreamRx port).dequeue.q ++ (s.busFromDevice port).flitSlots)
      { x.dev port with out := ((s.switch.downstreamRx port).dequeue.q ++
        (s.busFromDevice port).flitSlots ++ (s.devices port).tx.txBuffer.q).map Flit.core } := by
    refine ⟨hd.shape, hd.mem, hd.dram, ?_⟩
    rw [hd.view]
    rfl
  have hu := hi.update port hdev
  refine ⟨_, .single (.move (hi.port.trans hp) hout), ?_, ?_, hi.prev, hi.port, ?_, ?_⟩
  case _ =>
    refine ⟨hi.host.shape, hi.host.sent, hi.host.live, hi.host.numbered, ?_⟩
    rw [hi.host.view]
    simp [CXLHost.node, CXLSwitch.updateRollover, hb, CXLSwitch.receive, Flit.core]
  case _ => simpa [CXLSwitch.updateRollover] using hu.device
  case _ => simp [CXLSwitch.updateRollover, hi.expected]
  case _ => simp [CXLSwitch.updateRollover, hi.moved]

theorem arbitrate_meets (k : Nat) (hi : s.Implements x) :
    (CXLSwitch.arbitrate s.currTick k s.switch).Meets
      (fun r => Goes x { s with switch := r.2 }) Failure.IsOther := by
  induction k generalizing s x
  case zero => exact Goes.refl hi
  case succ k ih =>
    have hnext : (CXLSwitch.arbitrate s.currTick k s.switch.updatePort).Meets
        (fun r => Goes x { s with switch := r.2 }) Failure.IsOther := by
      obtain ⟨x', hx, hi'⟩ := updatePort_goes hi
      exact (ih hi').imp fun _ hg => hg.head hx
    unfold CXLSwitch.arbitrate
    split
    case isFalse => exact hnext
    case isTrue hp =>
      dsimp only
      split
      case _ f hf =>
        refine (CXLBuf.enqueue_meets.mono (fun _ => id) fun e he => ?_).bind fun b hb => ?_
        case _ => rw [he.left]; simp [Failure.IsOther]
        obtain ⟨x', hx, hi'⟩ := move_goes hi ⟨_, hp⟩ rfl (CXLSwitch.readyHead?_eq hf) hb
        exact Except.meets_pure.mpr ((updatePort_goes hi').head hx)
      case _ => exact hnext.bind fun r hr => Except.meets_pure.mpr hr

end Switch

theorem issueHead_meets (hi : s.Implements x) :
    s.issueHead.Meets (fun r => Goes x r.2) Failure.IsOther := by
  have hlast : CXLHost.Implements { s.host with lastTextToTraceBufDequeue := s.currTick }
      (s.busToHost.flitSlots ++ s.switch.upstreamTx.q ++ s.switch.arbNocD2H.q)
      (s.switch.arbNocH2D.q ++ s.switch.upstreamRx.q ++ s.busFromHost.flitSlots) s.dam x.host :=
    ⟨hi.host.shape, hi.host.sent, hi.host.live, hi.host.numbered.congr rfl rfl rfl,
      hi.host.view⟩
  unfold issueHead
  split
  case _ => exact Except.meets_pure.mpr (.refl hi)
  case _ interval m rest hq =>
    refine .ite (fun _ => ?_) fun _ => Except.meets_pure.mpr (.refl hi)
    refine .ite (fun _ => .ite (fun _ => ?_) fun _ => ?_) fun _ => ?_
    case _ => exact Except.meets_pure.mpr (hi.goes_host (.refl hlast))
    case _ =>
      refine message2RamulatorReq_meets.bind fun r hr => ?_
      refine CXLIfBuf.bufAdd_meets.bind fun b hb => Except.meets_pure.mpr (hi.goes_host ?_)
      exact CXLHost.issueDam_goes hlast hq hr.1 hr.2.1 hb
    case _ =>
      refine (CXLHost.issueToVc_meets hlast hq).bind fun o ho => ?_
      match o with
      | none   => exact Except.meets_pure.mpr (hi.goes_host (.refl hlast))
      | some h => exact Except.meets_pure.mpr (hi.goes_host (ho h rfl))

theorem updateDam_goes (hi : s.Implements x) : Goes x s.updateDam := by
  unfold updateDam
  rw [if_pos hi.host.live.isActive]
  have ⟨hl, hids, _⟩ := Dram.feed_spec hi.host.live
  have ⟨htl, hti⟩ := Dram.tick_spec hl
  exact hi.goes_host (CXLHost.directAttachedReqComplete_goes hi.host htl (hids.symm.trans hti))

-- The calls that move flits from one buffer or bus to the next.
section Hop

theorem Meets.hop {α : Type} {m : Sim α} {P : α → Prop} {f : α → CXLSystem cfg M}
    (hm : m.Meets P Failure.IsOther) (hf : ∀ a, P a → (f a).Implements x) :
    (m >>= fun a => pure (f a)).Meets (Goes x) (Stops cfg x) :=
  (hm.mono (fun _ => id) fun _ => Stops.other).bind fun a ha => Except.meets_pure.mpr (.refl (hf a ha))

theorem busToHost_meets (hi : s.Implements x) :
    (s.perform .busToHost).Meets (Goes x) (Stops cfg x) := by
  refine Meets.hop (CXLBus.update_meets (by simp [Failure.IsOther])) fun r hr => ?_
  refine ⟨?_, hi.device, hi.prev, hi.port, hi.expected, hi.moved⟩
  refine hi.host.hop (t := s.host.tx.lastTransmittedAt) ?_ rfl
  simpa [← List.append_assoc] using hr

theorem busFromHost_meets (hi : s.Implements x) :
    (s.perform .busFromHost).Meets (Goes x) (Stops cfg x) := by
  refine Meets.hop (CXLBus.update_meets (by simp [Failure.IsOther])) fun r hr => ?_
  refine ⟨?_, hi.device, hi.prev, hi.port, hi.expected, hi.moved⟩
  refine hi.host.hop (t := s.host.tx.lastTransmittedAt) rfl ?_
  have := map_core_middle s.switch.arbNocH2D.q s.host.tx.txBuffer.q hr
  simpa using this

theorem forwardH2D_meets (hi : s.Implements x) :
    (s.perform .forwardH2D).Meets (Goes x) (Stops cfg x) := by
  refine Meets.hop (CXLSwitch.forward_meets (by simp [Failure.IsOther])) fun r hr => ?_
  refine ⟨?_, hi.device, hi.prev, hi.port, hi.expected, hi.moved⟩
  refine hi.host.hop (t := s.host.tx.lastTransmittedAt) rfl ?_
  simpa [← List.append_assoc] using hr

theorem forwardD2H_meets (hi : s.Implements x) :
    (s.perform .forwardD2H).Meets (Goes x) (Stops cfg x) := by
  refine Meets.hop (CXLSwitch.forward_meets (by simp [Failure.IsOther])) fun r hr => ?_
  refine ⟨?_, hi.device, hi.prev, hi.port, hi.expected, hi.moved⟩
  refine hi.host.hop (t := s.host.tx.lastTransmittedAt) ?_ rfl
  simpa using hr

theorem sendUp_meets (hi : s.Implements x) :
    (s.perform .sendUp).Meets (Goes x) (Stops cfg x) := by
  refine Meets.hop CXLSwitch.sendOut_meets fun r hr => ?_
  refine ⟨?_, hi.device, hi.prev, hi.port, hi.expected, hi.moved⟩
  refine hi.host.hop (t := s.host.tx.lastTransmittedAt) ?_ rfl
  have := map_core_middle s.host.rx.rxBuffer.q s.switch.arbNocD2H.q hr
  simpa using this

theorem transmitHost_meets (hi : s.Implements x) :
    (s.perform .transmitHost).Meets (Goes x) (Stops cfg x) := by
  refine Meets.hop (P := fun r => ∃ b t, r.1 = { s.host with
      tx := { s.host.tx with txBuffer := b, lastTransmittedAt := t } } ∧
    (r.2.flitSlots ++ b.q).map Flit.core =
      (s.busFromHost.flitSlots ++ s.host.tx.txBuffer.q).map Flit.core) ?_ fun r hr => ?_
  case _ =>
    refine TxPort.transmit_meets.bind fun r hr => Except.meets_pure.mpr ?_
    have ⟨b, t, h, hq⟩ := hr
    exact ⟨b, t, by simp [h], hq⟩
  have ⟨b, t, h, hq⟩ := hr
  rw [h]
  refine ⟨?_, hi.device, hi.prev, hi.port, hi.expected, hi.moved⟩
  refine hi.host.hop rfl ?_
  simpa using hq

theorem Implements.hop_device (hi : s.Implements x) (i : Fin n) {d : CXLDevice cfg M}
    {down up : CXLBus cfg.busSize} {tx rx : CXLBuf cfg.switchBufSize Flit}
    (hd : d.Implements (down.flitSlots ++ tx.q) (rx.q ++ up.flitSlots) (x.dev i)) :
    CXLSystem.Implements { s with
        devices       := Function.update s.devices i d
        switch        := { s.switch with
          downstreamTx := Function.update s.switch.downstreamTx i tx
          downstreamRx := Function.update s.switch.downstreamRx i rx }
        busToDevice   := Function.update s.busToDevice i down
        busFromDevice := Function.update s.busFromDevice i up } x := by
  simpa [Net.setDev_self] using hi.update i hd

theorem busToDevice_meets (hi : s.Implements x) (i : Fin n) :
    (s.perform (.busToDevice i)).Meets (Goes x) (Stops cfg x) := by
  refine Meets.hop (CXLBus.update_meets (by simp [Failure.IsOther])) fun r hr => ?_
  have hd := (hi.device i).hop (t := (s.devices i).tx.lastTransmittedAt) (b := r.2)
    (r.1.flitSlots ++ (s.switch.downstreamTx i).q) _ (by simpa [← List.append_assoc] using hr) rfl
  simpa [setDevice] using hi.hop_device i hd

theorem busFromDevice_meets (hi : s.Implements x) (i : Fin n) :
    (s.perform (.busFromDevice i)).Meets (Goes x) (Stops cfg x) := by
  refine Meets.hop (CXLBus.update_meets (by simp [Failure.IsOther])) fun r hr => ?_
  have hd := (hi.device i).hop (t := (s.devices i).tx.lastTransmittedAt)
    (c := (s.devices i).tx.txBuffer) _ (r.2.q ++ r.1.flitSlots) rfl
    (by simpa [← List.append_assoc] using hr)
  simpa using hi.hop_device i hd

theorem sendDown_meets (hi : s.Implements x) (i : Fin n) :
    (s.perform (.sendDown i)).Meets (Goes x) (Stops cfg x) := by
  refine Meets.hop CXLSwitch.sendOut_meets fun r hr => ?_
  have hd := (hi.device i).hop (t := (s.devices i).tx.lastTransmittedAt)
    (b := (s.devices i).rx.rxBuffer) (r.2.2.flitSlots ++ r.1.q) _ (by simpa using hr) rfl
  have h := hi.hop_device i hd
  simp only [Function.update_eq_self] at h
  exact ⟨h.host, h.device, h.prev, h.port, h.expected, h.moved⟩

theorem transmitDevice_meets (hi : s.Implements x) (i : Fin n) :
    (s.perform (.transmitDevice i)).Meets (Goes x) (Stops cfg x) := by
  refine Meets.hop (P := fun r => ∃ b t, r.1 = { s.devices i with
      tx := { (s.devices i).tx with txBuffer := b, lastTransmittedAt := t } } ∧
    (r.2.flitSlots ++ b.q).map Flit.core =
      ((s.busFromDevice i).flitSlots ++ (s.devices i).tx.txBuffer.q).map Flit.core) ?_ fun r hr => ?_
  case _ =>
    refine TxPort.transmit_meets.bind fun r hr => Except.meets_pure.mpr ?_
    have ⟨b, t, h, hq⟩ := hr
    exact ⟨b, t, by simp [h], hq⟩
  have ⟨b, t, h, hq⟩ := hr
  have hd := (hi.device i).hop (t := t) (c := b) _ ((s.switch.downstreamRx i).q ++ r.2.flitSlots)
    rfl (by simpa using hq)
  rw [h]
  simpa [setDevice] using hi.hop_device i hd

end Hop

theorem perform_meets (hi : s.Implements x) (a : Action n) :
    (s.perform a).Meets (Goes x) (Stops cfg x) := by
  have hhost {m : Sim (CXLHost cfg)} (hm : m.Meets (CXLHost.Goes x.host
      (s.busToHost.flitSlots ++ s.switch.upstreamTx.q ++ s.switch.arbNocD2H.q)
      (s.switch.arbNocH2D.q ++ s.switch.upstreamRx.q ++ s.busFromHost.flitSlots) s.dam)
      (CXLHost.Stops cfg x.host)) :
      (m >>= fun h => pure { s with host := h }).Meets (Goes x) (Stops cfg x) :=
    (hm.mono (fun _ => id) fun _ => .host).bind fun _ hh => Except.meets_pure.mpr (hi.goes_host hh)
  have hdev {i} {m : Sim (CXLDevice cfg M)} (hm : m.Meets (CXLDevice.Goes (x.dev i)
      ((s.busToDevice i).flitSlots ++ (s.switch.downstreamTx i).q)
      ((s.switch.downstreamRx i).q ++ (s.busFromDevice i).flitSlots))
      (CXLDevice.Stops cfg (x.dev i))) :
      (m >>= fun d => pure (s.setDevice i d)).Meets (Goes x) (Stops cfg x) :=
    (hm.mono (fun _ => id) fun _ => .device).bind fun _ hd => Except.meets_pure.mpr (hi.goes_device hd)
  have hother {α : Type} {m : Sim α} {f : α → CXLSystem cfg M}
      (hm : m.Meets (fun a => Goes x (f a)) Failure.IsOther) :
      (m >>= fun a => pure (f a)).Meets (Goes x) (Stops cfg x) :=
    (hm.mono (fun _ => id) fun _ => .other).bind fun _ hg => Except.meets_pure.mpr hg
  cases a
  case busToHost         => exact busToHost_meets hi
  case busFromHost       => exact busFromHost_meets hi
  case busToDevice i     => exact busToDevice_meets hi i
  case busFromDevice i   => exact busFromDevice_meets hi i
  case forwardH2D        => exact forwardH2D_meets hi
  case route             => exact hother (route_meets hi)
  case sendDown i        => exact sendDown_meets hi i
  case arbitrate         => exact hother (arbitrate_meets n hi)
  case forwardD2H        => exact forwardD2H_meets hi
  case sendUp            => exact sendUp_meets hi
  case setSkipCycle f    =>
    exact .refl ⟨hi.host, hi.device, hi.prev, hi.port, hi.expected, hi.moved⟩
  case packDevice i      => exact hdev (CXLDevice.flitPacker_meets (hi.device i))
  case unpackDevice i    => exact hdev (CXLDevice.flitUnpacker_meets (hi.device i))
  case sendToRamulator i => exact hdev (CXLDevice.sendToRamulator_meets (hi.device i))
  case transmitDevice i  => exact transmitDevice_meets hi i
  case updateDram i      => exact hdev (CXLDevice.updateDram_meets (hi.device i))
  case issueHead         => exact hother (issueHead_meets hi)
  case readTrace         =>
    exact hother ((CXLHost.readTrace_meets hi.host).imp fun _ h => hi.goes_host (.refl h))
  case finishTrace       =>
    exact hi.goes_host (.refl ⟨hi.host.shape, hi.host.sent, hi.host.live,
      hi.host.numbered.congr rfl rfl rfl, hi.host.view⟩)
  case checkCreds        => exact hother ((assert_meets fun _ => trivial).imp fun _ _ => .refl hi)
  case packHost          => exact hhost (CXLHost.flitPacker_meets hi.host)
  case transmitHost      => exact transmitHost_meets hi
  case unpackHost        => exact hhost (CXLHost.flitUnpacker_meets hi.host)
  case completeReq       => exact hhost (CXLHost.checkIfReqCompleted_meets hi.host)
  case checkDAM          => exact hother ((assert_meets fun _ => trivial).imp fun _ _ => .refl hi)
  case updateDam         => exact updateDam_goes hi
  case setTick t         =>
    exact .refl ⟨hi.host, hi.device, hi.prev, hi.port, hi.expected, hi.moved⟩

section Init

theorem sender_init {dir : Dir} {vcSize bufSize : Nat} {σ : Type} (flow : σ) :
    (TxPort.init flow : TxPort dir vcSize bufSize σ).sender (.fresh 0 {}) = .init flow := by
  have hm {op : Opcode} : (VcArray.init : VcArray vcSize op).msgs = 0 :=
    Finset.sum_eq_zero fun _ _ => rfl
  simp [TxPort.sender, TxPort.init, Sender.init, hm]

theorem shape_init {dir : Dir} {vcSize bufSize : Nat} {σ : Type} (rules : PackerRules dir σ)
    (flow : σ) :
    (TxPort.init flow : TxPort dir vcSize bufSize σ).Shape rules (.fresh 0 {}) :=
  .idle rfl ⟨Frame.fresh_valid _ (by omega), nofun, rfl, fun h => absurd h (by simp [Frame.fresh])⟩

theorem init_implements (trace : List Char) :
    (init trace : CXLSystem cfg M).Implements (.init cfg) := by
  have hk : KeysMatch ∅ := fun _ he => absurd he List.not_mem_nil
  have hd : ({} : Dram M).Live := ⟨nofun, nofun, nofun⟩
  have hids : ({} : Dram M).ids = 0 := by simp [Dram.ids, M.outstanding_init]
  refine ⟨⟨shape_init _ _, hk, hd, ⟨rfl, le_rfl, rfl⟩, ?_⟩, fun _ => ⟨shape_init _ _, hk, hd, ?_⟩,
    rfl, rfl, rfl, rfl⟩
  case _ =>
    ext1
    case tx  => exact (sender_init _).symm
    case dam => exact hids.symm
    all_goals rfl
  case _ =>
    ext1
    case tx   => exact (sender_init _).symm
    case dram => exact hids.symm
    all_goals rfl

end Init

-- The abstract system reaches a state of which the concrete one is an implementation.
def Tracks (s : CXLSystem cfg M) : Prop :=
  ∃ x, x.Reachable cfg ∧ s.Implements x

theorem perform_tracks {a : Action n} (h : s.Tracks) : (s.perform a).Meets Tracks
    (fun e => ∃ x, Net.Reachable cfg x ∧ x.Fails cfg e) := by
  have ⟨x, hx, hi⟩ := h
  refine (perform_meets hi a).mono (fun s' ⟨x', hs, hi'⟩ => ?_) fun e ⟨x', hs, he⟩ => ?_
  case _ => exact ⟨x', hx.trans hs, hi'⟩
  case _ => exact ⟨x', hx.trans hs, he⟩

theorem tick_tracks {b : Build} (h : s.Tracks) : (s.tick b).Meets Tracks
    (fun e => ∃ x, Net.Reachable cfg x ∧ x.Fails cfg e) :=
  tick_meets (fun _ _ => perform_tracks) h

theorem Reachable.tracks {b : Build} {trace : List Char} (h : Reachable b trace s) : s.Tracks := by
  induction h
  case init         => exact ⟨_, .refl, init_implements trace⟩
  case tick _ ht ih => exact (tick_tracks ih).of_ok ht

theorem Reachable.run {b : Build} {trace : List Char} {s' : CXLSystem cfg M} (k : Nat)
    (h : Reachable b trace s) (hr : s.run b k = .ok s') : Reachable b trace s' := by
  induction k generalizing s
  case zero =>
    cases hr
    exact h
  case succ k ih =>
    have ⟨s₁, h₁, h₂⟩ := Except.bind_eq_ok.mp hr
    exact ih (h.tick h₁) h₂

end CXLSystem

end CXL
