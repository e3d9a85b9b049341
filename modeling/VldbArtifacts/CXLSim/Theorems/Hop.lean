import VldbArtifacts.CXLSim.Theorems.Basic
import VldbArtifacts.CXLSim.Net

-- A flit that goes from one buffer or bus to the next keeps its core and its place in the queue.

namespace CXL

variable {size busSize bufSize n : Nat} {params : CXLParams} {tick : Int} {name : BufName}

theorem map_core_middle {fs gs : List Flit} (pre post : List Flit)
    (h : fs.map Flit.core = gs.map Flit.core) :
    (pre ++ fs ++ post).map Flit.core = (pre ++ gs ++ post).map Flit.core := by
  simp [h]

namespace CXLBus

theorem addToBus_meets {b : CXLBus size} {f : Flit} : (b.addToBus tick f).Meets
    (fun b' => b'.flitSlots = b.flitSlots ++ [f]) Failure.IsOther := by
  unfold addToBus
  split
  case isTrue  => exact trivial
  case isFalse => rfl

theorem update_meets {ty : BusTerminals} {b : CXLBus size} {buf : CXLBuf bufSize Flit}
    (hn : (Failure.addingToFullBuffer name).IsOther) : (b.update params tick ty name buf).Meets
      (fun r => (r.2.q ++ r.1.flitSlots).map Flit.core = (buf.q ++ b.flitSlots).map Flit.core)
      Failure.IsOther := by
  unfold update
  refine (assert_meets fun _ => trivial).bind fun _ _ => ?_
  refine (assert_meets fun _ => trivial).bind fun _ _ => ?_
  refine .ite (fun h => ?_) fun _ => rfl
  obtain ⟨fs, t, hfs⟩ := b
  match fs, hfs with
  | [], _       => rfl
  | f :: fs, _  =>
    unfold sendToNode
    refine .ite (fun _ => ?_) fun _ => rfl
    refine (CXLBuf.enqueue_meets.mono (fun _ => id) fun e he => ?_).bind fun b hb => ?_
    case _ => exact he.left ▸ hn
    case _ => simp [hb]

end CXLBus

theorem TxPort.transmit_meets {dir : Dir} {vcSize : Nat} {σ : Type} {rules : PackerRules dir σ}
    {p : TxPort dir vcSize bufSize σ} {bus : CXLBus busSize} :
    (p.transmit rules tick params bus).Meets
      (fun r => ∃ b t, r.1 = { p with txBuffer := b, lastTransmittedAt := t } ∧
        (r.2.flitSlots ++ b.q).map Flit.core = (bus.flitSlots ++ p.txBuffer.q).map Flit.core)
      Failure.IsOther := by
  unfold transmit
  split
  case _ h => exact ⟨p.txBuffer, p.lastTransmittedAt, rfl, rfl⟩
  case _ f fs h =>
    refine .ite (fun _ => ⟨p.txBuffer, p.lastTransmittedAt, rfl, rfl⟩) fun _ => ?_
    refine CXLBus.addToBus_meets.bind fun b hb => ⟨p.txBuffer.dequeue, tick, rfl, ?_⟩
    simp [hb, CXLBuf.dequeue, h]

namespace CXLSwitch

variable {cfg : Config n}

theorem readyHead?_eq {b : CXLBuf size Flit} {delay : Int} {f : Flit}
    (h : readyHead? tick b delay = some f) : b.q = f :: b.dequeue.q :=
  List.eq_cons_of_mem_head? (Option.filter_eq_some_iff.mp h).left

theorem forward_meets {delay : Int} {src dst : CXLBuf size Flit}
    (hn : (Failure.addingToFullBuffer name).IsOther) : (forward tick delay name src dst).Meets
      (fun r => (r.2.q ++ r.1.q).map Flit.core = (dst.q ++ src.q).map Flit.core)
      Failure.IsOther := by
  unfold forward
  split
  case _ => rfl
  case _ f h =>
    refine (CXLBuf.enqueue_meets.mono (fun _ => id) fun e he => ?_).bind fun b hb => ?_
    case _ => exact he.left ▸ hn
    case _ => simp [hb, readyHead?_eq h, receive]

theorem sendOut_meets {member : TimeField} {buf : CXLBuf size Flit} {lt : Nat}
    {bus : CXLBus busSize} : (sendOut tick params member buf lt bus).Meets
      (fun r => (r.2.2.flitSlots ++ r.1.q).map Flit.core = (bus.flitSlots ++ buf.q).map Flit.core)
      Failure.IsOther := by
  unfold sendOut
  split
  case _ => rfl
  case _ f h =>
    refine .ite (fun _ => ?_) fun _ => rfl
    refine CXLBus.addToBus_meets.bind fun b hb => ?_
    simp [hb, readyHead?_eq h]

end CXLSwitch

end CXL
