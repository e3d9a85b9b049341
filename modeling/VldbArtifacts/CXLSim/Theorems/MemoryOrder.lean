import VldbArtifacts.CXLSim.Theorems.Memory
import VldbArtifacts.CXLSim.Theorems.Failures

-- Requests reach a memory in the order in which they were put into its input buffer, whatever the
-- memory refuses.

namespace CXL

-- The memory `M` with a record of the requests it has accepted.
def Memory.logged (M : Memory) : Memory where
  State                    := M.State × List Request
  init                     := (M.init, [])
  send s r                 :=
    ((M.send s.1 r).1, (M.send s.1 r).2, if (M.send s.1 r).1 then s.2 ++ [r] else s.2)
  tick s                   := ((M.tick s.1).1, (M.tick s.1).2, s.2)
  pendingRequests s        := M.pendingRequests s.1
  setHighWriteqWatermark s := (M.setHighWriteqWatermark s.1, s.2)
  outstanding s            := M.outstanding s.1
  outstanding_init         := M.outstanding_init
  outstanding_send s r     := M.outstanding_send s.1 r
  outstanding_tick s       := M.outstanding_tick s.1
  outstanding_watermark s  := M.outstanding_watermark s.1

-- What the registers hold after the request has been taken out of the input buffer.
def RamulatorReq.request (r : RamulatorReq) : Request :=
  ⟨r.reqAddr, r.reqType, r.reqId⟩

theorem CXLIfBuf.bufAdd_overflows {es : List Failure} {b : CXLIfBuf} {r : RamulatorReq}
    (h : .overflowRamulatorBuffer ∈ es) :
    (b.bufAdd r).Meets (fun b' => b'.buf = b.buf ++ [r]) (· ∈ es) := by
  unfold bufAdd
  exact .ite (fun _ => h) fun _ => rfl

namespace Dram

variable {M : Memory}

def accepted (d : Dram M.logged) : List Request :=
  d.memory.2

-- The request that the memory has refused and that is offered again.
def stalled (d : Dram M) : List Request :=
  if d.stall then [d.reg] else []

-- The requests `rs` have been put into the input buffer so far.
structure InOrder (rs : List RamulatorReq) (d : Dram M.logged) : Prop where
  requests : rs.map RamulatorReq.request =
    d.accepted ++ d.stalled ++ d.inpBuf.buf.map RamulatorReq.request
  stall    : d.stall → d.status = .valid

variable {d : Dram M.logged} {rs : List RamulatorReq}

theorem InOrder.bufAdd {r : RamulatorReq} {b : CXLIfBuf} (hb : b.buf = d.inpBuf.buf ++ [r])
    (h : InOrder rs d) : InOrder (rs ++ [r]) { d with inpBuf := b } where
  requests := by
    rw [List.map_append, h.requests, hb, List.map_append, List.append_assoc]
    rfl
  stall    := h.stall

-- The same when the next request has been fetched, but has not been offered to the memory yet.
def Fetched (rs : List RamulatorReq) (d : Dram M.logged) : Prop :=
  if d.status = .valid then
    rs.map RamulatorReq.request = d.accepted ++ d.reg :: d.inpBuf.buf.map RamulatorReq.request
  else
    InOrder rs d

theorem InOrder.getDramtraceRequest (h : InOrder rs d) (hs : d.stall = false) :
    Fetched rs d.getDramtraceRequest := by
  have hr := h.requests
  simp only [stalled, accepted, hs, Bool.false_eq_true, if_false, List.append_nil] at hr
  unfold Dram.getDramtraceRequest
  split
  case h_1 hb => exact ⟨by simpa [stalled, accepted, hs, hb] using hr, by simp [hs]⟩
  case h_2 r q hb =>
    by_cases hend : r.type = .end
    case pos =>
      rw [if_pos hend]
      exact ⟨by simpa [stalled, accepted, hs] using hr, by simp [hs]⟩
    case neg =>
      rw [if_neg hend]
      simpa [Fetched, accepted, RamulatorReq.request, hb] using hr

theorem InOrder.fetched (h : InOrder rs d) :
    Fetched rs (if d.status ≠ .end ∧ ¬d.stall then d.getDramtraceRequest else d) := by
  cases hs : d.stall
  case true =>
    have hr := h.requests
    simp only [stalled, hs, if_true] at hr
    simpa [Fetched, h.stall hs] using hr
  case false =>
    by_cases hend : d.status = .end
    case pos => simpa [Fetched, hend] using h
    case neg =>
      rw [if_pos ⟨hend, by simp⟩]
      exact h.getDramtraceRequest hs

-- The memory accepts the registers, or they are stalled.
theorem InOrder.feed (h : InOrder rs d) : InOrder rs d.feed.2 := by
  have hf := h.fetched
  unfold Dram.feed
  generalize (if d.status ≠ .end ∧ ¬d.stall then d.getDramtraceRequest else d) = d at hf
  dsimp only
  cases hs : d.status <;> simp only [Fetched, hs, if_true, reduceCtorEq, if_false] at hf ⊢
  case valid =>
    refine ⟨?_, fun _ => rfl⟩
    rw [hf]
    cases ha : (M.send d.memory.1 d.reg).1 <;> simp [accepted, stalled, Memory.logged, ha]
  case empty => exact hf
  case «end» => exact ⟨hf.requests, fun h => hs ▸ hf.stall h⟩

theorem InOrder.tick (h : InOrder rs d) : InOrder rs d.tick.2 :=
  ⟨h.requests, h.stall⟩

theorem init_inOrder : InOrder [] ({} : Dram M.logged) :=
  ⟨rfl, nofun⟩

theorem InOrder.update (h : InOrder rs d) :
    InOrder rs (if d.isActive then d.feed.2.tick.2 else d) := by
  split
  case isTrue  => exact h.feed.tick
  case isFalse => exact h

end Dram

-- What happens to the owner of a memory: a request is put into the input buffer, the memory is
-- updated, or the owner does anything else.
inductive DramCall (σ : Type)
  | bufAdd (r : RamulatorReq)
  | update (currTick : Int)
  | elsewhere (s : σ)

namespace DramCall

variable {σ : Type}

def pushed : DramCall σ → List RamulatorReq
  | bufAdd r    => [r]
  | update _    => []
  | elsewhere _ => []

-- A run keeps the order if each of its calls does.
theorem run_inOrder {M : Memory} {dram : σ → Dram M.logged} {call : σ → DramCall σ → Sim σ}
    {es : List Failure} (hcall : ∀ s c rs, (dram s).InOrder rs →
      (call s c).Meets (fun s' => (dram s').InOrder (rs ++ c.pushed)) (· ∈ es))
    (cs : List (DramCall σ)) {s : σ} {rs : List RamulatorReq} (h : (dram s).InOrder rs) :
    (cs.foldlM call s).Meets (fun s' => (dram s').InOrder (rs ++ cs.flatMap pushed)) (· ∈ es) := by
  induction cs generalizing s rs
  case nil => simpa using h
  case cons c cs hi =>
    rw [List.foldlM_cons, List.flatMap_cons, ← List.append_assoc]
    exact (hcall s c rs h).bind fun s' hs' => hi hs'

end DramCall

variable {n : Nat} {cfg : Config n} {M : Memory}

namespace CXLDevice

def dramCall (d : CXLDevice cfg M) : DramCall (CXLDevice cfg M) → Sim (CXLDevice cfg M)
  | .bufAdd r     => do return { d with dram := { d.dram with inpBuf := ← d.dram.inpBuf.bufAdd r } }
  | .update t     => d.updateDram t
  | .elsewhere d' => return { d' with dram := d.dram }

theorem requestAccepted_dram (currTick : Int) (d : CXLDevice cfg M) (o : Option Request) :
    (requestAccepted currTick d o).Meets (fun d' => d'.dram = d.dram) fun _ => True := by
  unfold requestAccepted
  split
  case h_1 => rfl
  case h_2 => split <;> trivial

theorem updateDram_dram (currTick : Int) (d : CXLDevice cfg M) : (d.updateDram currTick).Meets
    (fun d' => d'.dram = if d.dram.isActive then d.dram.feed.2.tick.2 else d.dram)
    fun _ => True := by
  unfold updateDram
  refine .ite (fun ha => ?_) fun ha => by simp [ha]
  refine (requestAccepted_dram ..).bind fun d₁ hd₁ => ?_
  refine (Except.Meets.any _).bind fun d₂ _ => ?_
  simp [ha, hd₁]

theorem dramCall_inOrder (i : Fin n) (d : CXLDevice cfg M.logged)
    (c : DramCall (CXLDevice cfg M.logged)) (rs : List RamulatorReq) (h : d.dram.InOrder rs) :
    (d.dramCall c).Meets (fun d' => d'.dram.InOrder (rs ++ c.pushed))
      (· ∈ .overflowRamulatorBuffer :: (Action.updateDram i).failures) := by
  cases c
  case bufAdd r =>
    exact (CXLIfBuf.bufAdd_overflows (List.mem_cons_self ..)).bind fun b hb => h.bufAdd hb
  case update t =>
    refine Except.meets_iff.mpr ⟨fun d' hd' => ?_, fun e he => ?_⟩
    case _ =>
      have hu := (updateDram_dram t d).of_ok hd'
      rw [hu, DramCall.pushed, List.append_nil]
      exact h.update
    case _ => exact List.mem_cons_of_mem _ ((d.updateDram_raises t i).of_error he)
  case elsewhere d' => simpa [dramCall, DramCall.pushed] using h

end CXLDevice

namespace CXLSystem

def damCall (s : CXLSystem cfg M) : DramCall (CXLSystem cfg M) → Sim (CXLSystem cfg M)
  | .bufAdd r     => do return { s with dam := { s.dam with inpBuf := ← s.dam.inpBuf.bufAdd r } }
  | .update t     => return updateDam { s with currTick := t }
  | .elsewhere s' => return { s' with dam := s.dam }

theorem updateDam_dam (s : CXLSystem cfg M) :
    s.updateDam.dam = if s.dam.isActive then s.dam.feed.2.tick.2 else s.dam := by
  unfold updateDam
  split <;> rfl

theorem damCall_inOrder (s : CXLSystem cfg M.logged) (c : DramCall (CXLSystem cfg M.logged))
    (rs : List RamulatorReq) (h : s.dam.InOrder rs) :
    (s.damCall c).Meets (fun s' => s'.dam.InOrder (rs ++ c.pushed))
      (· ∈ [.overflowRamulatorBuffer]) := by
  cases c
  case bufAdd r =>
    exact (CXLIfBuf.bufAdd_overflows (List.mem_cons_self ..)).bind fun b hb => h.bufAdd hb
  case update t =>
    simp only [damCall, Except.meets_pure, DramCall.pushed, List.append_nil, updateDam_dam]
    exact h.update
  case elsewhere s' => simpa [damCall, DramCall.pushed] using h

end CXLSystem

-- All that has been put into the input buffer of a device or of the direct attached memory has been
-- accepted in this order, or it is stalled or waits in the buffer.
theorem requests_accepted_in_order (i : Fin n) (trace : List Char)
    (ds : List (DramCall (CXLDevice cfg M.logged)))
    (cs : List (DramCall (CXLSystem cfg M.logged))) :
    (ds.foldlM CXLDevice.dramCall .init).Meets
      (fun d => (ds.flatMap DramCall.pushed).map RamulatorReq.request =
        d.dram.accepted ++ d.dram.stalled ++ d.dram.inpBuf.buf.map RamulatorReq.request)
      (· ∈ .overflowRamulatorBuffer :: (Action.updateDram i).failures) ∧
    (cs.foldlM CXLSystem.damCall (.init trace)).Meets
      (fun s => (cs.flatMap DramCall.pushed).map RamulatorReq.request =
        s.dam.accepted ++ s.dam.stalled ++ s.dam.inpBuf.buf.map RamulatorReq.request)
      (· ∈ [.overflowRamulatorBuffer]) := by
  have hd : (CXLDevice.init : CXLDevice cfg M.logged).dram.InOrder [] := Dram.init_inOrder
  have hs : (CXLSystem.init trace : CXLSystem cfg M.logged).dam.InOrder [] := Dram.init_inOrder
  have hd := DramCall.run_inOrder (CXLDevice.dramCall_inOrder i) ds hd
  have hs := DramCall.run_inOrder CXLSystem.damCall_inOrder cs hs
  exact ⟨hd.imp fun _ h => h.requests, hs.imp fun _ h => h.requests⟩

end CXL
