import Mathlib.Data.List.Forall2
import VldbArtifacts.Ramulator.Theorems.Memory

-- The memory of a device is a memory as the simulator expects it: it calls back what it accepts, once.

namespace Ramulator

open DDR4

namespace Memory

variable {spec : DDR4} {log : Log} {m m' : Memory}

theorem waiting_send (h : Seen spec log m) (hspec : spec.Valid) (req : CXL.Request) :
    (m.send spec req).2.waiting.map Prod.fst =
      if (m.send spec req).1 ∧ req.type ≠ .refresh then req ::ₘ m.waiting.map Prod.fst
      else m.waiting.map Prod.fst := by
  obtain ⟨k, c, hc, hbank, hsend, -⟩ := send_eq hspec.aligned h.length req
  have hwait := ((h.ctrl k c hc).inv.enqueue (fits_mapAddr hbank) rfl).2
  have hsum (l : List Controller) : (l.map Controller.waiting).sum = (Multiset.map Controller.waiting l).sum := by
    rw [Multiset.map_coe, Multiset.sum_coe]
  rw [hsend]
  simp only [waiting, hsum, coe_set hc, coe_eq_cons_eraseIdx hc, Multiset.map_cons, Multiset.sum_cons, hwait]
  split <;> simp [Request.sent]

theorem sum_waiting {ctrls : List Controller} {res : List (Controller.Outcome × Controller)}
    (h : List.Forall₂ (fun c p => c.waiting = Multiset.map Request.sent p.1.calledBack + p.2.waiting) ctrls res) :
    (ctrls.map Controller.waiting).sum =
      Multiset.map Request.sent ((res.map (·.1)).flatMap Controller.Outcome.calledBack) +
        ((res.map (·.2)).map Controller.waiting).sum := by
  induction h
  case nil => simp
  case cons hwait _ ih =>
    simp only [List.map_cons, List.sum_cons, List.flatMap_cons, ← Multiset.coe_add, Multiset.map_add, hwait, ih]
    abel

theorem waiting_tick (h : Seen spec log m) (hspec : spec.Valid) {outs : List Controller.Outcome}
    (hok : m.tick spec = .ok (outs, m')) :
    m.waiting = Multiset.map Request.sent (outs.flatMap Controller.Outcome.calledBack) + m'.waiting := by
  obtain ⟨res, hres, hok⟩ := Except.bind_eq_ok.mp hok
  obtain ⟨rfl, rfl⟩ := Prod.mk.inj (Except.ok.inj hok)
  have hinv : ∀ c ∈ m.ctrls, ∃ k is, Controller.Inv spec k is c := by
    intro c hc
    obtain ⟨k, hk⟩ := List.mem_iff_getElem?.mp hc
    exact ⟨k, _, (h.ctrl k c hk).inv⟩
  have hall := (List.forall₂_and_left _ _).mpr ⟨hinv, Except.forall₂_of_mapM hres⟩
  refine sum_waiting (hall.imp ?_)
  rintro c p ⟨⟨k, is, hc⟩, hp⟩
  exact ((hc.tick hspec.latency).of_ok hp).waiting

-- A memory that a run leads to. The refresh requests that were sent are kept, since no callback answers them.
structure State (spec : DDR4) where
  memory    : Memory
  refreshes : List CXL.Request
  reached   : ∃ log, Reaches spec log memory

end Memory

-- The memory of a device. The simulator stops where an assertion fails.
def memory (spec : DDR4) (hspec : spec.Valid) : CXL.Memory where
  State := Memory.State spec
  init  := ⟨.new spec {} .roBaRaCoCh, [], _, .new {} .roBaRaCoCh⟩
  send s req :=
    let accepted := (s.memory.send spec req).1
    (accepted, {
      memory    := (s.memory.send spec req).2
      refreshes := if accepted ∧ req.type = .refresh then req :: s.refreshes else s.refreshes
      reached   := s.reached.elim fun _ h => ⟨_, h.send req⟩ })
  tick s :=
    match hok : s.memory.tick spec with
    | .ok (outs, m) =>
      ((outs.flatMap Controller.Outcome.calledBack).map Request.toRequest,
        { s with memory := m, reached := s.reached.elim fun _ h => ⟨_, h.tick hok⟩ })
    | .error _ => ([], s)
  pendingRequests s        := s.memory.pendingRequests ≠ 0
  setHighWriteqWatermark s :=
    { s with
      memory  := s.memory.setHighWriteqWatermark 0
      reached := s.reached.elim fun _ h => ⟨_, h.setHighWriteqWatermark 0⟩ }
  outstanding s := s.memory.waiting.map Prod.fst + s.refreshes
  outstanding_init := by
    simp [Memory.new, Memory.waiting, Function.comp_def, Controller.waiting, Controller.new, Controller.queued]
  outstanding_send s req := by
    obtain ⟨log, h⟩ := s.reached
    have hwait := Memory.waiting_send (h.seen hspec) hspec req
    simp only [hwait]
    by_cases hacc : (s.memory.send spec req).1 <;> by_cases ht : req.type = .refresh <;>
      simp [hacc, ht, ← Multiset.cons_coe]
  outstanding_tick s := by
    obtain ⟨log, h⟩ := s.reached
    split
    case h_2 => simp
    case h_1 outs m hok =>
      have hsent : Prod.fst ∘ Request.sent = Request.toRequest := rfl
      rw [Memory.waiting_tick (h.seen hspec) hspec hok, Multiset.map_add, Multiset.map_map, hsent, Multiset.map_coe,
        add_assoc]
  outstanding_watermark s := by
    simp only [Memory.setHighWriteqWatermark, Memory.waiting, List.map_map]
    rfl

end Ramulator
