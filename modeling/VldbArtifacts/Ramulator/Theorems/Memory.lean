import VldbArtifacts.Ramulator.Theorems.Mapping
import VldbArtifacts.Ramulator.Theorems.Seen

-- A memory in any run: what is seen of its channels.

namespace Ramulator

open DDR4

namespace DDR4

-- What the organizations and the speeds have in common.
structure Valid (spec : DDR4) : Prop where
  aligned : spec.Aligned
  latency : 2 ≤ spec.readLatency
  refresh : 0 < spec.speedEntry.nREFI

theorem valid_make (org : Org) (speed : Speed) (channelBits rankBits : Nat) :
    (make org speed channelBits rankBits).Valid where
  aligned := aligned_make ..
  latency := by cases speed <;> simp [make, readLatency, initSpeed, speedTable, prefetchSize]
  refresh := by cases speed <;> simp [make, initSpeed, speedTable]

end DDR4

namespace Memory

variable {spec : DDR4} {log : Log} {m m' : Memory}

-- The vector of an address is one of the bank that serves it.
theorem ofBank_mapAddr (h : spec.Aligned) (type : Memory.Type) (addr : Nat) :
    ∃ k < spec.orgEntry.channels, ((mapAddr spec type addr).at .channel).toNat = k ∧
      OfBank spec k (mapAddr spec type addr) := by
  let f := BitFields.get spec.addrBits type.order (addr / tx)
  have hf (level : Level) : f level < spec.orgEntry.count level := get_lt_count h.count_ne_zero _ _
  rw [mapAddr_eq]
  exact ⟨f .channel, hf .channel, rfl, f .rank, f .bankGroup, f .bank, f .row, f .column, rfl, hf .rank, hf .bankGroup,
    hf .bank, trivial⟩

theorem fits_mapAddr {k : Nat} {req : Request} (h : OfBank spec k req.addrVec) :
    Controller.Fits spec k (Controller.getQueue req.type) req := by
  cases ht : req.type
  case read    => exact ⟨ht, h⟩
  case write   => exact ⟨ht, h⟩
  case refresh => exact ⟨ht, h.ofRank⟩

-- A request goes to the controller of its channel.
theorem send_eq (h : spec.Aligned) (hlen : m.ctrls.length = spec.orgEntry.channels) (req : CXL.Request) :
    let req' : Request := { req with addrVec := mapAddr spec m.type req.addr }
    ∃ k c, m.ctrls[k]? = some c ∧ OfBank spec k req'.addrVec ∧
      m.send spec req = ((c.enqueue req').1, { m with ctrls := m.ctrls.set k (c.enqueue req').2 }) ∧
      ∀ log : Log, log.sent spec m req = Function.update log k ((log k).enqueued c req') := by
  obtain ⟨k, hk, hchan, hbank⟩ := ofBank_mapAddr h m.type req.addr
  obtain ⟨c, hc⟩ : ∃ c, m.ctrls[k]? = some c := ⟨_, List.getElem?_eq_getElem (hlen ▸ hk)⟩
  exact ⟨k, c, hc, hbank, by simp only [Memory.send, hchan, hc], fun log => by simp only [Log.sent, hchan, hc]⟩

theorem tick_eq_ok {outs : List Controller.Outcome} (hok : m.tick spec = .ok (outs, m')) :
    m'.type = m.type ∧ m'.ctrls.length = m.ctrls.length ∧ ∀ (k : Nat) (c' : Controller), m'.ctrls[k]? = some c' →
      ∃ (c : Controller) (o : Controller.Outcome), m.ctrls[k]? = some c ∧ outs[k]? = some o ∧ c.tick spec = .ok (o, c') := by
  obtain ⟨res, hres, hok⟩ := Except.bind_eq_ok.mp hok
  obtain ⟨rfl, rfl⟩ := Prod.mk.inj (Except.ok.inj hok)
  have hall := Except.forall₂_of_mapM hres
  refine ⟨rfl, by simpa using hall.length_eq.symm, fun k c' hk => ?_⟩
  rw [List.getElem?_map, Option.map_eq_some_iff] at hk
  obtain ⟨⟨o, c₁⟩, hk, rfl⟩ := hk
  obtain ⟨hlt, he⟩ := List.getElem?_eq_some_iff.mp hk
  have hlt' : k < m.ctrls.length := hall.length_eq ▸ hlt
  refine ⟨m.ctrls.get ⟨k, hlt'⟩, o, List.getElem?_eq_getElem hlt', by simp [hk], ?_⟩
  rw [hall.get hlt' hlt, List.get_eq_getElem, he]

-- The channels are seen each by itself.
structure Seen (spec : DDR4) (log : Log) (m : Memory) : Prop where
  length : m.ctrls.length = spec.orgEntry.channels
  ctrl   : ∀ k c, m.ctrls[k]? = some c → Controller.Seen spec k (log k) c
  origin : ∀ k, ∀ req ∈ (log k).accepted, req.addrVec = mapAddr spec m.type req.addr

namespace Seen

theorem new (h : spec.Valid) (scheduler : Scheduler) (type : Memory.Type) :
    Seen spec (fun _ => {}) (Memory.new spec scheduler type) where
  length := by simp [Memory.new]
  ctrl k c hk := by
    rw [Memory.new, List.getElem?_map, Option.map_eq_some_iff] at hk
    obtain ⟨i, hi, rfl⟩ := hk
    obtain ⟨hlt, rfl⟩ := List.getElem?_eq_some_iff.mp hi
    rw [List.getElem_range]
    exact .new scheduler h.refresh
  origin := by simp

theorem send (h : Seen spec log m) (hspec : spec.Valid) (req : CXL.Request) :
    Seen spec (log.sent spec m req) (m.send spec req).2 := by
  obtain ⟨k, c, hc, hbank, hsend, hlog⟩ := send_eq hspec.aligned h.length req
  rw [hsend, hlog]
  refine ⟨by simpa using h.length, ?_, ?_⟩
  case refine_1 =>
    intro k' c' hk'
    by_cases he : k' = k
    case pos =>
      subst he
      have hlt := (List.getElem?_eq_some_iff.mp hc).1
      rw [List.getElem?_set_self hlt, Option.some.injEq] at hk'
      rw [Function.update_self, ← hk']
      exact (h.ctrl k' c hc).enqueue (fits_mapAddr hbank) rfl
    case neg =>
      rw [List.getElem?_set_ne (Ne.symm he)] at hk'
      rw [Function.update_of_ne he]
      exact h.ctrl k' c' hk'
  case refine_2 =>
    intro k' r hr
    by_cases he : k' = k
    case pos =>
      subst he
      rw [Function.update_self, Trace.enqueued] at hr
      split at hr
      case isFalse => exact h.origin k' r hr
      case isTrue =>
        rcases List.mem_cons.mp hr with rfl | hr
        case inl => rfl
        case inr => exact h.origin k' r hr
    case neg =>
      rw [Function.update_of_ne he] at hr
      exact h.origin k' r hr

theorem tick (h : Seen spec log m) (hspec : spec.Valid) {outs : List Controller.Outcome}
    (hok : m.tick spec = .ok (outs, m')) : Seen spec (log.ticked outs m') m' := by
  obtain ⟨htype, hlen, hctrl⟩ := tick_eq_ok hok
  refine ⟨hlen.trans h.length, ?_, ?_⟩
  case refine_1 =>
    intro k c' hk
    obtain ⟨c, o, hc, ho, hstep⟩ := hctrl k c' hk
    have hlog : log.ticked outs m' k = (log k).ticked o c'.clk := by simp only [Log.ticked, ho, hk]
    rw [hlog]
    exact (h.ctrl k c hc).tick hspec.latency hspec.refresh hstep
  case refine_2 =>
    intro k
    have haccepted : (log.ticked outs m' k).accepted = (log k).accepted := by
      unfold Log.ticked
      split <;> rfl
    rw [haccepted, htype]
    exact h.origin k

theorem setHighWriteqWatermark (h : Seen spec log m) (watermark : Nat) :
    Seen spec log (m.setHighWriteqWatermark watermark) where
  length := by simpa [Memory.setHighWriteqWatermark] using h.length
  ctrl k c hk := by
    rw [Memory.setHighWriteqWatermark, List.getElem?_map, Option.map_eq_some_iff] at hk
    obtain ⟨c₁, hc₁, rfl⟩ := hk
    exact (h.ctrl k c₁ hc₁).setHighWatermark watermark
  origin := h.origin

end Seen

theorem Reaches.seen (h : Reaches spec log m) (hspec : spec.Valid) : Seen spec log m := by
  induction h
  case new scheduler type                            => exact .new hspec scheduler type
  case send req _ ih                                 => exact ih.send hspec req
  case tick hok ih                                   => exact ih.tick hspec hok
  case setHighWriteqWatermark watermark _ ih => exact ih.setHighWriteqWatermark watermark

end Memory

end Ramulator
