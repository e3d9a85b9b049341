import VldbArtifacts.Ramulator.Theorems.Ledger

-- What is seen of a channel in every run: the commands that it issues, the requests that it accepts, and those
-- that it calls back.

namespace Ramulator

open DDR4

theorem Trace.expected_accept (t : Trace) (req : Request) (forwarded : List Request) :
    { t with accepted := req :: t.accepted, forwarded }.expected =
      if req.type ≠ .refresh then req.sent ::ₘ t.expected else t.expected := by
  by_cases ht : req.type = .refresh <;> simp [expected, ht]

namespace Controller

variable {spec : DDR4} {k : Nat} {t : Trace} {c c' : Controller} {req : Request}

-- A read has its answer: from a write that waited when it came, or from a command that read its column.
def Answered (spec : DDR4) (t : Trace) (req : Request) : Prop :=
  (req.depart = req.arrive + 1 ∧ ∃ r ∈ t.forwarded, r.sent = req.sent) ∨
    ∃ i ∈ t.issued, i.cmd = .rd ∧ i.addr = req.addrVec ∧ req.arrive ≤ i.clk ∧ req.depart = i.clk + spec.readLatency

structure Seen (spec : DDR4) (k : Nat) (t : Trace) (c : Controller) : Prop where
  inv        : Inv spec k t.issued c
  room       : Room c
  commands   : ∀ later i earlier, t.issued = later ++ i :: earlier →
                 (∀ j ∈ earlier, j.clk < i.clk) ∧ i.Legal earlier ∧ i.Timely spec earlier
  past       : ∀ i ∈ t.issued, i.clk ≤ c.clk
  waiting    : t.expected = t.completed + c.waiting
  refresh    : c.refresh.clk = c.clk
  ledger     : ∃ n : Nat, c.refresh.refreshed = n * spec.speedEntry.nREFI ∧ c.refresh.refreshed ≤ c.clk ∧
                 c.clk < c.refresh.refreshed + spec.speedEntry.nREFI ∧
                 Issue.accesses t.issued + c.demands + Multiset.map Request.demand t.forwarded =
                   Multiset.map Request.demand t.accepted + n • refreshDemands spec k
  pending    : ∀ req ∈ c.pending, Answered spec t req
  calledBack : ∀ p ∈ t.calledBack, (p.1.type = .read ∧ p.1.depart ≤ p.2 ∧ Answered spec t p.1) ∨
                 (p.1.type = .write ∧ p.1.arrive ≤ p.2 ∧ ⟨.wr, p.1.addrVec, p.2⟩ ∈ t.issued)

theorem Answered.mono {t' : Trace} (h : Answered spec t req) (hf : t.forwarded ⊆ t'.forwarded)
    (hi : t.issued ⊆ t'.issued) : Answered spec t' req := by
  rcases h with ⟨hdep, r, hr, he⟩ | ⟨i, hmem, hread⟩
  case inl => exact .inl ⟨hdep, r, hf hr, he⟩
  case inr => exact .inr ⟨i, hi hmem, hread⟩

namespace Seen

theorem new (scheduler : Scheduler) (hrefi : 0 < spec.speedEntry.nREFI) :
    Seen spec k {} (Controller.new spec scheduler k) where
  inv        := .new scheduler
  room       := by intro q _; cases q <;> simp [queue, Controller.new]
  commands   := by simp
  past       := by simp
  waiting    := by simp [Trace.expected, Trace.completed, Controller.waiting, Controller.new, queued]
  refresh    := rfl
  ledger     := ⟨0, by simp [Controller.new], le_rfl, by simpa [Controller.new] using hrefi,
    by simp [Issue.accesses, demands, queued, Controller.new]⟩
  pending    := by simp [Controller.new]
  calledBack := by simp

theorem enqueue (h : Seen spec k t c) (hf : Fits spec k (getQueue req.type) req) (hfirst : req.isFirstCommand = true) :
    Seen spec k (t.enqueued c req) (c.enqueue req).2 := by
  obtain ⟨hinv, hwait⟩ := h.inv.enqueue hf hfirst
  by_cases hacc : (c.enqueue req).1
  case neg =>
    rw [enqueue_eq_false (Bool.eq_false_of_not_eq_true hacc), Trace.enqueued, if_neg hacc]
    exact h
  case pos =>
    have hc' := accepts_of_enqueue hacc
    obtain ⟨n, hn, hle, hlt, hledger⟩ := h.ledger
    rw [Trace.enqueued, if_pos hacc]
    have hmono {r : Request} (hr : Answered spec t r) : Answered spec
        { t with
          accepted  := req :: t.accepted
          forwarded := if c.forwards req then req :: t.forwarded else t.forwarded } r := by
      refine hr.mono ?_ (List.Subset.refl _)
      simp only
      split
      case isTrue  => exact List.subset_cons_self ..
      case isFalse => exact List.Subset.refl _
    refine ⟨hinv, hc'.room h.room, h.commands, hc'.clk ▸ h.past, ?_, ?_, ⟨n, ?_, ?_, ?_, ?_⟩, ?_, ?_⟩
    case refine_1 =>
      simp only [hacc, true_and] at hwait
      rw [hwait, Trace.expected_accept]
      by_cases ht : req.type ≠ .refresh
      case pos => rw [if_pos ht, if_pos ht, Multiset.add_cons, h.waiting]; rfl
      case neg => rw [if_neg ht, if_neg ht, h.waiting]; rfl
    case refine_2 => rw [hc'.refresh, hc'.clk, h.refresh]
    case refine_3 => rw [hc'.refresh, hn]
    case refine_4 => rw [hc'.refresh, hc'.clk]; exact hle
    case refine_5 => rw [hc'.refresh, hc'.clk]; exact hlt
    case refine_6 =>
      have hcons (l : List Request) :
          Multiset.map Request.demand (req :: l : List Request) = {req.demand} + Multiset.map Request.demand l := by
        rw [← Multiset.cons_coe, Multiset.map_cons, Multiset.singleton_add]
      have hrhs : Multiset.map Request.demand (req :: t.accepted : List Request) + n • refreshDemands spec k =
          {req.demand} + (Issue.accesses t.issued + c.demands + Multiset.map Request.demand t.forwarded) := by
        rw [hcons, add_assoc, hledger]
      rw [hc'.demands]
      refine Eq.trans ?_ hrhs.symm
      simp only
      split
      case isTrue  => rw [hcons]; abel
      case isFalse => abel
    case refine_7 =>
      intro r hr
      rcases hc'.pending r hr with hr | ⟨hforw, rfl⟩
      case inl => exact hmono (h.pending r hr)
      case inr => exact .inl ⟨rfl, req, by simp [hforw], rfl⟩
    case refine_8 =>
      intro p hp
      rcases h.calledBack p hp with ⟨h₁, h₂, h₃⟩ | hwrite
      case inl => exact .inl ⟨h₁, h₂, hmono h₃⟩
      case inr => exact .inr hwrite

theorem setHighWatermark (h : Seen spec k t c) (watermark : Nat) :
    Seen spec k t { c with wrHighWatermark := watermark } :=
  ⟨⟨⟨h.inv.tracks, h.inv.clk, h.inv.fits, h.inv.arrived, h.inv.pending⟩, h.inv.counts⟩,
    fun q hq => by have hq' := h.room q hq; cases q <;> exact hq', h.commands, h.past, h.waiting,
    h.refresh, h.ledger, h.pending, h.calledBack⟩

theorem tick (h : Seen spec k t c) (hlat : 2 ≤ spec.readLatency) (hrefi : 0 < spec.speedEntry.nREFI) {o : Outcome}
    (hok : c.tick spec = .ok (o, c')) : Seen spec k (t.ticked o c'.clk) c' := by
  have htick := (h.inv.tick hlat).of_ok hok
  have hticks := h.inv.ticks h.room hok
  obtain ⟨n, hn, hle, hlt, hledger⟩ := h.ledger
  have hclk : c'.clk = c.clk + 1 := htick.clk
  have hmono {r : Request} (hr : Answered spec t r) : Answered spec (t.ticked o c'.clk) r :=
    hr.mono (List.Subset.refl _) (List.subset_append_right ..)
  refine ⟨htick.inv, hticks.room, ?_, ?_, ?_, ?_, ?_, ?_, ?_⟩
  case refine_1 =>
    intro later i earlier he
    rcases hiss : o.issued with _ | ⟨j, rest⟩
    case nil => exact h.commands later i earlier (by rw [← he, Trace.ticked, hiss]; rfl)
    case cons =>
      -- A tick issues one command.
      have hrest : rest = [] := by simpa [hiss] using htick.issued.1
      have he' : j :: t.issued = later ++ i :: earlier := by rw [← he, Trace.ticked, hiss, hrest]; rfl
      rcases List.cons_eq_append_iff.mp he' with ⟨-, hi⟩ | ⟨later', -, hi⟩
      case inl =>
        obtain ⟨rfl, rfl⟩ := List.cons.inj hi
        obtain ⟨hj, hlegal, htimely⟩ := htick.issued.2 i (by simp [hiss])
        exact ⟨fun j' hj' => by have := h.past j' hj'; omega, hlegal, htimely⟩
      case inr => exact h.commands later' i earlier hi
  case refine_2 =>
    intro i hi
    rcases List.mem_append.mp hi with hi | hi
    case inl => rw [hclk, (htick.issued.2 i hi).1]
    case inr => have := h.past i hi; omega
  case refine_3 =>
    have hcomp : (t.ticked o c'.clk).completed = Multiset.map Request.sent o.calledBack + t.completed := by
      simp [Trace.ticked, Trace.completed, Function.comp_def]
    have hexp : (t.ticked o c'.clk).expected = t.expected := rfl
    rw [hcomp, hexp, h.waiting, htick.waiting]
    abel
  case refine_4 =>
    rw [hticks.refresh, hclk, ← h.refresh]
  case refine_5 =>
    have hl := hticks.ledger
    have hr : c'.refresh.refreshed = if Due spec c then c.clk + 1 else c.refresh.refreshed := by
      rw [hticks.refresh, h.refresh]
    have hacc : Issue.accesses (o.issued ++ t.issued) + c'.demands =
        Issue.accesses t.issued + c.demands + if Due spec c then refreshDemands spec k else 0 := by
      rw [add_assoc, ← hl, Issue.accesses_append]
      abel
    have hdef : Due spec c ↔ c.refresh.refreshed + spec.speedEntry.nREFI ≤ c.clk + 1 := by rw [Due, h.refresh]
    by_cases hdue : Due spec c
    case pos =>
      rw [if_pos hdue] at hr hacc
      refine ⟨n + 1, ?_, ?_, ?_, ?_⟩
      case refine_1 =>
        have hle' := hdef.mp hdue
        rw [hr]
        push_cast
        linarith
      case refine_2 => rw [hr, hclk]
      case refine_3 => rw [hr, hclk]; exact lt_add_of_pos_right _ hrefi
      case refine_4 =>
        calc Issue.accesses (o.issued ++ t.issued) + c'.demands + Multiset.map Request.demand t.forwarded
          _ = Issue.accesses t.issued + c.demands + Multiset.map Request.demand t.forwarded + refreshDemands spec k := by
            rw [hacc]; abel
          _ = Multiset.map Request.demand t.accepted + (n + 1) • refreshDemands spec k := by
            rw [hledger, add_nsmul, one_nsmul, add_assoc]
    case neg =>
      rw [if_neg hdue] at hr hacc
      refine ⟨n, ?_, ?_, ?_, ?_⟩
      case refine_1 => rw [hr]; exact hn
      case refine_2 => rw [hr, hclk]; omega
      case refine_3 =>
        have hlt' := mt hdef.mpr hdue
        rw [hr, hclk]
        omega
      case refine_4 =>
        refine (congrArg (· + _) hacc).trans ?_
        rw [add_zero]
        exact hledger
  case refine_6 =>
    intro req hreq
    rcases hticks.pending req hreq with hreq | ⟨i, hi, hread⟩
    case inl => exact hmono (h.pending req hreq)
    case inr => exact .inr ⟨i, List.mem_append_left _ hi, hread⟩
  case refine_7 =>
    intro p hp
    rcases List.mem_append.mp hp with hp | hp
    case inl =>
      obtain ⟨req, hreq, rfl⟩ := List.mem_map.mp hp
      rcases hticks.calledBack req hreq with ⟨hpend, hdep⟩ | ⟨htype, harr, hi⟩
      case inl => exact .inl ⟨(h.inv.pending req hpend).1, hclk ▸ hdep, hmono (h.pending req hpend)⟩
      case inr => exact .inr ⟨htype, hclk ▸ harr, List.mem_append_left _ (hclk ▸ hi)⟩
    case inr =>
      rcases h.calledBack p hp with ⟨h₁, h₂, h₃⟩ | ⟨h₁, h₂, h₃⟩
      case inl => exact .inl ⟨h₁, h₂, hmono h₃⟩
      case inr => exact .inr ⟨h₁, h₂, List.mem_append_right _ h₃⟩

end Seen

end Controller

end Ramulator
