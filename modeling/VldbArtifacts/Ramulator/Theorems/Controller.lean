import VldbArtifacts.Ramulator.Run
import VldbArtifacts.Ramulator.Theorems.Issue
import VldbArtifacts.Ramulator.Theorems.Scheduler

-- A tick of a controller keeps its invariant, and no assertion fails in it other than the one that each
-- refresh finds room in its queue.

namespace Ramulator

open DDR4 DRAM

section Multiset

variable {α : Type} {l : List α} {i : Nat} {a b : α}

theorem coe_eq_cons_eraseIdx (h : l[i]? = some a) : (l : Multiset α) = a ::ₘ (l.eraseIdx i : Multiset α) := by
  obtain ⟨hlt, rfl⟩ := List.getElem?_eq_some_iff.mp h
  rw [Multiset.cons_coe, Multiset.coe_eq_coe]
  exact (List.getElem_cons_eraseIdx_perm hlt).symm

theorem coe_set (h : l[i]? = some a) : ((l.set i b : List α) : Multiset α) = b ::ₘ (l.eraseIdx i : Multiset α) := by
  obtain ⟨hlt, -⟩ := List.getElem?_eq_some_iff.mp h
  rw [coe_eq_cons_eraseIdx (List.getElem?_set_self hlt), List.eraseIdx_set_eq]

end Multiset

-- The requests of a multiset whose address leads through a node.
def through (m : Multiset Request) (p : List Nat) : Nat :=
  m.countP fun req => ids p <+: req.addrVec.tail

theorem through_cons (req : Request) (m : Multiset Request) (p : List Nat) :
    through (req ::ₘ m) p = through m p + if ids p <+: req.addrVec.tail then 1 else 0 :=
  Multiset.countP_cons _ _ _

-- The nodes of a tree count the requests of a multiset.
def Counts (d : DRAM 3) (m : Multiset Request) : Prop :=
  ∀ p n, d.node? p = some n → n.curServingRequests = through m p ∧ (0 < through m p → n.beginOfServing ≠ -1)

section Serve

variable {spec : DDR4} {k : Nat} {is : List Issue} {d : DRAM 3} {t : RowTable} {req : Request} {clk : Int}
  {m : Multiset Request}

theorem served_core (n : Node) (delta clk : Int) :
    (n.served delta clk).id = n.id ∧ (n.served delta clk).clock = n.clock ∧
      (n.served delta clk).rankState = n.rankState ∧ (n.served delta clk).bankState = n.bankState ∧
      (n.served delta clk).rowState = n.rowState :=
  ⟨rfl, rfl, rfl, rfl, rfl⟩

-- A request that starts or ends changes the counts of the nodes on its way, if these allow it.
theorem Tracks.serve (h : Tracks spec k is d t) (haddr : OfBank spec k req.addrVec) (delta clk : Int)
    (hn : ∀ p n, d.node? p = some n → ids p <+: req.addrVec.tail → n.Serves delta) :
    ∃ d' : DRAM 3, d.updateServingRequests req.addrVec delta clk = .ok d' ∧ Tracks spec k is d' t ∧
      ∀ p, d'.node? p = (d.node? p).map fun n => if ids p <+: req.addrVec.tail then n.served delta clk else n := by
  have hid : req.addrVec.at (level 3) = d.node.id := by
    obtain ⟨r, g, b, row, col, he, -⟩ := haddr
    rw [h.id_channel, he]
    rfl
  obtain ⟨d', hok, hd'⟩ := @updateServingRequests_eq 3 le_rfl d h.hasIds req.addrVec delta clk hid hn
  refine ⟨d', hok, h.of_core hd' fun p n => ?_, hd'⟩
  split
  case isTrue  => exact served_core n delta clk
  case isFalse => exact ⟨rfl, rfl, rfl, rfl, rfl⟩

theorem Counts.start (hm : Counts d m) (h : Tracks spec k is d t) (haddr : OfBank spec k req.addrVec)
    (hclk : 0 ≤ clk) :
    ∃ d' : DRAM 3, d.updateServingRequests req.addrVec 1 clk = .ok d' ∧ Tracks spec k is d' t ∧
      Counts d' (req ::ₘ m) := by
  obtain ⟨d', hok, htr, hd'⟩ := h.serve haddr 1 clk fun p n hn _ => by
    obtain ⟨hcur, _⟩ := hm p n hn
    exact ⟨.inl rfl, by omega, by omega, by omega⟩
  refine ⟨d', hok, htr, ?_⟩
  intro p n' hn'
  rw [hd', Option.map_eq_some_iff] at hn'
  obtain ⟨n, hn, rfl⟩ := hn'
  obtain ⟨hcur, hbegin⟩ := hm p n hn
  rw [through_cons]
  split
  case isFalse => simpa using ⟨hcur, hbegin⟩
  case isTrue =>
    simp only [Node.served, hcur, true_and]
    refine ⟨by push_cast; ring, fun _ => ?_⟩
    split
    case isTrue  => omega
    case isFalse => exact hbegin (by omega)

theorem Counts.stop (hm : Counts d (req ::ₘ m)) (h : Tracks spec k is d t) (haddr : OfBank spec k req.addrVec)
    (clk : Int) :
    ∃ d' : DRAM 3, d.updateServingRequests req.addrVec (-1) clk = .ok d' ∧ Tracks spec k is d' t ∧
      Counts d' m := by
  have hthrough (p : List Nat) (hp : ids p <+: req.addrVec.tail) : through (req ::ₘ m) p = through m p + 1 := by
    rw [through_cons, if_pos hp]
  obtain ⟨d', hok, htr, hd'⟩ := h.serve haddr (-1) clk fun p n hn hp => by
    obtain ⟨hcur, hbegin⟩ := hm p n hn
    rw [hthrough p hp] at hcur hbegin
    exact ⟨.inr rfl, by omega, by omega, fun _ => hbegin (by omega)⟩
  refine ⟨d', hok, htr, ?_⟩
  intro p n' hn'
  rw [hd', Option.map_eq_some_iff] at hn'
  obtain ⟨n, hn, rfl⟩ := hn'
  obtain ⟨hcur, hbegin⟩ := hm p n hn
  split
  case isFalse hp =>
    rw [through_cons, if_neg hp] at hcur hbegin
    exact ⟨hcur, hbegin⟩
  case isTrue hp =>
    rw [hthrough p hp] at hcur hbegin
    simp only [Node.served, hcur]
    exact ⟨by push_cast; ring, fun _ => by simpa using hbegin (by omega)⟩

theorem Counts.of_serving (hm : Counts d m) {d' : DRAM 3}
    (hd : ∀ p, (d'.node? p).map Node.serving = (d.node? p).map Node.serving) : Counts d' m := by
  intro p n' hn'
  have hp := hd p
  rw [hn', Option.map_some, eq_comm, Option.map_eq_some_iff] at hp
  obtain ⟨n, hn, he⟩ := hp
  have hcur : n.curServingRequests = n'.curServingRequests := congrArg Prod.fst he
  have hbegin : n.beginOfServing = n'.beginOfServing := congrArg Prod.snd he
  rw [← hcur, ← hbegin]
  exact hm p n hn

end Serve

namespace Controller

-- The requests of which the first command is issued, and which are not finished.
def inService (c : Controller) : Multiset Request :=
  c.queued.filter (fun req => ¬req.isFirstCommand) +
    (c.pending : Multiset Request).filter fun req => req.depart - req.arrive > 1

-- The requests that a queue is for.
def Fits (spec : DDR4) (k : Nat) : Queue → Request → Prop
  | .readq, req  => req.type = .read ∧ OfBank spec k req.addrVec
  | .writeq, req => req.type = .write ∧ OfBank spec k req.addrVec
  | .actq, req   => (req.type = .read ∨ req.type = .write) ∧ OfBank spec k req.addrVec
  | .otherq, req => req.type = .refresh ∧ OfRank spec k req.addrVec

theorem Fits.begun {spec : DDR4} {k : Nat} {q : Queue} {req : Request} (h : Fits spec k q req) :
    Fits spec k q req.begun := by
  cases q <;> exact h

structure Sound (spec : DDR4) (k : Nat) (is : List Issue) (c : Controller) : Prop where
  tracks  : Tracks spec k is c.channel c.rowtable
  clk     : 0 ≤ c.clk
  fits    : ∀ q, ∀ req ∈ c.queue q, Fits spec k q req
  arrived : ∀ q, ∀ req ∈ c.queue q, req.arrive ≤ c.clk
  pending : ∀ req ∈ c.pending, req.type = .read ∧ OfBank spec k req.addrVec

structure Inv (spec : DDR4) (k : Nat) (is : List Issue) (c : Controller) : Prop extends Sound spec k is c where
  counts : Counts c.channel c.inService

variable {spec : DDR4} {k : Nat} {is : List Issue} {c : Controller}

@[simp]
theorem queue_setQueue (q q' : Queue) (l : List Request) :
    (c.setQueue q l).queue q' = if q' = q then l else c.queue q' := by
  cases q <;> cases q' <;> rfl

@[simp]
theorem setQueue_pending (q : Queue) (l : List Request) : (c.setQueue q l).pending = c.pending := by
  cases q <;> rfl

@[simp]
theorem setQueue_clk (q : Queue) (l : List Request) : (c.setQueue q l).clk = c.clk := by
  cases q <;> rfl

@[simp]
theorem setQueue_channel (q : Queue) (l : List Request) : (c.setQueue q l).channel = c.channel := by
  cases q <;> rfl

@[simp]
theorem setQueue_rowtable (q : Queue) (l : List Request) : (c.setQueue q l).rowtable = c.rowtable := by
  cases q <;> rfl

-- A request is refused, it is a read of an address that is about to be written, or it is put into its queue.
theorem enqueue_cases (c : Controller) (req : Request) :
    c.enqueue req = (false, c) ∨
      (req.type = .read ∧ c.enqueue req =
        (true, { c with pending := c.pending ++ [{ req with arrive := c.clk, depart := c.clk + 1 }] })) ∨
      c.enqueue req = (true, c.setQueue (getQueue req.type)
        (c.queue (getQueue req.type) ++ [{ req with arrive := c.clk }])) := by
  unfold enqueue
  by_cases hfull : (c.queue (getQueue req.type)).length = Queue.max
  case pos => exact .inl (if_pos hfull)
  case neg =>
    simp only [hfull, ↓reduceIte]
    split
    case isTrue h  => exact .inr (.inl ⟨h.1, rfl⟩)
    case isFalse h => exact .inr (.inr rfl)

theorem queued_append (c : Controller) (q : Queue) (req : Request) :
    (c.setQueue q (c.queue q ++ [req])).queued = if q = .otherq then c.queued else req ::ₘ c.queued := by
  cases q <;> simp [setQueue, queue, queued, ← Multiset.coe_add, ← Multiset.singleton_add] <;> abel

namespace Sound

theorem setQueue (h : Sound spec k is c) (q : Queue) {l : List Request} (hfits : ∀ req ∈ l, Fits spec k q req)
    (harrived : ∀ req ∈ l, req.arrive ≤ c.clk) : Sound spec k is (c.setQueue q l) where
  tracks     := by simpa using h.tracks
  clk        := by simpa using h.clk
  fits q'    := by rw [queue_setQueue]; split; (next he => exact he ▸ hfits); exact h.fits q'
  arrived q' := by rw [queue_setQueue, setQueue_clk]; split; exact harrived; exact h.arrived q'
  pending    := by simpa using h.pending

theorem setChannel (h : Sound spec k is c) {is' : List Issue} {d : DRAM 3} {t : RowTable} (hd : Tracks spec k is' d t) :
    Sound spec k is' { c with channel := d, rowtable := t } :=
  ⟨hd, h.clk, h.fits, h.arrived, h.pending⟩

theorem erase (h : Sound spec k is c) (ch : Choice) : Sound spec k is (c.erase ch) :=
  h.setQueue ch.queue (fun req hr => h.fits _ req (List.mem_of_mem_eraseIdx hr))
    (fun req hr => h.arrived _ req (List.mem_of_mem_eraseIdx hr))

theorem ofBank (h : Sound spec k is c) {req : Request} {q : Queue} (hmem : req ∈ c.queue q) (hq : q ≠ .otherq) :
    (req.type = .read ∨ req.type = .write) ∧ OfBank spec k req.addrVec := by
  have hf := h.fits q req hmem
  cases q
  case readq  => exact ⟨.inl hf.1, hf.2⟩
  case writeq => exact ⟨.inr hf.1, hf.2⟩
  case actq   => exact hf
  case otherq => exact absurd rfl hq

end Sound

namespace Inv

theorem new (scheduler : Scheduler) : Inv spec k [] (Controller.new spec scheduler k) where
  tracks  := .new
  clk     := le_rfl
  fits    := by intro q; cases q <;> simp [queue, Controller.new]
  arrived := by intro q; cases q <;> simp [queue, Controller.new]
  pending := by simp [Controller.new]
  counts  := by
    intro p n hn
    rw [node?_new spec hn]
    simp [through, inService, queued, Controller.new]

-- A request that a queue is for, and of which no command is issued.
theorem enqueue (h : Inv spec k is c) {req : Request} (hf : Fits spec k (getQueue req.type) req)
    (hfirst : req.isFirstCommand = true) :
    Inv spec k is (c.enqueue req).2 ∧
      (c.enqueue req).2.waiting =
        if (c.enqueue req).1 ∧ req.type ≠ .refresh then req.sent ::ₘ c.waiting else c.waiting := by
  rcases enqueue_cases c req with he | ⟨hread, he⟩ | he <;> rw [he]
  case inl => exact ⟨h, by simp⟩
  case inr.inl =>
    have hbank : OfBank spec k req.addrVec := by
      rw [hread] at hf
      exact hf.2
    refine ⟨⟨⟨h.tracks, h.clk, h.fits, h.arrived, ?_⟩, ?_⟩, ?_⟩
    case refine_1 =>
      intro r hr
      rcases List.mem_append.mp hr with hr | hr
      case inl => exact h.pending r hr
      case inr => rw [List.mem_singleton.mp hr]; exact ⟨hread, hbank⟩
    case refine_2 =>
      have hcounts := h.counts
      simpa [inService, queued, ← Multiset.coe_add] using hcounts
    case refine_3 =>
      simp [waiting, queued, hread, ← Multiset.coe_add, ← Multiset.singleton_add, Request.sent]
      abel
  case inr.inr =>
    have hfits' (r : Request) (hr : r ∈ c.queue (getQueue req.type) ++ [{ req with arrive := c.clk }]) :
        Fits spec k (getQueue req.type) r ∧ r.arrive ≤ c.clk := by
      rcases List.mem_append.mp hr with hr | hr
      case inl => exact ⟨h.fits _ r hr, h.arrived _ r hr⟩
      case inr =>
        rw [List.mem_singleton.mp hr]
        exact ⟨by cases ht : req.type <;> simpa [ht, getQueue, Fits] using hf, le_rfl⟩
    refine ⟨⟨h.toSound.setQueue _ (fun r hr => (hfits' r hr).1) fun r hr => (hfits' r hr).2, ?_⟩, ?_⟩
    case refine_1 =>
      have hcounts := h.counts
      cases ht : req.type <;> simpa [inService, queued_append, getQueue, hfirst] using hcounts
    case refine_2 => cases ht : req.type <;> simp [waiting, queued_append, getQueue, Request.sent]

theorem advance (h : Inv spec k is c) : Inv spec k is { c with clk := c.clk + 1 } :=
  ⟨⟨h.tracks, by have := h.clk; simp only; omega, h.fits,
    fun q req hr => by have := h.arrived q req hr; simp only; omega, h.pending⟩, h.counts⟩

-- The first read that is pending is called back when its time has come.
theorem serveCompleted (h : Inv spec k is c) :
    ∃ done c', c.serveCompleted = .ok (done, c') ∧ Inv spec k is c' ∧ c'.clk = c.clk ∧
      c.waiting = Multiset.map Request.sent done + c'.waiting := by
  cases hp : c.pending
  case nil => exact ⟨[], c, by simp [Controller.serveCompleted, hp], h, rfl, by simp⟩
  case cons req rest =>
    have hpend := h.pending
    have hcounts := h.counts
    rw [hp, List.forall_mem_cons] at hpend
    have hwait : c.waiting = Multiset.map Request.sent [req] + { c with pending := rest }.waiting := by
      simp [waiting, queued, hp, ← Multiset.cons_coe]
    by_cases hdep : req.depart ≤ c.clk
    case neg => exact ⟨[], c, by simp [Controller.serveCompleted, hp, hdep], h, rfl, by simp⟩
    case pos =>
      by_cases hacc : req.depart - req.arrive > 1
      case pos =>
        have hin : c.inService = req ::ₘ { c with pending := rest }.inService := by
          simp [inService, queued, hp, ← Multiset.cons_coe, hacc]
        rw [hin] at hcounts
        obtain ⟨d', hok, htr, hd'⟩ := hcounts.stop h.tracks hpend.1.2 c.clk
        refine ⟨[req], { c with channel := d', pending := rest }, ?_, ?_, rfl, hwait⟩
        case refine_1 => simp [Controller.serveCompleted, hp, hdep, hacc, updateServingRequests, hok]
        case refine_2 => exact ⟨⟨htr, h.clk, h.fits, h.arrived, hpend.2⟩, hd'⟩
      case neg =>
        have hin : c.inService = { c with pending := rest }.inService := by
          simp [inService, queued, hp, hacc]
        rw [hin] at hcounts
        refine ⟨[req], { c with pending := rest }, ?_, ?_, rfl, hwait⟩
        case refine_1 => simp [Controller.serveCompleted, hp, hdep, hacc]
        case refine_2 => exact ⟨⟨h.tracks, h.clk, h.fits, h.arrived, hpend.2⟩, hcounts⟩

theorem refreshTarget (h : Inv spec k is c) {rank : Nat} (hr : InRange spec 3 [rank]) (bank sa : Int) :
    (c.refreshTarget rank bank sa).Meets
      (fun c' => Inv spec k is c' ∧ c'.channel = c.channel ∧ c'.clk = c.clk ∧ c'.waiting = c.waiting)
      (· = .refreshRejected) := by
  let req : Request :=
    { addr := 0, type := .refresh, reqId := 0, addrVec := [(c.channel.node.id : Int), rank, bank, sa, -1, -1] }
  have hfits : Fits spec k (getQueue req.type) req :=
    ⟨rfl, rank, [bank, sa, -1, -1], by rw [← h.tracks.id_channel], hr⟩
  obtain ⟨hinv, hwait⟩ := h.enqueue hfits rfl
  have hsame : (c.enqueue req).2.channel = c.channel ∧ (c.enqueue req).2.clk = c.clk := by
    rcases enqueue_cases c req with he | ⟨-, he⟩ | he <;> rw [he] <;> simp
  unfold Controller.refreshTarget
  rcases he : c.enqueue req with ⟨_ | _, c'⟩
  case false => simp only [req] at he; simp [he]
  case true =>
    rw [he] at hinv hwait hsame
    simp only [req] at he hwait
    simp only [he, Except.meets_ok]
    exact ⟨hinv, hsame.1, hsame.2, by simpa using hwait⟩

theorem tickRef (h : Inv spec k is c) :
    (c.tickRef spec).Meets (fun c' => Inv spec k is c' ∧ c'.clk = c.clk ∧ c'.waiting = c.waiting)
      (· = .refreshRejected) := by
  have hinv : Inv spec k is { c with refresh := { c.refresh with clk := c.refresh.clk + 1 } } :=
    ⟨⟨h.tracks, h.clk, h.fits, h.arrived, h.pending⟩, h.counts⟩
  unfold Controller.tickRef
  refine .ite (fun _ => ?_) fun _ => ⟨hinv, rfl, rfl⟩
  unfold injectRefresh
  refine Except.Meets.bind (Except.Meets.foldlM (fun c' rank hrank hc' => ?_) ⟨hinv, rfl, rfl, rfl⟩) ?_
    (P := fun c' => Inv spec k is c' ∧ c'.channel = c.channel ∧ c'.clk = c.clk ∧ c'.waiting = c.waiting)
  case refine_1 =>
    obtain ⟨i, hi⟩ := List.mem_iff_getElem?.mp hrank
    have hnode : c.channel.node? [i] = some rank.node := by
      rw [node?_cons, hi, Option.bind_some, node?_nil]
    rw [h.tracks.id_eq hnode]
    have hrange : InRange spec 3 [i] := (h.tracks.isSome_iff [i]).mp (by simp [hnode])
    refine (hc'.1.refreshTarget hrange (-1) (-1)).imp ?_
    rintro c'' ⟨h₁, h₂, h₃, h₄⟩
    exact ⟨h₁, h₂.trans hc'.2.1, h₃.trans hc'.2.2.1, h₄.trans hc'.2.2.2⟩
  case refine_2 =>
    rintro c' ⟨h', -, hclk, hwait⟩
    exact ⟨⟨⟨h'.tracks, h'.clk, h'.fits, h'.arrived, h'.pending⟩, h'.counts⟩, hclk, hwait⟩

theorem scheduleWrites (h : Inv spec k is c) :
    Inv spec k is c.scheduleWrites ∧ c.scheduleWrites.clk = c.clk ∧ c.scheduleWrites.waiting = c.waiting := by
  have hmode (b : Bool) : Inv spec k is { c with writeMode := b } :=
    ⟨⟨h.tracks, h.clk, h.fits, h.arrived, h.pending⟩, h.counts⟩
  unfold Controller.scheduleWrites
  split_ifs <;> exact ⟨hmode _, rfl, rfl⟩

end Inv

-- A request that stands at its place in its queue, with its first command, which is ready.
structure Chosen (c : Controller) (ch : Choice) : Prop where
  mem   : (c.queue ch.queue)[ch.idx]? = some ch.req
  cmd   : ch.cmd = c.getFirstCmd ch.req
  ready : c.isReadyCmd ch.cmd ch.req.addrVec = true

theorem chosen_of_choose {q : Queue} {ch : Choice} (h : c.choose q = some ch) : Chosen c ch := by
  unfold choose at h
  split at h
  case h_1 => cases h
  case h_2 req idx hhead =>
    simp only [Option.ite_none_right_eq_some, Option.some.injEq] at h
    obtain ⟨hready, rfl⟩ := h
    exact ⟨getHead_eq_some hhead, rfl, hready⟩

theorem chosen_of_findCommand {ch : Choice} (h : c.findCommand = some ch) : Chosen c ch := by
  rcases Option.or_eq_some_iff.mp h with h | ⟨-, h⟩ <;> exact chosen_of_choose h

theorem queued_erase {ch : Choice} (hq : ch.queue ≠ .otherq) {req : Request}
    (h : (c.queue ch.queue)[ch.idx]? = some req) : c.queued = req ::ₘ (c.erase ch).queued := by
  cases he : ch.queue <;> simp only [he, queue] at h hq ⊢
  case otherq => exact absurd rfl hq
  all_goals
    simp only [queued, erase, he, setQueue, queue, coe_eq_cons_eraseIdx h]
    simp only [← Multiset.singleton_add]
    abel

theorem queued_set {ch : Choice} (hq : ch.queue ≠ .otherq) {req req' : Request}
    (h : (c.queue ch.queue)[ch.idx]? = some req) :
    (c.setQueue ch.queue ((c.queue ch.queue).set ch.idx req')).queued = req' ::ₘ (c.erase ch).queued := by
  cases he : ch.queue <;> simp only [he, queue] at h hq ⊢
  case otherq => exact absurd rfl hq
  all_goals
    simp only [queued, erase, he, setQueue, queue, coe_set h]
    simp only [← Multiset.singleton_add]
    abel

-- A request that is appended to a queue moves no other one.
theorem getElem?_queue_append {q : Queue} {idx : Nat} {req : Request} (h : (c.queue q)[idx]? = some req) (q' : Queue)
    (req' : Request) : ((c.setQueue q' (c.queue q' ++ [req'])).queue q)[idx]? = some req := by
  rw [queue_setQueue]
  split
  case isTrue he =>
    rw [← he, List.getElem?_append_left (List.getElem?_eq_some_iff.mp h).1]
    exact h
  case isFalse => exact h

theorem Sound.setBegun (h : Sound spec k is c) {ch : Choice} (hch : Chosen c ch) :
    Sound spec k is (c.setQueue ch.queue ((c.queue ch.queue).set ch.idx ch.req.begun)) := by
  have hmem := List.mem_of_getElem? hch.mem
  apply h.setQueue
  case hfits =>
    intro r hr
    rcases List.mem_or_eq_of_mem_set hr with hr | rfl
    case inl => exact h.fits _ r hr
    case inr => exact (h.fits _ _ hmem).begun
  case harrived =>
    intro r hr
    rcases List.mem_or_eq_of_mem_set hr with hr | rfl
    case inl => exact h.arrived _ r hr
    case inr => exact h.arrived _ ch.req hmem

section FinishCommand

variable {ch : Choice}

theorem finishCommand_of_ne (h : ch.cmd ≠ translate ch.req.type) :
    c.finishCommand spec ch =
      .ok ([], if isOpening ch.cmd then { c with actq := c.actq ++ [ch.req.begun] }.erase ch else c) := by
  rw [finishCommand, if_pos h]
  split <;> simp_all

theorem finishCommand_read (h : ch.cmd = translate ch.req.type) (ht : ch.req.type = .read) :
    c.finishCommand spec ch = .ok ([],
      { c with pending := c.pending ++ [{ ch.req.begun with depart := c.clk + spec.readLatency }] }.erase ch) := by
  rw [finishCommand, if_neg (not_not.mpr h)]
  simp only [ht]

theorem finishCommand_write (h : ch.cmd = translate ch.req.type) (ht : ch.req.type = .write) :
    c.finishCommand spec ch =
      c.updateServingRequests ch.req.begun (-1) >>= fun c => .ok ([ch.req.begun], c.erase ch) := by
  rw [finishCommand, if_neg (not_not.mpr h)]
  simp only [ht]
  rfl

theorem finishCommand_refresh (h : ch.cmd = translate ch.req.type) (ht : ch.req.type = .refresh) :
    c.finishCommand spec ch = .ok ([], c.erase ch) := by
  rw [finishCommand, if_neg (not_not.mpr h)]
  simp only [ht]

end FinishCommand

namespace Inv

variable {ch : Choice}

-- The first command of a read or a write puts it into service.
theorem beginService (h : Inv spec k is c) (hch : Chosen c ch) (hq : ch.queue ≠ .otherq) :
    ∃ c', c.beginService ch = .ok c' ∧ Inv spec k is c' ∧ c'.clk = c.clk ∧ c'.waiting = c.waiting ∧
      c'.rowtable = c.rowtable ∧ (c'.queue ch.queue)[ch.idx]? = some ch.req.begun := by
  have hmem := List.mem_of_getElem? hch.mem
  obtain ⟨htype, hbank⟩ := h.toSound.ofBank hmem hq
  by_cases hfirst : ch.req.isFirstCommand
  case neg =>
    have hreq : ch.req.begun = ch.req := by simp [Request.begun, ← Bool.eq_false_of_not_eq_true hfirst]
    exact ⟨c, by simp [Controller.beginService, hfirst], h, rfl, rfl, rfl, by rw [hreq]; exact hch.mem⟩
  case pos =>
    let c₁ := c.setQueue ch.queue ((c.queue ch.queue).set ch.idx ch.req.begun)
    have hqueued : c.queued = ch.req ::ₘ (c.erase ch).queued := queued_erase hq hch.mem
    have hqueued₁ : c₁.queued = ch.req.begun ::ₘ (c.erase ch).queued := queued_set hq hch.mem
    have hpend : c₁.pending = c.pending := setQueue_pending ..
    have hin : c₁.inService = ch.req.begun ::ₘ c.inService := by
      simp [inService, hqueued, hqueued₁, hpend, hfirst, Request.begun]
    have hbegun : OfBank spec k ch.req.begun.addrVec := hbank
    obtain ⟨d', hok, htr, hd'⟩ := h.counts.start h.tracks hbegun h.clk
    have hsound : Sound spec k is c₁ := h.toSound.setBegun hch
    refine ⟨{ c₁ with channel := d' }, ?_, ⟨?_, ?_⟩, setQueue_clk .., ?_, setQueue_rowtable .., ?_⟩
    case refine_1 =>
      have hok' : c.channel.updateServingRequests ch.req.addrVec 1 c.clk = .ok d' := hok
      simp [Controller.beginService, hfirst, htype, updateServingRequests, hok', c₁]
    case refine_2 =>
      have hrow : c₁.rowtable = c.rowtable := setQueue_rowtable ..
      exact hsound.setChannel (hrow ▸ htr)
    case refine_3 =>
      have hin' : { c₁ with channel := d' }.inService = c₁.inService := rfl
      rw [hin', hin]
      exact hd'
    case refine_4 =>
      have hwait : { c₁ with channel := d' }.waiting = c₁.waiting := rfl
      rw [hwait]
      simp [waiting, hqueued, hqueued₁, hpend, Request.begun, Request.sent]
    case refine_5 =>
      have hqueue : { c₁ with channel := d' }.queue ch.queue = (c.queue ch.queue).set ch.idx ch.req.begun :=
        (queue_setQueue ..).trans (if_pos rfl)
      rw [hqueue]
      exact List.getElem?_set_self (List.getElem?_eq_some_iff.mp hch.mem).1

-- A command that can be issued is issued.
theorem issueCmd (h : Inv spec k is c) {cmd : Command} {addr : AddrVec} (hready : c.isReadyCmd cmd addr = true)
    (hcan : CanIssue spec k is c.channel c.rowtable ⟨cmd, addr, c.clk⟩) :
    ∃ c', c.issueCmd spec cmd addr = .ok c' ∧ Inv spec k (⟨cmd, addr, c.clk⟩ :: is) c' ∧ c'.clk = c.clk ∧
      c'.waiting = c.waiting ∧ ∀ q, c'.queue q = c.queue q := by
  obtain ⟨t', ht', htr, hserv⟩ := hcan
  refine ⟨{ c with channel := c.channel.update spec cmd addr c.clk, rowtable := t' }, ?_, ⟨h.toSound.setChannel htr, ?_⟩,
    rfl, rfl, ?_⟩
  case refine_1 =>
    simp only at ht'
    simp [Controller.issueCmd, hready, ht']
  case refine_2 => exact h.counts.of_serving hserv
  case refine_3 => intro q; cases q <;> rfl

-- The last command of a read starts the transfer of its data.
theorem finishRead (h : Inv spec k is c) (hlat : 2 ≤ spec.readLatency) (hq : ch.queue ≠ .otherq)
    (hmem : (c.queue ch.queue)[ch.idx]? = some ch.req.begun) (htype : ch.req.type = .read) :
    let c' := { c with pending := c.pending ++ [{ ch.req.begun with depart := c.clk + spec.readLatency }] }.erase ch
    Inv spec k is c' ∧ c'.waiting = c.waiting := by
  have hreq := List.mem_of_getElem? hmem
  have hbank := (h.toSound.ofBank hreq hq).2
  have harr : ch.req.arrive ≤ c.clk := h.arrived _ ch.req.begun hreq
  let req := { ch.req.begun with depart := c.clk + spec.readLatency }
  let c₁ := { c with pending := c.pending ++ [req] }
  have hsound : Sound spec k is c₁ := by
    refine ⟨h.tracks, h.clk, h.fits, h.arrived, ?_⟩
    intro r hr
    rcases List.mem_append.mp hr with hr | hr
    case inl => exact h.pending r hr
    case inr => rw [List.mem_singleton.mp hr]; exact ⟨htype, hbank⟩
  have hqueued : c.queued = ch.req.begun ::ₘ (c₁.erase ch).queued := queued_erase (c := c₁) hq hmem
  have hpend : ((c₁.erase ch).pending : Multiset Request) = req ::ₘ (c.pending : Multiset Request) := by
    have he : (c₁.erase ch).pending = c.pending ++ [req] := setQueue_pending ..
    rw [he, ← Multiset.coe_add, ← Multiset.singleton_add, add_comm]
    rfl
  have hdep : req.depart - req.arrive > 1 := by
    have : req.arrive = ch.req.arrive := rfl
    have : req.depart = c.clk + spec.readLatency := rfl
    omega
  refine ⟨⟨hsound.erase ch, ?_⟩, ?_⟩
  case refine_1 =>
    have hin : c.inService = ch.req.begun ::ₘ ((c₁.erase ch).queued.filter (fun req => ¬req.isFirstCommand) +
        (c.pending : Multiset Request).filter fun req => req.depart - req.arrive > 1) := by
      simp [inService, hqueued, Request.begun]
    have hin' : (c₁.erase ch).inService = req ::ₘ ((c₁.erase ch).queued.filter (fun req => ¬req.isFirstCommand) +
        (c.pending : Multiset Request).filter fun req => req.depart - req.arrive > 1) := by
      rw [inService, hpend, Multiset.filter_cons_of_pos (p := fun r : Request => r.depart - r.arrive > 1) _ hdep,
        Multiset.add_cons]
    have hcounts := h.counts
    have hchan : (c₁.erase ch).channel = c.channel := setQueue_channel ..
    have hcong (m : Multiset Request) (p : List Nat) : through (req ::ₘ m) p = through (ch.req.begun ::ₘ m) p := by
      rw [through_cons, through_cons]
    intro p n hn
    rw [hchan] at hn
    rw [hin', hcong, ← hin]
    exact hcounts p n hn
  case refine_2 =>
    have hwait : (c₁.erase ch).waiting = c.waiting := by
      rw [waiting, waiting, hqueued, hpend, Multiset.cons_add, Multiset.add_cons, Multiset.map_cons, Multiset.map_cons]
      rfl
    exact hwait

-- The last command of a write ends it.
theorem finishWrite (h : Inv spec k is c) (hq : ch.queue ≠ .otherq)
    (hmem : (c.queue ch.queue)[ch.idx]? = some ch.req.begun) :
    ∃ c', c.updateServingRequests ch.req.begun (-1) = .ok c' ∧ Inv spec k is (c'.erase ch) ∧ c'.clk = c.clk ∧
      c.waiting = ch.req.sent ::ₘ (c'.erase ch).waiting := by
  have hreq := List.mem_of_getElem? hmem
  have hbank := (h.toSound.ofBank hreq hq).2
  have hqueued : c.queued = ch.req.begun ::ₘ (c.erase ch).queued := queued_erase hq hmem
  have hpend : (c.erase ch).pending = c.pending := setQueue_pending ..
  have hin : c.inService = ch.req.begun ::ₘ (c.erase ch).inService := by
    simp [inService, hqueued, hpend, Request.begun]
  have hcounts := h.counts
  rw [hin] at hcounts
  obtain ⟨d', hok, htr, hd'⟩ := hcounts.stop h.tracks hbank c.clk
  have hsound : Sound spec k is { c with channel := d' } := h.toSound.setChannel htr
  have hsame (q : Queue) (l : List Request) :
      { c with channel := d' }.setQueue q l = { c.setQueue q l with channel := d' } := by cases q <;> rfl
  have herase : { c with channel := d' }.erase ch = { c.erase ch with channel := d' } := hsame ..
  refine ⟨{ c with channel := d' }, ?_, ⟨hsound.erase ch, ?_⟩, rfl, ?_⟩
  case refine_1 => simp [updateServingRequests, hok]
  case refine_2 =>
    rw [herase]
    exact hd'
  case refine_3 =>
    rw [herase]
    have hwait : { c.erase ch with channel := d' }.waiting = (c.erase ch).waiting := rfl
    rw [hwait]
    simp [waiting, hqueued, hpend, Request.begun, Request.sent]

-- The request that a row is opened for is promoted.
theorem promote (h : Inv spec k is c) (hq : ch.queue ≠ .otherq)
    (hmem : (c.queue ch.queue)[ch.idx]? = some ch.req.begun) :
    let c' := { c with actq := c.actq ++ [ch.req.begun] }.erase ch
    Inv spec k is c' ∧ c'.clk = c.clk ∧ c'.waiting = c.waiting := by
  have hreq := List.mem_of_getElem? hmem
  let c₁ := c.setQueue .actq (c.queue .actq ++ [ch.req.begun])
  have hsound : Sound spec k is c₁ := by
    apply h.toSound.setQueue
    case hfits =>
      intro r hr
      rcases List.mem_append.mp hr with hr | hr
      case inl => exact h.fits _ r hr
      case inr => rw [List.mem_singleton.mp hr]; exact h.toSound.ofBank hreq hq
    case harrived =>
      intro r hr
      rcases List.mem_append.mp hr with hr | hr
      case inl => exact h.arrived _ r hr
      case inr => rw [List.mem_singleton.mp hr]; exact h.arrived _ _ hreq
  have hmem₁ : (c₁.queue ch.queue)[ch.idx]? = some ch.req.begun := getElem?_queue_append hmem _ _
  have hqueued : (c₁.erase ch).queued = c.queued := by
    have h₁ : c₁.queued = ch.req.begun ::ₘ c.queued := queued_append c .actq ch.req.begun
    rw [queued_erase hq hmem₁] at h₁
    exact (Multiset.cons_inj_right _).mp h₁
  have hpend : (c₁.erase ch).pending = c.pending := setQueue_pending ..
  have hchan : (c₁.erase ch).channel = c.channel := setQueue_channel ..
  have hin : (c₁.erase ch).inService = c.inService := by simp only [inService, hqueued, hpend]
  refine ⟨⟨hsound.erase ch, ?_⟩, setQueue_clk .., ?_⟩
  case refine_1 =>
    have hcounts := h.counts
    rw [← hin, ← hchan] at hcounts
    exact hcounts
  case refine_2 =>
    have hwait : (c₁.erase ch).waiting = c.waiting := by simp only [waiting, hqueued, hpend]
    exact hwait

-- A refresh is erased by its last command.
theorem eraseOther (h : Inv spec k is c) (hq : ch.queue = .otherq) :
    Inv spec k is (c.erase ch) ∧ (c.erase ch).clk = c.clk ∧ (c.erase ch).waiting = c.waiting := by
  refine ⟨⟨h.toSound.erase ch, ?_⟩, setQueue_clk .., ?_⟩
  case refine_1 =>
    have hcounts := h.counts
    simpa [Controller.erase, hq, setQueue, inService, queued] using hcounts
  case refine_2 => simp [Controller.erase, hq, Controller.setQueue, waiting, queued]

-- What holds when a command of a tick is issued.
structure Served (spec : DDR4) (k : Nat) (is : List Issue) (c : Controller) (i : Issue)
    (res : List Request × Controller) : Prop where
  inv     : Inv spec k (i :: is) res.2
  clk     : res.2.clk = c.clk
  legal   : i.Legal is
  timely  : i.Timely spec is
  waiting : c.waiting = Multiset.map Request.sent res.1 + res.2.waiting

theorem serveAccess (h : Inv spec k is c) (hlat : 2 ≤ spec.readLatency) (hch : Chosen c ch)
    (hq : ch.queue ≠ .otherq) :
    ∃ res, c.serveCommand spec ch = .ok res ∧ Served spec k is c ⟨ch.cmd, ch.req.addrVec, c.clk⟩ res := by
  have hreq := List.mem_of_getElem? hch.mem
  obtain ⟨htype, hbank⟩ := h.toSound.ofBank hreq hq
  have htrans : translate ch.req.type = .rd ∨ translate ch.req.type = .wr := by
    rcases htype with ht | ht <;> simp [ht, DDR4.translate]
  obtain ⟨c₁, hok₁, h₁, hclk₁, hwait₁, hrow₁, hmem₁⟩ := h.beginService hch hq
  -- The counts that the first command changes are no part of what decides about it.
  have htr₁ : Tracks spec k is c₁.channel c.rowtable := hrow₁ ▸ h₁.tracks
  have hdec : ch.cmd = c₁.channel.decode (translate ch.req.type) ch.req.addrVec :=
    hch.cmd.trans (h.tracks.decode_eq htr₁ htrans hbank)
  have hready : c₁.isReadyCmd ch.cmd ch.req.addrVec = true := by
    unfold isReadyCmd
    rw [hclk₁]
    exact h.tracks.check_eq htr₁ hch.ready
  have hissue := h₁.tracks.issue_access htrans hbank (hdec ▸ hready) h₁.clk
  rw [← hdec, hclk₁] at hissue
  obtain ⟨hcmd, hlegal, htimely, hcan⟩ := hissue
  rw [← hclk₁] at hcan
  obtain ⟨c₂, hok₂, h₂, hclk₂, hwait₂, hqueue₂⟩ := h₁.issueCmd hready hcan
  have hmem₂ : (c₂.queue ch.queue)[ch.idx]? = some ch.req.begun := by rw [hqueue₂]; exact hmem₁
  rw [hclk₁] at h₂
  have hwait : c₂.waiting = c.waiting := hwait₂.trans hwait₁
  have hclk : c₂.clk = c.clk := hclk₂.trans hclk₁
  have hserve : c.serveCommand spec ch = c₂.finishCommand spec ch := by simp [serveCommand, hok₁, hok₂]
  rw [hserve]
  by_cases hlast : ch.cmd = translate ch.req.type
  case neg =>
    rw [finishCommand_of_ne hlast]
    refine ⟨_, rfl, ?_⟩
    split
    case isTrue =>
      obtain ⟨h₃, hclk₃, hwait₃⟩ := h₂.promote hq hmem₂
      exact ⟨h₃, hclk₃.trans hclk, hlegal, htimely, by simp [hwait₃, hwait]⟩
    case isFalse => exact ⟨h₂, hclk, hlegal, htimely, by simp [hwait]⟩
  case pos =>
    rcases htype with ht | ht
    case inl =>
      obtain ⟨h₃, hwait₃⟩ := h₂.finishRead hlat hq hmem₂ ht
      rw [finishCommand_read hlast ht]
      refine ⟨_, rfl, h₃, (setQueue_clk ..).trans hclk, hlegal, htimely, ?_⟩
      rw [Multiset.coe_nil, Multiset.map_zero, zero_add, hwait₃, hwait]
    case inr =>
      obtain ⟨c₃, hok₃, h₃, hclk₃, hwait₃⟩ := h₂.finishWrite hq hmem₂
      rw [finishCommand_write hlast ht, hok₃]
      refine ⟨_, rfl, h₃, (setQueue_clk ..).trans (hclk₃.trans hclk), hlegal, htimely, ?_⟩
      rw [← hwait, hwait₃]
      simp [Request.begun, Request.sent]

theorem serveRefresh (h : Inv spec k is c) (hch : Chosen c ch) (hq : ch.queue = .otherq) :
    ∃ res, c.serveCommand spec ch = .ok res ∧ Served spec k is c ⟨ch.cmd, ch.req.addrVec, c.clk⟩ res := by
  have hreq := List.mem_of_getElem? hch.mem
  obtain ⟨htype, hrank⟩ : ch.req.type = .refresh ∧ OfRank spec k ch.req.addrVec := by
    have hf := h.fits _ _ hreq
    rwa [hq] at hf
  -- A refresh is counted by no node.
  obtain ⟨c₁, hok₁, h₁, hclk₁, hwait₁, hchan₁, hrow₁⟩ : ∃ c₁, c.beginService ch = .ok c₁ ∧ Inv spec k is c₁ ∧
      c₁.clk = c.clk ∧ c₁.waiting = c.waiting ∧ c₁.channel = c.channel ∧ c₁.rowtable = c.rowtable := by
    by_cases hfirst : ch.req.isFirstCommand
    case neg => exact ⟨c, by simp [Controller.beginService, hfirst], h, rfl, rfl, rfl, rfl⟩
    case pos =>
      refine ⟨c.setQueue ch.queue ((c.queue ch.queue).set ch.idx ch.req.begun), ?_, ⟨h.toSound.setBegun hch, ?_⟩, ?_⟩
      case refine_1 => simp [Controller.beginService, hfirst, htype]
      case refine_2 => simpa [hq, Controller.setQueue, inService, queued] using h.counts
      case refine_3 => simp [hq, Controller.setQueue, waiting, queued]
  have htrans : translate ch.req.type = .ref := by rw [htype]; rfl
  have hdec : ch.cmd = c₁.channel.decode .ref ch.req.addrVec := by rw [hch.cmd, getFirstCmd, htrans, hchan₁]
  have hready : c₁.isReadyCmd ch.cmd ch.req.addrVec = true := by
    have hr := hch.ready
    rwa [isReadyCmd, ← hchan₁, ← hclk₁] at hr
  have hissue := h₁.tracks.issue_refresh hrank (hdec ▸ hready) h₁.clk
  rw [← hdec] at hissue
  obtain ⟨hcmd, hlegal, htimely, hcan⟩ := hissue
  obtain ⟨c₂, hok₂, h₂, hclk₂, hwait₂, -⟩ := h₁.issueCmd hready hcan
  rw [hclk₁] at h₂ hlegal htimely
  have hwait : c₂.waiting = c.waiting := hwait₂.trans hwait₁
  have hclk : c₂.clk = c.clk := hclk₂.trans hclk₁
  have hserve : c.serveCommand spec ch = c₂.finishCommand spec ch := by simp [serveCommand, hok₁, hok₂]
  rw [hserve]
  by_cases hlast : ch.cmd = translate ch.req.type
  case neg =>
    have hclosing : isOpening ch.cmd = false := by
      simp only [List.mem_cons, List.not_mem_nil, or_false] at hcmd
      rcases hcmd with hcmd | hcmd <;> rw [hcmd] <;> rfl
    rw [finishCommand_of_ne hlast, hclosing]
    exact ⟨_, rfl, h₂, hclk, hlegal, htimely, by simp [hwait]⟩
  case pos =>
    obtain ⟨h₃, hclk₃, hwait₃⟩ := h₂.eraseOther hq
    rw [finishCommand_refresh hlast htype]
    exact ⟨_, rfl, h₃, hclk₃.trans hclk, hlegal, htimely, by simp [hwait₃, hwait]⟩

-- What a tick does: it keeps the invariant, its command is legal and comes at its time, and the requests that
-- it does not call back still wait.
structure Ticked (spec : DDR4) (k : Nat) (is : List Issue) (c : Controller) (res : Outcome × Controller) : Prop where
  inv     : Inv spec k (res.1.issued ++ is) res.2
  clk     : res.2.clk = c.clk + 1
  issued  : res.1.issued.length ≤ 1 ∧ ∀ i ∈ res.1.issued, i.clk = c.clk + 1 ∧ i.Legal is ∧ i.Timely spec is
  waiting : c.waiting = Multiset.map Request.sent res.1.calledBack + res.2.waiting

theorem schedule (h : Inv spec k is c) (hlat : 2 ≤ spec.readLatency) (reads : List Request) :
    ∃ o c', c.schedule spec reads = .ok (o, c') ∧ Inv spec k (o.issued ++ is) c' ∧ c'.clk = c.clk ∧
      (o.issued.length ≤ 1 ∧ ∀ i ∈ o.issued, i.clk = c.clk ∧ i.Legal is ∧ i.Timely spec is) ∧
      Multiset.map Request.sent reads + c.waiting = Multiset.map Request.sent o.calledBack + c'.waiting := by
  obtain ⟨h₁, hclk₁, hwait₁⟩ := h.scheduleWrites
  unfold Controller.schedule
  cases hfind : c.scheduleWrites.findCommand
  case none => exact ⟨⟨reads, []⟩, c.scheduleWrites, by simp only [hfind]; rfl, h₁, hclk₁, by simp, by rw [hwait₁]⟩
  case some ch =>
    have hch := chosen_of_findCommand hfind
    have hserved : ∃ res, c.scheduleWrites.serveCommand spec ch = .ok res ∧
        Served spec k is c.scheduleWrites ⟨ch.cmd, ch.req.addrVec, c.scheduleWrites.clk⟩ res := by
      by_cases hq : ch.queue = .otherq
      case pos => exact h₁.serveRefresh hch hq
      case neg => exact h₁.serveAccess hlat hch hq
    obtain ⟨⟨w, c₂⟩, hok₂, h₂⟩ := hserved
    have hclk₂ : c₂.clk = c.scheduleWrites.clk := h₂.clk
    have hwait₂ : c.scheduleWrites.waiting = Multiset.map Request.sent w + c₂.waiting := h₂.waiting
    refine ⟨⟨reads ++ w, [⟨ch.cmd, ch.req.addrVec, c₂.clk⟩]⟩, c₂, ?_, ?_, hclk₂.trans hclk₁, ⟨by simp, ?_⟩, ?_⟩
    case refine_1 => simp only [hfind, hok₂, Except.ok_bind]; rfl
    case refine_2 => rw [hclk₂]; exact h₂.inv
    case refine_3 => simpa [hclk₂] using ⟨hclk₁, h₂.legal, h₂.timely⟩
    case refine_4 => rw [← hwait₁, hwait₂, ← Multiset.coe_add, Multiset.map_add, add_assoc]

theorem tick (h : Inv spec k is c) (hlat : 2 ≤ spec.readLatency) :
    (c.tick spec).Meets (Ticked spec k is c) (· = .refreshRejected) := by
  obtain ⟨done, c₁, hok₁, h₁, hclk₁, hwait₁⟩ := h.advance.serveCompleted
  unfold Controller.tick
  simp only [hok₁, Except.ok_bind]
  refine h₁.tickRef.bind fun c₂ hc₂ => ?_
  obtain ⟨h₂, hclk₂, hwait₂⟩ := hc₂
  obtain ⟨o, c₃, hok₃, h₃, hclk₃, hissued, hwait₃⟩ := h₂.schedule hlat done
  have hclk : c₂.clk = c.clk + 1 := hclk₂.trans hclk₁
  rw [hclk] at hissued
  refine .intro hok₃ ⟨h₃, hclk₃.trans hclk, hissued, ?_⟩
  have hwait : c.waiting = Multiset.map Request.sent done + c₁.waiting := hwait₁
  rw [hwait, ← hwait₂, hwait₃]

end Inv

end Controller

end Ramulator
