import VldbArtifacts.Ramulator.Theorems.Controller

-- What a tick does to the requests of a controller: each of them is served by one command, and a read is
-- called back when its data can be there.

namespace Ramulator

open DDR4

section Decode

-- What has to come before a command serves no request.
theorem DRAM.prereq_eq_some {h : Nat} {d : DRAM h} {cmd c : Command} {x : Int} (hc : d.prereq cmd x = some c) :
    c = cmd ∨ c ∉ [Command.rd, .wr, .ref] := by
  unfold prereq at hc
  split at hc
  case h_1 rank cmd _ =>
    unfold rankPrereq at hc
    split at hc
    all_goals (try split at hc) <;> cases hc <;> simp
  case h_2 bank cmd _ =>
    unfold bankPrereq at hc
    split at hc
    case isFalse => cases hc
    case isTrue =>
      split at hc
      case h_1 => cases hc; simp
      case h_2 => split at hc <;> cases hc <;> simp
  case h_3 => cases hc

theorem DRAM.decode_eq_or {h : Nat} (d : DRAM h) (cmd : Command) (addr : AddrVec) :
    d.decode cmd addr = cmd ∨ d.decode cmd addr ∉ [Command.rd, .wr, .ref] := by
  induction h
  case zero =>
    rw [decode]
    cases hp : d.prereq cmd (addr.at .row)
    case none   => exact .inl rfl
    case some c => exact prereq_eq_some hp
  case succ h ih =>
    rw [decode]
    split
    case h_1 c _ hp => exact prereq_eq_some hp
    case h_2        => exact .inl rfl
    case h_3 sub hp => exact ih _

end Decode

theorem Issue.accesses_append (is is' : List Issue) : accesses (is ++ is') = accesses is + accesses is' := by
  simp [accesses, List.filter_append]

namespace Controller

variable {spec : DDR4} {k : Nat} {is : List Issue} {c c' : Controller} {ch : Choice} {req req' : Request}

theorem schedule_eq_ok {reads : List Request} {o : Outcome} (h : c.schedule spec reads = .ok (o, c')) :
    (o = ⟨reads, []⟩ ∧ c' = c.scheduleWrites) ∨
      ∃ ch writes, c.scheduleWrites.findCommand = some ch ∧ c.scheduleWrites.serveCommand spec ch = .ok (writes, c') ∧
        o = ⟨reads ++ writes, [⟨ch.cmd, ch.req.addrVec, c'.clk⟩]⟩ := by
  unfold schedule at h
  cases hfind : c.scheduleWrites.findCommand
  case none =>
    simp only [hfind, Except.pure_def, Except.ok.injEq, Prod.mk.injEq] at h
    exact .inl ⟨h.1.symm, h.2.symm⟩
  case some ch =>
    simp only [hfind] at h
    obtain ⟨⟨writes, c₁⟩, hserve, h⟩ := Except.bind_eq_ok.mp h
    simp only [Except.pure_def, Except.ok.injEq, Prod.mk.injEq] at h
    obtain ⟨rfl, rfl⟩ := h
    exact .inr ⟨ch, writes, rfl, hserve, rfl⟩

theorem updateServingRequests_eq_ok {delta : Int} (h : c.updateServingRequests req delta = .ok c') :
    c' = { c with channel := c'.channel } := by
  obtain ⟨d, -, h⟩ := Except.bind_eq_ok.mp h
  rw [← Except.ok.inj h]

-- What is called back comes from the front of the pending reads.
theorem serveCompleted_eq_ok {reads : List Request} (h : c.serveCompleted = .ok (reads, c')) :
    c' = { c with channel := c'.channel, pending := c'.pending } ∧ c.pending = reads ++ c'.pending ∧
      ∀ req ∈ reads, req.depart ≤ c.clk := by
  unfold serveCompleted at h
  split at h
  case h_1 =>
    obtain ⟨rfl, rfl⟩ := Prod.mk.inj (Except.ok.inj h)
    exact ⟨rfl, by simp, by simp⟩
  case h_2 req rest hp =>
    split at h
    case isFalse =>
      obtain ⟨rfl, rfl⟩ := Prod.mk.inj (Except.ok.inj h)
      exact ⟨rfl, by simp, by simp⟩
    case isTrue hdep =>
      obtain ⟨c₁, hc₁, h⟩ : ∃ c₁ : Controller, c₁ = { c with channel := c₁.channel } ∧
          (Except.ok ([req], { c₁ with pending := rest }) : Except Failure _) = .ok (reads, c') := by
        simp only at h
        split at h
        case isTrue =>
          obtain ⟨c₁, hc₁, h⟩ := Except.bind_eq_ok.mp h
          exact ⟨c₁, updateServingRequests_eq_ok hc₁, h⟩
        case isFalse => exact ⟨c, rfl, h⟩
      obtain ⟨rfl, rfl⟩ := Prod.mk.inj (Except.ok.inj h)
      exact ⟨by rw [hc₁], by simpa using hp, by simpa using hdep⟩

-- The request that `refresh_target` makes for a rank.
def refreshRequest (c : Controller) (rank : DRAM 2) : Request :=
  { addr := 0, type := .refresh, reqId := 0, addrVec := [(c.channel.node.id : Int), rank.node.id, -1, -1, -1, -1],
    arrive := c.clk }

theorem refreshTarget_eq (rank : DRAM 2) :
    c.refreshTarget rank.node.id (-1) (-1) =
      if c.otherq.length = Queue.max then .error .refreshRejected
      else .ok { c with otherq := c.otherq ++ [c.refreshRequest rank] } := by
  unfold refreshTarget
  simp only [enqueue, getQueue, queue, setQueue, reduceCtorEq, false_and, if_false]
  by_cases hfull : c.otherq.length = Queue.max
  case pos => simp only [if_pos hfull]
  case neg =>
    simp only [if_neg hfull]
    rfl

theorem foldlM_refreshTarget (ranks : List (DRAM 2)) {q : List Request} (hq : q.length ≤ Queue.max) :
    ranks.foldlM (fun c rank => c.refreshTarget rank.node.id (-1) (-1)) { c with otherq := q } =
      if q.length + ranks.length ≤ Queue.max then .ok { c with otherq := q ++ ranks.map c.refreshRequest }
      else .error .refreshRejected := by
  induction ranks generalizing q
  case nil => simp [hq]
  case cons rank ranks ih =>
    rw [List.foldlM_cons, refreshTarget_eq]
    by_cases hfull : q.length = Queue.max
    case pos => simp [hfull]
    case neg =>
      have hq' : (q ++ [c.refreshRequest rank]).length ≤ Queue.max := by simp; omega
      have hlen : (q ++ [c.refreshRequest rank]).length + ranks.length = q.length + (rank :: ranks).length := by
        simp; omega
      rw [if_neg hfull, Except.ok_bind]
      refine (ih hq').trans ?_
      rw [hlen, List.map_cons, List.append_assoc, List.singleton_append]

theorem injectRefresh_eq (hroom : c.otherq.length ≤ Queue.max) :
    c.injectRefresh =
      if c.otherq.length + c.channel.children.length ≤ Queue.max then .ok { c with
        otherq  := c.otherq ++ c.channel.children.map c.refreshRequest
        refresh := { c.refresh with refreshed := c.refresh.clk } }
      else .error .refreshRejected := by
  have hloop := foldlM_refreshTarget (c := c) c.channel.children hroom
  unfold injectRefresh
  rw [hloop]
  split <;> rfl

-- The cycle in which the ranks are to be refreshed.
def Due (spec : DDR4) (c : Controller) : Prop :=
  c.refresh.refreshed + spec.speedEntry.nREFI ≤ c.refresh.clk + 1

instance (spec : DDR4) (c : Controller) : Decidable (Due spec c) :=
  inferInstanceAs (Decidable (_ ≤ _))

theorem tickRef_eq (hroom : c.otherq.length ≤ Queue.max) :
    c.tickRef spec =
      if Due spec c then
        if c.otherq.length + c.channel.children.length ≤ Queue.max then .ok { c with
          otherq  := c.otherq ++ c.channel.children.map c.refreshRequest
          refresh := ⟨c.refresh.clk + 1, c.refresh.clk + 1⟩ }
        else .error .refreshRejected
      else .ok { c with refresh := { c.refresh with clk := c.refresh.clk + 1 } } := by
  have hdue : Due spec c ↔ c.refresh.clk + 1 - c.refresh.refreshed ≥ spec.speedEntry.nREFI := by
    unfold Due
    omega
  let c₁ := { c with refresh := { c.refresh with clk := c.refresh.clk + 1 } }
  have hinject : c₁.injectRefresh = _ := injectRefresh_eq hroom
  unfold tickRef
  simp only [hdue]
  split
  case isFalse => rfl
  case isTrue  => exact hinject

theorem scheduleWrites_eq (c : Controller) : c.scheduleWrites = { c with writeMode := c.scheduleWrites.writeMode } := by
  unfold scheduleWrites
  split_ifs <;> rfl

theorem length_queue_erase (ch : Choice) (q : Queue) : ((c.erase ch).queue q).length ≤ (c.queue q).length := by
  rw [erase, queue_setQueue]
  split
  case isTrue he  => rw [he]; exact List.length_eraseIdx_le ..
  case isFalse => exact le_rfl

theorem demands_congr (h : ∀ q, c'.queue q = c.queue q) : c'.demands = c.demands := by
  have hr : c'.readq = c.readq := h .readq
  have hw : c'.writeq = c.writeq := h .writeq
  have ha : c'.actq = c.actq := h .actq
  have ho : c'.otherq = c.otherq := h .otherq
  simp only [demands, queued, hr, hw, ha, ho]

theorem demands_append (c : Controller) (q : Queue) (req : Request) :
    (c.setQueue q (c.queue q ++ [req])).demands = req.demand ::ₘ c.demands := by
  cases q
  all_goals
    simp only [demands, queued, setQueue, queue, ← Multiset.coe_add, Multiset.map_add, ← Multiset.singleton_add,
      Multiset.coe_singleton, Multiset.map_singleton]
    abel

theorem demands_erase (h : (c.queue ch.queue)[ch.idx]? = some req) :
    c.demands = req.demand ::ₘ (c.erase ch).demands := by
  cases he : ch.queue <;> simp only [he, queue] at h
  all_goals
    simp only [demands, queued, erase, he, setQueue, queue, coe_eq_cons_eraseIdx h]
    simp only [← Multiset.singleton_add, Multiset.map_add, Multiset.map_singleton]
    abel

theorem demands_set (h : (c.queue ch.queue)[ch.idx]? = some req) :
    (c.setQueue ch.queue ((c.queue ch.queue).set ch.idx req')).demands = req'.demand ::ₘ (c.erase ch).demands := by
  have hlt := (List.getElem?_eq_some_iff.mp h).1
  have hset : ((c.setQueue ch.queue ((c.queue ch.queue).set ch.idx req')).queue ch.queue)[ch.idx]? = some req' := by
    rw [queue_setQueue, if_pos rfl, List.getElem?_set_self hlt]
  have herase : (c.setQueue ch.queue ((c.queue ch.queue).set ch.idx req')).erase ch = c.erase ch := by
    unfold erase
    rw [queue_setQueue, if_pos rfl, List.eraseIdx_set_eq]
    cases ch.queue <;> rfl
  rw [demands_erase hset, herase]

@[simp]
theorem setQueue_refresh (q : Queue) (l : List Request) : (c.setQueue q l).refresh = c.refresh := by
  cases q <;> rfl

-- The first command of a request changes the counts of the nodes, and marks the request.
theorem beginService_eq_ok (hch : Chosen c ch) (h : c.beginService ch = .ok c') :
    ∃ c₁ : Controller, c' = { c₁ with channel := c'.channel } ∧ c₁.clk = c.clk ∧ c₁.refresh = c.refresh ∧
      c₁.pending = c.pending ∧ c₁.demands = c.demands ∧ (∀ q, (c₁.queue q).length = (c.queue q).length) ∧
      (c₁.queue ch.queue)[ch.idx]? = some ch.req.begun := by
  by_cases hfirst : ch.req.isFirstCommand
  case neg =>
    have hreq : ch.req.begun = ch.req := by simp [Request.begun, ← Bool.eq_false_of_not_eq_true hfirst]
    rw [beginService, if_neg hfirst] at h
    cases Except.ok.inj h
    exact ⟨c, rfl, rfl, rfl, rfl, rfl, fun _ => rfl, hreq ▸ hch.mem⟩
  case pos =>
    refine ⟨c.setQueue ch.queue ((c.queue ch.queue).set ch.idx ch.req.begun), ?_, setQueue_clk .., setQueue_refresh ..,
      setQueue_pending .., ?_, ?_, ?_⟩
    case refine_1 =>
      rw [beginService, if_pos hfirst] at h
      simp only at h
      split at h
      case isTrue  => exact updateServingRequests_eq_ok h
      case isFalse => rw [← Except.ok.inj h]
    case refine_2 =>
      rw [demands_set hch.mem, demands_erase hch.mem]
      rfl
    case refine_3 =>
      intro q
      rw [queue_setQueue]
      split
      case isTrue he => rw [he, List.length_set]
      case isFalse   => rfl
    case refine_4 =>
      rw [queue_setQueue, if_pos rfl]
      exact List.getElem?_set_self (List.getElem?_eq_some_iff.mp hch.mem).1

theorem issueCmd_eq_ok {cmd : Command} {addr : AddrVec} (h : c.issueCmd spec cmd addr = .ok c') :
    c' = { c with channel := c'.channel, rowtable := c'.rowtable } := by
  unfold issueCmd at h
  split at h
  case isTrue  => cases h
  case isFalse =>
    obtain ⟨t, -, h⟩ := Except.bind_eq_ok.mp h
    rw [← Except.ok.inj h]

-- What serving a request does: its last command ends its stay in the queues, a read then waits for its data, and
-- a write is called back.
structure Serves (spec : DDR4) (c : Controller) (ch : Choice) (writes : List Request) (c' : Controller) : Prop where
  clk     : c'.clk = c.clk
  refresh : c'.refresh = c.refresh
  demands : c.demands = (if ch.cmd = translate ch.req.type then {ch.req.demand} else 0) + c'.demands
  pending : ∀ req ∈ c'.pending, req ∈ c.pending ∨
              (ch.cmd = .rd ∧ req = { ch.req.begun with depart := c.clk + spec.readLatency })
  writes  : ∀ req ∈ writes, ch.req.type = .write ∧ ch.cmd = .wr ∧ req = ch.req.begun
  length  : ∀ q, q ≠ .actq → (c'.queue q).length ≤ (c.queue q).length

theorem serves_of_finishCommand {writes : List Request} (hmem : (c.queue ch.queue)[ch.idx]? = some ch.req.begun)
    (h : c.finishCommand spec ch = .ok (writes, c')) : Serves spec c ch writes c' := by
  have hend (c₁ : Controller) (hq : ∀ q, c₁.queue q = c.queue q) :
      c.demands = {ch.req.demand} + (c₁.erase ch).demands := by
    rw [← hq] at hmem
    rw [← demands_congr hq, demands_erase hmem]
    rfl
  by_cases hlast : ch.cmd = translate ch.req.type
  case neg =>
    rw [finishCommand_of_ne hlast] at h
    obtain ⟨rfl, rfl⟩ := Prod.mk.inj (Except.ok.inj h)
    by_cases hopen : isOpening ch.cmd
    case neg =>
      rw [if_neg hopen]
      exact ⟨rfl, rfl, by rw [if_neg hlast, zero_add], fun _ => .inl, by simp, fun _ _ => le_rfl⟩
    case pos =>
      -- The request leaves its queue for the queue of the requests that a row was opened for.
      let c₁ := c.setQueue .actq (c.queue .actq ++ [ch.req.begun])
      have hdem : (c₁.erase ch).demands = c.demands := by
        have h₁ : c₁.demands = ch.req.begun.demand ::ₘ c.demands := demands_append ..
        rw [demands_erase (getElem?_queue_append hmem _ _)] at h₁
        exact (Multiset.cons_inj_right _).mp h₁
      rw [if_pos hopen]
      refine ⟨setQueue_clk .., setQueue_refresh .., ?_, ?_, by simp, ?_⟩
      case refine_1 =>
        rw [if_neg hlast, zero_add]
        exact hdem.symm
      case refine_2 =>
        have hpend : (c₁.erase ch).pending = c.pending := setQueue_pending ..
        exact fun req hreq => .inl (hpend ▸ hreq)
      case refine_3 =>
        intro q hq
        have hsame : c₁.queue q = c.queue q := by rw [queue_setQueue, if_neg hq]
        exact hsame ▸ length_queue_erase (c := c₁) ch q
  case pos =>
    cases htype : ch.req.type
    case read =>
      rw [finishCommand_read hlast htype] at h
      obtain ⟨rfl, rfl⟩ := Prod.mk.inj (Except.ok.inj h)
      refine ⟨setQueue_clk .., setQueue_refresh .., ?_, ?_, by simp, ?_⟩
      case refine_1 =>
        rw [if_pos hlast]
        exact hend _ fun q => by cases q <;> rfl
      case refine_2 =>
        intro req hreq
        rw [erase, setQueue_pending] at hreq
        rcases List.mem_append.mp hreq with hreq | hreq
        case inl => exact .inl hreq
        case inr => exact .inr ⟨by rw [hlast, htype]; rfl, List.mem_singleton.mp hreq⟩
      case refine_3 => intro q _; exact (length_queue_erase ch q).trans (by cases q <;> exact le_rfl)
    case write =>
      rw [finishCommand_write hlast htype] at h
      obtain ⟨c₁, h₁, h⟩ := Except.bind_eq_ok.mp h
      have hc₁ := updateServingRequests_eq_ok h₁
      obtain ⟨rfl, rfl⟩ := Prod.mk.inj (Except.ok.inj h)
      rw [hc₁]
      refine ⟨setQueue_clk .., setQueue_refresh .., ?_, ?_, ?_, ?_⟩
      case refine_1 =>
        rw [if_pos hlast]
        exact hend _ fun q => by cases q <;> rfl
      case refine_2 =>
        intro req hreq
        rw [erase, setQueue_pending] at hreq
        exact .inl hreq
      case refine_3 =>
        intro req hreq
        exact ⟨htype, by rw [hlast, htype]; rfl, List.mem_singleton.mp hreq⟩
      case refine_4 => intro q _; exact (length_queue_erase ch q).trans (by cases q <;> exact le_rfl)
    case refresh =>
      rw [finishCommand_refresh hlast htype] at h
      obtain ⟨rfl, rfl⟩ := Prod.mk.inj (Except.ok.inj h)
      refine ⟨setQueue_clk .., setQueue_refresh .., by rw [if_pos hlast]; exact hend c fun _ => rfl, ?_, by simp,
        fun q _ => length_queue_erase ch q⟩
      intro req hreq
      rw [erase, setQueue_pending] at hreq
      exact .inl hreq

theorem serves_of_serveCommand {writes : List Request} (hch : Chosen c ch)
    (h : c.serveCommand spec ch = .ok (writes, c')) : Serves spec c ch writes c' := by
  obtain ⟨c₂, h₂, h⟩ := Except.bind_eq_ok.mp h
  obtain ⟨c₃, h₃, h⟩ := Except.bind_eq_ok.mp h
  obtain ⟨c₁, hc₂, hclk, href, hpend, hdem, hlen, hmem⟩ := beginService_eq_ok hch h₂
  have hc₃ := issueCmd_eq_ok h₃
  rw [hc₂] at hc₃
  -- The node counts, the timing and the row table have no part in this.
  have hmem₃ : (c₃.queue ch.queue)[ch.idx]? = some ch.req.begun := by
    rw [hc₃]
    cases hq : ch.queue <;> simpa [hq, queue] using hmem
  have hs := serves_of_finishCommand hmem₃ h
  have hclk₃ : c₃.clk = c.clk := by rw [hc₃]; exact hclk
  have href₃ : c₃.refresh = c.refresh := by rw [hc₃]; exact href
  have hpend₃ : c₃.pending = c.pending := by rw [hc₃]; exact hpend
  have hdem₃ : c₃.demands = c.demands := by rw [hc₃]; exact hdem
  have hlen₃ (q : Queue) : (c₃.queue q).length = (c.queue q).length := by rw [← hlen q, hc₃]; cases q <;> rfl
  exact ⟨hs.clk.trans hclk₃, hs.refresh.trans href₃, hdem₃ ▸ hs.demands, hpend₃ ▸ hclk₃ ▸ hs.pending, hs.writes,
    fun q hq => hlen₃ q ▸ hs.length q hq⟩

theorem enqueue_eq (c : Controller) (req : Request) :
    c.enqueue req =
      if (c.queue (getQueue req.type)).length = Queue.max then (false, c)
      else if c.forwards req then
        (true, { c with pending := c.pending ++ [{ req with arrive := c.clk, depart := c.clk + 1 }] })
      else (true, c.setQueue (getQueue req.type) (c.queue (getQueue req.type) ++ [{ req with arrive := c.clk }])) := by
  simp only [enqueue, forwards, Bool.and_eq_true, decide_eq_true_eq]

theorem enqueue_eq_false (h : (c.enqueue req).1 = false) : (c.enqueue req).2 = c := by
  rw [enqueue_eq] at h ⊢
  split_ifs at h ⊢
  rfl

-- The queues that requests are put into are bounded. The queue of the requests that a row was opened for is not.
def Room (c : Controller) : Prop :=
  ∀ q, q ≠ .actq → (c.queue q).length ≤ Queue.max

-- What the acceptance of a request does.
structure Accepts (c : Controller) (req : Request) (c' : Controller) : Prop where
  clk     : c'.clk = c.clk
  refresh : c'.refresh = c.refresh
  demands : c'.demands = (if c.forwards req then 0 else {req.demand}) + c.demands
  pending : ∀ r ∈ c'.pending, r ∈ c.pending ∨
              (c.forwards req ∧ r = { req with arrive := c.clk, depart := c.clk + 1 })
  room    : Room c → Room c'

theorem accepts_of_enqueue (h : (c.enqueue req).1 = true) : Accepts c req (c.enqueue req).2 := by
  rw [enqueue_eq] at h ⊢
  by_cases hfull : (c.queue (getQueue req.type)).length = Queue.max
  case pos => simp [hfull] at h
  case neg =>
    rw [if_neg hfull]
    by_cases hforw : c.forwards req
    case pos =>
      rw [if_pos hforw]
      refine ⟨rfl, rfl, by rw [if_pos hforw, zero_add]; rfl, ?_, ?_⟩
      case refine_1 =>
        intro r hr
        rcases List.mem_append.mp hr with hr | hr
        case inl => exact .inl hr
        case inr => exact .inr ⟨hforw, List.mem_singleton.mp hr⟩
      case refine_2 =>
        intro hroom q hq
        have hq' := hroom q hq
        cases q <;> exact hq'
    case neg =>
      rw [if_neg hforw]
      refine ⟨setQueue_clk .., setQueue_refresh .., ?_, fun r hr => .inl (setQueue_pending .. ▸ hr), ?_⟩
      case refine_1 =>
        rw [if_neg hforw, demands_append]
        rfl
      case refine_2 =>
        intro hroom q hq
        have hq' := hroom q hq
        rw [queue_setQueue]
        split
        case isTrue he =>
          rw [he] at hq'
          rw [List.length_append, List.length_singleton]
          omega
        case isFalse => exact hq'

theorem Chosen.accesses (hch : Chosen c ch) (clk : Int) :
    Issue.accesses [⟨ch.cmd, ch.req.addrVec, clk⟩] =
      if ch.cmd = translate ch.req.type then {ch.req.demand} else 0 := by
  have hserves : ch.cmd = translate ch.req.type ↔ ch.cmd ∈ [Command.rd, .wr, .ref] := by
    constructor
    case mp =>
      intro he
      rw [he]
      cases ch.req.type <;> decide
    case mpr =>
      intro hmem
      rw [hch.cmd] at hmem ⊢
      exact (DRAM.decode_eq_or ..).resolve_right (not_not.mpr hmem)
  by_cases hlast : ch.cmd = translate ch.req.type
  case pos =>
    rw [if_pos hlast, Request.demand, ← hlast]
    simp only [Issue.accesses, List.filter_cons, hserves.mp hlast, decide_true, if_true, List.filter_nil]
    rfl
  case neg =>
    rw [if_neg hlast]
    simp only [Issue.accesses, List.filter_cons, mt hserves.mpr hlast, decide_false, List.filter_nil]
    rfl

theorem Inv.children_ids (h : Inv spec k is c) :
    c.channel.children.map (fun rank => rank.node.id) = List.range spec.orgEntry.ranks := by
  have hcount : spec.orgEntry.count (DRAM.level 2) = spec.orgEntry.ranks := rfl
  apply List.ext_getElem?
  intro r
  have hr := h.tracks.shape [r]
  simp only [DRAM.node?_cons, DRAM.node?_nil, DRAM.children_new, List.getElem?_map, Option.map_bind,
    Function.comp_def, Option.map_some, hcount] at hr
  rw [List.getElem?_map, Option.map_eq_bind]
  refine hr.trans ?_
  cases (List.range spec.orgEntry.ranks)[r]? <;> rfl

theorem demand_refreshRequest (h : Inv spec k is c) :
    Multiset.map Request.demand (c.channel.children.map c.refreshRequest) = refreshDemands spec k := by
  simp only [Multiset.map_coe, List.map_map, refreshDemands, ← h.children_ids, Multiset.coe_eq_coe]
  rw [← h.tracks.id_channel]
  exact .refl _

-- What a tick does to the requests of a controller.
structure Ticks (spec : DDR4) (k : Nat) (c : Controller) (o : Outcome) (c' : Controller) : Prop where
  room       : Room c'
  refresh    : c'.refresh = ⟨c.refresh.clk + 1, if Due spec c then c.refresh.clk + 1 else c.refresh.refreshed⟩
  ledger     : Issue.accesses o.issued + c'.demands =
                 c.demands + if Due spec c then refreshDemands spec k else 0
  pending    : ∀ req ∈ c'.pending, req ∈ c.pending ∨ ∃ i ∈ o.issued, i.cmd = .rd ∧ i.addr = req.addrVec ∧
                 req.arrive ≤ i.clk ∧ req.depart = i.clk + spec.readLatency
  calledBack : ∀ req ∈ o.calledBack, (req ∈ c.pending ∧ req.depart ≤ c.clk + 1) ∨
                 (req.type = .write ∧ req.arrive ≤ c.clk + 1 ∧ ⟨.wr, req.addrVec, c.clk + 1⟩ ∈ o.issued)

-- What comes before the command of a tick: the requests of refreshes are all that is added.
theorem Inv.tickRef_effect (h : Inv spec k is c) (hroom : Room c) (hok : c.tickRef spec = .ok c') :
    Room c' ∧ c'.refresh = ⟨c.refresh.clk + 1, if Due spec c then c.refresh.clk + 1 else c.refresh.refreshed⟩ ∧
      c'.demands = c.demands + (if Due spec c then refreshDemands spec k else 0) ∧ c'.pending = c.pending ∧
      c'.clk = c.clk := by
  rw [tickRef_eq (hroom .otherq (by decide))] at hok
  by_cases hdue : Due spec c
  case neg =>
    simp only [if_neg hdue] at hok ⊢
    rw [← Except.ok.inj hok]
    refine ⟨fun q hq => ?_, rfl, by rw [add_zero]; rfl, rfl, rfl⟩
    have hq' := hroom q hq
    cases q <;> exact hq'
  case pos =>
    simp only [if_pos hdue] at hok ⊢
    split at hok
    case isFalse => cases hok
    case isTrue hle =>
      rw [← Except.ok.inj hok, ← demand_refreshRequest h]
      refine ⟨fun q hq => ?_, rfl, ?_, rfl, rfl⟩
      case refine_1 =>
        have hq' := hroom q hq
        cases q
        case otherq => simpa [queue] using hle
        all_goals exact hq'
      case refine_2 => simp only [demands, ← Multiset.coe_add, Multiset.map_add, queued, add_assoc]

theorem Inv.ticks (h : Inv spec k is c) (hroom : Room c) {o : Outcome} (hok : c.tick spec = .ok (o, c')) :
    Ticks spec k c o c' := by
  obtain ⟨⟨reads, c₁⟩, hdone, hok⟩ := Except.bind_eq_ok.mp hok
  obtain ⟨c₂, href, hok⟩ := Except.bind_eq_ok.mp hok
  have h₁ : Inv spec k is c₁ := by
    obtain ⟨_, _, hok₁, h₁, -, -⟩ := h.advance.serveCompleted
    obtain ⟨-, rfl⟩ := Prod.mk.inj (Except.ok.inj (hok₁.symm.trans hdone))
    exact h₁
  have h₂ : Inv spec k is c₂ := (h₁.tickRef.of_ok href).1
  obtain ⟨hc₁, hpend₁, hdep₁⟩ := serveCompleted_eq_ok hdone
  have hqueue₁ (q : Queue) : c₁.queue q = c.queue q := by rw [hc₁]; cases q <;> rfl
  have hroom₁ : Room c₁ := fun q hq => hqueue₁ q ▸ hroom q hq
  have hdue₁ : Due spec c₁ ↔ Due spec c := by rw [hc₁]; rfl
  have href₁ : c₁.refresh = c.refresh := by rw [hc₁]
  have hclk₁ : c₁.clk = c.clk + 1 := by rw [hc₁]
  obtain ⟨hroom₂, href₂, hdem₂, hpend₂, hclk₂⟩ := h₁.tickRef_effect hroom₁ href
  simp only [hdue₁, href₁, demands_congr hqueue₁] at href₂ hdem₂
  have h₃ : Inv spec k is c₂.scheduleWrites := h₂.scheduleWrites.1
  have hc₃ := scheduleWrites_eq c₂
  have href₃ : c₂.scheduleWrites.refresh = c₂.refresh := by rw [hc₃]
  have hclk₃ : c₂.scheduleWrites.clk = c.clk + 1 := by rw [hc₃]; exact hclk₂.trans hclk₁
  have hdem₃ : c₂.scheduleWrites.demands = c₂.demands := demands_congr fun q => by rw [hc₃]; cases q <;> rfl
  have hpend₃ : c₂.scheduleWrites.pending = c₁.pending := by rw [hc₃]; exact hpend₂
  have hpend {req : Request} (hreq : req ∈ c₂.scheduleWrites.pending) : req ∈ c.pending := by
    have hsplit : c.pending = reads ++ c₁.pending := hpend₁
    rw [hsplit]
    exact List.mem_append_right _ (hpend₃ ▸ hreq)
  have hreads {req : Request} (hreq : req ∈ reads) : req ∈ c.pending ∧ req.depart ≤ c.clk + 1 := by
    have hsplit : c.pending = reads ++ c₁.pending := hpend₁
    exact ⟨hsplit ▸ List.mem_append_left _ hreq, hdep₁ req hreq⟩
  have hroom₃ : Room c₂.scheduleWrites := fun q hq => by
    have hq' := hroom₂ q hq
    rw [hc₃]
    cases q <;> exact hq'
  rcases schedule_eq_ok hok with ⟨rfl, rfl⟩ | ⟨ch, writes, hfind, hserve, rfl⟩
  case inl =>
    refine ⟨hroom₃, href₃.trans href₂, ?_, fun req hreq => .inl (hpend hreq), fun req hreq => .inl (hreads hreq)⟩
    rw [hdem₃, hdem₂]
    exact zero_add _
  case inr =>
    have hch := chosen_of_findCommand hfind
    have hs := serves_of_serveCommand hch hserve
    have harr : ch.req.arrive ≤ c.clk + 1 := hclk₃ ▸ h₃.arrived _ _ (List.mem_of_getElem? hch.mem)
    have hclk : c'.clk = c.clk + 1 := hs.clk.trans hclk₃
    refine ⟨fun q hq => (hs.length q hq).trans (hroom₃ q hq), hs.refresh.trans (href₃.trans href₂), ?_, ?_, ?_⟩
    case refine_1 => rw [hch.accesses, ← hs.demands, hdem₃, hdem₂]
    case refine_2 =>
      intro req hreq
      rcases hs.pending req hreq with hreq | ⟨hcmd, rfl⟩
      case inl => exact .inl (hpend hreq)
      case inr =>
        rw [hclk₃, ← hclk]
        exact .inr ⟨_, List.mem_singleton_self _, hcmd, rfl, hclk ▸ harr, rfl⟩
    case refine_3 =>
      intro req hreq
      rcases List.mem_append.mp hreq with hreq | hreq
      case inl => exact .inl (hreads hreq)
      case inr =>
        obtain ⟨htype, hcmd, rfl⟩ := hs.writes req hreq
        exact .inr ⟨htype, harr, by rw [hcmd, hclk]; exact List.mem_singleton_self _⟩

-- A tick fails where the refreshes that are due find no room.
theorem Inv.tick_eq_error (h : Inv spec k is c) (hlat : 2 ≤ spec.readLatency) (hroom : Room c) {f : Failure} :
    c.tick spec = .error f ↔
      f = .refreshRejected ∧ Due spec c ∧ Queue.max < c.otherq.length + spec.orgEntry.ranks := by
  obtain ⟨reads, c₁, hdone, h₁, -, -⟩ := h.advance.serveCompleted
  obtain ⟨hc₁, -, -⟩ := serveCompleted_eq_ok hdone
  have hother : c₁.otherq = c.otherq := by rw [hc₁]
  have hdue : Due spec c₁ ↔ Due spec c := by rw [hc₁]; rfl
  have hroom₁ : c₁.otherq.length ≤ Queue.max := hother ▸ hroom .otherq (by decide)
  have hranks : c₁.channel.children.length = spec.orgEntry.ranks := by
    simpa using congrArg List.length h₁.children_ids
  have htick : c.tick spec = c₁.tickRef spec >>= fun c => c.schedule spec reads := by
    unfold Controller.tick
    simp only [hdone, Except.ok_bind]
  have hsched {c₂ : Controller} (href : c₁.tickRef spec = .ok c₂) : c₂.schedule spec reads ≠ .error f := by
    obtain ⟨o, c₃, hok, -⟩ := (h₁.tickRef.of_ok href).1.schedule hlat reads
    rw [hok]
    simp
  rw [htick, Except.bind_eq_error]
  constructor
  case mp =>
    rintro (hf | ⟨c₂, href, hf⟩)
    case inr => exact absurd hf (hsched href)
    case inl =>
      rw [tickRef_eq hroom₁, hother, hranks] at hf
      split_ifs at hf with hd hle
      exact ⟨(Except.error.inj hf).symm, hdue.mp hd, not_le.mp hle⟩
  case mpr =>
    rintro ⟨rfl, hd, hlt⟩
    rw [tickRef_eq hroom₁, hother, hranks, if_pos (hdue.mpr hd), if_neg (not_le.mpr hlt)]
    exact .inl rfl

end Controller

end Ramulator
