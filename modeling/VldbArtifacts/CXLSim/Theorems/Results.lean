import VldbArtifacts.Lib.Tally
import VldbArtifacts.CXLSim.Results
import VldbArtifacts.CXLSim.Theorems.Time

-- The averages of the tables of all runs, merged, are the average over all completed requests.

namespace CXL

section Table

def AmatEntry.tally (e : AmatEntry) : Tally Rat :=
  ⟨e.count, e.avg⟩

-- The entry of a table after one more request.
def AmatEntry.IsPushed (e : AmatEntry) (x : Int) (e' : AmatEntry) : Prop :=
  e'.tally = e.tally.push x

-- The table holds the average latencies of the requests that took the times `xs`.
structure Averages (m : AList fun _ : Nat => AmatEntry) (xs : List Int) : Prop where
  count : m.sumValues AmatEntry.count = xs.length
  total : m.sumValues (·.tally.total) = (xs.sum : Int)
  pos   : ∀ e ∈ m.entries, e.2.count ≠ 0

theorem Averages.nil : Averages ∅ [] :=
  ⟨rfl, rfl, nofun⟩

variable {m : AList fun _ : Nat => AmatEntry} {xs : List Int} {x : Int} {k : Nat} {e : AmatEntry}

theorem Averages.insert (h : Averages m xs)
    (he : ((m.lookup k).getD {}).IsPushed x e) : Averages (m.insert k e) (xs ++ [x]) := by
  have hcount : e.count = ((m.lookup k).getD {}).count + 1 := congrArg Tally.count he
  have htotal := congrArg Tally.total he
  rw [Tally.total_push] at htotal
  refine ⟨?_, ?_, fun e' he' => ?_⟩
  case _ =>
    have hs := m.sumValues_insert AmatEntry.count k e {} rfl
    rw [h.count, hcount] at hs
    rw [List.length_append, List.length_singleton]
    omega
  case _ =>
    have hs := m.sumValues_insert (·.tally.total) k e {} Tally.total_empty
    rw [h.total, htotal, add_comm _ (x : Rat), ← add_assoc] at hs
    rw [add_right_cancel hs]
    simp
  case _ =>
    rw [AList.entries_insert] at he'
    rcases List.mem_cons.mp he' with rfl | he'
    case inl => exact hcount ▸ Nat.succ_ne_zero _
    case inr => exact h.pos e' ((List.kerase_sublist k m.entries).subset he')

end Table

variable {n : Nat} {cfg : Config n} {M : Memory}

-- What happens to the tables of a host: a response is retired, the direct attached memory completes
-- a request, or anything else happens to the host.
inductive HostCall (cfg : Config n)
  | retire (m : Message)
  | complete (currTick : Int) (r : Request)
  | elsewhere (h : CXLHost cfg)

namespace HostCall

def apply (h : CXLHost cfg) : HostCall cfg → CXLHost cfg
  | retire m     => h.recordAmatCxl m
  | complete t r => h.directAttachedReqComplete t r
  | elsewhere h' =>
    { h' with amatPerTableDam := h.amatPerTableDam, amatPerTableCxl := h.amatPerTableCxl }

-- How long the response took that the call retires.
def cxlLatency : HostCall cfg → List Int
  | retire m     => [m.time.tickReqComplete - m.time.tickCreated]
  | complete _ _ => []
  | elsewhere _  => []

-- How long the request took that the direct attached memory completes.
def damLatency (h : CXLHost cfg) : HostCall cfg → List Int
  | retire _     => []
  | complete t r => [t - (h.reqsInDam.lookup r.reqId).getD 0]
  | elsewhere _  => []

def cxlLatencies (cs : List (HostCall cfg)) : List Int :=
  cs.flatMap cxlLatency

def damLatencies : CXLHost cfg → List (HostCall cfg) → List Int
  | _, []      => []
  | h, c :: cs => c.damLatency h ++ damLatencies (c.apply h) cs

theorem apply_averages {h : CXLHost cfg} {xs ys : List Int} (c : HostCall cfg)
    (hcxl : Averages h.amatPerTableCxl xs) (hdam : Averages h.amatPerTableDam ys) :
    Averages (c.apply h).amatPerTableCxl (xs ++ c.cxlLatency) ∧
      Averages (c.apply h).amatPerTableDam (ys ++ c.damLatency h) := by
  cases c
  case retire m =>
    refine ⟨hcxl.insert ?_, (List.append_nil ys).symm ▸ hdam⟩
    simp [AmatEntry.IsPushed, AmatEntry.tally, Tally.push, runningAverage]
  case complete t r =>
    refine ⟨(List.append_nil xs).symm ▸ hcxl, hdam.insert ?_⟩
    simp [AmatEntry.IsPushed, AmatEntry.tally, Tally.push, runningAverage]
  case elsewhere h' =>
    exact ⟨(List.append_nil xs).symm ▸ hcxl, (List.append_nil ys).symm ▸ hdam⟩

theorem foldl_averages (cs : List (HostCall cfg)) {h : CXLHost cfg} {xs ys : List Int}
    (hcxl : Averages h.amatPerTableCxl xs) (hdam : Averages h.amatPerTableDam ys) :
    Averages (cs.foldl apply h).amatPerTableCxl (xs ++ cxlLatencies cs) ∧
      Averages (cs.foldl apply h).amatPerTableDam (ys ++ damLatencies h cs) := by
  induction cs generalizing h xs ys
  case nil => simpa [cxlLatencies, damLatencies] using ⟨hcxl, hdam⟩
  case cons c cs hi =>
    have ⟨hcxl, hdam⟩ := c.apply_averages hcxl hdam
    simpa [cxlLatencies, damLatencies] using hi hcxl hdam

end HostCall

section Merge

def ResultRow.tally (row : ResultRow) : Tally Rat :=
  ⟨row.count, row.avg⟩

def MergedResults.tally (r : MergedResults) : Tally Rat :=
  ⟨r.totalAccesses, r.finalAvg⟩

def countOf (rows : List ResultRow) : Nat :=
  (rows.map ResultRow.count).sum

def totalOf (rows : List ResultRow) : Rat :=
  (rows.map (·.tally.total)).sum

-- The rows are pooled, and the accesses of each kind are counted.
theorem foldlM_addRow (rows : List ResultRow) (r : MergedResults)
    (h : ∀ row ∈ rows, row.count ≠ 0) : ∃ r', rows.foldlM MergedResults.addRow r = some r' ∧
      r'.tally = (rows.map ResultRow.tally).foldl Tally.pool r.tally ∧
      r'.cxlAccesses = r.cxlAccesses + countOf (rows.filter (·.kind = 1)) ∧
      r'.damAccesses = r.damAccesses + countOf (rows.filter (·.kind ≠ 1)) := by
  induction rows generalizing r
  case nil => exact ⟨r, rfl, rfl, rfl, rfl⟩
  case cons row rows hi =>
    have hrow : row.count ≠ 0 := h row (List.mem_cons_self ..)
    have hstep : ∃ r₁, r.addRow row = some r₁ ∧ r₁.tally = r.tally.pool row.tally ∧
        r₁.cxlAccesses = r.cxlAccesses + (if row.kind = 1 then row.count else 0) ∧
        r₁.damAccesses = r.damAccesses + (if row.kind = 1 then 0 else row.count) := by
      unfold MergedResults.addRow
      split
      all_goals
        refine ⟨_, if_neg (by simp [hrow]), rfl, ?_, ?_⟩
        all_goals simp [*]
    obtain ⟨r₁, hr₁, ht₁, hc₁, hd₁⟩ := hstep
    obtain ⟨r', hr', ht', hc', hd'⟩ := hi r₁ fun row hr => h row (List.mem_cons_of_mem _ hr)
    refine ⟨r', by simp [hr₁, hr'], by simp [ht', ht₁], ?_, ?_⟩
    case _ => by_cases hk : row.kind = 1 <;> simp [hc', hc₁, hk, countOf, Nat.add_assoc]
    case _ => by_cases hk : row.kind = 1 <;> simp [hd', hd₁, hk, countOf, Nat.add_assoc]

theorem mergeResults_flatten (files : List (List ResultRow)) :
    mergeResults files = files.flatten.foldlM MergedResults.addRow {} := by
  unfold mergeResults
  generalize ({} : MergedResults) = r
  induction files generalizing r
  case nil => rfl
  case cons rows files hi =>
    rw [List.foldlM_cons, List.flatten_cons, List.foldlM_append]
    exact bind_congr fun r => hi r

-- The average over all rows.
theorem mergeResults_eq {files : List (List ResultRow)}
    (h : ∀ row ∈ files.flatten, row.count ≠ 0) : mergeResults files = some {
      totalAccesses := countOf files.flatten
      finalAvg      := totalOf files.flatten / countOf files.flatten
      cxlAccesses   := countOf (files.flatten.filter (·.kind = 1))
      damAccesses   := countOf (files.flatten.filter (·.kind ≠ 1)) } := by
  have ⟨r, hr, ht, hc, hd⟩ := foldlM_addRow files.flatten {} h
  have hpool := Tally.foldl_pool_empty (files.flatten.map ResultRow.tally)
    (List.forall_mem_map.mpr h)
  have ⟨hcount, havg⟩ := Tally.mk.inj (ht.trans hpool)
  rw [List.map_map] at hcount
  rw [List.map_map, List.map_map] at havg
  rw [mergeResults_flatten, hr]
  exact congrArg some (MergedResults.ext hcount havg (by simpa using hc) (by simpa using hd))

end Merge

section Rows

variable {h : CXLHost cfg} {m : AList fun _ : Nat => AmatEntry} {xs ys : List Int}

theorem sum_inOrder {N : Type} [AddCommMonoid N] (f : AmatEntry → N) :
    (m.inOrder.map fun e => f e.2).sum = m.sumValues f :=
  (m.inOrder_perm.map fun e => f e.2).sum_eq

theorem resultRows_pos (hcxl : Averages h.amatPerTableCxl xs)
    (hdam : Averages h.amatPerTableDam ys) : ∀ row ∈ h.resultRows, row.count ≠ 0 := by
  intro row hrow
  rcases List.mem_append.mp hrow with hrow | hrow
  all_goals obtain ⟨e, he, rfl⟩ := List.mem_map.mp hrow
  case inl => exact hdam.pos e (h.amatPerTableDam.inOrder_perm.mem_iff.mp he)
  case inr => exact hcxl.pos e (h.amatPerTableCxl.inOrder_perm.mem_iff.mp he)

theorem countOf_cxl (hcxl : Averages h.amatPerTableCxl xs) :
    countOf (h.resultRows.filter (·.kind = 1)) = xs.length := by
  simp only [countOf, CXLHost.resultRows, List.filter_append, List.filter_map]
  simpa [Function.comp_def, sum_inOrder] using hcxl.count

theorem countOf_dam (hdam : Averages h.amatPerTableDam ys) :
    countOf (h.resultRows.filter (·.kind ≠ 1)) = ys.length := by
  simp only [countOf, CXLHost.resultRows, List.filter_append, List.filter_map]
  simpa [Function.comp_def, sum_inOrder] using hdam.count

theorem countOf_resultRows (hcxl : Averages h.amatPerTableCxl xs)
    (hdam : Averages h.amatPerTableDam ys) : countOf h.resultRows = (ys ++ xs).length := by
  simp only [countOf, CXLHost.resultRows, List.map_append, List.map_map, List.sum_append,
    List.length_append, ← hcxl.count, ← hdam.count, ← sum_inOrder]
  rfl

theorem total_resultRows (hcxl : Averages h.amatPerTableCxl xs)
    (hdam : Averages h.amatPerTableDam ys) :
    totalOf h.resultRows = ((ys ++ xs).sum : Int) := by
  simp only [totalOf, CXLHost.resultRows, List.map_append, List.map_map, List.sum_append,
    Int.cast_add, ← hcxl.total, ← hdam.total, ← sum_inOrder]
  rfl

end Rows

-- A run of the simulator, as far as its latency file goes.
structure SimRun where
  n     : Nat
  cfg   : Config n
  trace : List Char
  calls : List (HostCall cfg)

namespace SimRun

def host (r : SimRun) : CXLHost r.cfg :=
  r.calls.foldl HostCall.apply (.init r.trace)

def cxlLatencies (r : SimRun) : List Int :=
  HostCall.cxlLatencies r.calls

def damLatencies (r : SimRun) : List Int :=
  HostCall.damLatencies (.init r.trace) r.calls

def latencies (r : SimRun) : List Int :=
  r.damLatencies ++ r.cxlLatencies

theorem averages (r : SimRun) : Averages r.host.amatPerTableCxl r.cxlLatencies ∧
    Averages r.host.amatPerTableDam r.damLatencies := by
  have hinit : Averages (CXLHost.init r.trace : CXLHost r.cfg).amatPerTableCxl [] := .nil
  exact HostCall.foldl_averages r.calls hinit .nil

end SimRun

theorem countOf_append (rows rows' : List ResultRow) :
    countOf (rows ++ rows') = countOf rows + countOf rows' := by
  simp [countOf]

theorem totalOf_append (rows rows' : List ResultRow) :
    totalOf (rows ++ rows') = totalOf rows + totalOf rows' := by
  simp [totalOf]

-- What adds up over the rows of a file adds up over the files of some runs.
theorem sum_runs {N : Type} [AddMonoid N] (g : List ResultRow → N) (x : List Int → N)
    (xs : SimRun → List Int) (hnil : g [] = x [])
    (hg : ∀ rows rows', g (rows ++ rows') = g rows + g rows')
    (hx : ∀ ys ys', x (ys ++ ys') = x ys + x ys')
    (h : ∀ r : SimRun, g r.host.resultRows = x (xs r)) (runs : List SimRun) :
    g (runs.map (·.host.resultRows)).flatten = x (runs.flatMap xs) := by
  induction runs
  case nil => exact hnil
  case cons r runs hi =>
    rw [List.map_cons, List.flatten_cons, List.flatMap_cons, hg, hx, h, hi]

-- The host has completed some requests.
def CXLHost.Completes (h h' : CXLHost cfg) : Prop :=
  ∃ cs : List (HostCall cfg), h' = cs.foldl HostCall.apply h ∧
    h'.numReqsCompleted = h.numReqsCompleted +
      ((HostCall.damLatencies h cs).length + (HostCall.cxlLatencies cs).length)

namespace CXLHost.Completes

variable {h h' h'' : CXLHost cfg}

theorem untouched (hdam : h'.amatPerTableDam = h.amatPerTableDam)
    (hcxl : h'.amatPerTableCxl = h.amatPerTableCxl)
    (hnum : h'.numReqsCompleted = h.numReqsCompleted) : h.Completes h' := by
  refine ⟨[.elsewhere h'], ?_, hnum⟩
  simp only [List.foldl_cons, List.foldl_nil, HostCall.apply, ← hdam, ← hcxl]

theorem refl (h : CXLHost cfg) : h.Completes h :=
  untouched rfl rfl rfl

theorem damLatencies_append (h : CXLHost cfg) (cs cs' : List (HostCall cfg)) :
    HostCall.damLatencies h (cs ++ cs') =
      HostCall.damLatencies h cs ++ HostCall.damLatencies (cs.foldl HostCall.apply h) cs' := by
  induction cs generalizing h
  case nil          => rfl
  case cons c cs hi => simp [HostCall.damLatencies, hi]

theorem trans (h₁ : h.Completes h') (h₂ : h'.Completes h'') : h.Completes h'' := by
  obtain ⟨cs, rfl, hn⟩ := h₁
  obtain ⟨cs', rfl, hn'⟩ := h₂
  refine ⟨cs ++ cs', (List.foldl_append ..).symm, ?_⟩
  rw [hn', hn, damLatencies_append]
  simp only [HostCall.cxlLatencies, List.flatMap_append, List.length_append]
  omega

theorem of_retires {m : Message} (hr : RetiresMessage m h h') : h.Completes h' := by
  obtain ⟨tx, rx, st, sent, c, hr⟩ := hr
  exact ⟨[.retire m, .elsewhere h'], by rw [hr]; rfl, by rw [hr]; rfl⟩

theorem directAttached (t : Int) (rs : List Request) (h : CXLHost cfg) :
    h.Completes (rs.foldl (directAttachedReqComplete t) h) := by
  induction rs generalizing h
  case nil => exact .refl h
  case cons r rs hi =>
    have hr : h.Completes (h.directAttachedReqComplete t r) := ⟨[.complete t r], rfl, rfl⟩
    exact hr.trans (hi _)

end CXLHost.Completes

namespace CXLSystem

theorem readTrace_completes (h : CXLHost cfg) :
    h.readTrace.Meets (fun r => h.Completes r.2) fun _ => True := by
  refine .ite (fun _ => .refl h) fun _ => ?_
  split
  case h_1 => exact .refl h
  case h_2 =>
    exact (Except.Meets.any _).bind fun _ _ => (Except.Meets.any _).bind fun _ _ =>
      .untouched rfl rfl rfl

theorem issueToVc_completes (h : CXLHost cfg) (t : Int) (m : Message) :
    (h.issueToVc t m).Meets (fun o => ∀ h' ∈ o, h.Completes h') fun _ => True := by
  unfold CXLHost.issueToVc
  simp only
  split
  case h_1 =>
    refine .ite (fun _ => meets_none) fun _ => (Except.Meets.any _).bind fun _ _ => ?_
    exact meets_some (.untouched rfl rfl rfl)
  case h_2 =>
    refine .ite (fun _ => meets_none) fun _ => (Except.Meets.any _).bind fun _ _ => ?_
    exact meets_some (.untouched rfl rfl rfl)
  case h_3 => trivial

theorem issueHead_completes (s : CXLSystem cfg M) :
    s.issueHead.Meets (fun r => s.host.Completes r.2.host) fun _ => True := by
  unfold issueHead
  split
  case h_1 => exact .refl _
  case h_2 m _ _ =>
    refine .ite (fun _ => .ite (fun _ => .ite (fun _ => ?_) fun _ => ?_) fun _ => ?_) fun _ => ?_
    case _ => exact .untouched rfl rfl rfl
    case _ =>
      exact (Except.Meets.any _).bind fun _ _ => (Except.Meets.any _).bind fun _ _ =>
        .untouched rfl rfl rfl
    case _ =>
      refine (issueToVc_completes ..).bind fun o ho => ?_
      have hnoted : s.host.Completes { s.host with lastTextToTraceBufDequeue := s.currTick } :=
        .untouched rfl rfl rfl
      cases o
      case none   => exact hnoted
      case some h => exact hnoted.trans (ho h rfl)
    case _ => exact .refl _

-- A call of a tick acts on the tables by completing requests.
theorem perform_completes (s : CXLSystem cfg M) (a : Action n) :
    (s.perform a).Meets (fun s' => s.host.Completes s'.host) fun _ => True := by
  cases a
  case issueHead   => exact s.issueHead_completes.bind fun _ h => h
  case readTrace   => exact (readTrace_completes s.host).bind fun _ h => h
  case packHost    =>
    exact CXLHost.flitPacker_frame.bind fun _ ⟨_, h⟩ => h ▸ .untouched rfl rfl rfl
  case unpackHost  =>
    exact CXLHost.flitUnpacker_frame.bind fun _ ⟨_, _, _, h⟩ => h ▸ .untouched rfl rfl rfl
  case transmitHost =>
    refine CXLHost.transmit_frame.bind fun r ⟨tx, h⟩ => ?_
    have h : s.host.Completes r.1 := h ▸ .untouched rfl rfl rfl
    exact h
  case completeReq =>
    exact CXLHost.checkIfReqCompleted_frame.bind fun _ h =>
      h.elim (· ▸ .refl _) fun ⟨_, h⟩ => .of_retires h
  case updateDam =>
    show s.host.Completes s.updateDam.host
    unfold updateDam
    split
    case isTrue  => exact .directAttached ..
    case isFalse => exact .refl _
  case busToHost =>
    refine (Except.Meets.any _).bind fun r _ => ?_
    have h : s.host.Completes { s.host with rx := { s.host.rx with rxBuffer := r.2 } } :=
      .untouched rfl rfl rfl
    exact h
  case finishTrace => exact CXLHost.Completes.untouched rfl rfl rfl
  case setSkipCycle | setTick => exact CXLHost.Completes.refl _
  all_goals exact (Except.Meets.any _).bind fun _ _ => CXLHost.Completes.refl _

theorem completes_of_calls {trace : List Char} {as : List (Action n)} {s : CXLSystem cfg M}
    (h : as.foldlM perform (init trace) = .ok s) : (CXLHost.init trace).Completes s.host := by
  have hinit : (CXLHost.init trace).Completes (init trace : CXLSystem cfg M).host := .refl _
  have hrun : (as.foldlM perform (init trace : CXLSystem cfg M)).Meets
      (fun s => (CXLHost.init trace).Completes s.host) fun _ => True :=
    .foldlM (fun s a _ hs => (perform_completes s a).imp fun _ => hs.trans) hinit
  exact hrun.of_ok h

end CXLSystem

-- However the requests are spread over runs and tables and in whatever order they complete, the
-- merged average is their average, and the counts are their numbers. The calls of a run of the
-- simulator complete as many requests as it counts.
theorem mergeResults_eq_mean (runs : List SimRun) :
    mergeResults (runs.map (·.host.resultRows)) = some {
      totalAccesses := (runs.flatMap (·.latencies)).length
      finalAvg      :=
        ((runs.flatMap (·.latencies)).sum : Int) / (runs.flatMap (·.latencies)).length
      cxlAccesses   := (runs.flatMap (·.cxlLatencies)).length
      damAccesses   := (runs.flatMap (·.damLatencies)).length } ∧
    ∀ (n : Nat) (cfg : Config n) (M : Memory) (b : Build) (trace : List Char) (k : Nat)
      (s : CXLSystem cfg M), (CXLSystem.init trace).run b k = .ok s →
        ∃ calls, (SimRun.mk n cfg trace calls).host = s.host ∧
          (SimRun.mk n cfg trace calls).latencies.length = s.host.numReqsCompleted := by
  constructor
  case left =>
    have hpos : ∀ row ∈ (runs.map (·.host.resultRows)).flatten, row.count ≠ 0 := by
      intro row hrow
      have ⟨_, hrows, hrow⟩ := List.mem_flatten.mp hrow
      have ⟨r, _, hr⟩ := List.mem_map.mp hrows
      exact resultRows_pos r.averages.left r.averages.right row (hr ▸ hrow)
    have htotal : totalOf (runs.map (·.host.resultRows)).flatten =
        (((runs.flatMap (·.latencies)).sum : Int) : Rat) := by
      refine sum_runs totalOf (fun ys => (ys.sum : Int)) SimRun.latencies rfl totalOf_append
        (fun ys ys' => ?_) (fun r => total_resultRows r.averages.left r.averages.right) runs
      rw [List.sum_append, Int.cast_add]
    have hcount : countOf (runs.map (·.host.resultRows)).flatten =
        (runs.flatMap (·.latencies)).length :=
      sum_runs countOf List.length _ rfl countOf_append (fun _ _ => List.length_append)
        (fun r => countOf_resultRows r.averages.left r.averages.right) runs
    have hkind (p : ResultRow → Bool) (rows rows' : List ResultRow) :
        countOf ((rows ++ rows').filter p) =
          countOf (rows.filter p) + countOf (rows'.filter p) := by
      rw [List.filter_append, countOf_append]
    have hcxl : countOf ((runs.map (·.host.resultRows)).flatten.filter (·.kind = 1)) =
        (runs.flatMap (·.cxlLatencies)).length :=
      sum_runs (fun rows => countOf (rows.filter _)) List.length _ rfl (hkind _)
        (fun _ _ => List.length_append) (fun r => countOf_cxl r.averages.left) runs
    have hdam : countOf ((runs.map (·.host.resultRows)).flatten.filter (·.kind ≠ 1)) =
        (runs.flatMap (·.damLatencies)).length :=
      sum_runs (fun rows => countOf (rows.filter _)) List.length _ rfl (hkind _)
        (fun _ _ => List.length_append) (fun r => countOf_dam r.averages.right) runs
    rw [mergeResults_eq hpos, htotal, hcount, hcxl, hdam]
  case right =>
    intro n cfg M b trace k s h
    have ⟨as, has⟩ := CXLSystem.run_isRun b k (CXLSystem.init trace : CXLSystem cfg M)
    have ⟨cs, hcs, hn⟩ := CXLSystem.completes_of_calls (has.trans h)
    refine ⟨cs, hcs.symm, ?_⟩
    simpa [SimRun.latencies, SimRun.cxlLatencies, SimRun.damLatencies, CXLHost.init] using hn.symm

-- A response that took 12 ticks in one run, and a request of the direct attached memory that took 5
-- ticks in another.
def twoRuns : List SimRun :=
  [⟨1, .main, [], [.retire { time := { tickCreated := 3, tickReqComplete := 15 } }]⟩,
    ⟨1, .main, [], [.complete 5 ⟨0, .read, 0⟩]⟩]

theorem mergeResults_two_runs :
    mergeResults (twoRuns.map (·.host.resultRows)) = some ⟨2, 17 / 2, 1, 1⟩ ∧
    ∃ s : CXLSystem Config.main Memory.fifo,
      (CXLSystem.init "0x0 R 1\n".toList).run {} 20 = .ok s ∧
      ∃ calls, (SimRun.mk 1 .main "0x0 R 1\n".toList calls).host = s.host ∧
        (SimRun.mk 1 .main "0x0 R 1\n".toList calls).latencies.length =
          s.host.numReqsCompleted := by
  have ⟨hmean, hruns⟩ := mergeResults_eq_mean twoRuns
  refine ⟨hmean.trans ?_, ?_⟩
  case refine_1 =>
    refine congrArg some (MergedResults.ext rfl ?_ rfl rfl)
    norm_num [twoRuns, SimRun.latencies, SimRun.damLatencies, SimRun.cxlLatencies,
      HostCall.damLatencies, HostCall.cxlLatencies, HostCall.damLatency, HostCall.cxlLatency,
      CXLHost.init]
  case refine_2 =>
    cases hs : (CXLSystem.init "0x0 R 1\n".toList : CXLSystem Config.main Memory.fifo).run {} 20
    case ok s => exact ⟨s, rfl, hruns _ _ _ _ _ _ s hs⟩
    case error e =>
      have hok : ((CXLSystem.init "0x0 R 1\n".toList : CXLSystem Config.main Memory.fifo).run {}
        20).failure? = none := by decide +kernel
      rw [hs] at hok
      cases hok

end CXL
