import VldbArtifacts.CXLSim.Theorems.Time
import VldbArtifacts.CXLSim.Theorems.Packer

-- When the requests of the trace leave `text_to_trace_buf`, and what
-- `last_text_to_trace_buf_dequeue` says about it.

namespace CXL

variable {n : Nat} {cfg : Config n} {M : Memory}

-- The tick in which a request has left the buffer most recently, 0 if none has.
def CXLHost.lastIssue (h : CXLHost cfg) : Int :=
  (h.issued.getLast?.map Prod.snd).getD 0

def CXLHost.vcIsFull (h : CXLHost cfg) (m : Message) : Option Bool :=
  match m.opCode with
  | .req => (h.tx.single.vcs h.curReqVc).isBufFull
  | .rwd => (h.tx.hdr.vcs h.curRWDVc).isBufFull
  | _    => none

-- What only `issueHead` writes.
def CXLHost.issueLog (h : CXLHost cfg) : Int × List (Nat × Int) :=
  (h.lastTextToTraceBufDequeue, h.issued)

namespace CXLSystem

-- Whether the place that the message goes to is full. Only reads and writes have one.
def targetIsFull (s : CXLSystem cfg M) (m : Message) : Option Bool :=
  if isInDam cfg m.address then
    if s.dam.inpBuf.isFull then some true
    else if m.opCode = .req ∨ m.opCode = .rwd then some false else none
  else
    s.host.vcIsFull m

-- The test of `text_to_trace`, in its arithmetic.
def IsDue (s : CXLSystem cfg M) (interval : Nat) : Prop :=
  toU64 (s.currTick - s.host.lastTextToTraceBufDequeue) ≥ toU64 (interval * cfg.params.ticksPerIns)

instance (s : CXLSystem cfg M) (interval : Nat) : Decidable (s.IsDue interval) :=
  inferInstanceAs (Decidable (_ ≥ _))

variable {s s' : CXLSystem cfg M}

theorem updateDam_issueLog (s : CXLSystem cfg M) : s.updateDam.host.issueLog = s.host.issueLog := by
  have hfold (rs : List Request) (h : CXLHost cfg) :
      (rs.foldl (CXLHost.directAttachedReqComplete s.currTick) h).issueLog = h.issueLog := by
    induction rs generalizing h
    case nil          => rfl
    case cons r rs ih => exact (ih _).trans rfl
  unfold updateDam
  split
  case isTrue  => exact hfold _ _
  case isFalse => rfl

theorem readTrace_issueLog (h : CXLHost cfg) :
    h.readTrace.Meets (fun r => r.2.issueLog = h.issueLog) fun _ => True := by
  refine .ite (fun _ => rfl) fun _ => ?_
  split
  case h_1 => rfl
  case h_2 =>
    exact (Except.Meets.any _).bind fun _ _ => (Except.Meets.any _).bind fun _ _ => rfl

theorem perform_issueLog {a : Action n} (ha : a ≠ .issueHead) :
    (s.perform a).Meets (fun s' => s'.host.issueLog = s.host.issueLog) fun _ => True := by
  cases a
  case issueHead   => contradiction
  case readTrace   => exact (readTrace_issueLog s.host).bind fun _ h => h
  case packHost    => exact CXLHost.flitPacker_frame.bind fun _ ⟨_, h⟩ => h ▸ rfl
  case unpackHost  => exact CXLHost.flitUnpacker_frame.bind fun _ ⟨_, _, _, h⟩ => h ▸ rfl
  case updateDam   => exact s.updateDam_issueLog
  case transmitHost =>
    refine CXLHost.transmit_frame.bind fun r ⟨tx, h⟩ => ?_
    have h : r.1.issueLog = s.host.issueLog := h ▸ rfl
    exact h
  case completeReq =>
    exact CXLHost.checkIfReqCompleted_frame.bind fun _ h =>
      h.elim (· ▸ rfl) fun ⟨_, _, _, _, _, _, h⟩ => h ▸ rfl
  case setSkipCycle | finishTrace | setTick => rfl
  all_goals exact (Except.Meets.any _).bind fun _ _ => rfl

-- The log after a due head has met its target.
def logOf (s : CXLSystem cfg M) (m : Message) (full : Bool) : Int × List (Nat × Int) :=
  (s.currTick, s.host.issued ++ if full then [] else [(m.msgId, s.currTick)])

theorem issueToVc_issueLog {h : CXLHost cfg} {t : Int} {m : Message} : (h.issueToVc t m).Meets
    (fun o => h.vcIsFull m = some o.isNone ∧
      ∀ h' ∈ o, h'.issueLog = (h.lastTextToTraceBufDequeue, h.issued ++ [(m.msgId, t)]))
    (fun _ => h.vcIsFull m = none) := by
  unfold CXLHost.issueToVc CXLHost.vcIsFull
  simp only
  split
  case h_1 hm =>
    refine .ite (fun hf => by simp [hm, hf]) fun hf => ?_
    refine Except.Meets.bind (P := fun _ => True) ?_ fun _ _ => by simp [hm, hf, CXLHost.issueLog]
    exact (VcArray.enqueue_meets _).mono (fun _ _ => trivial) fun e he => absurd he.right hf
  case h_2 hm =>
    refine .ite (fun hf => by simp [hm, hf]) fun hf => ?_
    refine Except.Meets.bind (P := fun _ => True) ?_ fun _ _ => by simp [hm, hf, CXLHost.issueLog]
    exact (VcArray.enqueue_meets _).mono (fun _ _ => trivial) fun e he => absurd he.right hf
  case h_3 hreq hrwd => simp only [Except.meets_error]

theorem message2RamulatorReq_legal {m : Message} : (message2RamulatorReq m).Meets
    (fun r => r.reqId = m.msgId ∧ (m.opCode = .req ∨ m.opCode = .rwd))
    (fun _ => ¬(m.opCode = .req ∨ m.opCode = .rwd)) := by
  unfold message2RamulatorReq
  split <;> simp_all

-- A due head leaves the buffer unless its target is full, and the tick is noted in both cases.
theorem issueHead_due {interval : Nat} {m : Message} {q : List (Nat × Message)}
    (hq : s.host.textToTraceBuf.q = (interval, m) :: q) (hdue : s.IsDue interval) :
    s.issueHead.Meets
      (fun r => ∃ full, s.targetIsFull m = some full ∧ r.2.host.issueLog = s.logOf m full)
      (fun _ => s.targetIsFull m = none) := by
  unfold issueHead
  simp only [hq]
  refine .ite (fun _ => ?_) fun hn => absurd hdue hn
  refine .ite (fun hdam => .ite (fun hf => ?_) fun hf => ?_) fun hdam => ?_
  case _ => exact ⟨true, by simp [targetIsFull, hdam, hf], by simp [CXLHost.issueLog, logOf]⟩
  case _ =>
    have hlegal : (message2RamulatorReq m).Meets
        (fun r => r.reqId = m.msgId ∧ (m.opCode = .req ∨ m.opCode = .rwd))
        (fun _ => s.targetIsFull m = none) :=
      message2RamulatorReq_legal.mono (fun _ => id) fun _ he => by simp [targetIsFull, hdam, hf, he]
    refine hlegal.bind fun r hr => ?_
    refine Except.Meets.bind (P := fun _ => True) ?_ fun b _ => ?_
    case _ => exact .ite (fun h => absurd h hf) fun _ => trivial
    case _ =>
      exact ⟨false, by simp [targetIsFull, hdam, hf, hr.right],
        by simp [CXLHost.issueLog, logOf, hr.left]⟩
  case _ =>
    have htarget : s.targetIsFull m = s.host.vcIsFull m := if_neg hdam
    rw [htarget]
    refine issueToVc_issueLog.bind fun o ho => ?_
    cases o
    case none   => exact ⟨true, ho.left, by simp [CXLHost.issueLog, logOf]⟩
    case some h => exact ⟨false, ho.left, ho.right h rfl⟩

theorem issueHead_of_nil (hq : s.host.textToTraceBuf.q = []) : s.issueHead = .ok (true, s) := by
  simp [issueHead, hq]

theorem issueHead_of_not_due {x : Nat × Message} {q : List (Nat × Message)}
    (hq : s.host.textToTraceBuf.q = x :: q) (hdue : ¬s.IsDue x.1) :
    s.issueHead = .ok (true, s) := by
  unfold issueHead
  simp only [hq]
  exact if_neg hdue

-- A due head finds its target full, in another tick than the one that was noted before.
def HeldBack (s : CXLSystem cfg M) : Prop :=
  ∃ x ∈ s.host.textToTraceBuf.q.head?, s.IsDue x.1 ∧ s.targetIsFull x.2 = some true ∧
    s.currTick ≠ s.host.lastTextToTraceBufDequeue

-- If the head has a place to go to, the test says what it would say without a bound on the numbers.
def TestsExactly (s : CXLSystem cfg M) : Prop :=
  ∀ x ∈ s.host.textToTraceBuf.q.head?, s.targetIsFull x.2 = some false →
    (s.IsDue x.1 ↔
      s.host.lastTextToTraceBufDequeue + x.1 * cfg.params.ticksPerIns ≤ s.currTick)

-- The request that has to leave the buffer: the head, if its interval has passed since the last
-- one left and if its target has room.
def mustIssue (s : CXLSystem cfg M) : List (Nat × Int) :=
  match s.host.textToTraceBuf.q.head? with
  | none   => []
  | some x =>
    if s.host.lastIssue + x.1 * cfg.params.ticksPerIns ≤ s.currTick ∧
        s.targetIsFull x.2 = some false
    then [(x.2.msgId, s.currTick)] else []

-- A call of `issueHead` in this state issues what it has to.
def IssuesOnTime (s : CXLSystem cfg M) : Prop :=
  ∀ s', s.perform .issueHead = .ok s' → s'.host.issued = s.host.issued ++ s.mustIssue

-- The state is passed by a sequence of calls.
def PassedBy (trace : List Char) (as : List (Action n)) (s : CXLSystem cfg M) : Prop :=
  ∃ as₁ as₂, as = as₁ ++ as₂ ∧ as₁.foldlM perform (init trace) = .ok s

-- `last_text_to_trace_buf_dequeue` is what its comment says.
def NotesLastIssue (s : CXLSystem cfg M) : Prop :=
  s.host.lastTextToTraceBufDequeue = s.host.lastIssue

theorem NotesLastIssue.congr (h : s.NotesLastIssue) (hl : s'.host.issueLog = s.host.issueLog) :
    s'.NotesLastIssue := by
  have ⟨hlast, hissued⟩ := Prod.mk.inj hl
  rw [NotesLastIssue, CXLHost.lastIssue, hlast, hissued]
  exact h

-- The cases of a call of `issueHead`.
inductive IssueCase (s s' : CXLSystem cfg M) : Prop
  | none (hq : s.host.textToTraceBuf.q = []) (hl : s'.host.issueLog = s.host.issueLog)
  | early {x q} (hq : s.host.textToTraceBuf.q = x :: q) (hdue : ¬s.IsDue x.1)
      (hl : s'.host.issueLog = s.host.issueLog)
  | due {x q full} (hq : s.host.textToTraceBuf.q = x :: q) (hdue : s.IsDue x.1)
      (hfull : s.targetIsFull x.2 = some full) (hl : s'.host.issueLog = s.logOf x.2 full)

theorem perform_issueHead_cases (h : s.perform .issueHead = .ok s') : IssueCase s s' := by
  have ⟨r, hr, hs'⟩ := Except.bind_eq_ok.mp h
  obtain rfl := Except.ok.inj hs'
  cases hq : s.host.textToTraceBuf.q
  case nil =>
    obtain rfl := Except.ok.inj ((issueHead_of_nil hq).symm.trans hr)
    exact .none hq rfl
  case cons x q =>
    by_cases hdue : s.IsDue x.1
    case pos =>
      have ⟨full, hfull, hl⟩ := (issueHead_due hq hdue).of_ok hr
      exact .due hq hdue hfull hl
    case neg =>
      obtain rfl := Except.ok.inj ((issueHead_of_not_due hq hdue).symm.trans hr)
      exact .early hq hdue rfl

theorem perform_issueHead_due {x : Nat × Message} {q : List (Nat × Message)} {full : Bool}
    (hq : s.host.textToTraceBuf.q = x :: q) (hdue : s.IsDue x.1)
    (hfull : s.targetIsFull x.2 = some full) :
    ∃ s', s.perform .issueHead = .ok s' ∧ s'.host.issueLog = s.logOf x.2 full := by
  have h := issueHead_due hq hdue
  cases hr : s.issueHead
  case error e => exact absurd (hfull.symm.trans (h.of_error hr)) (Option.some_ne_none full)
  case ok r =>
    have ⟨full', hfull', hl⟩ := h.of_ok hr
    obtain rfl := Option.some.inj (hfull.symm.trans hfull')
    exact ⟨r.2, by simp [perform, hr], hl⟩

theorem NotesLastIssue.perform {a : Action n} (h : s.NotesLastIssue) (ha : s.perform a = .ok s')
    (hheld : a = .issueHead → ¬s.HeldBack) : s'.NotesLastIssue := by
  by_cases hissue : a = .issueHead
  case neg => exact h.congr ((perform_issueLog hissue).of_ok ha)
  case pos =>
    subst hissue
    cases perform_issueHead_cases ha
    case none hq hl       => exact h.congr hl
    case early hq hdue hl => exact h.congr hl
    case due x q full hq hdue hfull hl =>
      cases full
      case false =>
        have ⟨hlast, hissued⟩ := Prod.mk.inj hl
        simp [NotesLastIssue, CXLHost.lastIssue, hlast, hissued]
      case true =>
        -- The tick is noted although nothing has left, so it has to be the one of the last request.
        have ht : s.currTick = s.host.lastTextToTraceBufDequeue := by
          by_contra hne
          exact hheld rfl ⟨x, by simp [hq], hdue, hfull, hne⟩
        refine h.congr (hl.trans ?_)
        simp [logOf, CXLHost.issueLog, ht]

-- Conversely, a head that is held back leaves a tick behind in which nothing was issued.
theorem NotesLastIssue.not_heldBack (h : s.NotesLastIssue)
    (h' : ∀ s', s.perform .issueHead = .ok s' → s'.NotesLastIssue) : ¬s.HeldBack := by
  rintro ⟨x, hx, hdue, hfull, hne⟩
  have ⟨s', hs', hl⟩ := perform_issueHead_due (List.eq_cons_of_mem_head? hx) hdue hfull
  have ⟨hlast, hissued⟩ := Prod.mk.inj hl
  have hnotes : s.currTick = s'.host.lastIssue := hlast.symm.trans (h' s' hs')
  have hsame : s'.host.lastIssue = s.host.lastIssue := by simp [CXLHost.lastIssue, hissued]
  exact hne (hnotes.trans (hsame.trans h.symm))

theorem mustIssue_of_room {x : Nat × Message} (hx : x ∈ s.host.textToTraceBuf.q.head?)
    (hroom : s.targetIsFull x.2 = some false) : s.mustIssue =
      if s.host.lastIssue + x.1 * cfg.params.ticksPerIns ≤ s.currTick
      then [(x.2.msgId, s.currTick)] else [] := by
  simp [mustIssue, Option.mem_def.mp hx, hroom]

theorem NotesLastIssue.issuesOnTime (h : s.NotesLastIssue) (ht : s.TestsExactly) :
    s.IssuesOnTime := by
  intro s' hs'
  cases perform_issueHead_cases hs'
  case none hq hl =>
    simpa [mustIssue, hq] using (Prod.mk.inj hl).right
  case early x q hq hdue hl =>
    have hx : x ∈ s.host.textToTraceBuf.q.head? := by simp [hq]
    have hno : s.mustIssue = [] := by
      by_cases hroom : s.targetIsFull x.2 = some false
      case pos =>
        have hlate := hdue ∘ (ht x hx hroom).mpr
        rw [mustIssue_of_room hx hroom, ← h, if_neg hlate]
      case neg => simp [mustIssue, hq, hroom]
    rw [hno, List.append_nil]
    exact (Prod.mk.inj hl).right
  case due x q full hq hdue hfull hl =>
    have hx : x ∈ s.host.textToTraceBuf.q.head? := by simp [hq]
    have hissued := (Prod.mk.inj hl).right
    cases full
    case true  => simpa [mustIssue, hq, hfull] using hissued
    case false =>
      rw [mustIssue_of_room hx hfull, ← h, if_pos ((ht x hx hfull).mp hdue)]
      exact hissued

theorem NotesLastIssue.testsExactly (h : s.NotesLastIssue) (hi : s.IssuesOnTime) :
    s.TestsExactly := by
  intro x hx hroom
  have hq := List.eq_cons_of_mem_head? hx
  have hmust := mustIssue_of_room hx hroom
  rw [← h] at hmust
  by_cases hdue : s.IsDue x.1
  case pos =>
    have ⟨s', hs', hl⟩ := perform_issueHead_due hq hdue hroom
    have hne := List.append_cancel_left ((Prod.mk.inj hl).right.symm.trans (hi s' hs'))
    refine iff_of_true hdue ?_
    by_contra hlate
    simp [hmust, hlate] at hne
  case neg =>
    have hs : s.perform .issueHead = .ok s :=
      Except.bind_eq_ok.mpr ⟨_, issueHead_of_not_due hq hdue, rfl⟩
    have hnil := List.self_eq_append_right.mp (hi s hs)
    refine iff_of_false hdue fun hpassed => ?_
    simp [hmust, hpassed] at hnil

theorem foldlM_perform_concat {as : List (Action n)} {a : Action n} :
    (as ++ [a]).foldlM perform s = .ok s' ↔
      ∃ s₁, as.foldlM perform s = .ok s₁ ∧ s₁.perform a = .ok s' := by
  simp only [List.foldlM_append, List.foldlM_cons, List.foldlM_nil, bind_pure, Except.bind_eq_ok]

theorem PassedBy.notesLastIssue {trace : List Char} {as : List (Action n)}
    (h : ∀ s : CXLSystem cfg M, CalledIn trace as .issueHead s → ¬s.HeldBack)
    (hs : PassedBy trace as s) : s.NotesLastIssue := by
  obtain ⟨as₁, as₂, rfl, hs⟩ := hs
  induction as₁ using List.reverseRecOn generalizing as₂ s
  case nil =>
    obtain rfl := Except.ok.inj hs
    rfl
  case append_singleton as₁ a hi =>
    have ⟨s₁, hs₁, ha⟩ := foldlM_perform_concat.mp hs
    rw [List.append_assoc] at h
    refine (hi (a :: as₂) hs₁ h).perform ha fun hissue => ?_
    exact h s₁ ⟨as₁, as₂, by rw [hissue]; rfl, hs₁⟩

theorem CalledIn.passedBy {trace : List Char} {as : List (Action n)} {a : Action n}
    (h : CalledIn trace as a s) : PassedBy trace as s := by
  have ⟨as₁, as₂, has, hs⟩ := h
  exact ⟨as₁, a :: as₂, has, hs⟩

theorem CalledIn.passedBy_perform {trace : List Char} {as : List (Action n)} {a : Action n}
    (h : CalledIn trace as a s) (ha : s.perform a = .ok s') : PassedBy trace as s' := by
  have ⟨as₁, as₂, has, hs⟩ := h
  exact ⟨as₁ ++ [a], as₂, by simp [has], foldlM_perform_concat.mpr ⟨s, hs, ha⟩⟩

-- Every run is a sequence of calls. In a sequence of calls, the tick of the last request is always
-- noted, and every request leaves the buffer in the first call after its interval that finds its
-- target with room, if and only if no due head ever finds its target full and the test for being
-- due is exact.
theorem calls_issue_on_time_iff (cfg : Config n) (M : Memory) (trace : List Char) :
    (∀ b k, ∃ as, Calls b trace k cfg M as) ∧ ∀ as : List (Action n),
      ((∀ s : CXLSystem cfg M, PassedBy trace as s → s.NotesLastIssue) ∧
          (∀ s : CXLSystem cfg M, CalledIn trace as .issueHead s → s.IssuesOnTime) ↔
        ∀ s : CXLSystem cfg M, CalledIn trace as .issueHead s →
          ¬s.HeldBack ∧ s.TestsExactly) := by
  refine ⟨fun b k => run_isRun b k (init trace), fun as => ⟨fun ⟨hnotes, htime⟩ s hs => ?_, ?_⟩⟩
  case _ =>
    have hs₀ := hnotes s hs.passedBy
    exact ⟨hs₀.not_heldBack fun s' hs' => hnotes s' (hs.passedBy_perform hs'),
      hs₀.testsExactly (htime s hs)⟩
  case _ =>
    intro h
    have hnotes : ∀ s : CXLSystem cfg M, PassedBy trace as s → s.NotesLastIssue :=
      fun s hs => hs.notesLastIssue fun s hs => (h s hs).left
    exact ⟨hnotes, fun s hs => (hnotes s hs.passedBy).issuesOnTime (h s hs).right⟩

-- What a rule that admits all calls says about one of them.
theorem Admits.of_calledIn {rule : CXLSystem cfg M → Action n → Prop} {trace : List Char}
    {as : List (Action n)} {a : Action n} (h : Admits rule (init trace) as)
    (hs : CalledIn trace as a s) : rule s a := by
  obtain ⟨as₁, as₂, rfl, hs⟩ := hs
  generalize init trace = s₀ at h hs
  induction as₁ generalizing s₀
  case nil =>
    obtain rfl := Except.ok.inj hs
    exact h.left
  case cons c as₁ hi =>
    rw [List.foldlM_cons] at hs
    have ⟨s₁, hc, hs₁⟩ := Except.bind_eq_ok.mp hs
    exact hi s₁ (by simpa [hc] using h.right) hs₁

instance (s : CXLSystem cfg M) : Decidable s.HeldBack :=
  inferInstanceAs (Decidable (∃ x, x ∈ s.host.textToTraceBuf.q.head? ∧ _))

instance (s : CXLSystem cfg M) : Decidable s.TestsExactly :=
  inferInstanceAs (Decidable (∀ x, x ∈ s.host.textToTraceBuf.q.head? → _))

end CXLSystem

-- A memory that takes every third offer and completes one request in each cycle.
def Memory.reluctant : Memory where
  State                     := Nat × List Request
  init                      := (0, [])
  send s r                  := if s.1 = 2 then (true, 0, s.2 ++ [r]) else (false, s.1 + 1, s.2)
  tick s                    := (s.2.take 1, s.1, s.2.drop 1)
  pendingRequests s         := !s.2.isEmpty
  setHighWriteqWatermark s  := s
  outstanding s             := s.2
  outstanding_init          := rfl
  outstanding_send s r      := by
    split
    case isTrue  => exact Multiset.coe_eq_coe.mpr List.perm_append_comm
    case isFalse => rfl
  outstanding_tick s        := by rw [Multiset.coe_add, List.take_append_drop]
  outstanding_watermark _   := rfl

namespace CXLSystem

-- 34 reads in a row fill the input buffer of the direct attached memory. The reads that follow come
-- one instruction, 10 ticks, after another.
def crowd : List Char :=
  (List.replicate 34 "0x0 R 0\n".toList).flatten ++ "0x0 R 1\n0x0 R 1\n0x0 R 1\n".toList

-- A call of `issueHead`: its tick, the tick that is noted and the tick of the last request, what
-- has to leave the buffer and what leaves it.
structure IssueReport where
  tick      : Int
  noted     : Int
  lastIssue : Int
  must      : List (Nat × Int)
  leaves    : List (Nat × Int)
  deriving DecidableEq

def issueInRound (k : Nat) : Sim IssueReport := do
  let s ← (init crowd : CXLSystem Config.main Memory.reluctant).run {} k
  let s ← s.updateOthers {}
  let s ← s.skipIdleTicks
  let s' ← s.perform .issueHead
  return {
    tick      := s.currTick
    noted     := s.host.lastTextToTraceBufDequeue
    lastIssue := s.host.lastIssue
    must      := s.mustIssue
    leaves    := s'.host.issued.drop s.host.issued.length }

-- In tick 53 the head is due and the buffer is full, and the tick is noted. In tick 55 the buffer
-- has room, but the head has to wait until tick 63.
theorem head_waits_although_room :
    issueInRound 56 = .ok ⟨55, 53, 43, [(35, 55)], []⟩ ∧
    issueInRound 64 = .ok ⟨63, 53, 43, [(35, 63)], [(35, 63)]⟩ := by
  decide +kernel

theorem calls_issue_on_time_iff_one :
    ∀ s : CXLSystem Config.main Memory.fifo,
      CalledIn "0x0 R 1\n".toList [.readTrace, .setTick 10, .issueHead] .issueHead s →
        s.IssuesOnTime := by
  have h := (calls_issue_on_time_iff Config.main Memory.fifo "0x0 R 1\n".toList).right
    [.readTrace, .setTick 10, .issueHead]
  refine (h.mpr fun s hs => ?_).right
  have hadm : Admits (fun s _ => ¬s.HeldBack ∧ s.TestsExactly)
      (init "0x0 R 1\n".toList : CXLSystem Config.main Memory.fifo)
      [.readTrace, .setTick 10, .issueHead] := by
    decide +kernel
  exact hadm.of_calledIn hs

end CXLSystem

end CXL
