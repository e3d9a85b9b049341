import VldbArtifacts.CXLSim.Theorems.Run

-- How the trace is read and how the time of the simulation advances.

namespace CXL

-- What `text_to_trace` keeps between its calls.
@[ext]
structure Cursor where
  buf      : List (Nat × Message)
  traceIn  : List Char
  finished : Bool
  last     : Int

def CXLHost.cursor {n : Nat} {cfg : Config n} (h : CXLHost cfg) : Cursor where
  buf      := h.textToTraceBuf.q
  traceIn  := h.traceIn
  finished := h.isTraceFinished
  last     := h.lastTextToTraceBufDequeue

namespace CXLHost

variable {n : Nat} {cfg : Config n} {h : CXLHost cfg} {tick : Int} {b : Build} {busSize : Nat}

theorem flitPacker_frame :
    (h.flitPacker tick).Meets (fun h' => ∃ tx, h' = { h with tx }) fun _ => True :=
  (Except.Meets.any _).bind fun tx _ => ⟨tx, rfl⟩

theorem transmit_frame {txBus : CXLBus busSize} :
    (h.transmit tick txBus).Meets (fun r => ∃ tx, r.1 = { h with tx }) fun _ => True :=
  (Except.Meets.any _).bind fun r _ => ⟨r.1, rfl⟩

theorem flitUnpacker_frame : (h.flitUnpacker tick).Meets
    (fun h' => ∃ tx rx e, h' = { h with tx, rx, extCredsUnknown := e }) fun _ => True := by
  refine (Except.Meets.any _).bind fun _ _ => ?_
  split
  case h_1 => exact ⟨_, _, _, rfl⟩
  case h_2 =>
    refine .ite (fun _ => ⟨_, _, _, rfl⟩) fun _ => (Except.Meets.any _).bind fun _ _ => ?_
    refine (Except.Meets.any _).bind fun _ _ => (Except.Meets.any _).bind fun _ _ => ?_
    refine (Except.Meets.any _).bind fun _ _ => ?_
    simp only [Except.meets_pure, addExtCredits]
    split <;> exact ⟨_, _, _, rfl⟩

theorem flitPacker_cursor : (h.flitPacker tick).Meets (·.cursor = h.cursor) fun _ => True :=
  flitPacker_frame.imp fun _ ⟨_, h⟩ => h ▸ rfl

theorem transmit_cursor {txBus : CXLBus busSize} :
    (h.transmit tick txBus).Meets (·.1.cursor = h.cursor) fun _ => True :=
  transmit_frame.imp fun _ ⟨_, h⟩ => h ▸ rfl

theorem flitUnpacker_cursor : (h.flitUnpacker tick).Meets (·.cursor = h.cursor) fun _ => True :=
  flitUnpacker_frame.imp fun _ ⟨_, _, _, h⟩ => h ▸ rfl

-- The host retires the response `m`.
def RetiresMessage (m : Message) (h h' : CXLHost cfg) : Prop :=
  ∃ tx rx st sent c, h' = { h.recordAmatCxl m with
    tx, rx, rcvdRspState := st, messagesSentToDevice := sent
    numReqsCompleted := h.numReqsCompleted + 1, completed := c }

theorem RetiresMessage.dequeue {h' : CXLHost cfg} {m : Message} (hr : RetiresMessage m h h')
    (rx : RxPort .s2m cfg.hostRespSize cfg.hostBufSize) (next : RoundRobinState) :
    RetiresMessage m h { h' with rx, rcvdRspState := next } := by
  obtain ⟨_, _, _, _, _, rfl⟩ := hr
  exact ⟨_, _, _, _, _, rfl⟩

theorem RetiresMessage.cursor {h' : CXLHost cfg} {m : Message} (hr : RetiresMessage m h h') :
    h'.cursor = h.cursor := by
  obtain ⟨_, _, _, _, _, rfl⟩ := hr
  rfl

theorem checkRxVc_frame {vc : CXLBuf cfg.hostRespSize Message} : (h.checkRxVc tick vc).Meets
    (fun o => ∀ h' ∈ o, ∃ m, RetiresMessage m h h') fun _ => True := by
  unfold checkRxVc
  split
  case h_1 => exact meets_none
  case h_2 m _ _ =>
    refine .ite (fun _ => meets_none) fun _ => (Except.Meets.any _).bind fun _ _ => ?_
    simp only
    split
    case h_1 => exact meets_some ⟨_, _, _, _, _, _, rfl⟩
    case h_2 => exact meets_some ⟨_, _, _, _, _, _, rfl⟩
    case h_3 => trivial

theorem checkIfReqCompleted_frame :
    (h.checkIfReqCompleted tick).Meets (fun h' => h' = h ∨ ∃ m, RetiresMessage m h h') fun _ => True := by
  have hndr (next : RoundRobinState) : (h.checkS2MNdr tick next).Meets
      (fun o => ∀ h' ∈ o, h' = h ∨ ∃ m, RetiresMessage m h h') fun _ => True := by
    refine checkRxVc_frame.bind fun o ho => ?_
    cases o
    case none   => exact meets_none
    case some h =>
      have ⟨m, hm⟩ := ho h rfl
      exact meets_some (.inr ⟨m, hm.dequeue ..⟩)
  have hdrs (next : RoundRobinState) : (h.checkS2MDrs tick next).Meets
      (fun o => ∀ h' ∈ o, h' = h ∨ ∃ m, RetiresMessage m h h') fun _ => True := by
    refine checkRxVc_frame.bind fun o ho => ?_
    cases o
    case none   => exact meets_none
    case some h =>
      have ⟨m, hm⟩ := ho h rfl
      exact meets_some (.inr ⟨m, hm.dequeue ..⟩)
  refine .ite (fun _ => .inl rfl) fun _ => ?_
  split
  case h_1 => exact firstOf_getD_meets (hndr _) (hdrs _) (.inl rfl)
  case h_2 => exact firstOf_getD_meets (hdrs _) (hndr _) (.inl rfl)
  case h_3 => exact firstOf_getD_meets (hdrs _) (hndr _) (.inl rfl)
  case h_4 => trivial

theorem checkIfReqCompleted_cursor :
    (h.checkIfReqCompleted tick).Meets (fun h' => h'.cursor = h.cursor) fun _ => True :=
  checkIfReqCompleted_frame.imp fun _ h => h.elim (· ▸ rfl) fun ⟨_, h⟩ => h.cursor

theorem skipIf_cursor {c : Prop} [Decidable c] {x : Sim (CXLHost cfg)}
    (hx : x.Meets (fun h' => h'.cursor = h.cursor) fun _ => True) :
    (skipIf c h x).Meets (fun h' => h'.cursor = h.cursor) fun _ => True :=
  .ite (fun _ => rfl) fun _ => hx

theorem updateNode_cursor {txBus : CXLBus busSize} :
    (h.updateNode tick b txBus).Meets (fun r => r.1.cursor = h.cursor) fun _ => True := by
  refine (Except.Meets.any _).bind fun _ _ => (skipIf_cursor flitPacker_cursor).bind fun h₁ e₁ => ?_
  refine Except.Meets.bind (P := fun r : CXLHost cfg × CXLBus busSize => r.1.cursor = h₁.cursor)
    (.ite (fun _ => rfl) fun _ => transmit_cursor) fun r e₂ => ?_
  refine (skipIf_cursor flitUnpacker_cursor).bind fun h₃ e₃ => ?_
  refine (skipIf_cursor checkIfReqCompleted_cursor).bind fun h₄ e₄ => ?_
  exact e₄.trans (e₃.trans (e₂.trans e₁))

end CXLHost

-- The least number of ticks between the last request and the one at the head of the buffer.
def Config.gap {n : Nat} (cfg : Config n) (x : Nat × Message) : Nat :=
  toU64 (x.1 * cfg.params.ticksPerIns)

theorem getline_eq_none {delim : Char} {cs : List Char} : getline delim cs = none ↔ cs = [] := by
  cases cs
  case nil       => exact iff_of_true rfl rfl
  case cons c cs =>
    simp only [getline, reduceCtorEq, iff_false]
    split
    case isTrue  => exact nofun
    case isFalse => split <;> exact nofun

namespace Cursor

variable {n : Nat} (cfg : Config n) (tick : Int)

-- The head is not due and stays where it is, or it is due and the time is noted, whether or not there
-- is room for it.
inductive Issues (c : Cursor) : Bool → Cursor → Prop
  | none (h : ∀ x q, c.buf = x :: q → toU64 (tick - c.last) < cfg.gap x) : Issues c true c
  | full {x q mayRead} (hq : c.buf = x :: q) (h : toU64 (tick - c.last) ≥ cfg.gap x) :
    Issues c mayRead { c with last := tick }
  | taken {x q} (hq : c.buf = x :: q) (h : toU64 (tick - c.last) ≥ cfg.gap x) :
    Issues c true { c with buf := q, last := tick }

-- A line goes from the file to the buffer, unless there is no room or no line.
inductive ReadsLine (c : Cursor) : Bool → Cursor → Prop
  | full (h : c.buf ≠ []) : ReadsLine c true c
  | eof (h : c.traceIn = []) : ReadsLine c false c
  | line (h : c.traceIn ≠ []) (x rest) :
    ReadsLine c true { c with buf := c.buf ++ [x], traceIn := rest }

-- What holds when `text_to_trace` is called: unless the buffer is empty, the last request was issued
-- before, and the head was not due in the tick before, if it had to wait at all.
structure Pending (c : Cursor) : Prop where
  low      : -2 ^ 63 ≤ c.last
  head     : ∀ x q, c.buf = x :: q → c.last < tick ∧ tick ≤ c.last + max 1 (cfg.gap x)
  empty    : c.buf = [] → c.traceIn = [] ∨ tick = c.last
  finished : c.finished → c.traceIn = []

-- What holds before a line is read.
structure Issued (c : Cursor) : Prop where
  low      : -2 ^ 63 ≤ c.last
  head     : ∀ x q, c.buf = x :: q → c.last ≤ tick ∧ (tick < c.last + cfg.gap x ∨ tick = c.last)
  empty    : c.buf = [] → c.traceIn = [] ∨ tick = c.last
  finished : c.finished → c.traceIn = []

-- What holds when `text_to_trace` returns.
structure Served (c : Cursor) : Prop extends Issued cfg tick c where
  none : c.buf = [] → c.traceIn = []

variable {cfg tick} {c c' : Cursor}

theorem Served.next (h : c.Served cfg tick) : c.Pending cfg (tick + 1) where
  low      := h.low
  head     := by
    intro x q hq
    have := h.head x q hq
    omega
  empty hq := .inl (h.none hq)
  finished := h.finished

theorem Issued.read {more : Bool} (h : c.Issued cfg tick) (hr : ReadsLine c more c') :
    c'.Served cfg tick := by
  cases hr
  case full hne => exact ⟨h, fun he => absurd he hne⟩
  case eof he   => exact ⟨h, fun _ => he⟩
  case line hin y rest =>
    refine ⟨⟨h.low, fun x q hq => ?_, fun he => ?_, fun hf => absurd (h.finished hf) hin⟩, fun he => ?_⟩
    · cases hb : c.buf
      case nil =>
        have := (h.empty hb).resolve_left hin
        exact ⟨this.ge, .inr this⟩
      case cons x' q' =>
        simp only [hb, List.cons_append, List.cons.injEq] at hq
        exact hq.left ▸ h.head x' q' hb
    · simp at he
    · simp at he

theorem ReadsLine.eof_of_false {more : Bool} (h : ReadsLine c more c') (hm : more = false) :
    c'.traceIn = [] := by
  cases h
  case eof he => exact he
  all_goals cases hm

theorem Issues.buf_ne_nil {mayRead : Bool} (h : Issues cfg tick c mayRead c') (hm : mayRead = false) :
    c'.buf ≠ [] := by
  cases h
  case full hq _ => exact hq ▸ List.cons_ne_nil _ _
  all_goals cases hm

theorem gap_lt (cfg : Config n) (x : Nat × Message) : cfg.gap x < 2 ^ 64 := by
  unfold Config.gap toU64
  omega

theorem toU64_of_lt {x : Int} (h₀ : 0 ≤ x) (h : x < 2 ^ 64) : (toU64 x : Int) = x := by
  rw [toU64, Int.emod_eq_of_lt h₀ h]
  omega

-- Without a jump.
theorem Pending.issue {mayRead : Bool} (h : c.Pending cfg tick) (hi : Issues cfg tick c mayRead c') :
    c'.Issued cfg tick := by
  have hwait {x q} (hq : c.buf = x :: q) : (toU64 (tick - c.last) : Int) = tick - c.last := by
    have := h.head x q hq
    have := gap_lt cfg x
    exact toU64_of_lt (by omega) (by omega)
  cases hi
  case none hn =>
    refine ⟨h.low, fun x q hq => ?_, h.empty, h.finished⟩
    have := h.head x q hq
    have := hn x q hq
    have := hwait hq
    omega
  case full x q hq hd =>
    have := h.head x q hq
    have := h.low
    exact ⟨by simp only; omega, fun _ _ _ => ⟨le_rfl, .inr rfl⟩, fun _ => .inr rfl, h.finished⟩
  case taken x q hq hd =>
    have := h.head x q hq
    have := h.low
    exact ⟨by simp only; omega, fun _ _ _ => ⟨le_rfl, .inr rfl⟩, fun _ => .inr rfl, h.finished⟩

-- The tick that `text_to_trace` jumps to.
def target (cfg : Config n) (c : Cursor) (x : Nat × Message) : Int :=
  toI64 (toU64 (c.last + cfg.gap x))

theorem toI64_ge (x : Nat) : -2 ^ 63 ≤ toI64 x := by
  unfold toI64
  split <;> omega

-- After a jump, the head is due.
theorem Pending.issue_jump {x : Nat × Message} {q : List (Nat × Message)} {mayRead : Bool}
    (h : c.Pending cfg tick) (hq : c.buf = x :: q)
    (hi : Issues cfg (c.target cfg x) c mayRead c') : c'.Issued cfg (c.target cfg x) := by
  have hdue : toU64 (c.target cfg x - c.last) = cfg.gap x := by
    have := gap_lt cfg x
    unfold target toI64 toU64
    split <;> omega
  have hlow : -2 ^ 63 ≤ c.target cfg x := toI64_ge _
  cases hi
  case none hn =>
    have := hn x q hq
    omega
  case full  => exact ⟨hlow, fun _ _ _ => ⟨le_rfl, .inr rfl⟩, fun _ => .inr rfl, h.finished⟩
  case taken => exact ⟨hlow, fun _ _ _ => ⟨le_rfl, .inr rfl⟩, fun _ => .inr rfl, h.finished⟩

-- The jump goes back if the head does not have to wait, or if the sum does not fit.
theorem Pending.target_lt_iff {x : Nat × Message} {q : List (Nat × Message)}
    (h : c.Pending cfg tick) (hq : c.buf = x :: q) :
    c.target cfg x < tick ↔ cfg.gap x = 0 ∨ 2 ^ 63 ≤ c.last + cfg.gap x := by
  have := h.head x q hq
  have := h.low
  have := gap_lt cfg x
  unfold target toI64 toU64
  split <;> omega

end Cursor

namespace CXLSystem

variable {n : Nat} {cfg : Config n} {M : Memory} {s s' : CXLSystem cfg M} {b : Build}

-- The rest of the system does not touch the trace and the time.
def SameTrace (s s' : CXLSystem cfg M) : Prop :=
  s'.host.cursor = s.host.cursor ∧ s'.currTick = s.currTick

theorem SameTrace.trans {s'' : CXLSystem cfg M} (h : SameTrace s s') (h' : SameTrace s' s'') :
    SameTrace s s'' :=
  ⟨h'.left.trans h.left, h'.right.trans h.right⟩

theorem updateOthers_sameTrace :
    (s.updateOthers b).Meets (SameTrace s) fun _ => True := by
  refine Except.Meets.bind (P := SameTrace s) ?_ fun s₁ h₁ => ?_
  · exact (Except.Meets.any _).bind fun _ _ => (Except.Meets.any _).bind fun _ _ => ⟨rfl, rfl⟩
  refine Except.Meets.bind (P := SameTrace s) ?_ fun s₂ h₂ => ?_
  · exact (Except.Meets.any _).bind fun _ _ => h₁
  refine Except.Meets.bind (P := SameTrace s) ?_ fun s₃ h₃ => ?_
  · exact (Except.Meets.any _).bind fun _ _ => h₂
  · exact (Except.Meets.any _).bind fun _ _ => h₃

theorem updateDam_sameTrace (s : CXLSystem cfg M) : SameTrace s s.updateDam := by
  have hfold (rs : List Request) (h : CXLHost cfg) :
      (rs.foldl (CXLHost.directAttachedReqComplete s.currTick) h).cursor = h.cursor := by
    induction rs generalizing h
    case nil          => rfl
    case cons r rs ih => exact (ih _).trans rfl
  unfold updateDam
  split
  case isTrue  => exact ⟨hfold _ _, rfl⟩
  case isFalse => exact ⟨rfl, rfl⟩

theorem updateRest_cursor : (s.updateRest b).Meets
    (fun s' => s'.host.cursor = s.host.cursor ∧ s'.currTick = s.currTick + 1) fun _ => True := by
  refine CXLHost.updateNode_cursor.bind fun r hr => Except.meets_pure.mpr ?_
  split
  case isTrue =>
    have ⟨hc, ht⟩ := updateDam_sameTrace { s with host := r.1, busFromHost := r.2 }
    exact ⟨hc.trans hr, congrArg (· + 1) ht⟩
  case isFalse => exact ⟨hr, rfl⟩

theorem catchUp_sameTrace (k : Nat) (i : Int) (s : CXLSystem cfg M) :
    (catchUp k i s).Meets (SameTrace s) fun _ => True := by
  induction k generalizing i s
  case zero => exact ⟨rfl, rfl⟩
  case succ k ih =>
    refine (Except.Meets.any _).bind fun _ _ => ?_
    refine Except.Meets.bind (P := SameTrace s) ?_ fun s₁ h₁ => (ih _ s₁).imp fun _ h₂ => h₁.trans h₂
    refine (Except.Meets.any _).bind fun _ _ => Except.meets_pure.mpr ?_
    split
    case isTrue  => exact ⟨rfl, rfl⟩
    case isFalse => exact s.updateDam_sameTrace

theorem skipIdleTicks_jumps : (skipIf (¬b.fastForward) s s.skipIdleTicks).Meets
    (fun s' => s'.host.cursor = s.host.cursor ∧ s'.currTick = s.jumpTick b) fun _ => True := by
  refine .ite (fun hf => ⟨rfl, ?_⟩) fun hf => ?_
  · simp [jumpTick, jumps, hf]
  · unfold skipIdleTicks
    cases hq : s.host.textToTraceBuf.q
    case nil      => exact ⟨rfl, by simp [jumpTick, jumps, hq]⟩
    case cons x q =>
      refine .ite (fun ha => ?_) fun ha => ⟨rfl, by simp [jumpTick, jumps, ha]⟩
      refine (catchUp_sameTrace ..).imp fun s' h => ⟨h.left, h.right.trans ?_⟩
      simp [jumpTick, jumps, not_not.mp hf, ha, hq]

theorem issueToVc_cursor {h : CXLHost cfg} {tick : Int} {m : Message} :
    (h.issueToVc tick m).Meets (fun o => ∀ h' ∈ o, h'.cursor =
      { h.cursor with buf := h.textToTraceBuf.q.tail }) fun _ => True := by
  unfold CXLHost.issueToVc
  simp only
  split
  case h_1 => exact .ite (fun _ => meets_none) fun _ => (Except.Meets.any _).bind fun _ _ => meets_some rfl
  case h_2 => exact .ite (fun _ => meets_none) fun _ => (Except.Meets.any _).bind fun _ _ => meets_some rfl
  case h_3 => trivial

theorem issueHead_issues : s.issueHead.Meets
    (fun r => Cursor.Issues cfg s.currTick s.host.cursor r.1 r.2.host.cursor ∧ r.2.currTick = s.currTick)
    fun _ => True := by
  unfold issueHead
  split
  case h_1 hq => exact ⟨.none fun _ _ h => (List.cons_ne_nil _ _ (h.symm.trans hq)).elim, rfl⟩
  case h_2 interval m q hq =>
    have hbuf : s.host.cursor.buf = (interval, m) :: q := hq
    have htaken {h : CXLHost cfg} (hdue : toU64 (s.currTick - s.host.cursor.last) ≥ cfg.gap (interval, m))
        (hh : h.cursor = { s.host.cursor with
          buf := s.host.textToTraceBuf.q.tail, last := s.currTick }) :
        Cursor.Issues cfg s.currTick s.host.cursor true h.cursor := by
      rw [hh, hq]
      exact .taken hbuf hdue
    refine .ite (fun hdue => .ite (fun _ => .ite (fun _ => ?_) fun _ => ?_) fun _ => ?_) fun hdue => ?_
    · exact ⟨.full hbuf hdue, rfl⟩
    · refine (Except.Meets.any _).bind fun _ _ => (Except.Meets.any _).bind fun _ _ => ?_
      exact ⟨htaken hdue rfl, rfl⟩
    · refine issueToVc_cursor.bind fun o ho => ?_
      cases o
      case none   => exact ⟨.full hbuf hdue, rfl⟩
      case some h => exact ⟨htaken hdue (ho h rfl), rfl⟩
    · refine ⟨.none fun x q' h => ?_, rfl⟩
      obtain ⟨rfl, rfl⟩ := List.cons.inj (hbuf.symm.trans h)
      exact Nat.not_le.mp hdue

theorem readTrace_reads {h : CXLHost cfg} :
    h.readTrace.Meets (fun r => Cursor.ReadsLine h.cursor r.1 r.2.cursor) fun _ => True := by
  refine .ite (fun hf => .full ?_) fun _ => ?_
  · intro he
    have hq : h.textToTraceBuf.q = [] := he
    simp [CXLBuf.isBufFull, hq, Config.textToTraceSize] at hf
  · split
    case h_1 hl => exact .eof (getline_eq_none.mp hl)
    case h_2 rest hl =>
      have hin : h.traceIn ≠ [] := fun he => by simp [getline_eq_none.mpr he] at hl
      refine (Except.Meets.any _).bind fun x _ => ?_
      refine (CXLBuf.enqueue_meets.mono (fun _ => id) fun _ _ => trivial).bind fun b hb => ?_
      have hc : Cursor.mk b.q rest h.isTraceFinished h.lastTextToTraceBufDequeue =
          Cursor.mk (h.textToTraceBuf.q ++ [_]) rest h.isTraceFinished h.lastTextToTraceBufDequeue :=
        Cursor.ext hb rfl rfl rfl
      show Cursor.ReadsLine h.cursor true (Cursor.mk b.q rest _ _)
      rw [hc]
      exact .line hin _ rest

theorem jumpTarget_eq (x : Nat × Message) :
    s.jumpTarget x.1 = s.host.cursor.target cfg x := by
  unfold jumpTarget Cursor.target Config.gap toU64
  congr 2
  simp only [CXLHost.cursor]
  omega

theorem jumps_eq_some {x : Nat × Message} (h : s.jumps b = some x) :
    ∃ q, s.host.cursor.buf = x :: q := by
  unfold jumps at h
  split at h
  case isTrue  => exact List.head?_eq_some_iff.mp h
  case isFalse => cases h

-- `text_to_trace` as far as the trace and the time go.
structure Advances (b : Build) (s : CXLSystem cfg M) (more : Bool) (s' : CXLSystem cfg M) : Prop where
  served : s'.host.cursor.Served cfg s'.currTick
  eof    : more = false → s'.host.traceIn = []
  tick   : s'.currTick = s.jumpTick b

theorem textToTrace_advances (h : s.host.cursor.Pending cfg s.currTick) :
    (s.textToTrace b).Meets (fun r => s.Advances b r.1 r.2) fun _ => True := by
  refine skipIdleTicks_jumps.bind fun s₁ ⟨hc₁, ht₁⟩ => issueHead_issues.bind fun r ⟨hi, ht₂⟩ => ?_
  have hissued : r.2.host.cursor.Issued cfg s₁.currTick := by
    rw [hc₁, ht₁] at hi
    rw [ht₁]
    unfold jumpTick at hi ⊢
    split at hi
    case h_1 => exact h.issue hi
    case h_2 x hj =>
      have ⟨q, hq⟩ := jumps_eq_some hj
      rw [jumpTarget_eq] at hi ⊢
      exact h.issue_jump hq hi
  refine .ite (fun _ => readTrace_reads.bind fun r₃ hr => ?_) fun hm => ?_
  · refine ⟨(ht₂ ▸ hissued).read hr, fun hmore => ?_, ht₂.trans ht₁⟩
    exact hr.eof_of_false hmore
  · exact ⟨⟨ht₂ ▸ hissued, fun he => absurd he (hi.buf_ne_nil (Bool.not_eq_true _ ▸ hm))⟩, nofun, ht₂.trans ht₁⟩

theorem updateTrace_served (h : s.host.cursor.Pending cfg s.currTick) :
    (s.updateTrace b).Meets (fun s' => s'.host.cursor.Served cfg s'.currTick) fun _ => True := by
  refine .ite (fun _ => (textToTrace_advances h).bind fun r hr => ?_) fun hn => ?_
  · have := hr.served
    refine Except.meets_pure.mpr ⟨⟨this.low, this.head, this.empty, fun hf => ?_⟩, this.none⟩
    rcases Bool.or_eq_true _ _ ▸ hf with hf | hm
    case inl => exact this.finished hf
    case inr => exact hr.eof (by simpa using hm)
  · simp only [not_or, not_not, CXLBuf.isBufEmpty, List.isEmpty_iff] at hn
    have hin := h.finished hn.left
    have hq : s.host.cursor.buf = [] := hn.right
    exact ⟨⟨h.low, fun x q hb => absurd (hb.symm.trans hq) (List.cons_ne_nil x q), fun _ => .inl hin,
      h.finished⟩, fun _ => hin⟩

theorem tick_pending (h : s.host.cursor.Pending cfg s.currTick) :
    (s.tick b).Meets (fun s' => s'.host.cursor.Pending cfg s'.currTick) fun _ => True := by
  rw [tick_eq]
  refine updateOthers_sameTrace.bind fun s₁ ⟨hc, ht⟩ => ?_
  refine (updateTrace_served (by rwa [hc, ht])).bind fun s₂ h₂ => ?_
  refine updateRest_cursor.imp fun s₃ ⟨hc₃, ht₃⟩ => ?_
  rw [hc₃, ht₃]
  exact h₂.next

theorem Reachable.pending {trace : List Char} (h : Reachable b trace s) :
    s.host.cursor.Pending cfg s.currTick := by
  induction h
  case init =>
    refine ⟨show (-2 ^ 63 : Int) ≤ 0 by decide, fun x q hq => ?_, fun _ => .inr rfl, fun hf => Bool.noConfusion hf⟩
    exact (List.cons_ne_nil x q hq.symm).elim
  case tick _ _ ht ih => exact (tick_pending ih).of_ok ht

-- Whenever `text_to_trace` is called in a run, it goes back in time if and only if it jumps to a request
-- that does not have to wait, or whose tick does not fit into 64 bits.
theorem textToTrace_back_iff {trace : List Char} {s₁ s₂ : CXLSystem cfg M} {more : Bool}
    (h : Reachable b trace s) (h₁ : s.updateOthers b = .ok s₁)
    (h₂ : s₁.textToTrace b = .ok (more, s₂)) : s₂.currTick < s₁.currTick ↔
      ∃ x, s₁.jumps b = some x ∧
        (cfg.gap x = 0 ∨ 2 ^ 63 ≤ s₁.host.lastTextToTraceBufDequeue + cfg.gap x) := by
  obtain ⟨hc, ht⟩ := updateOthers_sameTrace.of_ok h₁
  have hp : s₁.host.cursor.Pending cfg s₁.currTick := by
    rw [hc, ht]
    exact h.pending
  rw [((textToTrace_advances hp).of_ok h₂).tick, jumpTick]
  split
  case h_1 hj => simp [hj]
  case h_2 x hj =>
    obtain ⟨q, hq⟩ := jumps_eq_some hj
    rw [jumpTarget_eq, hp.target_lt_iff hq]
    constructor
    case mp  => exact fun hx => ⟨x, hj, hx⟩
    case mpr =>
      rintro ⟨x', hj', hx⟩
      exact Option.some.inj (hj.symm.trans hj') ▸ hx

-- The ticks before and after the second call of `text_to_trace`.
def secondCall (trace : List Char) : Sim (Int × Int) := do
  let s ← (init trace : CXLSystem Config.main Memory.fifo).run {} 1
  let s₁ ← s.updateOthers {}
  let (_, s₂) ← s₁.textToTrace {}
  return (s₁.currTick, s₂.currTick)

theorem secondCall_eq_ok {trace : List Char} {t₁ t₂ : Int} (h : secondCall trace = .ok (t₁, t₂)) :
    ∃ s s₁ s₂ : CXLSystem Config.main Memory.fifo, ∃ more, Reachable {} trace s ∧
      s.updateOthers {} = .ok s₁ ∧ s₁.textToTrace {} = .ok (more, s₂) ∧
      s₁.currTick = t₁ ∧ s₂.currTick = t₂ := by
  have ⟨s, hs, h⟩ := Except.bind_eq_ok.mp h
  have ⟨s₁, h₁, h⟩ := Except.bind_eq_ok.mp h
  have ⟨r, h₂, h⟩ := Except.bind_eq_ok.mp h
  have ⟨ht₁, ht₂⟩ := Prod.mk.inj (Except.ok.inj h)
  have ⟨s₀, h₀, hr⟩ := Except.bind_eq_ok.mp hs
  obtain rfl : s₀ = s := Except.ok.inj hr
  exact ⟨s₀, s₁, r.2, r.1, .tick .init h₀, h₁, h₂, ht₁, ht₂⟩

-- The first line of the trace has no instructions before its access.
theorem textToTrace_goes_back :
    ∃ s s₁ s₂ : CXLSystem Config.main Memory.fifo, ∃ more, Reachable {} "0x0 R 0\n".toList s ∧
      s.updateOthers {} = .ok s₁ ∧ s₁.textToTrace {} = .ok (more, s₂) ∧
      s₁.currTick = 1 ∧ s₂.currTick = 0 :=
  secondCall_eq_ok (by decide +kernel)

-- With one instruction, the jump goes from tick 1 to tick 10.
theorem textToTrace_back_iff_one :
    ∃ s s₁ s₂ : CXLSystem Config.main Memory.fifo, ∃ more, Reachable {} "0x0 R 1\n".toList s ∧
      s.updateOthers {} = .ok s₁ ∧ s₁.textToTrace {} = .ok (more, s₂) ∧
      ¬∃ x, s₁.jumps {} = some x ∧ (Config.main.gap x = 0 ∨
        2 ^ 63 ≤ s₁.host.lastTextToTraceBufDequeue + Config.main.gap x) := by
  have h : secondCall "0x0 R 1\n".toList = .ok (1, 10) := by decide +kernel
  have ⟨s, s₁, s₂, more, hs, h₁, h₂, ht₁, ht₂⟩ := secondCall_eq_ok h
  refine ⟨s, s₁, s₂, more, hs, h₁, h₂, fun hx => ?_⟩
  have := (textToTrace_back_iff hs h₁ h₂).mpr hx
  rw [ht₁, ht₂] at this
  exact absurd this (by decide)

end CXLSystem

end CXL
