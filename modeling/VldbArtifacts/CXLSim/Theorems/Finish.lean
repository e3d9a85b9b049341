import VldbArtifacts.CXLSim.Theorems.Quiet
import VldbArtifacts.CXLSim.Theorems.Stages
import VldbArtifacts.CXLSim.Theorems.Time

-- What has been done when the loop of `main` is left.

namespace CXL

open List

section Lines

variable {delim : Char} {cs ln rest : List Char}

theorem split_of_getline (h : getline delim cs = some (ln, rest)) :
    split delim cs = ln :: split delim rest := by
  induction cs generalizing ln
  case nil => cases h
  case cons c cs ih =>
    rw [split]
    unfold getline at h
    split at h
    case isTrue hc =>
      obtain ⟨rfl, rfl⟩ := Prod.mk.inj (Option.some.inj h)
      rw [if_pos hc]
    case isFalse hc =>
      rw [if_neg hc]
      split at h
      case h_1 hn =>
        obtain ⟨rfl, rfl⟩ := Prod.mk.inj (Option.some.inj h)
        rw [getline_eq_none.mp hn]
        rfl
      case h_2 ln' rest' hs =>
        obtain ⟨rfl, rfl⟩ := Prod.mk.inj (Option.some.inj h)
        rw [ih hs]

-- The lines of the file. A newline at its end does not start another one.
def numLines (trace : List Char) : Nat :=
  (split '\n' trace).length

-- The last line of the file is not terminated.
def lacksNewline (trace : List Char) : Bool :=
  trace.getLast?.any (· ≠ '\n')

theorem split_eq_nil : split delim cs = [] ↔ cs = [] := by
  cases cs
  case nil       => exact iff_of_true rfl rfl
  case cons c cs =>
    simp only [reduceCtorEq, iff_false, split]
    split
    case isTrue  => exact List.cons_ne_nil _ _
    case isFalse => split <;> exact List.cons_ne_nil _ _

-- `main` counts the newlines.
theorem numLines_eq (cs : List Char) :
    numLines cs = CXLSystem.numReqs cs + (lacksNewline cs).toNat := by
  unfold numLines CXLSystem.numReqs
  induction cs
  case nil => rfl
  case cons c cs ih =>
    have hlast (h : cs ≠ []) : lacksNewline (c :: cs) = lacksNewline cs := by
      rw [lacksNewline, lacksNewline, List.getLast?_cons, List.getLast?_eq_some_getLast h]
      rfl
    by_cases hn : cs = []
    case pos =>
      subst hn
      by_cases hc : c = '\n' <;> simp [split, lacksNewline, hc]
    case neg =>
      rw [hlast hn, split]
      by_cases hc : c = '\n'
      case pos =>
        rw [if_pos hc, List.length_cons, ih, hc, List.count_cons_self]
        omega
      case neg =>
        have hne : split '\n' cs ≠ [] := mt split_eq_nil.mp hn
        have ⟨w, ws, hw⟩ := List.exists_cons_of_ne_nil hne
        rw [if_neg hc, List.count_cons_of_ne hc, ← ih, hw]
        rfl

end Lines

-- What the host counts: the lines it has read and those to come, and the completed requests.
structure CXLHost.Counts {n : Nat} {cfg : Config n} (trace : List Char) (h : CXLHost cfg) : Prop where
  lines     : h.msgCount + numLines h.traceIn = numLines trace
  completed : h.numReqsCompleted = h.completed.length

namespace CXLHost

variable {n : Nat} {cfg : Config n} {h : CXLHost cfg} {tick : Int} {trace : List Char}

theorem Counts.congr {h' : CXLHost cfg} (hc : h.Counts trace) (hm : h'.msgCount = h.msgCount)
    (ht : h'.traceIn = h.traceIn) (hn : h'.numReqsCompleted = h.numReqsCompleted)
    (hl : h'.completed = h.completed) : h'.Counts trace :=
  ⟨by rw [hm, ht, hc.lines], by rw [hn, hl, hc.completed]⟩

theorem checkRxVc_counts (hc : h.Counts trace) {vc : CXLBuf cfg.hostRespSize Message} :
    (h.checkRxVc tick vc).Meets (fun o => ∀ h' ∈ o, h'.Counts trace) fun _ => True := by
  have hdone (id : Nat) : h.numReqsCompleted + 1 = (h.completed ++ [id]).length := by
    rw [List.length_append, ← hc.completed]
    rfl
  unfold checkRxVc
  split
  case h_1 => exact meets_none
  case h_2 =>
    refine .ite (fun _ => meets_none) fun _ => (Except.Meets.any _).bind fun _ _ => ?_
    simp only
    split
    case h_1 => exact meets_some ⟨hc.lines, hdone _⟩
    case h_2 => exact meets_some ⟨hc.lines, hdone _⟩
    case h_3 => trivial

theorem checkIfReqCompleted_counts (hc : h.Counts trace) :
    (h.checkIfReqCompleted tick).Meets (·.Counts trace) fun _ => True := by
  have hndr (next : RoundRobinState) : (h.checkS2MNdr tick next).Meets
      (fun o => ∀ h' ∈ o, h'.Counts trace) fun _ => True := by
    refine (checkRxVc_counts hc).bind fun o ho => ?_
    cases o
    case none   => exact meets_none
    case some h => exact meets_some ((ho h rfl).congr rfl rfl rfl rfl)
  have hdrs (next : RoundRobinState) : (h.checkS2MDrs tick next).Meets
      (fun o => ∀ h' ∈ o, h'.Counts trace) fun _ => True := by
    refine (checkRxVc_counts hc).bind fun o ho => ?_
    cases o
    case none   => exact meets_none
    case some h => exact meets_some ((ho h rfl).congr rfl rfl rfl rfl)
  refine .ite (fun _ => hc) fun _ => ?_
  split
  case h_1 => exact firstOf_getD_meets (hndr _) (hdrs _) hc
  case h_2 => exact firstOf_getD_meets (hdrs _) (hndr _) hc
  case h_3 => exact firstOf_getD_meets (hdrs _) (hndr _) hc
  case h_4 => trivial

theorem readTrace_counts (hc : h.Counts trace) :
    h.readTrace.Meets (·.2.Counts trace) fun _ => True := by
  refine .ite (fun _ => hc) fun _ => ?_
  split
  case h_1 => exact hc
  case h_2 hl =>
    refine (Except.Meets.any _).bind fun _ _ => (Except.Meets.any _).bind fun _ _ => ?_
    refine Except.meets_pure.mpr ⟨?_, hc.completed⟩
    have := hc.lines
    simp only [numLines, split_of_getline hl, List.length_cons] at this ⊢
    omega

theorem directAttachedReqComplete_counts (hc : h.Counts trace) (r : Request) :
    (h.directAttachedReqComplete tick r).Counts trace where
  lines     := hc.lines
  completed := by
    simp only [directAttachedReqComplete, List.length_append, List.length_singleton, hc.completed]

theorem issueToVc_counts (hc : h.Counts trace) (m : Message) :
    (h.issueToVc tick m).Meets (fun o => ∀ h' ∈ o, h'.Counts trace) fun _ => True := by
  unfold issueToVc
  simp only
  split
  case h_1 =>
    refine .ite (fun _ => meets_none) fun _ => (Except.Meets.any _).bind fun _ _ => ?_
    exact meets_some ⟨hc.lines, hc.completed⟩
  case h_2 =>
    refine .ite (fun _ => meets_none) fun _ => (Except.Meets.any _).bind fun _ _ => ?_
    exact meets_some ⟨hc.lines, hc.completed⟩
  case h_3 => trivial

end CXLHost

namespace CXLSystem

variable {n : Nat} {cfg : Config n} {M : Memory} {s : CXLSystem cfg M} {b : Build}
  {trace : List Char}

theorem issueHead_counts (hc : s.host.Counts trace) :
    s.issueHead.Meets (·.2.host.Counts trace) fun _ => True := by
  unfold issueHead
  split
  case h_1 => exact hc
  case h_2 m _ _ =>
    have hl : CXLHost.Counts trace { s.host with lastTextToTraceBufDequeue := s.currTick } :=
      ⟨hc.lines, hc.completed⟩
    refine .ite (fun _ => .ite (fun _ => .ite (fun _ => hl) fun _ => ?_) fun _ => ?_) fun _ => hc
    · refine (Except.Meets.any _).bind fun _ _ => (Except.Meets.any _).bind fun _ _ => ?_
      exact ⟨hc.lines, hc.completed⟩
    · refine (CXLHost.issueToVc_counts hl m).bind fun o ho => ?_
      cases o
      case none   => exact hl
      case some h => exact ho h rfl

theorem updateDam_counts (hc : s.host.Counts trace) : s.updateDam.host.Counts trace := by
  have hfold (rs : List Request) (h : CXLHost cfg) (hc : h.Counts trace) :
      (rs.foldl (CXLHost.directAttachedReqComplete s.currTick) h).Counts trace := by
    induction rs generalizing h
    case nil          => exact hc
    case cons r rs ih => exact ih _ (CXLHost.directAttachedReqComplete_counts hc r)
  unfold updateDam
  split
  case isTrue  => exact hfold _ _ hc
  case isFalse => exact hc

theorem perform_counts (hc : s.host.Counts trace) (a : Action n) :
    (s.perform a).Meets (·.host.Counts trace) fun _ => True := by
  cases a
  case busToHost    => exact (Except.Meets.any _).bind fun _ _ => ⟨hc.lines, hc.completed⟩
  case issueHead    => exact (issueHead_counts hc).bind fun _ h => h
  case readTrace    => exact (CXLHost.readTrace_counts hc).bind fun _ h => h
  case packHost     =>
    exact CXLHost.flitPacker_frame.bind fun _ ⟨_, h⟩ => h ▸ ⟨hc.lines, hc.completed⟩
  case transmitHost =>
    refine CXLHost.transmit_frame.bind fun r ⟨_, h⟩ => ?_
    exact show r.1.Counts trace from h ▸ ⟨hc.lines, hc.completed⟩
  case unpackHost   =>
    exact CXLHost.flitUnpacker_frame.bind fun _ ⟨_, _, _, h⟩ => h ▸ ⟨hc.lines, hc.completed⟩
  case completeReq  => exact (CXLHost.checkIfReqCompleted_counts hc).bind fun _ h => h
  case updateDam    => exact updateDam_counts hc
  case finishTrace  => exact ⟨hc.lines, hc.completed⟩
  case setSkipCycle => exact hc
  case setTick      => exact hc
  all_goals exact (Except.Meets.any _).bind fun _ _ => hc

theorem Reaches.counts (h : Reaches trace s) : s.host.Counts trace := by
  have ⟨as, has⟩ := h
  have hm : (as.foldlM perform (init trace : CXLSystem cfg M)).Meets (·.host.Counts trace)
      fun _ => True :=
    .foldlM (fun _ a _ hc => perform_counts hc a) ⟨Nat.zero_add _, rfl⟩
  exact hm.of_ok has

-- The ids are the numbers of the lines, and all that are issued have been completed.
theorem Tracks.completed_perm (h : s.Tracks) (hs : s.host.messagesSentToDevice.entries = [])
    (hd : s.host.reqsInDam.entries = []) :
    s.host.completed ~ List.range s.host.issued.length := by
  have hp := h.issued
  simp only [AList.keys, hs, hd, List.keys, List.map_nil, List.append_nil] at hp
  have ⟨_, _, hi⟩ := h
  have hn := hi.host.numbered.issued
  have hl : s.host.issued.length = s.host.msgCount - s.host.textToTraceBuf.q.length := by
    simpa using congrArg List.length hn
  rw [hl, ← hn]
  exact hp.symm

end CXLSystem

end CXL
