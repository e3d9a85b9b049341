import VldbArtifacts.CXLSim.Theorems.Downlink
import VldbArtifacts.CXLSim.Theorems.Refinement
import VldbArtifacts.CXLSim.Theorems.Uplink

-- The two links as parts of the abstract system. What a device responds to came to it over the downlink,
-- so that the uplink is used as it must be when the downlink keeps the devices apart.

namespace CXL

open Framing

variable {n : Nat} {cfg : Config n} {x y : Net n}

-- What a device has received is its own.
structure DeviceNode.Owns (cfg : Config n) (d : Fin n) (x : DeviceNode) : Prop where
  single  : ∀ m ∈ x.rx.single, m.IsRequest cfg d false
  hdr     : ∀ m ∈ x.rx.hdr, m.IsRequest cfg d true
  pending : ∀ m ∈ x.rx.deframer.pending, m.IsRequest cfg d true
  mem     : ∀ t ∈ x.mem, cfg.sendsTo d t.address

-- What the host has received are responses.
structure HostNode.Owns (x : HostNode n) : Prop where
  single  : ∀ m ∈ x.rx.single, m.opCode = .ndr
  hdr     : ∀ m ∈ x.rx.hdr, m.opCode = .drs
  pending : ∀ m ∈ x.rx.deframer.pending, m.opCode = .drs

theorem DeviceNode.Owns.mem_record {d : Fin n} {x : DeviceNode} (h : x.Owns cfg d) {m : Message}
    (hm : m.isFor cfg d) : ∀ t ∈ record x.mem m.tag, cfg.sendsTo d t.address := by
  intro t ht
  unfold record at ht
  split at ht
  case isTrue  => exact h.mem t ht
  case isFalse =>
    rcases Multiset.mem_cons.mp ht with rfl | ht
    case _ => exact hm
    case _ => exact h.mem t ht

section Failures

variable {e : Failure}

theorem Failure.IsOther.not_slot (h : e.IsOther) : e ∉ slotFailures := by
  intro he
  simp only [slotFailures, List.mem_cons, List.not_mem_nil, or_false] at he
  rcases he with rfl | rfl | rfl | rfl | rfl | rfl | rfl <;> exact h

-- A node that fails on the slots of a flit has got one that it cannot read.
theorem DeviceNode.Fails.misread {x : DeviceNode} (h : x.Fails cfg e) (he : e ∈ slotFailures) :
    ∃ f rest, x.inp = f :: rest ∧ ¬f.IsFrameFor .m2s x.rx := by
  cases h
  case other ho => exact absurd he ho.not_slot
  case pack hf =>
    rcases devicePackerRules_fails hf with rfl | hc | rfl
    case inl     => simp [slotFailures] at he
    case inr.inr => simp [slotFailures] at he
    case inr.inl =>
      have := DeviceFlow.creditSanityCheck_meets.of_error hc
      grind [slotFailures]
  case unpack f rest hi hr =>
    cases hr
    case rule hf _ => exact ⟨f, rest, hi, hf⟩
    case single    => simp [slotFailures] at he
    case hdr       => simp [slotFailures] at he
  case unknownCallback h => rcases h with rfl | rfl <;> simp [slotFailures] at he

theorem HostNode.Fails.misread {x : HostNode n} (h : x.Fails cfg e) (he : e ∈ slotFailures) :
    ∃ f rest, x.inp = f :: rest ∧
      (¬f.IsFrameFor .s2m x.rx ∨ slotsDevice cfg f.slots noDevice = .error e) := by
  cases h
  case other ho => exact absurd he ho.not_slot
  case pack hf =>
    rcases hostPackerRules_fails hf with rfl | hc
    case inl => simp [slotFailures] at he
    case inr =>
      have := HostFlow.creditSanityCheck_meets.of_error hc
      grind [slotFailures]
  case unpack f rest hi hr =>
    cases hr
    case rule hf _ => exact ⟨f, rest, hi, .inl hf⟩
    case single    => simp [slotFailures] at he
    case hdr       => simp [slotFailures] at he
  case mixedFlit f rest hi hd => exact ⟨f, rest, hi, .inr hd⟩
  case unknownResponse        => simp [slotFailures] at he

end Failures

namespace Net

section Projections

variable (x) (d : Fin n) (z : DeviceNode)

theorem downlink_setDev : (x.setDev d z).downlink = { x.downlink with
    inp := Function.update x.downlink.inp d z.inp, rx := Function.update x.downlink.rx d z.rx } := by
  ext1
  case inp => exact Function.comp_update DeviceNode.inp x.dev d z
  case rx  => exact Function.comp_update DeviceNode.rx x.dev d z
  all_goals rfl

theorem uplink_setDev : (x.setDev d z).uplink = { x.uplink with
    tx := Function.update x.uplink.tx d z.tx, out := Function.update x.uplink.out d z.out } := by
  ext1
  case tx  => exact Function.comp_update DeviceNode.tx x.dev d z
  case out => exact Function.comp_update DeviceNode.out x.dev d z
  all_goals rfl

variable {x d z}

-- A link does not see what a device does besides.
theorem downlink_setDev_of_inp (hi : z.inp = (x.dev d).inp) :
    (x.setDev d z).downlink = { x.downlink with rx := Function.update x.downlink.rx d z.rx } := by
  rw [downlink_setDev, hi]
  simp [downlink]

theorem downlink_setDev_of_rx (hr : z.rx = (x.dev d).rx) :
    (x.setDev d z).downlink = { x.downlink with inp := Function.update x.downlink.inp d z.inp } := by
  rw [downlink_setDev, hr]
  simp [downlink]

theorem downlink_setDev_eq (hi : z.inp = (x.dev d).inp) (hr : z.rx = (x.dev d).rx) :
    (x.setDev d z).downlink = x.downlink := by
  rw [downlink_setDev_of_inp hi, hr]
  simp [downlink]

theorem uplink_setDev_of_out (ho : z.out = (x.dev d).out) :
    (x.setDev d z).uplink = { x.uplink with tx := Function.update x.uplink.tx d z.tx } := by
  rw [uplink_setDev, ho]
  simp [uplink]

theorem uplink_setDev_of_tx (ht : z.tx = (x.dev d).tx) :
    (x.setDev d z).uplink = { x.uplink with out := Function.update x.uplink.out d z.out } := by
  rw [uplink_setDev, ht]
  simp [uplink]

theorem uplink_setDev_eq (ho : z.out = (x.dev d).out) (ht : z.tx = (x.dev d).tx) :
    (x.setDev d z).uplink = x.uplink := by
  rw [uplink_setDev_of_out ho, ht]
  simp [uplink]

end Projections

theorem HostFlow.grant_deviceUnderConsideration (s : HostFlow n) (d : Nat) (c : Credits) :
    (s.grant d c).deviceUnderConsideration = s.deviceUnderConsideration := by
  unfold HostFlow.grant
  split <;> rfl

theorem HostFlow.retire_deviceUnderConsideration (s : HostFlow n) (op : Opcode) :
    (s.retire op).deviceUnderConsideration = s.deviceUnderConsideration := by
  cases op <;> rfl

theorem Step.downlink (h : Step cfg x y) : Downlink.Steps cfg x.downlink y.downlink := by
  cases h
  case host h hs =>
    cases hs
    case issueRead m _ hm      => exact .single (.arriveSingle (x := x.downlink) hm)
    case issueWrite m _ hm     => exact .single (.arriveHdr (x := x.downlink) hm)
    case issueDam              => exact .refl
    case pack hs hf            => exact .single (.pack (x := x.downlink) hs hf)
    case unpack                =>
      exact .single (.credit (x := x.downlink) (HostFlow.grant_deviceUnderConsideration _ _ _))
    case retireWrite           =>
      exact .single (.credit (x := x.downlink) (HostFlow.retire_deviceUnderConsideration _ _))
    case retireRead            =>
      exact .single (.credit (x := x.downlink) (HostFlow.retire_deviceUnderConsideration _ _))
    case completeDam           => exact .refl
  case device d z hz =>
    cases hz
    case unpack f rest u hi hu =>
      rw [downlink_setDev]
      exact .single (.unpack (x := x.downlink) hi hu)
    case sendRead m rest _ _ =>
      rw [downlink_setDev_of_inp (by rfl)]
      exact .single (.take (x := x.downlink))
    case sendWrite m rest _ _ =>
      rw [downlink_setDev_of_inp (by rfl)]
      exact .single (.take (x := x.downlink))
    case respondRead  => rw [downlink_setDev_eq (by rfl) (by rfl)]
    case respondWrite => rw [downlink_setDev_eq (by rfl) (by rfl)]
    case pack         => rw [downlink_setDev_eq (by rfl) (by rfl)]
  case route f rest d hout hd =>
    have hs := Downlink.Step.route (x := x.downlink) hout hd
    have hy : Net.downlink { x.setDev d { x.dev d with inp := (x.dev d).inp ++ [f] } with
        host := { x.host with out := rest }, prev := d.val } = { x.downlink with
        out := rest, prev := d.val
        inp := Function.update x.downlink.inp d (x.downlink.inp d ++ [f]) } :=
      congrArg (fun l : Downlink n => { l with out := rest, prev := d.val })
        (downlink_setDev_of_rx (z := { x.dev d with inp := (x.dev d).inp ++ [f] }) rfl)
    rw [hy]
    exact .single hs
  case turn => exact .refl
  case move f rest d _ _ =>
    have hy : (x.setDev d { x.dev d with out := rest }).downlink = x.downlink := downlink_setDev_eq rfl rfl
    exact hy ▸ .refl

theorem Steps.downlink (h : Steps cfg x y) : Downlink.Steps cfg x.downlink y.downlink := by
  induction h
  case refl        => exact .refl
  case tail _ h ih => exact ih.trans h.downlink

def Owned (cfg : Config n) (x : Net n) : Prop :=
  ∀ d, (x.dev d).Owns cfg d

theorem Owned.setDev {d : Fin n} {z : DeviceNode} (h : x.Owned cfg) (hz : z.Owns cfg d) :
    (x.setDev d z).Owned cfg :=
  (Function.forall_update_iff x.dev (fun i y => y.Owns cfg i)).mpr ⟨hz, fun i _ => h i⟩

-- A flit that a device reads has only requests to it.
theorem starts_isRequest {d : Fin n} {f : Flit} {rest : List Flit} (hd : x.downlink.Orderly cfg)
    (hi : (x.dev d).inp = f :: rest) (hasData : Bool) :
    ∀ m ∈ f.starts .m2s hasData, m.IsRequest cfg d hasData := by
  intro m hm
  have hinp : m ∈ (x.downlink.inp d).flatMap (Flit.starts .m2s hasData) :=
    List.mem_flatMap.mpr ⟨f, by simp [downlink, hi], hm⟩
  obtain ⟨hsent, hfor⟩ := hd.mem_sent (List.mem_append_left _ hinp)
  exact ⟨Sender.opCode_of_packed (hd.packed hasData) hsent, hfor⟩

theorem Step.owned (h : Step cfg x y) (hd : x.downlink.Orderly cfg) (hx : x.Owned cfg) : y.Owned cfg := by
  cases h
  case host => exact hx
  case turn => exact hx
  case route d _ _ => exact Owned.setDev (x := x) hx ⟨(hx d).single, (hx d).hdr, (hx d).pending, (hx d).mem⟩
  case move d _ _  => exact Owned.setDev (x := x) hx ⟨(hx d).single, (hx d).hdr, (hx d).pending, (hx d).mem⟩
  case device d z hz =>
    apply hx.setDev
    have hd' := hx d
    cases hz
    case unpack f rest u hi hu =>
      obtain ⟨ms, hms, hp⟩ := hu.hdr_eq
      have hall : ∀ m ∈ ms ++ u.deframer.pending, m.IsRequest cfg d true := by
        rw [hp]
        exact List.forall_mem_append.mpr ⟨hd'.pending, starts_isRequest hd hi true⟩
      obtain ⟨hdrs, hpending⟩ := List.forall_mem_append.mp hall
      refine ⟨?_, ?_, hpending, hd'.mem⟩
      case _ =>
        dsimp only
        rw [hu.single_eq]
        exact List.forall_mem_append.mpr ⟨hd'.single, starts_isRequest hd hi false⟩
      case _ =>
        dsimp only
        rw [hms]
        exact List.forall_mem_append.mpr ⟨hd'.hdr, hdrs⟩
    case sendRead m rest hs _ =>
      obtain ⟨hm, hrest⟩ := List.forall_mem_cons.mp (hs ▸ hd'.single)
      exact ⟨hrest, hd'.hdr, hd'.pending, hd'.mem_record hm.isFor⟩
    case sendWrite m rest hs _ =>
      obtain ⟨hm, hrest⟩ := List.forall_mem_cons.mp (hs ▸ hd'.hdr)
      exact ⟨hd'.single, hrest, hd'.pending, hd'.mem_record hm.isFor⟩
    case respondRead  => exact ⟨hd'.single, hd'.hdr, hd'.pending, fun t h => hd'.mem t (Multiset.mem_of_mem_erase h)⟩
    case respondWrite => exact ⟨hd'.single, hd'.hdr, hd'.pending, fun t h => hd'.mem t (Multiset.mem_of_mem_erase h)⟩
    case pack         => exact ⟨hd'.single, hd'.hdr, hd'.pending, hd'.mem⟩

theorem Step.uplink {own : Fin n → Message → Prop} (h : Step cfg x y)
    (hx : ∀ d m, m.tag ∈ (x.dev d).mem → own d m) : Uplink.Steps cfg own x.uplink y.uplink := by
  cases h
  case host h hs =>
    cases hs
    case unpack hi _ hu => exact .single (.unpack (x := x.uplink) hi hu)
    case retireWrite    => exact .single (.take (x := x.uplink))
    case retireRead     => exact .single (.take (x := x.uplink))
    all_goals exact .refl
  case device d z hz =>
    cases hz
    case unpack =>
      rw [uplink_setDev_of_out (by rfl)]
      exact .single (.credit (x := x.uplink))
    case sendRead =>
      rw [uplink_setDev_of_out (by rfl)]
      exact .single (.credit (x := x.uplink))
    case sendWrite =>
      rw [uplink_setDev_of_out (by rfl)]
      exact .single (.credit (x := x.uplink))
    case respondRead m _ hm _ hop =>
      rw [uplink_setDev_of_out (by rfl)]
      exact .single (.arriveHdr (x := x.uplink) hop (hx d m hm))
    case respondWrite m _ hm _ hop =>
      rw [uplink_setDev_of_out (by rfl)]
      exact .single (.arriveSingle (x := x.uplink) hop (hx d m hm))
    case pack hs hf =>
      rw [uplink_setDev]
      exact .single (.pack (x := x.uplink) hs hf)
  case route f rest d _ _ =>
    have hy : (x.setDev d { x.dev d with inp := (x.dev d).inp ++ [f] }).uplink = x.uplink :=
      uplink_setDev_eq rfl rfl
    exact hy ▸ .refl
  case turn he => exact .single (.turn (x := x.uplink) he)
  case move f rest d hp hout =>
    have hy : Net.uplink { x.setDev d { x.dev d with out := rest } with
        host     := { x.host with inp := x.host.inp ++ [f] }
        expected := f.header.slots.foldl CXLSwitch.countRollover x.expected
        moved    := x.moved ++ [(d, f)] } = { x.uplink with
        out      := Function.update x.uplink.out d rest
        inp      := x.uplink.inp ++ [f]
        expected := f.header.slots.foldl CXLSwitch.countRollover x.uplink.expected
        moved    := x.uplink.moved ++ [(d, f)] } :=
      congrArg (fun l : Uplink n => { l with
        inp      := x.host.inp ++ [f]
        expected := f.header.slots.foldl CXLSwitch.countRollover x.expected
        moved    := x.moved ++ [(d, f)] })
        (uplink_setDev_of_tx (z := { x.dev d with out := rest }) rfl)
    rw [hy]
    exact .single (.move (x := x.uplink) hp hout)

-- A flit that the host reads has only responses.
theorem starts_opCode {own : Fin n → Message → Prop} {f : Flit}
    (hu : x.uplink.Orderly own) (hf : f ∈ x.host.inp) (hasData : Bool) :
    ∀ m ∈ f.starts .s2m hasData, m.opCode = Dir.op .s2m hasData := by
  intro m hm
  have hinp : m ∈ x.uplink.inp.flatMap (Flit.starts .s2m hasData) := List.mem_flatMap.mpr ⟨f, hf, hm⟩
  have hread : m ∈ x.uplink.moved.flatMap fun p => p.2.starts .s2m hasData := by
    rw [← hu.read hasData]
    exact List.mem_append_right _ hinp
  obtain ⟨⟨d, g⟩, hg, hm⟩ := List.mem_flatMap.mp hread
  have hmoved : g ∈ Ports.movedOf d x.uplink.moved := List.mem_filterMap.mpr ⟨(d, g), hg, if_pos rfl⟩
  have hsent : g ∈ (x.uplink.tx d).sent := by
    rw [← hu.sent d]
    exact List.mem_append_left _ hmoved
  exact Sender.opCode_of_packed ((hu.tx d).packed hasData) (List.mem_flatMap.mpr ⟨g, hsent, hm⟩)

theorem Step.hostOwns {own : Fin n → Message → Prop} (h : Step cfg x y) (hu : x.uplink.Orderly own) (hx : x.host.Owns) : y.host.Owns := by
  cases h
  case host hs =>
    cases hs
    case unpack f rest dest u hi _ hr =>
      have hf : f ∈ x.host.inp := hi ▸ List.mem_cons_self
      obtain ⟨ms, hms, hp⟩ := hr.hdr_eq
      have hall : ∀ m ∈ ms ++ u.deframer.pending, m.opCode = .drs := by
        rw [hp]
        exact List.forall_mem_append.mpr ⟨hx.pending, starts_opCode hu hf true⟩
      obtain ⟨hdrs, hpending⟩ := List.forall_mem_append.mp hall
      refine ⟨?_, ?_, hpending⟩
      case _ =>
        dsimp only
        rw [hr.single_eq]
        exact List.forall_mem_append.mpr ⟨hx.single, starts_opCode hu hf false⟩
      case _ =>
        dsimp only
        rw [hms]
        exact List.forall_mem_append.mpr ⟨hx.hdr, hdrs⟩
    case retireWrite hq _ _ _ => exact ⟨(List.forall_mem_cons.mp (hq ▸ hx.single)).right, hx.hdr, hx.pending⟩
    case retireRead hq _ _ _  => exact ⟨hx.single, (List.forall_mem_cons.mp (hq ▸ hx.hdr)).right, hx.pending⟩
    all_goals exact ⟨hx.single, hx.hdr, hx.pending⟩
  all_goals exact ⟨hx.single, hx.hdr, hx.pending⟩

-- Among at most 4096 devices, all that a device works on is its own.
structure Routed (cfg : Config n) (x : Net n) : Prop where
  downlink : x.downlink.Orderly cfg
  owned    : x.Owned cfg
  uplink   : x.uplink.Orderly fun d m => m.isFor cfg d
  host     : x.host.Owns

theorem init_routed : (init cfg).Routed cfg where
  downlink := Downlink.init_orderly
  owned _  := ⟨fun _ hm => absurd hm List.not_mem_nil, fun _ hm => absurd hm List.not_mem_nil,
    fun _ hm => absurd hm List.not_mem_nil, fun t ht => absurd ht (Multiset.notMem_zero t)⟩
  uplink   := Uplink.init_orderly
  host     := ⟨fun _ hm => absurd hm List.not_mem_nil, fun _ hm => absurd hm List.not_mem_nil,
    fun _ hm => absurd hm List.not_mem_nil⟩

theorem Step.routed (hn : n ≤ noDevice) (h : Step cfg x y) (hx : x.Routed cfg) : y.Routed cfg where
  downlink := h.downlink.orderly hn hx.downlink
  owned    := h.owned hx.downlink hx.owned
  uplink   := (h.uplink fun d m hm => (hx.owned d).mem m.tag hm).orderly (fun _ _ hm => hm) hx.uplink
  host     := h.hostOwns hx.uplink hx.host

theorem Steps.routed (hn : n ≤ noDevice) (h : Steps cfg x y) (hx : x.Routed cfg) : y.Routed cfg := by
  induction h
  case refl        => exact hx
  case tail _ h ih => exact h.routed hn ih

-- No flit is one that its receiver cannot read.
theorem Routed.not_slot {e : Failure} (hx : x.Routed cfg) (h : x.Fails cfg e) : e ∉ slotFailures := by
  intro he
  cases h
  case other ho => exact ho.not_slot he
  case device d hf =>
    obtain ⟨f, rest, hi, hne⟩ := hf.misread he
    exact hne (hx.downlink.readable hi)
  case host hf =>
    obtain ⟨f, rest, hi, hne⟩ := hf.misread he
    rcases hne with hne | hne
    case _ => exact hne (hx.uplink.readable hi)
    case _ =>
      have hf : f ∈ x.host.inp := hi ▸ List.mem_cons_self
      obtain ⟨d, hd⟩ := hx.uplink.slotsDevice hf
      cases hd.symm.trans hne

theorem Reachable.routed (hn : n ≤ noDevice) (h : Reachable cfg x) : x.Routed cfg :=
  Steps.routed hn h init_routed

-- However many devices there are, the arbiter keeps a response together.
theorem Reachable.uplink_orderly (h : Reachable cfg x) : x.uplink.Orderly fun _ _ => True := by
  induction h
  case refl => exact Uplink.init_orderly
  case tail _ hs ih =>
    have hu : Uplink.Steps cfg (fun _ _ => True) _ _ := hs.uplink fun _ _ _ => trivial
    exact hu.orderly (fun _ _ _ => trivial) ih

-- The host can read its flits, and only of more than 4096 devices it gets one that belongs to several.
theorem Reachable.host_misread {e : Failure} (h : Reachable cfg x) (hf : x.host.Fails cfg e)
    (he : e ∈ slotFailures) : e = .singleFlitDifferentDevices ∧ noDevice < n := by
  constructor
  case left =>
    obtain ⟨f, rest, hi, hne⟩ := hf.misread he
    rcases hne with hne | hne
    case _ => exact absurd (h.uplink_orderly.readable hi) hne
    case _ =>
      rcases CXLHost.slotsDevice_meets.of_error hne with rfl | rfl
      all_goals simp [slotFailures] at he ⊢
  case right =>
    by_contra hn
    exact (h.routed (Nat.le_of_not_lt hn)).not_slot (.host hf) he

end Net

end CXL
