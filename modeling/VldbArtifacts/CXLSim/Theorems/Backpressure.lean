import VldbArtifacts.CXLSim.Theorems.Failures
import VldbArtifacts.CXLSim.Theorems.Run

-- The runs that abort because a device has no room.

namespace CXL

namespace CXLSystem

variable {n : Nat} {cfg : Config n} {M : Memory} {s : CXLSystem cfg M} {trace : List Char}

theorem perform_stall_iff {a : Action n} : s.perform a = .error .ramulatorSideStall ↔
    ∃ i, a = .sendToRamulator i ∧ (s.devices i).IsStalled := by
  have hstall (i : Fin n) : s.perform (.sendToRamulator i) = .error .ramulatorSideStall ↔
      (s.devices i).IsStalled := by
    rw [← (s.devices i).sendToRamulator_stall_iff s.currTick]
    simp [perform, Except.bind_eq_error]
  constructor
  case mp =>
    intro h
    have hmem := s.mem_failures_of_perform h
    cases a
    case sendToRamulator i => exact ⟨i, rfl, (hstall i).mp h⟩
    all_goals simp [Action.failures] at hmem
  case mpr =>
    rintro ⟨i, rfl, h⟩
    exact (hstall i).mpr h

theorem Calls.stall_iff {b : Build} {k : Nat} {as : List (Action n)} (h : Calls b trace k cfg M as) :
    (init trace : CXLSystem cfg M).run b k = .error .ramulatorSideStall ↔
      ∃ i, ∃ s : CXLSystem cfg M,
        CalledIn trace as (.sendToRamulator i) s ∧ (s.devices i).IsStalled := by
  apply h.error_iff.trans
  simp only [perform_stall_iff]
  constructor
  case mp =>
    rintro ⟨_, s, hs, i, rfl, hi⟩
    exact ⟨i, s, hs, hi⟩
  case mpr =>
    rintro ⟨i, s, hs, hi⟩
    exact ⟨_, s, hs, i, rfl, hi⟩

end CXLSystem

-- Four places in each channel, short delays, and 10 ticks before a message may leave its channel.
def Config.slowHandOff : Config 1 where
  params           := {
    ticksPerNs            := 10
    ticksPerIns           := 1
    cxlBusTotalLatency    := 1
    cxlBusTicksPerDequeue := 1
    delayTxBufToBus       := 0
    delayRxBufToUnpack    := 0
    delayVcToPack         := 0
    delayRamulatorUpdate  := 1
    delayVcToRamulator    := 10
    delayVcToRetire       := 0
    delayCxlPortSwitch    := 0
    delayCxlNocSwitch     := 0 }
  devVcSize        := 4
  addressIntervals := fun _ => (0, 64)
  damInterval      := (64, 128)

namespace CXLSystem

-- The first read brings back the credits of the device. Then 4 reads and 4 writes arrive within 10
-- ticks.
def burst : List Char :=
  ("0x0 R 1\n0x0 R 13\n0x0 R 0\n0x0 R 0\n0x0 R 0\n" ++
    "0x0 W 0\n0x0 W 0\n0x0 W 0\n0x0 W 0\n").toList

end CXLSystem

end CXL
