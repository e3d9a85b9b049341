import VldbArtifacts.CXLSim.Buf

-- Parameters and configuration (include/CXLParams.h, `CXLParams::recalculate`, src/CXLSys.cpp).

namespace CXL

structure CXLParams where
  ticksPerNs            : Int
  ticksPerIns           : Int
  cxlBusTotalLatency    : Int
  cxlBusTicksPerDequeue : Int
  delayTxBufToBus       : Int
  delayRxBufToUnpack    : Int
  delayVcToPack         : Int
  delayRamulatorUpdate  : Int
  delayVcToRamulator    : Int
  delayVcToRetire       : Int
  delayCxlPortSwitch    : Int
  delayCxlNocSwitch     : Int
  deriving DecidableEq, Repr

-- What `main` and `recalculate` compute. A link of 16 lanes of 4 GiB/s moves 1.0106 flits of 68 bytes
-- each ns, so 9.89.. ticks pass between two flits; 0.625 ns are 6.25 ticks. Both are truncated.
def CXLParams.main : CXLParams where
  ticksPerNs            := 10
  ticksPerIns           := 10
  cxlBusTotalLatency    := 150
  cxlBusTicksPerDequeue := 9
  delayTxBufToBus       := 110
  delayRxBufToUnpack    := 110
  delayVcToPack         := 20
  delayRamulatorUpdate  := 6
  delayVcToRamulator    := 20
  delayVcToRetire       := 20
  delayCxlPortSwitch    := 130
  delayCxlNocSwitch     := 100

-- A system of one host and `n` devices. The sizes are the macros and literals of src/CXLSys.cpp and
-- of the constructors; a device has given its host one credit of each kind, so it has a place for it.
structure Config (n : Nat) where
  params           : CXLParams := .main
  hostVcSize       : Nat := 1024
  hostBufSize      : Nat := 2048
  devVcSize        : Nat := 1024
  devBufSize       : Nat := 2048
  switchBufSize    : Nat := 4096
  busSize          : Nat := 15
  addressIntervals : Fin n → Nat × Nat
  hasDAM           : Bool := true
  damInterval      : Nat × Nat := (0x000000000000000, 0xaffffffffffffff)
  devVcSize_pos    : 0 < devVcSize := by decide

-- The system of src/Main.cpp.
def Config.main : Config 1 where
  addressIntervals _ := (0xb00000000000000, 0xcffffffffffffff)

-- One device behind the first 64 bytes, and the direct attached memory behind the next 64.
def Config.small : Config 1 where
  addressIntervals _ := (0, 64)
  damInterval        := (64, 128)

abbrev numVc : Nat := 4

instance : NeZero numVc := ⟨by decide⟩

-- The conversions of the source between `int64_t` and `uint64_t`.
def toU64 (x : Int) : Nat :=
  (x % 2 ^ 64).toNat

def toI64 (x : Nat) : Int :=
  if x % 2 ^ 64 < 2 ^ 63 then (x % 2 ^ 64 : Nat) else (x % 2 ^ 64 : Nat) - 2 ^ 64

namespace Config

variable {n : Nat} (cfg : Config n)

-- The size of the host's two response channels is a literal of its constructor.
def hostRespSize (_ : Config n) : Nat := 1024

def textToTraceSize (_ : Config n) : Nat := 20

-- `CXLHost::destination_device` and `CXLSwitch::destination_device` iterate over the same map, in the
-- order of the device ids.
def destinationDevice (addr : Nat) : Sim (Fin n) :=
  match (List.finRange n).find? fun i =>
      addr < (cfg.addressIntervals i).2 && addr ≥ (cfg.addressIntervals i).1 with
  | some i => .ok i
  | none   => .error .invalidAddress

end Config

end CXL
