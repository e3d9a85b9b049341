import VldbArtifacts.Lib.TimingTable
import VldbArtifacts.CXLSim.Memory

-- The DRAM standard of the memories (ramulator/src/DDR4.h, DDR4.cpp).

namespace Ramulator

namespace DDR4

inductive Level
  | channel | rank | bankGroup | bank | row | column
  deriving DecidableEq, Repr

def Level.toNat : Level → Nat
  | channel   => 0
  | rank      => 1
  | bankGroup => 2
  | bank      => 3
  | row       => 4
  | column    => 5

inductive Command
  | act | pre | prea
  | rd | wr | rda | wra
  | ref | pde | pdx | sre | srx
  deriving DecidableEq, Repr

def scope : Command → Level
  | .act                    => .row
  | .pre                    => .bank
  | .prea                   => .rank
  | .rd | .wr | .rda | .wra => .column
  | _                       => .rank

def isOpening : Command → Bool
  | .act => true
  | _    => false

def isAccessing : Command → Bool
  | .rd | .wr | .rda | .wra => true
  | _                       => false

def isClosing : Command → Bool
  | .rda | .wra | .pre | .prea => true
  | _                          => false

-- The members of `State` that ranks have, and those that banks have.
inductive RankState
  | powerUp | actPowerDown | prePowerDown | selfRefresh
  deriving DecidableEq, Repr

inductive BankState
  | opened | closed
  deriving DecidableEq, Repr

def translate : CXL.Request.Type → Command
  | .read    => .rd
  | .write   => .wr
  | .refresh => .ref

structure OrgEntry where
  size       : Nat
  dq         : Nat
  channels   : Nat := 0
  ranks      : Nat := 0
  bankGroups : Nat
  banks      : Nat
  rows       : Nat
  columns    : Nat

def OrgEntry.count (e : OrgEntry) : Level → Nat
  | .channel   => e.channels
  | .rank      => e.ranks
  | .bankGroup => e.bankGroups
  | .bank      => e.banks
  | .row       => e.rows
  | .column    => e.columns

inductive Org
  | ddr4_2Gb_x4 | ddr4_2Gb_x8 | ddr4_2Gb_x16
  | ddr4_4Gb_x4 | ddr4_4Gb_x8 | ddr4_4Gb_x16
  | ddr4_8Gb_x4 | ddr4_8Gb_x8 | ddr4_8Gb_x16
  deriving DecidableEq, Repr

def orgTable : Org → OrgEntry
  | .ddr4_2Gb_x4  => { size := 2 * 2 ^ 10, dq := 4,  bankGroups := 4, banks := 4, rows := 2 ^ 15, columns := 2 ^ 10 }
  | .ddr4_2Gb_x8  => { size := 2 * 2 ^ 10, dq := 8,  bankGroups := 4, banks := 4, rows := 2 ^ 14, columns := 2 ^ 10 }
  | .ddr4_2Gb_x16 => { size := 2 * 2 ^ 10, dq := 16, bankGroups := 2, banks := 4, rows := 2 ^ 14, columns := 2 ^ 10 }
  | .ddr4_4Gb_x4  => { size := 4 * 2 ^ 10, dq := 4,  bankGroups := 4, banks := 4, rows := 2 ^ 16, columns := 2 ^ 10 }
  | .ddr4_4Gb_x8  => { size := 4 * 2 ^ 10, dq := 8,  bankGroups := 4, banks := 4, rows := 2 ^ 15, columns := 2 ^ 10 }
  | .ddr4_4Gb_x16 => { size := 4 * 2 ^ 10, dq := 16, bankGroups := 2, banks := 4, rows := 2 ^ 15, columns := 2 ^ 10 }
  | .ddr4_8Gb_x4  => { size := 8 * 2 ^ 10, dq := 4,  bankGroups := 4, banks := 4, rows := 2 ^ 17, columns := 2 ^ 10 }
  | .ddr4_8Gb_x8  => { size := 8 * 2 ^ 10, dq := 8,  bankGroups := 4, banks := 4, rows := 2 ^ 16, columns := 2 ^ 10 }
  | .ddr4_8Gb_x16 => { size := 8 * 2 ^ 10, dq := 16, bankGroups := 2, banks := 4, rows := 2 ^ 16, columns := 2 ^ 10 }

structure SpeedEntry where
  rate : Nat
  nBL : Int
  nCCDS : Int
  nCCDL : Int
  nRTRS : Int
  nCL : Int
  nRCD : Int
  nRP : Int
  nCWL : Int
  nRAS : Int
  nRC : Int
  nRTP : Int
  nWTRS : Int
  nWTRL : Int
  nWR : Int
  nRRDS : Int
  nRRDL : Int
  nFAW : Int
  nRFC : Int
  nREFI : Int
  nPD : Int
  nXP : Int
  nXPDLL : Int
  nCKESR : Int
  nXS : Int
  nXSDLL : Int

inductive Speed
  | ddr4_1600K | ddr4_1600L
  | ddr4_1866M | ddr4_1866N
  | ddr4_2133P | ddr4_2133R
  | ddr4_2400R | ddr4_2400U
  | ddr4_3200
  deriving DecidableEq, Repr

def prefetchSize : Nat := 8

def channelWidth : Nat := 64

-- Without the frequency and the length of a cycle, which only a report reads.
def speedTable : Speed → SpeedEntry
  | .ddr4_1600K => ⟨1600, 4, 4, 5, 2, 11, 11, 11, 9, 28, 39, 6, 2, 6, 12, 0, 0, 0, 0, 0, 4, 5, 0, 5, 0, 0⟩
  | .ddr4_1600L => ⟨1600, 4, 4, 5, 2, 12, 12, 12, 9, 28, 40, 6, 2, 6, 12, 0, 0, 0, 0, 0, 4, 5, 0, 5, 0, 0⟩
  | .ddr4_1866M => ⟨1866, 4, 4, 5, 2, 13, 13, 13, 10, 32, 45, 7, 3, 7, 14, 0, 0, 0, 0, 0, 5, 6, 0, 6, 0, 0⟩
  | .ddr4_1866N => ⟨1866, 4, 4, 5, 2, 14, 14, 14, 10, 32, 46, 7, 3, 7, 14, 0, 0, 0, 0, 0, 5, 6, 0, 6, 0, 0⟩
  | .ddr4_2133P => ⟨2133, 4, 4, 6, 2, 15, 15, 15, 11, 36, 51, 8, 3, 8, 16, 0, 0, 0, 0, 0, 6, 7, 0, 7, 0, 0⟩
  | .ddr4_2133R => ⟨2133, 4, 4, 6, 2, 16, 16, 16, 11, 36, 52, 8, 3, 8, 16, 0, 0, 0, 0, 0, 6, 7, 0, 7, 0, 0⟩
  | .ddr4_2400R => ⟨2400, 4, 4, 6, 2, 16, 16, 16, 12, 39, 55, 9, 3, 9, 18, 0, 0, 0, 0, 0, 6, 8, 0, 7, 0, 0⟩
  | .ddr4_2400U => ⟨2400, 4, 4, 6, 2, 18, 18, 18, 12, 39, 57, 9, 3, 9, 18, 0, 0, 0, 0, 0, 6, 8, 0, 7, 0, 0⟩
  | .ddr4_3200  => ⟨3200, prefetchSize / 2, 4, 10, 2, 22, 22, 22, 16, 56, 78, 12, 4, 12, 24, 8, 10, 40, 0, 0, 8, 10,
                    0, 8, 0, 0⟩

-- `init_speed`, in the refresh mode `Refresh_1X`: no other one is ever set. The rates and sizes are those of
-- the two tables.
def initSpeed (org : OrgEntry) (s : SpeedEntry) : SpeedEntry :=
  let rrdsTable : List (List Int) := [[4, 4, 4, 4, 4], [5, 5, 6, 7, 9]]
  let rrdlTable : List (List Int) := [[5, 5, 6, 6, 8], [6, 6, 7, 8, 11]]
  let fawTable  : List (List Int) := [[16, 16, 16, 16, 16], [20, 22, 23, 26, 34], [28, 28, 32, 36, 48]]
  let rfcTable  : List (List Int) := [[128, 150, 171, 192, 256], [208, 243, 278, 312, 416], [280, 327, 374, 420, 560]]
  let refiTable : List Int := [6240, 7280, 8320, 9360, 12480]
  let xsTable   : List (List Int) := [[136, 159, 182, 204, 272], [216, 252, 288, 324, 432], [288, 336, 384, 432, 576]]
  let speed := match s.rate with | 1600 => 0 | 1866 => 1 | 2133 => 2 | 2400 => 3 | _ => 4
  let density := match org.size / 2 ^ 10 with | 2 => 0 | 4 => 1 | _ => 2
  let entry (table : List (List Int)) (i : Nat) := (table.getD i []).getD speed 0
  { s with
    nRRDS := entry rrdsTable (if org.dq = 16 then 1 else 0)
    nRRDL := entry rrdlTable (if org.dq = 16 then 1 else 0)
    nFAW  := entry fawTable (if org.dq = 4 then 0 else if org.dq = 8 then 1 else 2)
    nRFC  := entry rfcTable density
    nREFI := refiTable.getD speed 0
    nXS   := entry xsTable density }

end DDR4

open DDR4

structure DDR4 where
  orgEntry   : OrgEntry
  speedEntry : SpeedEntry

namespace DDR4

-- The constructor, with the channel and rank numbers set. The constructor of `Memory` asserts that both are
-- powers of two.
def make (org : Org) (speed : Speed) (channelBits rankBits : Nat) : DDR4 where
  orgEntry   := { orgTable org with channels := 2 ^ channelBits, ranks := 2 ^ rankBits }
  speedEntry := initSpeed (orgTable org) (speedTable speed)

def readLatency (spec : DDR4) : Int :=
  spec.speedEntry.nCL + spec.speedEntry.nBL

-- `init_timing`: the command that is issued, the one that waits, the distance, the cycles and whether it is
-- the siblings that wait.
def timingTable (s : SpeedEntry) : Level → List (Command × Command × Nat × Int × Bool)
  | .channel => [
    -- CAS <-> CAS
    (.rd, .rd, 1, s.nBL, false), (.rd, .rda, 1, s.nBL, false), (.rda, .rd, 1, s.nBL, false),
    (.rda, .rda, 1, s.nBL, false), (.wr, .wr, 1, s.nBL, false), (.wr, .wra, 1, s.nBL, false),
    (.wra, .wr, 1, s.nBL, false), (.wra, .wra, 1, s.nBL, false)]
  | .rank => [
    -- CAS <-> CAS
    (.rd, .rd, 1, s.nCCDS, false), (.rd, .rda, 1, s.nCCDS, false), (.rda, .rd, 1, s.nCCDS, false),
    (.rda, .rda, 1, s.nCCDS, false), (.wr, .wr, 1, s.nCCDS, false),
    (.wr, .wra, 1, s.nCCDS, false), (.wra, .wr, 1, s.nCCDS, false),
    (.wra, .wra, 1, s.nCCDS, false), (.rd, .wr, 1, s.nCL + s.nBL + 2 - s.nCWL, false),
    (.rd, .wra, 1, s.nCL + s.nBL + 2 - s.nCWL, false),
    (.rda, .wr, 1, s.nCL + s.nBL + 2 - s.nCWL, false),
    (.rda, .wra, 1, s.nCL + s.nBL + 2 - s.nCWL, false),
    (.wr, .rd, 1, s.nCWL + s.nBL + s.nWTRS, false),
    (.wr, .rda, 1, s.nCWL + s.nBL + s.nWTRS, false),
    (.wra, .rd, 1, s.nCWL + s.nBL + s.nWTRS, false),
    (.wra, .rda, 1, s.nCWL + s.nBL + s.nWTRS, false),
    -- CAS <-> CAS (between sibling ranks)
    (.rd, .rd, 1, s.nBL + s.nRTRS, true), (.rd, .rda, 1, s.nBL + s.nRTRS, true),
    (.rda, .rd, 1, s.nBL + s.nRTRS, true), (.rda, .rda, 1, s.nBL + s.nRTRS, true),
    (.rd, .wr, 1, s.nBL + s.nRTRS, true), (.rd, .wra, 1, s.nBL + s.nRTRS, true),
    (.rda, .wr, 1, s.nBL + s.nRTRS, true), (.rda, .wra, 1, s.nBL + s.nRTRS, true),
    (.rd, .wr, 1, s.nCL + s.nBL + s.nRTRS - s.nCWL, true),
    (.rd, .wra, 1, s.nCL + s.nBL + s.nRTRS - s.nCWL, true),
    (.rda, .wr, 1, s.nCL + s.nBL + s.nRTRS - s.nCWL, true),
    (.rda, .wra, 1, s.nCL + s.nBL + s.nRTRS - s.nCWL, true),
    (.wr, .rd, 1, s.nCWL + s.nBL + s.nRTRS - s.nCL, true),
    (.wr, .rda, 1, s.nCWL + s.nBL + s.nRTRS - s.nCL, true),
    (.wra, .rd, 1, s.nCWL + s.nBL + s.nRTRS - s.nCL, true),
    (.wra, .rda, 1, s.nCWL + s.nBL + s.nRTRS - s.nCL, true), (.rd, .prea, 1, s.nRTP, false),
    (.wr, .prea, 1, s.nCWL + s.nBL + s.nWR, false),
    -- CAS <-> PD
    (.rd, .pde, 1, s.nCL + s.nBL + 1, false), (.rda, .pde, 1, s.nCL + s.nBL + 1, false),
    (.wr, .pde, 1, s.nCWL + s.nBL + s.nWR, false),
    (.wra, .pde, 1, s.nCWL + s.nBL + s.nWR + 1, false), (.pdx, .rd, 1, s.nXP, false),
    (.pdx, .rda, 1, s.nXP, false), (.pdx, .wr, 1, s.nXP, false), (.pdx, .wra, 1, s.nXP, false),
    -- CAS <-> SR: none (all banks have to be precharged)
    -- RAS <-> RAS
    (.act, .act, 1, s.nRRDS, false), (.act, .act, 4, s.nFAW, false),
    (.act, .prea, 1, s.nRAS, false), (.prea, .act, 1, s.nRP, false),
    -- RAS <-> REF
    (.act, .ref, 1, s.nRC, false), (.pre, .ref, 1, s.nRP, false), (.prea, .ref, 1, s.nRP, false),
    (.rda, .ref, 1, s.nRTP + s.nRP, false),
    (.wra, .ref, 1, s.nCWL + s.nBL + s.nWR + s.nRP, false), (.ref, .act, 1, s.nRFC, false),
    -- RAS <-> PD
    (.act, .pde, 1, 1, false), (.pdx, .act, 1, s.nXP, false), (.pdx, .pre, 1, s.nXP, false),
    (.pdx, .prea, 1, s.nXP, false),
    -- RAS <-> SR
    (.pre, .sre, 1, s.nRP, false), (.prea, .sre, 1, s.nRP, false), (.srx, .act, 1, s.nXS, false),
    -- REF <-> REF
    (.ref, .ref, 1, s.nRFC, false),
    -- REF <-> PD
    (.ref, .pde, 1, 1, false), (.pdx, .ref, 1, s.nXP, false),
    -- REF <-> SR
    (.srx, .ref, 1, s.nXS, false),
    -- PD <-> PD
    (.pde, .pdx, 1, s.nPD, false), (.pdx, .pde, 1, s.nXP, false),
    -- PD <-> SR
    (.pdx, .sre, 1, s.nXP, false), (.srx, .pde, 1, s.nXS, false),
    -- SR <-> SR
    (.sre, .srx, 1, s.nCKESR, false), (.srx, .sre, 1, s.nXS, false)]
  | .bankGroup => [
    -- CAS <-> CAS
    (.rd, .rd, 1, s.nCCDL, false), (.rd, .rda, 1, s.nCCDL, false), (.rda, .rd, 1, s.nCCDL, false),
    (.rda, .rda, 1, s.nCCDL, false), (.wr, .wr, 1, s.nCCDL, false),
    (.wr, .wra, 1, s.nCCDL, false), (.wra, .wr, 1, s.nCCDL, false),
    (.wra, .wra, 1, s.nCCDL, false), (.wr, .rd, 1, s.nCWL + s.nBL + s.nWTRL, false),
    (.wr, .rda, 1, s.nCWL + s.nBL + s.nWTRL, false),
    (.wra, .rd, 1, s.nCWL + s.nBL + s.nWTRL, false),
    (.wra, .rda, 1, s.nCWL + s.nBL + s.nWTRL, false),
    -- RAS <-> RAS
    (.act, .act, 1, s.nRRDL, false)]
  | .bank => [
    -- CAS <-> RAS
    (.act, .rd, 1, s.nRCD, false), (.act, .rda, 1, s.nRCD, false), (.act, .wr, 1, s.nRCD, false),
    (.act, .wra, 1, s.nRCD, false), (.rd, .pre, 1, s.nRTP, false),
    (.wr, .pre, 1, s.nCWL + s.nBL + s.nWR, false), (.rda, .act, 1, s.nRTP + s.nRP, false),
    (.wra, .act, 1, s.nCWL + s.nBL + s.nWR + s.nRP, false),
    -- RAS <-> RAS
    (.act, .act, 1, s.nRC, false), (.act, .pre, 1, s.nRAS, false), (.pre, .act, 1, s.nRP, false)]
  | _ => []

abbrev TimingEntry := Timing.Entry Command

def timing (spec : DDR4) (level : Level) (cmd : Command) : List TimingEntry :=
  (timingTable spec.speedEntry level).filterMap fun (c, cmd', dist, val, sibling) =>
    if c = cmd then some { cmd := cmd', dist, val, sibling } else none

end DDR4

end Ramulator
