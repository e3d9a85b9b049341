import Mathlib.Tactic

-- source/tools/Memory/cache.H: a set associative cache with round robin replacement.

namespace Pin

inductive AccessType
  | load | store
  deriving DecidableEq, Repr

inductive StoreAllocation
  | allocate | noAllocate
  deriving DecidableEq, Repr

-- The parameters of a cache that has passed the assertions of its constructors. The line size and the number
-- of sets are powers of two.
structure CacheConfig where
  lineShift     : Nat
  setBits       : Nat
  tagsLastIndex : Nat
  allocation    : StoreAllocation
  lineShift_lt  : lineShift < 32
  setBits_le    : setBits ≤ 17
  tags_lt       : tagsLastIndex < 256

namespace CacheConfig

variable (cfg : CacheConfig)

def lineSize : Nat :=
  2 ^ cfg.lineShift

def setIndexMask : Nat :=
  2 ^ cfg.setBits - 1

-- `SplitAddress`.
def tag (addr : Nat) : Nat :=
  addr >>> cfg.lineShift

def setIndex (tag : Nat) : Nat :=
  tag &&& cfg.setIndexMask

-- `~(lineSize - 1)` in 64 bits.
def notLineMask : Nat :=
  2 ^ 64 - cfg.lineSize

-- The start of the next line.
def nextLine (addr : Nat) : Nat :=
  ((addr &&& cfg.notLineMask) + cfg.lineSize) % 2 ^ 64

end CacheConfig

-- `CACHE_SET::ROUND_ROBIN`. The index of the last tag is `last`.
structure RoundRobin (last : Nat) where
  tags             : Fin (last + 1) → Nat
  nextReplaceIndex : Fin (last + 1)

namespace RoundRobin

variable {last : Nat}

def init : RoundRobin last where
  tags             := fun _ => 0
  nextReplaceIndex := Fin.last last

def find (s : RoundRobin last) (tag : Nat) : Bool :=
  ∃ i, s.tags i = tag

def replace (s : RoundRobin last) (tag : Nat) : RoundRobin last where
  tags             := Function.update s.tags s.nextReplaceIndex tag
  nextReplaceIndex :=
    if s.nextReplaceIndex.val = 0 then Fin.last last
    else ⟨s.nextReplaceIndex.val - 1, Nat.lt_of_le_of_lt (Nat.sub_le ..) s.nextReplaceIndex.isLt⟩

end RoundRobin

-- `CACHE`. The counters are by the type of the access and whether it hit.
structure Cache (cfg : CacheConfig) where
  sets   : Nat → RoundRobin cfg.tagsLastIndex
  counts : AccessType → Bool → Nat

namespace Cache

variable {cfg : CacheConfig}

def init : Cache cfg where
  sets   := fun _ => .init
  counts := fun _ _ => 0

def holds (c : Cache cfg) (tag : Nat) : Bool :=
  (c.sets (cfg.setIndex tag)).find tag

-- What the two functions do to a line. On a miss, loads always allocate, stores optionally.
def touch (c : Cache cfg) (type : AccessType) (tag : Nat) : Cache cfg :=
  if !c.holds tag && (type = .load || cfg.allocation = .allocate) then
    let setIndex := cfg.setIndex tag
    { c with sets := Function.update c.sets setIndex ((c.sets setIndex).replace tag) }
  else
    c

def count (c : Cache cfg) (type : AccessType) (hit : Bool) : Cache cfg :=
  let counts := Function.update (c.counts type) hit (c.counts type hit + 1)
  { c with counts := Function.update c.counts type counts }

-- The rounds of the loop of `Access`, of which there may be no end.
def accessLoop (type : AccessType) (highAddr : Nat) :
    Nat → Cache cfg → Nat → Bool → Option (Bool × Cache cfg)
  | 0,        _, _,    _      => none
  | fuel + 1, c, addr, allHit =>
    let localHit := c.holds (cfg.tag addr)
    let allHit   := allHit && localHit
    let c        := c.touch type (cfg.tag addr)
    let addr     := cfg.nextLine addr
    if addr < highAddr then accessLoop type highAddr fuel c addr allHit else some (allHit, c)

-- The loop comes to no line twice if it ends.
def access (c : Cache cfg) (addr size : Nat) (type : AccessType) : Option (Bool × Cache cfg) := do
  let highAddr := (addr + size) % 2 ^ 64
  let (allHit, c) ← accessLoop type highAddr (2 ^ 64 + 1) c addr true
  return (allHit, c.count type allHit)

def accessSingleLine (c : Cache cfg) (addr : Nat) (type : AccessType) : Bool × Cache cfg :=
  let hit := c.holds (cfg.tag addr)
  (hit, (c.touch type (cfg.tag addr)).count type hit)

end Cache

end Pin
