import VldbArtifacts.Pin.Cache

-- source/tools/Memory/cache.H: the cache with the operation that evicts a line. `EvictTag` looks at all
-- the tags a set has room for, so a set is here the whole array of `ROUND_ROBIN`, of which `Find` and
-- `Replace` use the first `_tagsLastIndex + 1` entries only.

namespace Pin

-- The parameters of any cache of these classes, with an associativity of one to `MAX_ASSOCIATIVITY`.
structure CacheParams where
  maxAssociativity : Nat
  tagsLastIndex    : Fin maxAssociativity
  lineShift        : Nat
  setBits          : Nat
  allocation       : StoreAllocation
  lineShift_lt     : lineShift < 32

namespace CacheParams

variable (p : CacheParams)

def lineSize : Nat :=
  2 ^ p.lineShift

-- `SplitAddress`.
def tag (addr : Nat) : Nat :=
  addr >>> p.lineShift

def setIndex (tag : Nat) : Nat :=
  tag &&& (2 ^ p.setBits - 1)

-- The start of the next line.
def nextLine (addr : Nat) : Nat :=
  ((addr &&& (2 ^ 64 - p.lineSize)) + p.lineSize) % 2 ^ 64

end CacheParams

-- The next index to be replaced is always one of those in use.
structure WaySet (p : CacheParams) where
  tags             : Fin p.maxAssociativity → Nat
  nextReplaceIndex : Fin p.maxAssociativity
  next_le          : nextReplaceIndex ≤ p.tagsLastIndex

namespace WaySet

variable {p : CacheParams}

def init : WaySet p where
  tags             := fun _ => 0
  nextReplaceIndex := p.tagsLastIndex
  next_le          := Nat.le_refl _

def find (s : WaySet p) (tag : Nat) : Bool :=
  ∃ i, i ≤ p.tagsLastIndex ∧ s.tags i = tag

def predIndex (s : WaySet p) : Fin p.maxAssociativity :=
  ⟨s.nextReplaceIndex.val - 1, Nat.lt_of_le_of_lt (Nat.sub_le ..) s.nextReplaceIndex.isLt⟩

def replace (s : WaySet p) (tag : Nat) : WaySet p where
  tags             := Function.update s.tags s.nextReplaceIndex tag
  nextReplaceIndex := if s.nextReplaceIndex.val = 0 then p.tagsLastIndex else s.predIndex
  next_le          := by
    split
    · exact Nat.le_refl _
    · exact Nat.le_trans (Nat.sub_le ..) s.next_le

-- The first tag that matches is cleared, whether it is in use or not.
def evictTag (s : WaySet p) (tag : Nat) : Bool × WaySet p :=
  match (List.finRange p.maxAssociativity).find? (fun i => s.tags i = tag) with
  | some i => (true, { s with tags := Function.update s.tags i 0 })
  | none   => (false, s)

end WaySet

-- `CACHE` over sets with round robin replacement.
structure WayCache (p : CacheParams) where
  sets   : Nat → WaySet p
  counts : AccessType → Bool → Nat

namespace WayCache

variable {p : CacheParams}

def init : WayCache p where
  sets   := fun _ => .init
  counts := fun _ _ => 0

def holds (c : WayCache p) (tag : Nat) : Bool :=
  (c.sets (p.setIndex tag)).find tag

def setSet (c : WayCache p) (setIndex : Nat) (s : WaySet p) : WayCache p :=
  { c with sets := Function.update c.sets setIndex s }

-- On a miss, loads always allocate, stores optionally.
def touch (c : WayCache p) (type : AccessType) (tag : Nat) : WayCache p :=
  if !c.holds tag && (type = .load || p.allocation = .allocate) then
    c.setSet (p.setIndex tag) ((c.sets (p.setIndex tag)).replace tag)
  else
    c

def count (c : WayCache p) (type : AccessType) (hit : Bool) : WayCache p :=
  let counts := Function.update (c.counts type) hit (c.counts type hit + 1)
  { c with counts := Function.update c.counts type counts }

-- The rounds of the loop of `Access`, of which there may be no end.
def accessLoop (type : AccessType) (highAddr : Nat) :
    Nat → WayCache p → Nat → Bool → Option (Bool × WayCache p)
  | 0,        _, _,    _      => none
  | fuel + 1, c, addr, allHit =>
    let localHit := c.holds (p.tag addr)
    let allHit   := allHit && localHit
    let c        := c.touch type (p.tag addr)
    let addr     := p.nextLine addr
    if addr < highAddr then accessLoop type highAddr fuel c addr allHit else some (allHit, c)

def access (c : WayCache p) (addr size : Nat) (type : AccessType) : Option (Bool × WayCache p) := do
  let highAddr := (addr + size) % 2 ^ 64
  let (allHit, c) ← accessLoop type highAddr (2 ^ 64 + 1) c addr true
  return (allHit, c.count type allHit)

def accessSingleLine (c : WayCache p) (addr : Nat) (type : AccessType) : Bool × WayCache p :=
  let hit := c.holds (p.tag addr)
  (hit, (c.touch type (p.tag addr)).count type hit)

def evictSingleLine (c : WayCache p) (addr : Nat) : Bool × WayCache p :=
  let setIndex := p.setIndex (p.tag addr)
  let set      := c.sets setIndex
  if !set.find (p.tag addr) then (false, c)
  else (true, c.setSet setIndex (set.evictTag (p.tag addr)).2)

-- The calls that change the cache.
inductive Call
  | access (addr size : Nat) (type : AccessType)
  | accessSingleLine (addr : Nat) (type : AccessType)
  | evictSingleLine (addr : Nat)

def step (c : WayCache p) : Call → Option (WayCache p)
  | .access addr size type      => (c.access addr size type).map Prod.snd
  | .accessSingleLine addr type => some (c.accessSingleLine addr type).2
  | .evictSingleLine addr       => some (c.evictSingleLine addr).2

-- The calls one after another, as far as each of them returns.
def run (c : WayCache p) (calls : List Call) : Option (WayCache p) :=
  calls.foldlM step c

end WayCache

-- The parameters of the cache of the tool, whose sets have room for 256 tags.
def CacheConfig.params (cfg : CacheConfig) : CacheParams where
  maxAssociativity := 256
  tagsLastIndex    := ⟨cfg.tagsLastIndex, cfg.tags_lt⟩
  lineShift        := cfg.lineShift
  setBits          := cfg.setBits
  allocation       := cfg.allocation
  lineShift_lt     := cfg.lineShift_lt

variable {cfg : CacheConfig}

def CacheConfig.way (cfg : CacheConfig) (i : Fin (cfg.tagsLastIndex + 1)) :
    Fin cfg.params.maxAssociativity :=
  i.castLE cfg.tags_lt

-- The tags in use.
def WaySet.active (s : WaySet cfg.params) : RoundRobin cfg.tagsLastIndex where
  tags             := fun i => s.tags (cfg.way i)
  nextReplaceIndex := ⟨s.nextReplaceIndex.val, Nat.lt_succ_of_le s.next_le⟩

def WayCache.active (c : WayCache cfg.params) : Cache cfg where
  sets   := fun i => (c.sets i).active
  counts := c.counts

end Pin
