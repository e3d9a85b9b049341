import VldbArtifacts.Hyrise.Trace
import VldbArtifacts.Pin.Cache

-- source/tools/Memory/dcache_hyrise.cpp: the tool that records the misses of a cache.

namespace Pin

-- A line `%d,R,0x%lx,%d` of the trace.
structure Record where
  gap   : UInt32
  type  : Hyrise.AccessType
  addr  : Nat
  asize : Nat
  deriving DecidableEq, Repr

inductive TraceLine
  | startROI | endROI
  | access (r : Record)
  deriving DecidableEq, Repr

structure Tool (cfg : CacheConfig) where
  dl1                   : Cache cfg
  profile               : Nat → Bool → UInt64
  isROI                 : Bool
  numInsBetweenMisses   : UInt32
  trace                 : List TraceLine

-- A call of one of the functions that `Instruction` inserts, without the name of the routine.
inductive Callback
  | loadMulti   (addr size instId asize : Nat)
  | storeMulti  (addr size instId asize : Nat)
  | loadSingle  (addr instId asize : Nat)
  | storeSingle (addr instId asize : Nat)
  deriving DecidableEq, Repr

namespace Callback

def addr : Callback → Nat
  | loadMulti a _ _ _ | storeMulti a _ _ _ | loadSingle a _ _ | storeSingle a _ _ => a

def size : Callback → Nat
  | loadMulti _ s _ _ | storeMulti _ s _ _ | loadSingle _ _ s | storeSingle _ _ s => s

def accessType : Callback → AccessType
  | loadMulti .. | loadSingle .. => .load
  | storeMulti .. | storeSingle .. => .store

-- The function that `Instruction` calls for an operand that is read or written.
def ofOperand (type : AccessType) (addr size instId : Nat) : Callback :=
  let single := size ≤ 4
  match type with
  | .load  => if single then loadSingle addr instId size else loadMulti addr size instId size
  | .store => if single then storeSingle addr instId size else storeMulti addr size instId size

end Callback

inductive Event
  | startROI | stopROI
  | instruction (isMemoryRead isMemoryWrite : Bool)
  | call (c : Callback)
  deriving DecidableEq, Repr

namespace Tool

variable {cfg : CacheConfig}

def init : Tool cfg where
  dl1                 := .init
  profile             := fun _ _ => 0
  isROI               := false
  numInsBetweenMisses := 0
  trace               := []

def startROI (t : Tool cfg) : Tool cfg :=
  { t with isROI := true, trace := t.trace ++ [.startROI] }

def stopROI (t : Tool cfg) : Tool cfg :=
  { t with isROI := false, trace := t.trace ++ [.endROI] }

-- What the four functions do when the cache has answered. They differ in the letter that they print.
def log (t : Tool cfg) (letter : Hyrise.AccessType) (addr instId asize : Nat) (dl1Hit : Bool) : Tool cfg :=
  let counters := Function.update (t.profile instId) dl1Hit (t.profile instId dl1Hit + 1)
  let t := { t with profile := Function.update t.profile instId counters }
  if dl1Hit then
    { t with numInsBetweenMisses := t.numInsBetweenMisses + 1 }
  else if !t.isROI then
    t
  else
    { t with
      numInsBetweenMisses := 0
      trace := t.trace ++ [.access ⟨t.numInsBetweenMisses, letter, addr, asize⟩] }

def loadMulti (t : Tool cfg) (addr size instId asize : Nat) : Option (Tool cfg) := do
  let (dl1Hit, dl1) ← t.dl1.access addr size .load
  return ({ t with dl1 } : Tool cfg).log .R addr instId asize dl1Hit

def storeMulti (t : Tool cfg) (addr size instId asize : Nat) : Option (Tool cfg) := do
  let (dl1Hit, dl1) ← t.dl1.access addr size .store
  return ({ t with dl1 } : Tool cfg).log .W addr instId asize dl1Hit

def loadSingle (t : Tool cfg) (addr instId asize : Nat) : Tool cfg :=
  let (dl1Hit, dl1) := t.dl1.accessSingleLine addr .load
  ({ t with dl1 } : Tool cfg).log .R addr instId asize dl1Hit

-- The letter is that of a load.
def storeSingle (t : Tool cfg) (addr instId asize : Nat) : Tool cfg :=
  let (dl1Hit, dl1) := t.dl1.accessSingleLine addr .store
  ({ t with dl1 } : Tool cfg).log .R addr instId asize dl1Hit

-- `Instruction` when the code of an instruction is prepared. It is counted if it has no memory operand.
def instruction (t : Tool cfg) (isMemoryRead isMemoryWrite : Bool) : Tool cfg :=
  if !isMemoryRead && !isMemoryWrite then
    { t with numInsBetweenMisses := t.numInsBetweenMisses + 1 }
  else
    t

def call (t : Tool cfg) : Callback → Option (Tool cfg)
  | .loadMulti addr size instId asize  => t.loadMulti addr size instId asize
  | .storeMulti addr size instId asize => t.storeMulti addr size instId asize
  | .loadSingle addr instId asize      => some (t.loadSingle addr instId asize)
  | .storeSingle addr instId asize     => some (t.storeSingle addr instId asize)

def step (t : Tool cfg) : Event → Option (Tool cfg)
  | .startROI        => some t.startROI
  | .stopROI         => some t.stopROI
  | .instruction r w => some (t.instruction r w)
  | .call c          => t.call c

-- A run in which every call returns.
def run (t : Tool cfg) (es : List Event) : Option (Tool cfg) :=
  es.foldlM step t

def records (t : Tool cfg) : List Record :=
  t.trace.filterMap fun
    | .access r => some r
    | _         => none

-- The call of an event that is made inside the region of interest, with the cache that it finds.
def roiCall (t : Tool cfg) : Event → List (Cache cfg × Callback)
  | .call c => if t.isROI then [(t.dl1, c)] else []
  | _       => []

def roiCalls (t : Tool cfg) : List Event → List (Cache cfg × Callback)
  | []      => []
  | e :: es => t.roiCall e ++ ((t.step e).elim [] fun t => t.roiCalls es)

end Tool

namespace Callback

variable {cfg : CacheConfig}

-- The letter for the direction of the access.
def direction (c : Callback) : Hyrise.AccessType :=
  match c.accessType with
  | .load  => .R
  | .store => .W

def IsStoreSingle : Callback → Prop
  | storeSingle .. => True
  | _              => False

instance : DecidablePred IsStoreSingle
  | loadMulti .. | storeMulti .. | loadSingle .. => isFalse id
  | storeSingle ..                               => isTrue trivial

-- What the cache answers to the function, and what it is then.
def lookUp (c : Callback) (dl1 : Cache cfg) : Option (Bool × Cache cfg) :=
  match c with
  | loadMulti addr size _ _  => dl1.access addr size .load
  | storeMulti addr size _ _ => dl1.access addr size .store
  | loadSingle addr _ _      => some (dl1.accessSingleLine addr .load)
  | storeSingle addr _ _     => some (dl1.accessSingleLine addr .store)

def misses (c : Callback) (dl1 : Cache cfg) : Bool :=
  (c.lookUp dl1).any fun r => !r.1

end Callback

-- The calls inside the region of interest that miss.
def Tool.missedCalls {cfg : CacheConfig} (t : Tool cfg) (es : List Event) : List Callback :=
  ((t.roiCalls es).filter fun p => p.2.misses p.1).map Prod.snd

-- The lines of the bytes of an access.
def CacheConfig.lines (cfg : CacheConfig) (addr size : Nat) : List Nat :=
  List.range' (cfg.tag addr) (cfg.tag (addr + (size - 1)) + 1 - cfg.tag addr)

-- The lines that are fetched when an access goes over some lines.
def Cache.fetches {cfg : CacheConfig} (type : AccessType) : Cache cfg → List Nat → List Nat
  | _, []          => []
  | c, line :: lines =>
    (if c.holds line then [] else [line]) ++ fetches type (c.touch type line) lines

namespace Callback

variable {cfg : CacheConfig}

def fetched (c : Callback) (dl1 : Cache cfg) : List Nat :=
  dl1.fetches c.accessType (cfg.lines c.addr c.size)

-- The cache has the lines behind the first one when the access comes to them.
def RestHeld (c : Callback) (dl1 : Cache cfg) : Prop :=
  ∀ line ∈ (cfg.lines c.addr c.size).tail, (dl1.touch c.accessType (cfg.tag c.addr)).holds line

instance (c : Callback) (dl1 : Cache cfg) : Decidable (c.RestHeld dl1) :=
  inferInstanceAs (Decidable (∀ line ∈ _, _))

end Callback

end Pin
