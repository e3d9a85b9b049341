import VldbArtifacts.Pin.DCache

-- source/tools/Memory/dcache_hyrise.cpp under Pin: `Instruction` is called when the code of an instruction is
-- translated, the functions that it inserts are called whenever the instruction is executed.

namespace Pin

structure Operand where
  isRead    : Bool
  isWritten : Bool
  size      : Nat
  deriving DecidableEq, Repr

-- An instruction of the program, with the id that `profile` maps its address to.
structure Ins where
  address  : Nat
  instId   : Nat
  operands : List Operand
  deriving DecidableEq, Repr

namespace Ins

def isMemoryRead (ins : Ins) : Bool :=
  ins.operands.any (·.isRead)

def isMemoryWrite (ins : Ins) : Bool :=
  ins.operands.any (·.isWritten)

def isMemory (ins : Ins) : Bool :=
  ins.isMemoryRead || ins.isMemoryWrite

-- The calls of an execution, given the addresses of the operands. An operand that is both read and written is
-- processed twice.
def calls (ins : Ins) (addrs : List Nat) : List Callback :=
  (ins.operands.zip addrs).flatMap fun (op, addr) =>
    (if op.isRead then [.ofOperand .load addr op.size ins.instId] else []) ++
      (if op.isWritten then [.ofOperand .store addr op.size ins.instId] else [])

end Ins

-- A step of the program: the instructions that Pin translates to go on, and the one that is executed.
inductive Step
  | startROI | stopROI
  | execute (translated : List Ins) (ins : Ins) (addrs : List Nat)
  deriving DecidableEq, Repr

namespace Step

def events : Step → List Event
  | startROI                     => [.startROI]
  | stopROI                      => [.stopROI]
  | execute translated ins addrs =>
    translated.map (fun i => .instruction i.isMemoryRead i.isMemoryWrite) ++ (ins.calls addrs).map .call

-- Every instruction is translated once, before it is executed.
def TranslatedFirst : List Ins → List Step → Prop
  | _,    []                                  => True
  | done, execute translated ins _ :: steps   =>
    (done ++ translated).Nodup ∧ ins ∈ done ++ translated ∧ TranslatedFirst (done ++ translated) steps
  | done, _ :: steps                          => TranslatedFirst done steps

end Step

structure Execution where
  steps           : List Step
  translatedFirst : Step.TranslatedFirst [] steps

namespace Tool

variable {cfg : CacheConfig}

def execute (t : Tool cfg) (s : Step) : Option (Tool cfg) :=
  t.run s.events

def runSteps (t : Tool cfg) (steps : List Step) : Option (Tool cfg) :=
  steps.foldlM execute t

end Tool

-- What the records should say: `count` instructions were executed since the last record that did not miss.
structure GapCount (cfg : CacheConfig) where
  dl1   : Cache cfg
  isROI : Bool
  count : Nat
  gaps  : List Nat

namespace GapCount

variable {cfg : CacheConfig}

def init : GapCount cfg where
  dl1   := .init
  isROI := false
  count := 0
  gaps  := []

def access (g : GapCount cfg) (c : Callback) : Option (Bool × GapCount cfg) := do
  let (hit, dl1) ← c.lookUp g.dl1
  if hit || !g.isROI then
    return (hit, { g with dl1 })
  else
    return (hit, { g with dl1, count := 0, gaps := g.gaps ++ [g.count] })

-- The accesses of an instruction, and whether all of them hit.
def accesses : GapCount cfg → List Callback → Option (Bool × GapCount cfg)
  | g, []      => some (true, g)
  | g, c :: cs => do
    let (hit, g) ← g.access c
    let (allHit, g) ← g.accesses cs
    return (hit && allHit, g)

def step (g : GapCount cfg) : Step → Option (GapCount cfg)
  | .startROI            => some { g with isROI := true }
  | .stopROI             => some { g with isROI := false }
  | .execute _ ins addrs => do
    let (allHit, g) ← g.accesses (ins.calls addrs)
    return if allHit then { g with count := g.count + 1 } else g

def run (g : GapCount cfg) (steps : List Step) : Option (GapCount cfg) :=
  steps.foldlM step g

end GapCount

variable {cfg : CacheConfig}

-- What the cache answers to one access after another.
def Cache.answers : Cache cfg → List Callback → List Bool
  | _,   []      => []
  | dl1, c :: cs => (c.lookUp dl1).elim [] fun r => r.1 :: r.2.answers cs

-- What the step adds to the counter of the tool is what it should add: the instructions without memory
-- operands that are translated and the hits are one if the instruction does not miss, and none otherwise.
def Step.Counted (dl1 : Cache cfg) : Step → Prop
  | .startROI | .stopROI           => True
  | .execute translated ins addrs =>
    translated.countP (!·.isMemory) + (dl1.answers (ins.calls addrs)).count true =
      if (dl1.answers (ins.calls addrs)).all id then 1 else 0

instance (dl1 : Cache cfg) : DecidablePred (Step.Counted dl1)
  | .startROI | .stopROI => isTrue trivial
  | .execute ..          => inferInstanceAs (Decidable (_ = _))

def Tool.allCounted : Tool cfg → List Step → Bool
  | _, []         => true
  | t, s :: steps => decide (s.Counted t.dl1) && (t.execute s).all fun t => t.allCounted steps

end Pin
