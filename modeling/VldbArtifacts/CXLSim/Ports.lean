import VldbArtifacts.Lib.Arbiter
import VldbArtifacts.CXLSim.Switch

-- The switch among devices that send whatever they like, and what its arbiter does with it.

namespace CXL

-- A flit reaches the switch, or the switch is updated. Nothing is said about the buses at that time.
inductive SwitchEvent (n busSize : Nat)
  | fromDevice (d : Fin n) (f : Flit)
  | fromHost (f : Flit)
  | update (tick : Int) (busToHost : CXLBus busSize) (busToDevice : Fin n → CXLBus busSize)

namespace SwitchEvent

variable {n busSize : Nat}

-- The flits that reach the switch from device `d`.
def arrivals (d : Fin n) : List (SwitchEvent n busSize) → List Flit
  | []                     => []
  | .fromDevice d' f :: es => if d' = d then f :: arrivals d es else arrivals d es
  | _ :: es                => arrivals d es

-- The event is not one of a tick before `t`.
def IsFrom (t : Int) : SwitchEvent n busSize → Prop
  | .update tick _ _ => t ≤ tick
  | _                => True

end SwitchEvent

namespace CXLSwitch

variable {n busSize : Nat} {cfg : Config n}

def on (b : Build) (s : CXLSwitch cfg) : SwitchEvent n busSize → Sim (CXLSwitch cfg)
  | .fromDevice d f => do
    let buf ← (s.downstreamRx d).enqueue .downstreamRx f
    return { s with downstreamRx := Function.update s.downstreamRx d buf }
  | .fromHost f => do
    return { s with upstreamRx := ← s.upstreamRx.enqueue .upstreamRx f }
  | .update tick busToHost busToDevice => do
    return (← s.update tick b busToHost busToDevice).1

def runs (b : Build) (s : CXLSwitch cfg) (es : List (SwitchEvent n busSize)) : Sim (CXLSwitch cfg) :=
  es.foldlM (on b) s

end CXLSwitch

-- What is expected after a flit.
def Flit.roll (expected : Nat) (f : Flit) : Nat :=
  f.header.slots.foldl CXLSwitch.countRollover expected

-- The head of a queue, if it has waited for `delay`.
def readyAt (delay tick : Int) (q : List Flit) : Option Flit :=
  q.head?.filter (tick - ·.time.timeOfReceipt ≥ delay)

-- The part of the switch that the arbiter works on.
structure Ports (n : Nat) where
  port     : Nat
  expected : Nat
  rx       : Fin n → List Flit
  moved    : List (Fin n × Flit)

def CXLSwitch.ports {n : Nat} {cfg : Config n} (s : CXLSwitch cfg) : Ports n where
  port     := s.currPort
  expected := s.expectedRollover
  rx d     := (s.downstreamRx d).q
  moved    := s.moved

namespace Ports

variable {n : Nat}

inductive Step (delay tick : Int) : Ports n → Ports n → Prop
  | turn {x} :
    x.expected = 0 →
    (∀ h : x.port < n, readyAt delay tick (x.rx ⟨x.port, h⟩) = none) →
    Step delay tick x { x with port := Arbiter.next n x.port }
  | move {x f rest} {d : Fin n} :
    x.port = d.val →
    x.rx d = f :: rest →
    Step delay tick x {
      port     := if f.roll x.expected = 0 then Arbiter.next n x.port else x.port
      expected := f.roll x.expected
      rx       := Function.update x.rx d rest
      moved    := x.moved ++ [(d, f)] }

abbrev Steps (delay tick : Int) : Ports n → Ports n → Prop :=
  Relation.ReflTransGen (Step delay tick)

-- What an event does to the ports.
inductive On {busSize : Nat} (delay : Int) : SwitchEvent n busSize → Ports n → Ports n → Prop
  | fromDevice {x} (d : Fin n) (f : Flit) :
    On delay (.fromDevice d f) x { x with rx := Function.update x.rx d (x.rx d ++ [f]) }
  | fromHost {x} (f : Flit) : On delay (.fromHost f) x x
  | update {x y tick busToHost busToDevice} :
    Steps delay tick x y →
    On delay (.update tick busToHost busToDevice) x y

-- The flits with what is expected after each of them.
def movesFrom (expected : Nat) : List (Fin n × Flit) → List (Arbiter.Move Flit)
  | []           => []
  | (d, f) :: xs => ⟨d, f, f.roll expected⟩ :: movesFrom (f.roll expected) xs

def arbiter (x : Ports n) : Arbiter.State Flit where
  port := x.port
  hold := x.expected
  log  := movesFrom 0 x.moved

end Ports

section Produced

variable {n vcSize bufSize : Nat}

-- What belongs to the packer alone is the same: the flit that it works on, its registers, and the flits
-- that it has made.
structure TxPort.SamePacker {dir : Dir} {σ : Type} (p p' : TxPort dir vcSize bufSize σ) : Prop where
  waiting  : p'.isPackerWaiting = p.isPackerWaiting
  state    : p'.pkr2State = p.pkr2State
  rollover : p'.packerRollover = p.packerRollover
  flit     : p'.flitToPack = p.flitToPack
  lastHdr  : p'.lastHdr = p.lastHdr
  sent     : p'.sent = p.sent

-- The port of a device after calls of `FLIT_packer` at any ticks. Between them, anything may happen to
-- the channels, the credits and the buffer.
inductive Produced (cfg : Config n) : TxPort .s2m vcSize bufSize DeviceFlow → Prop
  | init (flow : DeviceFlow) : Produced cfg (.init flow)
  | between {p p'} : Produced cfg p → p.SamePacker p' → Produced cfg p'
  | pack {p p'} {tick : Int} :
    Produced cfg p →
    p.flitPacker (devicePackerRules cfg) tick = .ok p' →
    Produced cfg p'

end Produced

end CXL
