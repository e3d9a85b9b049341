import VldbArtifacts.CXLSim.Action

-- The life of a request as a sequence of stamps, and what has to lie between two of them.

namespace CXL

-- The stamps in the order in which they are set.
def MsgTiming.stamps (t : MsgTiming) : List Int :=
  [t.tickCreated, t.tickPacked, t.tickTransmitted, t.tickSwitchDsRx, t.tickSwitchDsTx, t.tickReceived,
    t.tickUnpacked, t.tickAtRamulator, t.tickRamulatorComplete, t.tickRepacked, t.tickRetransmitted,
    t.tickSwitchUsRx, t.tickSwitchUsTx, t.tickRespReceived, t.tickRespUnpacked, t.tickReqComplete]

def MsgTiming.stamp (t : MsgTiming) (i : Nat) : Int :=
  t.stamps.getD i 0

def TimeField.index : TimeField → Nat
  | tickPacked        => 1
  | tickTransmitted   => 2
  | tickSwitchDsRx    => 3
  | tickSwitchDsTx    => 4
  | tickReceived      => 5
  | tickUnpacked      => 6
  | tickRepacked      => 9
  | tickRetransmitted => 10
  | tickSwitchUsRx    => 11
  | tickSwitchUsTx    => 12
  | tickRespReceived  => 13
  | tickRespUnpacked  => 14

-- The stamp from which a message waits to be packed.
def Dir.start : Dir → Nat
  | m2s => 0
  | s2m => 8

-- The stamps `i` and `i + 1` of a message may be `a` and `b`: time does not run backwards, and the delay
-- that is configured for the step has passed. A bus takes exactly its latency.
def Config.Spaced {n : Nat} (cfg : Config n) (i : Nat) (a b : Int) : Prop :=
  a ≤ b ∧ match i with
  | 0 | 8           => a + cfg.params.delayVcToPack ≤ b
  | 1 | 9           => a + cfg.params.delayTxBufToBus ≤ b
  | 2 | 4 | 10 | 12 => a + cfg.params.cxlBusTotalLatency = b
  | 3 | 11          => a + (2 * cfg.params.delayCxlPortSwitch + cfg.params.delayCxlNocSwitch) ≤ b
  | 5 | 13          => a + cfg.params.delayRxBufToUnpack ≤ b
  | 6               => a + cfg.params.delayVcToRamulator ≤ b
  | 14              => a + cfg.params.delayVcToRetire ≤ b
  | _               => True

-- The first `k` steps of the message took the time they have to.
def MsgTiming.Timely {n : Nat} (cfg : Config n) (k : Nat) (t : MsgTiming) : Prop :=
  ∀ i < k, cfg.Spaced i (t.stamp i) (t.stamp (i + 1))

namespace CXLSystem

variable {n : Nat} {cfg : Config n} {M : Memory}

-- The call does not set `curr_tick` back.
def NotBack (s : CXLSystem cfg M) (a : Action n) : Prop :=
  s.currTick ≤ a.tick?.getD s.currTick

instance (s : CXLSystem cfg M) (a : Action n) : Decidable (s.NotBack a) :=
  inferInstanceAs (Decidable (_ ≤ _))

-- `curr_tick` never decreases along the calls.
def IsMonotone (trace : List Char) (cfg : Config n) (M : Memory) (as : List (Action n)) : Prop :=
  Admits NotBack (init trace : CXLSystem cfg M) as

-- No jump in the first `k` rounds of the loop goes back.
def NeverJumpsBack (b : Build) (trace : List Char) (k : Nat) (cfg : Config n) (M : Memory) : Prop :=
  ∀ j < k, ∀ s s' : CXLSystem cfg M, (init trace).run b j = .ok s → s.updateOthers b = .ok s' →
    s'.currTick ≤ s'.jumpTick b

end CXLSystem

end CXL
