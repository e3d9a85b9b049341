import VldbArtifacts.CXLSim.Flit

-- Bounded buffers and the assertions of the simulator (include/CXLBuf.h, include/utils.h).

namespace CXL

-- The buffers an `enqueue` may find full.
inductive BufName
  | hostM2SReq | hostM2SRwd | hostS2MNdr | hostS2MDrs | hostTx | hostRx | textToTrace
  | deviceM2SReq | deviceM2SRwd | deviceS2MNdr | deviceS2MDrs | deviceTx | deviceRx
  | upstreamTx | upstreamRx | downstreamTx | downstreamRx | arbNocH2D | arbNocD2H
  deriving DecidableEq, Repr

-- The assertions, one constructor for each text, and the two ways the program ends without one: an
-- exception of `stoul` and the dereference of the null pointer `DAM`.
inductive Failure
  | addingToFullBuffer (b : BufName)
  | busSizeExceeded
  | stagnantFlit
  | addingToFullBus
  | overflowRamulatorBuffer
  | reqNotInMessagesInRamulator
  | ramulatorCallbackUnknown
  | unknownInputMessage
  | ramulatorSideStall
  | rxSideStall
  | singleFlitDifferentDevices
  | rolloverOutOfRange
  | rolloverRuleViolated
  | packingRuleViolated
  | headerBeforeData
  | dataNotExpected
  | illegalSlotType
  | responseUnknownRequest
  | illegalMessageType
  | unknownRoundRobinState
  | packerRolloverIllegal
  | packerPackingRuleViolated
  | reqCredNotZero
  | rspCredNotZero
  | rspCredOutOfRange
  | reqCredOutOfRange
  | dataCredOutOfRange
  | sequenceThresholdViolated
  | extCredsUnknownDevice
  | invalidAddress
  | incorrectStringSplitting
  | illegalOpcode
  | stoulException
  | nullDAM
  deriving DecidableEq, Repr

abbrev Sim := Except Failure

def assert (p : Prop) [Decidable p] (e : Failure) : Sim Unit :=
  if p then .ok () else .error e

-- A call that is left out under some condition.
def skipIf {α : Type} (p : Prop) [Decidable p] (a : α) (x : Sim α) : Sim α :=
  if p then .ok a else x

-- Round robin between two channels: the second is only tried if the first has nothing.
def firstOf {α : Type} (x y : Sim (Option α)) : Sim (Option α) := do
  match ← x with
  | some a => return some a
  | none   => y

-- A `CXLBuf` never holds more than its size. The size is fixed when the buffer is constructed.
structure CXLBuf (size : Nat) (α : Type) where
  q            : List α
  occupancy_le : q.length ≤ size

namespace CXLBuf

variable {size : Nat} {α : Type}

instance : EmptyCollection (CXLBuf size α) where
  emptyCollection := ⟨[], Nat.zero_le _⟩

def isBufFull (b : CXLBuf size α) : Bool :=
  b.q.length == size

def isBufEmpty (b : CXLBuf size α) : Bool :=
  b.q.isEmpty

def enqueue (name : BufName) (b : CXLBuf size α) (f : α) : Sim (CXLBuf size α) :=
  if h : b.q.length = size then
    .error (.addingToFullBuffer name)
  else
    .ok ⟨b.q ++ [f], by
      have := b.occupancy_le
      simp only [List.length_append, List.length_singleton]
      omega⟩

-- `q_.pop_front()`. The callers check that the buffer is not empty, usually by looking at its head.
def dequeue (b : CXLBuf size α) : CXLBuf size α where
  q            := b.q.tail
  occupancy_le := by
    have := b.occupancy_le
    simp only [List.length_tail]
    omega

theorem enqueue_q {name : BufName} {b b' : CXLBuf size α} {f : α} (h : b.enqueue name f = .ok b') :
    b'.q = b.q ++ [f] := by
  unfold enqueue at h
  split at h
  case isTrue  => contradiction
  case isFalse => exact congrArg CXLBuf.q (Except.ok.inj h) |>.symm

end CXLBuf

end CXL
