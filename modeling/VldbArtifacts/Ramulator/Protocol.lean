import VldbArtifacts.Ramulator.Controller

-- What a DRAM expects of the commands it gets, stated for a trace of commands alone. The last command of a
-- trace comes first.

namespace Ramulator

open DDR4

namespace Issue

-- The indices of the bank and of the rank that a command goes to.
def bank (i : Issue) : List Int :=
  i.addr.take 4

def rank (i : Issue) : List Int :=
  i.addr.take 2

-- The row that is open in a bank.
def openRow (bank : List Int) : List Issue → Option Int
  | []      => none
  | i :: is =>
    match i.cmd with
    | .act               => if i.bank = bank then some (i.addr.at .row) else openRow bank is
    | .pre | .rda | .wra => if i.bank = bank then none else openRow bank is
    | .prea              => if i.rank = bank.take 2 then none else openRow bank is
    | _                  => openRow bank is

-- A bank is activated when it is closed, precharged when it is open, and accessed in the row that is open.
-- All the banks of a rank are precharged together when one of them is open, and refreshed when none is.
def Legal (is : List Issue) (i : Issue) : Prop :=
  match i.cmd with
  | .act      => openRow i.bank is = none
  | .pre      => (openRow i.bank is).isSome
  | .rd | .wr => openRow i.bank is = some (i.addr.at .row)
  | .prea     => ∃ bank, bank.take 2 = i.rank ∧ (openRow bank is).isSome
  | .ref      => ∀ bank, bank.take 2 = i.rank → openRow bank is = none
  | _         => False

-- A command keeps the timing parameters of each level down to its scope: with regard to the commands that
-- went to the same part of that level, and to the siblings of that part.
structure Timely (spec : DDR4) (is : List Issue) (i : Issue) : Prop where
  target  : ∀ level, level.toNat ≤ (scope i.cmd).toNat → ∀ cmd, ∀ t ∈ spec.timing level cmd, t.cmd = i.cmd →
    t.sibling = false →
      ∀ j ∈ (is.filter fun j => j.cmd = cmd ∧
          j.addr.take (level.toNat + 1) = i.addr.take (level.toNat + 1)).drop (t.dist - 1),
        j.clk + t.val ≤ i.clk
  sibling : ∀ level, level.toNat ≤ (scope i.cmd).toNat → ∀ cmd, ∀ t ∈ spec.timing level cmd, t.cmd = i.cmd →
    t.sibling = true →
      ∀ j ∈ is, j.cmd = cmd → j.addr.take level.toNat = i.addr.take level.toNat →
        j.addr.take (level.toNat + 1) ≠ i.addr.take (level.toNat + 1) → j.clk + t.val ≤ i.clk

end Issue

end Ramulator
