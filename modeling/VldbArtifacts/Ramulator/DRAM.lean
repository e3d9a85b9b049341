import VldbArtifacts.Ramulator.DDR4

-- The tree of channel, ranks, bank groups and banks, with the state and the timing of each node
-- (ramulator/src/DRAM.h, and the tables of functions in DDR4.cpp).

namespace Ramulator

open DDR4

-- The assertions of DRAM.h, Scheduler.h, Refresh.h and Controller.h that depend on the state.
inductive Failure
  | otherNode         -- assert(id == addr[int(level)])
  | negativeRequests  -- assert(cur_serving_requests >= 0)
  | neverServed       -- assert(begin_of_serving != -1)
  | firstRequest      -- assert(delta == -1)
  | rowNotInTable     -- assert(match != table.end())
  | otherRowInTable   -- assert(match->second.row == row)
  | noRowClosed       -- assert(n_rm > 0)
  | refreshRejected   -- assert(res)
  | commandNotReady   -- assert(is_ready(cmd, addr_vec))
  deriving DecidableEq, Repr

-- `vector<int> addr_vec`: an index for each level, -1 where there is none.
abbrev AddrVec := List Int

def AddrVec.at (addr : AddrVec) (level : Level) : Int :=
  addr.getD level.toNat (-1)

-- The members of `DRAM` that a modelled function reads, besides the children. `rowState` holds the keys of
-- `row_state`, which maps all of them to `Opened`.
structure Node where
  id                 : Nat
  rankState          : RankState := .powerUp
  bankState          : BankState := .closed
  rowState           : List Int := []
  clock              : Timing.Clock Command
  curServingRequests : Int := 0
  beginOfServing     : Int := -1

-- The part of `update_timing` that concerns one node: it is a target of the command, or merely a sibling of one.
def Node.updateTiming (n : Node) (spec : DDR4) (level : Level) (cmd : Command) (addr : AddrVec) (clk : Int) : Node :=
  let entries := spec.timing level cmd
  if (n.id : Int) ≠ addr.at level then { n with clock := n.clock.besides entries clk }
  else { n with clock := n.clock.target entries cmd clk }

-- A node with `h` levels of nodes below it: rows and columns are no nodes.
def DRAM : Nat → Type
  | 0     => Node
  | h + 1 => Node × List (DRAM h)

namespace DRAM

def level : Nat → Level
  | 0 => .bank
  | 1 => .bankGroup
  | 2 => .rank
  | _ => .channel

def mk {h : Nat} (n : Node) (children : List (DRAM h)) : DRAM (h + 1) :=
  (n, children)

def node : {h : Nat} → DRAM h → Node
  | 0, n     => n
  | _ + 1, d => d.1

def children {h : Nat} (d : DRAM (h + 1)) : List (DRAM h) :=
  d.2

def setNode : {h : Nat} → DRAM h → Node → DRAM h
  | 0, _, n     => n
  | _ + 1, d, n => mk n d.children

-- The constructor, with the identifier that the parent assigns.
def new (spec : DDR4) : (h : Nat) → Nat → DRAM h
  | 0, id     => { id, clock := .init (spec.timing .bank) }
  | h + 1, id => mk { id, clock := .init (spec.timing (level (h + 1))) }
                   ((List.range (spec.orgEntry.count (level h))).map (new spec h))

def allClosed (rank : DRAM 2) : Bool :=
  rank.children.all fun group => group.children.all fun bank => bank.node.bankState = .closed

-- `prereq`: the command that has to come before another one at a node, if there is one. The table has entries
-- for ranks and banks only, and those of `WR` are those of `RD`.
def rankPrereq (rank : DRAM 2) : Command → Option Command
  | .rd | .wr =>
    match rank.node.rankState with
    | .powerUp                      => none
    | .actPowerDown | .prePowerDown => some .pdx
    | .selfRefresh                  => some .srx
  | .ref      => if rank.allClosed then some .ref else some .prea
  | .pde      =>
    match rank.node.rankState with
    | .selfRefresh => some .srx
    | _            => some .pde
  | .sre      =>
    match rank.node.rankState with
    | .actPowerDown | .prePowerDown => some .pdx
    | _                             => some .sre
  | _         => none

def bankPrereq (bank : Node) (cmd : Command) (row : Int) : Option Command :=
  if cmd = .rd ∨ cmd = .wr then
    match bank.bankState with
    | .closed => some .act
    | .opened => if row ∈ bank.rowState then some cmd else some .pre
  else none

def prereq : {h : Nat} → DRAM h → Command → Int → Option Command
  | 2, rank, cmd, _   => rank.rankPrereq cmd
  | 0, bank, cmd, row => bankPrereq bank.node cmd row
  | _, _, _, _        => none

-- `rowhit` and `rowopen`, which have entries for banks only.
def rowhit : {h : Nat} → DRAM h → Command → Int → Option Bool
  | 0, bank, cmd, row =>
    if cmd = .rd ∨ cmd = .wr then some (bank.node.bankState = .opened ∧ row ∈ bank.node.rowState) else none
  | _, _, _, _ => none

def rowopen : {h : Nat} → DRAM h → Command → Int → Option Bool
  | 0, bank, cmd, _ => if cmd = .rd ∨ cmd = .wr then some (bank.node.bankState = .opened) else none
  | _, _, _, _      => none

-- `lambda`: what a command does to the state of a rank or a bank.
def close (bank : Node) : Node :=
  { bank with bankState := .closed, rowState := [] }

def rankLambda (rank : DRAM 2) : Command → DRAM 2
  | .prea       =>
    mk rank.node (rank.children.map fun group =>
      mk group.node (group.children.map fun bank => bank.setNode (close bank.node)))
  | .pde        =>
    rank.setNode { rank.node with rankState := if rank.allClosed then .prePowerDown else .actPowerDown }
  | .pdx | .srx => rank.setNode { rank.node with rankState := .powerUp }
  | .sre        => rank.setNode { rank.node with rankState := .selfRefresh }
  | _           => rank

def bankLambda (bank : Node) : Command → Int → Node
  | .act, row                     => { bank with bankState := .opened, rowState := bank.rowState.insert row }
  | .pre, _ | .rda, _ | .wra, _ => close bank
  | _, _                          => bank

def lambda : {h : Nat} → DRAM h → Command → Int → DRAM h
  | 2, rank, cmd, _   => rank.rankLambda cmd
  | 0, bank, cmd, row => bank.setNode (bankLambda bank.node cmd row)
  | _, d, _, _        => d

-- The child that a command goes to; there is none where the index is -1.
def child {h : Nat} (d : DRAM (h + 1)) (addr : AddrVec) : Option (DRAM h) :=
  if addr.at (level h) < 0 then none else d.children[(addr.at (level h)).toNat]?

def decode : {h : Nat} → DRAM h → Command → AddrVec → Command
  | 0, d, cmd, addr     => (d.prereq cmd (addr.at .row)).getD cmd
  | h + 1, d, cmd, addr =>
    match d.prereq cmd (addr.at (level h)), d.child addr with
    | some c, _      => c
    | none, none     => cmd
    | none, some sub => sub.decode cmd addr

def isReady (n : Node) (cmd : Command) (clk : Int) : Bool :=
  n.clock.next cmd = -1 || n.clock.next cmd ≤ clk

def check : {h : Nat} → DRAM h → Command → AddrVec → Int → Bool
  | 0, d, cmd, _, clk        => isReady d.node cmd clk
  | h + 1, d, cmd, addr, clk =>
    isReady d.node cmd clk &&
      if level (h + 1) = scope cmd then true
      else match d.child addr with
        | none     => true
        | some sub => sub.check cmd addr clk

def checkRowHit : {h : Nat} → DRAM h → Command → AddrVec → Bool
  | 0, d, cmd, addr     => (d.rowhit cmd (addr.at .row)).getD false
  | h + 1, d, cmd, addr =>
    match d.rowhit cmd (addr.at (level h)), d.child addr with
    | some b, _      => b
    | none, none     => false
    | none, some sub => sub.checkRowHit cmd addr

def checkRowOpen : {h : Nat} → DRAM h → Command → AddrVec → Bool
  | 0, d, cmd, addr     => (d.rowopen cmd (addr.at .row)).getD false
  | h + 1, d, cmd, addr =>
    match d.rowopen cmd (addr.at (level h)), d.child addr with
    | some b, _      => b
    | none, none     => false
    | none, some sub => sub.checkRowOpen cmd addr

def updateState : {h : Nat} → DRAM h → Command → AddrVec → DRAM h
  | 0, d, cmd, addr     => d.lambda cmd (addr.at .row)
  | h + 1, d, cmd, addr =>
    let d := d.lambda cmd (addr.at (level h))
    if level (h + 1) = scope cmd then d
    else mk d.node (d.children.modify (addr.at (level h)).toNat fun sub => sub.updateState cmd addr)

def updateTiming (spec : DDR4) : {h : Nat} → DRAM h → Command → AddrVec → Int → DRAM h
  | 0, d, cmd, addr, clk     => d.setNode (d.node.updateTiming spec .bank cmd addr clk)
  | h + 1, d, cmd, addr, clk =>
    mk (d.node.updateTiming spec (level (h + 1)) cmd addr clk)
      (if (d.node.id : Int) ≠ addr.at (level (h + 1)) then d.children
      else d.children.map fun sub => sub.updateTiming spec cmd addr clk)

def update (spec : DDR4) {h : Nat} (d : DRAM h) (cmd : Command) (addr : AddrVec) (clk : Int) : DRAM h :=
  (d.updateState cmd addr).updateTiming spec cmd addr clk

end DRAM

-- The part of `update_serving_requests` that concerns one node, without the statistics.
def Node.serve (n : Node) (delta clk : Int) : Except Failure Node :=
  let n := { n with curServingRequests := n.curServingRequests + delta }
  if n.curServingRequests < 0 then .error .negativeRequests
  else if delta = 1 ∧ n.curServingRequests = 1 then .ok { n with beginOfServing := clk }
  else if n.curServingRequests = 0 then
    if n.beginOfServing = -1 then .error .neverServed
    else if delta ≠ -1 then .error .firstRequest
    else .ok n
  else .ok n

def DRAM.updateServingRequests : {h : Nat} → DRAM h → AddrVec → Int → Int → Except Failure (DRAM h)
  | 0, d, addr, delta, clk     => do
    if (d.node.id : Int) ≠ addr.at .bank then .error .otherNode
    let n ← d.node.serve delta clk
    return d.setNode n
  | h + 1, d, addr, delta, clk => do
    if (d.node.id : Int) ≠ addr.at (level (h + 1)) then .error .otherNode
    let n ← d.node.serve delta clk
    match d.child addr with
    | none     => return d.setNode n
    | some sub =>
      let sub ← sub.updateServingRequests addr delta clk
      return mk n (d.children.set (addr.at (level h)).toNat sub)

end Ramulator
