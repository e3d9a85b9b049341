import VldbArtifacts.Ramulator.DRAM
import VldbArtifacts.Lib.Except

-- The memory controller of a channel (ramulator/src/Controller.h, Scheduler.h, Refresh.h).

namespace Ramulator

open DDR4

-- `Request.h`. Refresh requests have no address of their own and are never called back.
structure Request extends CXL.Request where
  isFirstCommand : Bool := true
  addrVec        : AddrVec
  arrive         : Int := -1
  depart         : Int := -1

-- A request of which a command is issued.
def Request.begun (req : Request) : Request :=
  { req with isFirstCommand := false }

-- `RowTable`: the open rows, by the indices of their banks.
structure RowTable.Entry where
  row       : Int
  hits      : Nat
  timestamp : Int

structure RowTable where
  table : List (List Int × RowTable.Entry) := []

namespace RowTable

def rowgroup (addr : AddrVec) : List Int :=
  addr.take Level.row.toNat

def find (t : RowTable) (group : List Int) : Option Entry :=
  (t.table.find? (·.1 = group)).map (·.2)

-- `map::insert` leaves an entry that is there.
def insert (t : RowTable) (group : List Int) (e : Entry) : RowTable :=
  if (t.find group).isSome then t else ⟨(group, e) :: t.table⟩

def modify (t : RowTable) (group : List Int) (f : Entry → Entry) : RowTable :=
  ⟨t.table.map fun (g, e) => if g = group then (g, f e) else (g, e)⟩

def access (t : RowTable) (addr : AddrVec) (clk : Int) : Except Failure RowTable :=
  match t.find (rowgroup addr) with
  | none   => .error .rowNotInTable
  | some e =>
    if e.row ≠ addr.at .row then .error .otherRowInTable
    else .ok (t.modify (rowgroup addr) fun e => { e with hits := e.hits + 1, timestamp := clk })

def close (t : RowTable) (cmd : Command) (addr : AddrVec) : Except Failure RowTable :=
  let scope := if isAccessing cmd then Level.row.toNat - 1 else (scope cmd).toNat
  let rest := t.table.filter fun (g, _) => addr.take (scope + 1) ≠ g.take (scope + 1)
  if rest.length = t.table.length then .error .noRowClosed else .ok ⟨rest⟩

def update (t : RowTable) (cmd : Command) (addr : AddrVec) (clk : Int) : Except Failure RowTable := do
  let t := if isOpening cmd then t.insert (rowgroup addr) ⟨addr.at .row, 0, clk⟩ else t
  let t ← if isAccessing cmd then t.access addr clk else .ok t
  if isClosing cmd then t.close cmd addr else .ok t

def getHits (t : RowTable) (addr : AddrVec) (toOpenedRow : Bool) : Nat :=
  match t.find (rowgroup addr) with
  | none   => 0
  | some e => if ¬toOpenedRow ∧ e.row ≠ addr.at .row then 0 else e.hits

end RowTable

-- A command of the trace that the controller can print.
structure Issue where
  cmd  : Command
  addr : AddrVec
  clk  : Int
  deriving DecidableEq

inductive Scheduler.Type
  | fcfs | frfcfs | frfcfsCap | frfcfsPriorHit
  deriving DecidableEq, Repr

structure Scheduler where
  type : Scheduler.Type := .frfcfsCap
  cap  : Nat := 16

structure Refresh where
  clk       : Int := 0
  refreshed : Int := 0

-- The high and the low watermark are kept in tenths. The row policy is `Opened`: no other one is ever set.
structure Controller where
  clk             : Int := 0
  channel         : DRAM 3
  scheduler       : Scheduler := {}
  rowtable        : RowTable := {}
  refresh         : Refresh := {}
  readq           : List Request := []
  writeq          : List Request := []
  actq            : List Request := []
  otherq          : List Request := []
  pending         : List Request := []
  writeMode       : Bool := false
  wrHighWatermark : Nat := 8
  wrLowWatermark  : Nat := 2

inductive Queue
  | readq | writeq | actq | otherq
  deriving DecidableEq, Repr

def Queue.max : Nat := 32

namespace Controller

def queue (c : Controller) : Queue → List Request
  | .readq  => c.readq
  | .writeq => c.writeq
  | .actq   => c.actq
  | .otherq => c.otherq

def setQueue (c : Controller) : Queue → List Request → Controller
  | .readq, q  => { c with readq := q }
  | .writeq, q => { c with writeq := q }
  | .actq, q   => { c with actq := q }
  | .otherq, q => { c with otherq := q }

def new (spec : DDR4) (scheduler : Scheduler) (id : Nat) : Controller :=
  { channel := .new spec 3 id, scheduler }

def getQueue : CXL.Request.Type → Queue
  | .read    => .readq
  | .write   => .writeq
  | .refresh => .otherq

-- A read of an address that a write in the write queue has is served without an access.
def enqueue (c : Controller) (req : Request) : Bool × Controller :=
  let queue := getQueue req.type
  if (c.queue queue).length = Queue.max then (false, c)
  else
    let req := { req with arrive := c.clk }
    if req.type = .read ∧ c.writeq.any (fun wreq => req.addr = wreq.addr) then
      (true, { c with pending := c.pending ++ [{ req with depart := c.clk + 1 }] })
    else
      (true, c.setQueue queue (c.queue queue ++ [req]))

def getFirstCmd (c : Controller) (req : Request) : Command :=
  c.channel.decode (translate req.type) req.addrVec

def isReadyCmd (c : Controller) (cmd : Command) (addr : AddrVec) : Bool :=
  c.channel.check cmd addr c.clk

def isReady (c : Controller) (req : Request) : Bool :=
  c.isReadyCmd (c.getFirstCmd req) req.addrVec

def isRowHit (c : Controller) (req : Request) : Bool :=
  c.channel.checkRowHit (translate req.type) req.addrVec

def isRowOpen (c : Controller) (req : Request) : Bool :=
  c.channel.checkRowOpen (translate req.type) req.addrVec

-- The policies compare two requests by a flag first and by the time of their arrival then.
def favours (c : Controller) : Scheduler.Type → Request → Bool
  | .fcfs, _             => false
  | .frfcfs, req         => c.isReady req
  | .frfcfsCap, req      => c.isReady req && c.rowtable.getHits req.addrVec false ≤ c.scheduler.cap
  | .frfcfsPriorHit, req => c.isReady req && c.isRowHit req

def compare (c : Controller) (type : Scheduler.Type) (req₁ req₂ : Request × Nat) : Request × Nat :=
  let ready₁ := c.favours type req₁.1
  let ready₂ := c.favours type req₂.1
  if ready₁ ^^ ready₂ then
    if ready₁ then req₁ else req₂
  else if req₁.1.arrive ≤ req₂.1.arrive then req₁
  else req₂

-- The bank of a request, which `PRE` closes.
def bankOf (req : Request) : List Int :=
  req.addrVec.take ((scope .pre).toNat + 1)

-- The next command of a request closes a row that another request of the queue hits.
def violatesHit (c : Controller) (q : List Request) (req : Request) : Bool :=
  !c.isRowHit req && c.isRowOpen req && q.any fun hit => c.isRowHit hit && bankOf req = bankOf hit

-- The request that the scheduler chooses from a queue and its place there.
def getHead (c : Controller) (q : List Request) : Option (Request × Nat) :=
  match q.zipIdx with
  | []      => none
  | r :: rs =>
    let head := rs.foldl (c.compare c.scheduler.type) r
    if c.scheduler.type ≠ .frfcfsPriorHit then some head
    else if c.isReady head.1 && c.isRowHit head.1 then some head
    else match (r :: rs).filter fun req => !c.violatesHit q req.1 with
      | []      => none
      | r :: rs => some (rs.foldl (c.compare .frfcfs) r)

-- `refresh_target`.
def refreshTarget (c : Controller) (rank bank sa : Int) : Except Failure Controller :=
  let addrVec := [(c.channel.node.id : Int), rank, bank, sa, -1, -1]
  match c.enqueue { addr := 0, type := .refresh, reqId := 0, addrVec } with
  | (true, c)  => .ok c
  | (false, _) => .error .refreshRejected

-- `inject_refresh(true)`: all the ranks of the channel.
def injectRefresh (c : Controller) : Except Failure Controller := do
  let c ← c.channel.children.foldlM (fun c rank => c.refreshTarget rank.node.id (-1) (-1)) c
  return { c with refresh := { c.refresh with refreshed := c.refresh.clk } }

def tickRef (spec : DDR4) (c : Controller) : Except Failure Controller :=
  let c := { c with refresh := { c.refresh with clk := c.refresh.clk + 1 } }
  if c.refresh.clk - c.refresh.refreshed ≥ spec.speedEntry.nREFI then c.injectRefresh else .ok c

-- `issue_cmd`. With the row policy `Opened` no command is upgraded to an autoprecharge command.
def issueCmd (spec : DDR4) (c : Controller) (cmd : Command) (addr : AddrVec) : Except Failure Controller := do
  if ¬c.isReadyCmd cmd addr then .error .commandNotReady
  let rowtable ← c.rowtable.update cmd addr c.clk
  return { c with channel := c.channel.update spec cmd addr c.clk, rowtable }

def updateServingRequests (c : Controller) (req : Request) (delta : Int) : Except Failure Controller := do
  let channel ← c.channel.updateServingRequests req.addrVec delta c.clk
  return { c with channel }

-- 1. Serve completed reads: the read that is called back, if there is one.
def serveCompleted (c : Controller) : Except Failure (List Request × Controller) :=
  match c.pending with
  | []          => .ok ([], c)
  | req :: rest =>
    if req.depart ≤ c.clk then do
      let c ← if req.depart - req.arrive > 1 then c.updateServingRequests req (-1) else .ok c
      return ([req], { c with pending := rest })
    else
      .ok ([], c)

-- 3. Should we schedule writes?
def scheduleWrites (c : Controller) : Controller :=
  if ¬c.writeMode then
    if c.writeq.length > c.wrHighWatermark * Queue.max / 10 ∨ c.readq.length = 0 then
      { c with writeMode := true }
    else c
  else
    if c.writeq.length < c.wrLowWatermark * Queue.max / 10 ∧ c.readq.length ≠ 0 then
      { c with writeMode := false }
    else c

-- The command that a queue offers: its head and the first command of it, if that is ready.
structure Choice where
  queue : Queue
  idx   : Nat
  req   : Request
  cmd   : Command

def choose (c : Controller) (queue : Queue) : Option Choice :=
  match c.getHead (c.queue queue) with
  | none            => none
  | some (req, idx) =>
    let cmd := c.getFirstCmd req
    if c.isReadyCmd cmd req.addrVec then some { queue, idx, req, cmd } else none

-- 4. Find the best command to schedule, if any.
def findCommand (c : Controller) : Option Choice :=
  (c.choose .actq).or
    (c.choose (if c.otherq.length ≠ 0 then .otherq else if c.writeMode then .writeq else .readq))

-- The first command of a request.
def beginService (c : Controller) (ch : Choice) : Except Failure Controller :=
  if ch.req.isFirstCommand then
    let c := c.setQueue ch.queue ((c.queue ch.queue).set ch.idx ch.req.begun)
    if ch.req.type = .read ∨ ch.req.type = .write then c.updateServingRequests ch.req 1 else .ok c
  else
    .ok c

def erase (c : Controller) (ch : Choice) : Controller :=
  c.setQueue ch.queue ((c.queue ch.queue).eraseIdx ch.idx)

-- What follows the issue of a command: the request that the activation was for is promoted, and a request is
-- finished by its last command. The write that is called back is returned.
def finishCommand (spec : DDR4) (c : Controller) (ch : Choice) : Except Failure (List Request × Controller) :=
  let req := ch.req.begun
  if ch.cmd ≠ translate ch.req.type then
    if isOpening ch.cmd then
      .ok ([], { c with actq := c.actq ++ [req] }.erase ch)
    else
      .ok ([], c)
  else
    match ch.req.type with
    | .read    => .ok ([], { c with pending := c.pending ++ [{ req with depart := c.clk + spec.readLatency }] }.erase ch)
    | .write   => do
      let c ← c.updateServingRequests req (-1)
      return ([req], c.erase ch)
    | .refresh => .ok ([], c.erase ch)

-- What a tick is seen to do: the requests it calls back and the command it issues.
structure Outcome where
  calledBack : List Request
  issued     : List Issue

def serveCommand (spec : DDR4) (c : Controller) (ch : Choice) : Except Failure (List Request × Controller) := do
  let c ← c.beginService ch
  let c ← c.issueCmd spec ch.cmd ch.req.addrVec
  c.finishCommand spec ch

-- The part of a tick that comes after the refreshes.
def schedule (spec : DDR4) (reads : List Request) (c : Controller) : Except Failure (Outcome × Controller) :=
  let c := c.scheduleWrites
  match c.findCommand with
  | none    => return (⟨reads, []⟩, c)
  | some ch => do
    let (writes, c) ← c.serveCommand spec ch
    return (⟨reads ++ writes, [⟨ch.cmd, ch.req.addrVec, c.clk⟩]⟩, c)

def tick (spec : DDR4) (c : Controller) : Except Failure (Outcome × Controller) := do
  let c := { c with clk := c.clk + 1 }
  let (reads, c) ← c.serveCompleted
  let c ← c.tickRef spec
  c.schedule spec reads

end Controller

end Ramulator
