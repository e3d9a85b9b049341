import VldbArtifacts.CXLSim.Net

-- Where the requests and their responses are. In the abstract system their tags are counted, in the
-- concrete one a stage has the list of the ids that are there.

namespace CXL

open Framing

def Flit.tags (dir : Dir) (f : Flit) : Multiset Tag :=
  (f.singles dir ++ f.hdrs dir).map Message.tag

def flitTags (dir : Dir) (fs : List Flit) : Multiset Tag :=
  (fs.map (Flit.tags dir)).sum

namespace Sender

variable {σ : Type}

def waiting (x : Sender σ) : Multiset Tag :=
  (x.single + x.hdr).map Message.tag

def packing (x : Sender σ) : Multiset Tag :=
  x.frame.messages.map Message.tag

end Sender

namespace Receiver

-- The header whose data has not arrived yet.
def unpacking (u : Receiver) : Multiset Tag :=
  u.deframer.pending.map Message.tag

def arrived (u : Receiver) : Multiset Tag :=
  (u.single ++ u.hdr).map Message.tag

end Receiver

namespace HostNode

variable {n : Nat}

def requests (x : HostNode n) : Multiset Tag :=
  x.tx.waiting + x.tx.packing + flitTags .m2s x.out

def responses (x : HostNode n) : Multiset Tag :=
  flitTags .s2m x.inp + x.rx.unpacking + x.rx.arrived

end HostNode

def DeviceNode.tags (x : DeviceNode) : Multiset Tag :=
  flitTags .m2s x.inp + x.rx.unpacking + x.rx.arrived + x.mem + x.tx.waiting + x.tx.packing +
    flitTags .s2m x.out

def Net.tags {n : Nat} (x : Net n) : Multiset Tag :=
  x.host.requests + ∑ d, (x.dev d).tags + x.host.responses

inductive Stage (n : Nat)
  | hostM2SReq (i : Fin numVc) | hostM2SRwd (i : Fin numVc) | hostPacker | hostTx
  | busFromHost | upstreamRx | arbNocH2D | downstreamTx (d : Fin n) | busToDevice (d : Fin n)
  | deviceRx (d : Fin n) | lastRwdHdr (d : Fin n) | deviceM2SReq (d : Fin n)
  | deviceM2SRwd (d : Fin n) | messagesInRamulator (d : Fin n)
  | deviceS2MNdr (d : Fin n) (i : Fin numVc) | deviceS2MDrs (d : Fin n) (i : Fin numVc)
  | devicePacker (d : Fin n) | deviceTx (d : Fin n) | busFromDevice (d : Fin n)
  | downstreamRx (d : Fin n) | arbNocD2H | upstreamTx | busToHost
  | hostRx | lastDrsHdr | hostS2MNdr | hostS2MDrs

-- The ids of the messages that start in a flit.
def Flit.ids (dir : Dir) (f : Flit) : List Nat :=
  f.slots.filter (fun s => s.type = dir.single ∨ s.type = dir.hdr) |>.map (·.msg.msgId)

def flitIds (dir : Dir) (fs : List Flit) : List Nat :=
  fs.flatMap (Flit.ids dir)

section Ports

variable {dir : Dir} {vcSize bufSize : Nat} {σ : Type}

-- The flit of a packer that is not waiting has been sent.
def TxPort.packerIds (p : TxPort dir vcSize bufSize σ) : List Nat :=
  if p.isPackerWaiting then p.flitToPack.ids dir else []

def RxPort.lastHdrIds (u : RxPort dir vcSize bufSize) : List Nat :=
  if u.unpackerRollover = 0 then [] else [u.lastHdr.msgId]

end Ports

namespace CXLSystem

variable {n : Nat} {cfg : Config n} {M : Memory}

def idsAt (s : CXLSystem cfg M) : Stage n → List Nat
  | .hostM2SReq i          => (s.host.tx.single.vcs i).q.map Message.msgId
  | .hostM2SRwd i          => (s.host.tx.hdr.vcs i).q.map Message.msgId
  | .hostPacker            => s.host.tx.packerIds
  | .hostTx                => flitIds .m2s s.host.tx.txBuffer.q
  | .busFromHost           => flitIds .m2s s.busFromHost.flitSlots
  | .upstreamRx            => flitIds .m2s s.switch.upstreamRx.q
  | .arbNocH2D             => flitIds .m2s s.switch.arbNocH2D.q
  | .downstreamTx d        => flitIds .m2s (s.switch.downstreamTx d).q
  | .busToDevice d         => flitIds .m2s (s.busToDevice d).flitSlots
  | .deviceRx d            => flitIds .m2s (s.devices d).rx.rxBuffer.q
  | .lastRwdHdr d          => (s.devices d).rx.lastHdrIds
  | .deviceM2SReq d        => (s.devices d).rx.single.q.map Message.msgId
  | .deviceM2SRwd d        => (s.devices d).rx.hdr.q.map Message.msgId
  | .messagesInRamulator d => (s.devices d).messagesInRamulator.keys
  | .deviceS2MNdr d i      => ((s.devices d).tx.single.vcs i).q.map Message.msgId
  | .deviceS2MDrs d i      => ((s.devices d).tx.hdr.vcs i).q.map Message.msgId
  | .devicePacker d        => (s.devices d).tx.packerIds
  | .deviceTx d            => flitIds .s2m (s.devices d).tx.txBuffer.q
  | .busFromDevice d       => flitIds .s2m (s.busFromDevice d).flitSlots
  | .downstreamRx d        => flitIds .s2m (s.switch.downstreamRx d).q
  | .arbNocD2H             => flitIds .s2m s.switch.arbNocD2H.q
  | .upstreamTx            => flitIds .s2m s.switch.upstreamTx.q
  | .busToHost             => flitIds .s2m s.busToHost.flitSlots
  | .hostRx                => flitIds .s2m s.host.rx.rxBuffer.q
  | .lastDrsHdr            => s.host.rx.lastHdrIds
  | .hostS2MNdr            => s.host.rx.single.q.map Message.msgId
  | .hostS2MDrs            => s.host.rx.hdr.q.map Message.msgId

end CXLSystem

-- No flit and no message is anywhere in the system, and nobody expects one.
section Quiet

variable {dir : Dir} {vcSize bufSize n : Nat} {σ : Type} {cfg : Config n} {M : Memory}

structure TxPort.Quiet (p : TxPort dir vcSize bufSize σ) : Prop where
  single          : ∀ i, (p.single.vcs i).q = []
  hdr             : ∀ i, (p.hdr.vcs i).q = []
  isPackerWaiting : p.isPackerWaiting = false
  packerRollover  : p.packerRollover = 0
  txBuffer        : p.txBuffer.q = []

structure RxPort.Quiet (u : RxPort dir vcSize bufSize) : Prop where
  single           : u.single.q = []
  hdr              : u.hdr.q = []
  unpackerRollover : u.unpackerRollover = 0
  rxBuffer         : u.rxBuffer.q = []

structure Dram.Quiet (d : Dram M) : Prop where
  inpBuf      : d.inpBuf.buf = []
  stall       : d.stall = false
  outstanding : M.outstanding d.memory = 0

structure CXLDevice.Quiet (d : CXLDevice cfg M) : Prop where
  tx                  : d.tx.Quiet
  rx                  : d.rx.Quiet
  messagesInRamulator : d.messagesInRamulator.entries = []
  dram                : d.dram.Quiet

structure CXLSwitch.Quiet (w : CXLSwitch cfg) : Prop where
  upstreamTx       : w.upstreamTx.q = []
  upstreamRx       : w.upstreamRx.q = []
  downstreamTx     : ∀ d, (w.downstreamTx d).q = []
  downstreamRx     : ∀ d, (w.downstreamRx d).q = []
  arbNocH2D        : w.arbNocH2D.q = []
  arbNocD2H        : w.arbNocD2H.q = []
  expectedRollover : w.expectedRollover = 0

structure CXLSystem.Quiet (s : CXLSystem cfg M) : Prop where
  tx            : s.host.tx.Quiet
  rx            : s.host.rx.Quiet
  dam           : s.dam.Quiet
  devices       : ∀ d, (s.devices d).Quiet
  switch        : s.switch.Quiet
  busToHost     : s.busToHost.flitSlots = []
  busFromHost   : s.busFromHost.flitSlots = []
  busToDevice   : ∀ d, (s.busToDevice d).flitSlots = []
  busFromDevice : ∀ d, (s.busFromDevice d).flitSlots = []

end Quiet

end CXL
