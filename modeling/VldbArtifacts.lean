import VldbArtifacts.Lib.Except
import VldbArtifacts.CXLSim.Flit
import VldbArtifacts.CXLSim.Buf
import VldbArtifacts.CXLSim.Params
import VldbArtifacts.CXLSim.Bus
import VldbArtifacts.CXLSim.Memory
import VldbArtifacts.CXLSim.Packer
import VldbArtifacts.CXLSim.Unpacker
import VldbArtifacts.CXLSim.Device
import VldbArtifacts.CXLSim.Host
import VldbArtifacts.CXLSim.Switch
import VldbArtifacts.CXLSim.System
import VldbArtifacts.CXLSim.Sender
import VldbArtifacts.CXLSim.Theorems.Packer
import VldbArtifacts.CXLSim.Action
import VldbArtifacts.CXLSim.Theorems.Run
import VldbArtifacts.CXLSim.Receiver
import VldbArtifacts.CXLSim.Theorems.Unpacker
import VldbArtifacts.CXLSim.Net
import VldbArtifacts.CXLSim.Theorems.Hop
import VldbArtifacts.CXLSim.Theorems.Device
import VldbArtifacts.CXLSim.Theorems.Host
import VldbArtifacts.CXLSim.Theorems.Refinement
import VldbArtifacts.CXLSim.Ledger
import VldbArtifacts.CXLSim.Theorems.Ledger
import VldbArtifacts.CXLSim.Theorems.Stages
import VldbArtifacts.CXLSim.Theorems.Data
import VldbArtifacts.CXLSim.Theorems.Quiet
import VldbArtifacts.Hyrise.Isolate
import VldbArtifacts.Hyrise.Theorems.Trace
import VldbArtifacts.Hyrise.Theorems.Isolate
import VldbArtifacts.Hyrise.Remap
import VldbArtifacts.Hyrise.Theorems.Remap
import VldbArtifacts.Hyrise.Counter
import VldbArtifacts.Hyrise.Theorems.Counter
import VldbArtifacts.Hyrise.Theorems.JobCounter
import VldbArtifacts.Hyrise.Interleave
import VldbArtifacts.Hyrise.Theorems.Interleave
import VldbArtifacts.CXLSim.Theorems.Failures
import VldbArtifacts.CXLSim.Theorems.Backpressure
import VldbArtifacts.Lib.RoundRobin
import VldbArtifacts.CXLSim.Theorems.Responses
import VldbArtifacts.CXLSim.Theorems.Idle
import VldbArtifacts.CXLSim.Theorems.Time
import VldbArtifacts.CXLSim.Theorems.Finish
import VldbArtifacts.CXLSim.Theorems.Timeline
import VldbArtifacts.Hyrise.QueryPlan
import VldbArtifacts.Hyrise.RemapJob
import VldbArtifacts.Hyrise.Theorems.AccessCounts
import VldbArtifacts.Hyrise.Theorems.RemapJob
import VldbArtifacts.Pin.Cache
import VldbArtifacts.Pin.DCache
import VldbArtifacts.Pin.Theorems.Cache
import VldbArtifacts.Pin.Theorems.DCache
import VldbArtifacts.CXLSim.Theorems.BusTiming
import VldbArtifacts.CXLSim.Theorems.Issue
import VldbArtifacts.CXLSim.Theorems.MemoryOrder
import VldbArtifacts.Lib.Tally
import VldbArtifacts.CXLSim.Results
import VldbArtifacts.CXLSim.Theorems.Results
import VldbArtifacts.Hyrise.Segments
import VldbArtifacts.Hyrise.Theorems.Segments
import VldbArtifacts.CXLSim.Ports
import VldbArtifacts.CXLSim.Theorems.Ports
import VldbArtifacts.Hyrise.Coalesce
import VldbArtifacts.Hyrise.IsolateMt
import VldbArtifacts.Hyrise.Partition
import VldbArtifacts.Hyrise.Theorems.Coalesce
import VldbArtifacts.Hyrise.Theorems.IgnoredNodes
import VldbArtifacts.Hyrise.Theorems.IsolateMt
import VldbArtifacts.Hyrise.Theorems.Partition
import VldbArtifacts.Hyrise.LogicalPlan
import VldbArtifacts.Hyrise.PhysicalPlan
import VldbArtifacts.Hyrise.Theorems.LogicalPlan
import VldbArtifacts.Hyrise.Theorems.PhysicalPlan
import VldbArtifacts.CXLSim.Theorems.Sequence
import VldbArtifacts.Hyrise.Theorems.Visualizer
import VldbArtifacts.Pin.Eviction
import VldbArtifacts.Pin.Theorems.Eviction
import VldbArtifacts.Pin.Execution
import VldbArtifacts.Pin.Theorems.Execution
import VldbArtifacts.Hyrise.Theorems.TreeEditDistance
import VldbArtifacts.CXLSim.Skip
import VldbArtifacts.CXLSim.Theorems.Skip
import VldbArtifacts.CXLSim.Theorems.SkipCycle
import VldbArtifacts.CXLSim.Credits
import VldbArtifacts.CXLSim.Theorems.Capacity
import VldbArtifacts.Lib.BitFields
import VldbArtifacts.Lib.TimingTable
import VldbArtifacts.Ramulator.Controller
import VldbArtifacts.Ramulator.Memory
import VldbArtifacts.Ramulator.Protocol
import VldbArtifacts.Ramulator.Run
import VldbArtifacts.Ramulator.Theorems.Controller
import VldbArtifacts.Ramulator.Theorems.Guarantees
import VldbArtifacts.Ramulator.Theorems.Refinement
