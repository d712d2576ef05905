import DumpCollector.Lib.Runs
import DumpCollector.Lib.Effects
import DumpCollector.Lib.Maps
import DumpCollector.Lib.Directory
import DumpCollector.Requests
import DumpCollector.FileNames
import DumpCollector.DumpNames
import DumpCollector.JsonText
import DumpCollector.Inotify
import DumpCollector.Lib.LittleEndian
import DumpCollector.Lib.Hex
import DumpCollector.Lib.Loops
import DumpCollector.Lib.Simulation
import DumpCollector.EventBytes
import DumpCollector.Entries
import DumpCollector.State
import DumpCollector.Dispatch
import DumpCollector.Bmc.Manager
import DumpCollector.System.Manager
import DumpCollector.Fdr.Manager
import DumpCollector.FaultLog.Manager
import DumpCollector.Decoding
import DumpCollector.Frames
import DumpCollector.Bmc.Capture
import DumpCollector.Lib.Sums
import DumpCollector.Bmc.Rotation
import DumpCollector.Bmc.Steps
import DumpCollector.Steps
import DumpCollector.Slots
import DumpCollector.Rotation
import DumpCollector.System.Steps
import DumpCollector.FaultLog.Steps
import DumpCollector.Fdr.Steps
import DumpCollector.EmptySlots
import DumpCollector.WatchPaths
import DumpCollector.Bmc.Isolation
import DumpCollector.Nsm.NetDump
import DumpCollector.Nsm.Retrieval
import DumpCollector.Nsm.Termination
import DumpCollector.Nsm.Addressing
import DumpCollector.FaultLog.Rotation
import DumpCollector.FaultLog.Decoders
import DumpCollector.FaultLog.Documents
import DumpCollector.Refusals
import DumpCollector.System.Collectors
import DumpCollector.System.Exclusion
import DumpCollector.Children
import DumpCollector.System.InProgress
import DumpCollector.Bmc.Confluence
import DumpCollector.Bmc.WatchProtocol
import DumpCollector.Bmc.Progress
import DumpCollector.Bmc.UserDumps
import DumpCollector.Bmc.Atomicity
import DumpCollector.Keys
import DumpCollector.Limits
import DumpCollector.Restore
import DumpCollector.Bmc.Restore
import DumpCollector.Bmc.Recall
import DumpCollector.Bmc.Deserialization
import DumpCollector.Counter
import DumpCollector.FaultLog.Restoration
import DumpCollector.Deletion
import DumpCollector.Bmc.Documents
import DumpCollector.Bmc.Restart
import DumpCollector.System.Restart
import DumpCollector.System.AllowedSize
import DumpCollector.System.DebugMode
import DumpCollector.Lib.Truncation
import DumpCollector.ProgressTimer
import DumpCollector.Lib.Firsts
import DumpCollector.Templates
import DumpCollector.Offload
import DumpCollector.Elog.Watch
import DumpCollector.Elog.Serialization
import DumpCollector.Elog.Histories
import DumpCollector.Elog.ErrorTypes
import DumpCollector.Elog.Paths
import DumpCollector.Batches
import DumpCollector.Core.Manager
import DumpCollector.Dreport.Plugins
import DumpCollector.Dreport.Size
import DumpCollector.Dreport.Outputs
import DumpCollector.Dreport.Check
import DumpCollector.Dreport.Package
import DumpCollector.Lib.Globs
import DumpCollector.Lib.Words
import DumpCollector.Dreport.Args
import DumpCollector.CreateDump.Call
import DumpCollector.CreateDump.Server
import DumpCollector.OpenPower.Manager
import DumpCollector.OpenPower.Notify
import DumpCollector.OpenPower.Pending
import DumpCollector.OpenPower.Resource
import DumpCollector.OpenPower.ResourceRuns
import DumpCollector.Lib.Sweep
import DumpCollector.OpenPower.DeleteAll
import DumpCollector.Dreport.Header
import DumpCollector.Nsm.Polling
import DumpCollector.Retention
import DumpCollector.FileHandle
import DumpCollector.ProcessGroups
import DumpCollector.Lib.Refinement
import DumpCollector.Lifecycle
import DumpCollector.Lives
import DumpCollector.CreateDump.Processing
import DumpCollector.CreateDump.Waiting
import DumpCollector.Lib.Traces
import DumpCollector.CreateDump.Sessions
import DumpCollector.CreateDump.Copies
import DumpCollector.CreateDump.Managed
import DumpCollector.Lib.Getopt
import DumpCollector.Dreport.Options
import DumpCollector.Dreport.Invocation
import DumpCollector.Bmc.Launch
import DumpCollector.System.Launch
import DumpCollector.Dreport.Endings
import DumpCollector.Bmc.Monitors
import DumpCollector.Fdr.Launch
import DumpCollector.FaultLog.Launch
