import QueryHost.Act
import QueryHost.Assoc
import QueryHost.Failure
import QueryHost.Cache.Chunk
import QueryHost.Cache.Lru
import QueryHost.Cache.Page
import QueryHost.Cache.Recency
import QueryHost.Cache.Result
import QueryHost.Cache.Segment
import QueryHost.Client.Idle
import QueryHost.Cluster.Brokers
import QueryHost.Cluster.Heartbeat
import QueryHost.Cluster.StoragePolicy
import QueryHost.Config
import QueryHost.Decimal.Binary64
import QueryHost.Decimal.Shortest
import QueryHost.Decimal.Numeral
import QueryHost.Disk.Layout
import QueryHost.Disk.Links
import QueryHost.Disk.Path
import QueryHost.Disk.System
import QueryHost.Disk.Tree
import QueryHost.Host.Blueprint
import QueryHost.Host.Building
import QueryHost.Host.CommandLine
import QueryHost.Host.ConfigFile
import QueryHost.Host.Construction
import QueryHost.Host.Environment
import QueryHost.Host.Launch
import QueryHost.Host.Memory
import QueryHost.Host.Premises
import QueryHost.Host.Resources
import QueryHost.Host.Shutdown
import QueryHost.Host.Status
import QueryHost.Host.Subsystem
import QueryHost.Load.Channels
import QueryHost.Load.Pipe
import QueryHost.Load.Routine
import QueryHost.Load.Streams
import QueryHost.Log
import QueryHost.LogFilter
import QueryHost.Machine.Cgroups
import QueryHost.Machine.Facts
import QueryHost.Main
import QueryHost.Memory.Accounts
import QueryHost.Memory.AllocationHook
import QueryHost.Memory.Budget
import QueryHost.Memory.Heap
import QueryHost.Memory.Tracker
import QueryHost.Metrics
import QueryHost.Metrics.Board
import QueryHost.OsError
import QueryHost.Pipeline.Queue
import QueryHost.Pipeline.Scheduler
import QueryHost.Pipeline.Script
import QueryHost.Proofs.AssocRows
import QueryHost.Proofs.Calls
import QueryHost.Proofs.PoolBalance
import QueryHost.Proofs.RecencyOrder
import QueryHost.Query.Expiry
import QueryHost.Query.Fragments
import QueryHost.Query.Receivers
import QueryHost.Query.ResultBuffers
import QueryHost.Query.ResultQueues
import QueryHost.Query.ScanContexts
import QueryHost.Query.ThreadShares
import QueryHost.Scope
import QueryHost.Session
import QueryHost.Storage.LoadPaths
import QueryHost.Storage.SmallFiles
import QueryHost.Storage.Spill
import QueryHost.Storage.TmpFiles
import QueryHost.Text.Digits
import QueryHost.Text.Digest
import QueryHost.Text.Decode
import QueryHost.Text.Printable
import QueryHost.Threads.Download
import QueryHost.Threads.Fixed
import QueryHost.Threads.Gates
import QueryHost.Threads.Pool
import QueryHost.Threads.Rehearsal
import QueryHost.Threads.Rest
import QueryHost.Threads.Scanner
import QueryHost.Threads.Tokens
import QueryHost.Toml.Document
import QueryHost.Toml.Scalar
import QueryHost.Toml.Value
import QueryHost.UniqueId
import QueryHost.Wire.Arguments
import QueryHost.Wire.Decode
import QueryHost.Wire.Encode
import QueryHost.Wire.Handler
import QueryHost.Wire.Onsite
import QueryHost.Wire.Rehearsal
import QueryHost.Wire.Series
import QueryHost.Word
import QueryHost.Proofs.LruShards
import QueryHost.Proofs.BufferDeadlines
import QueryHost.Proofs.BufferEnds
import QueryHost.Proofs.TrackerSums
import QueryHost.Proofs.ResultPruning
import QueryHost.Proofs.FixedPools
import QueryHost.Proofs.RoutinePlaces
import QueryHost.Proofs.LoadFinality
import QueryHost.Proofs.TrackerUsers
import QueryHost.Proofs.ChunkAccounts
import QueryHost.Proofs.TokenRuns
import QueryHost.Proofs.TokenOrder
import QueryHost.Proofs.TokenAcceptance
import QueryHost.Proofs.DiskActs
import QueryHost.Proofs.Constructions
import QueryHost.Proofs.HostLife
import QueryHost.Proofs.ConstructionTwins
import QueryHost.Proofs.FailedInit
import QueryHost.Proofs.PoolRuns
import QueryHost.Proofs.BufferPackets
import QueryHost.Proofs.PipelinePlaces
import QueryHost.Proofs.ClosedPools
import QueryHost.Proofs.PipeChunks
import QueryHost.Proofs.LoadSections
import QueryHost.Proofs.LoadEndings
import QueryHost.Proofs.LruCaches
import QueryHost.Proofs.HookActs
import QueryHost.Proofs.HookTurns
import QueryHost.Proofs.StaleHooks
import QueryHost.Proofs.TokenTasks
import QueryHost.Proofs.ScarceThreads
import QueryHost.Proofs.ScarceCallers
import QueryHost.Proofs.DownloadRuns
import QueryHost.Proofs.DiskPaths
import QueryHost.Proofs.DiskTrees
import QueryHost.Proofs.DiskSteps
import QueryHost.Proofs.SparedFiles
import QueryHost.Proofs.HostFiles
import QueryHost.Proofs.SmallFileNames
import QueryHost.Proofs.SmallFileVersions
import QueryHost.Proofs.LinkedTrees
import QueryHost.Proofs.SmallFileIndex
import QueryHost.Proofs.GatheringTrackers
import QueryHost.Proofs.LoadMemory
import QueryHost.Proofs.SpillPlaces
import QueryHost.Proofs.SpillSteps
import QueryHost.Proofs.SpillRecovery
import QueryHost.Proofs.PageCaches
import QueryHost.Proofs.ClientReuse
import QueryHost.Proofs.SmallFileRestarts
import QueryHost.Proofs.ScratchPaths
import QueryHost.Proofs.FairShares
import QueryHost.Proofs.Registrations
import QueryHost.Proofs.FragmentCancellations
import QueryHost.Proofs.ReceiverRegistrations
import QueryHost.Proofs.QueueItems
import QueryHost.Proofs.HalvedBudgets
import QueryHost.Proofs.CounterRegistrations
import QueryHost.Proofs.SegmentLoads
import QueryHost.Proofs.TaskSteals
import QueryHost.Proofs.WrittenNumbers
import QueryHost.Proofs.BudgetTexts
import QueryHost.Proofs.WordBits
import QueryHost.Proofs.ChunkReserves
import QueryHost.Proofs.NearestNumbers
import QueryHost.Proofs.Percentages
import QueryHost.Proofs.ResultWords
import QueryHost.Proofs.IdTexts
import QueryHost.Proofs.CommandLines
import QueryHost.Proofs.TmpFileNames
import QueryHost.Proofs.FirstFailures
