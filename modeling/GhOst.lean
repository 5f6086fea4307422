import GhOst.Infra.Steps
import GhOst.Infra.Keyed
import GhOst.Infra.Replica
import GhOst.Sql.Types
import GhOst.Sql.Builder
import GhOst.Sql.Server
import GhOst.Binlog.DMLEvent
import GhOst.Logic.Applier
import GhOst.Logic.Retry
import GhOst.Properties.Retry
import GhOst.Logic.CopyReplay
import GhOst.Properties.Statements
import GhOst.Properties.Convergence
import GhOst.Properties.UniqueIndexes
import GhOst.Logic.Resume
import GhOst.Properties.Resume
import GhOst.Binlog.Reader
import GhOst.Logic.Streamer
import GhOst.Properties.Reconnect
import GhOst.Logic.Pipeline
import GhOst.Properties.Watermark
import GhOst.Properties.Delivery
import GhOst.Logic.CutOver
import GhOst.Properties.CutOver
import GhOst.Properties.Channels
import GhOst.Properties.Progress
import GhOst.Logic.PanicOnWarnings
import GhOst.Properties.PanicOnWarnings
import GhOst.Logic.Inspect
import GhOst.Sql.Values
import GhOst.Logic.Tables
import GhOst.Properties.Inspect
import GhOst.Properties.Values
import GhOst.Properties.WritePaths
import GhOst.Logic.EventsUpToLock
import GhOst.Properties.EventsUpToLock
import GhOst.Logic.Attempts
import GhOst.Properties.Attempts
import GhOst.Properties.Verdict
import GhOst.Logic.Abort
import GhOst.Properties.Abort
import GhOst.Properties.AbortObserved
import GhOst.Logic.TwoStep
import GhOst.Properties.TwoStep
import GhOst.Properties.Triggers
import GhOst.Logic.SharedKeys
import GhOst.Properties.SharedKeys
import GhOst.Sql.Ranges
import GhOst.Infra.Sorted
import GhOst.Properties.Ranges
import GhOst.Logic.RowCopy
import GhOst.Properties.RowCopy
import GhOst.Properties.Coverage
import GhOst.Properties.Addressing
import GhOst.Properties.RangeEnd
import GhOst.Properties.TwoColumns
import GhOst.Infra.Strconv
import GhOst.Sql.Comparisons
import GhOst.Properties.Comparisons
import GhOst.Binlog.StreamEvents
import GhOst.Properties.Framing
import GhOst.Logic.ApplyEvents
import GhOst.Properties.Batching
import GhOst.Logic.AlterStatement
import GhOst.Properties.SharedColumns
import GhOst.Properties.Revert
import GhOst.Infra.Regexp
import GhOst.Logic.Warnings
import GhOst.Properties.Warnings
import GhOst.Logic.RejectedWrites
import GhOst.Properties.RejectedWrites
import GhOst.Properties.AlterTokens
import GhOst.Logic.Throttler
import GhOst.Properties.ControlReplicas
import GhOst.Properties.Hibernation
import GhOst.Properties.ThrottleSources
import GhOst.Properties.DMLBuilders
import GhOst.Binlog.Turns
import GhOst.Properties.FilePositions
import GhOst.Infra.Streak
import GhOst.Properties.GTIDCoordinates
import GhOst.Properties.ReconnectLimit
import GhOst.Properties.NewestSentinel
import GhOst.Logic.Checkpoints
import GhOst.Properties.CheckpointTable
import GhOst.Infra.RegexpMatches
import GhOst.Properties.AlterPrefix
import GhOst.Properties.ColumnLists
import GhOst.Properties.FileOrder
import GhOst.Base.LoadMap
import GhOst.Properties.LoadMaps
import GhOst.Logic.InstanceKeys
import GhOst.Properties.InstanceKeys
import GhOst.Infra.Follow
import GhOst.Logic.MasterDiscovery
import GhOst.Properties.MasterDiscovery
import GhOst.Properties.AlterSplit
import GhOst.Base.TableNames
import GhOst.Properties.TableNames
import GhOst.Logic.Server
import GhOst.Properties.ServerCommands
import GhOst.Logic.Postpone
import GhOst.Properties.Postpone
import GhOst.Properties.AlterPhrases
import GhOst.Properties.AlterRead
import GhOst.Logic.TableRuns
import GhOst.Properties.TableRuns
