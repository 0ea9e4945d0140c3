import MacTypeControl.Acl.Access
import MacTypeControl.Acl.Harden
import MacTypeControl.Acl.Owner
import MacTypeControl.Crash.Logic
import MacTypeControl.Crash.Zoom
import MacTypeControl.Editor.ReadBack
import MacTypeControl.Events.EventLog
import MacTypeControl.Events.Reading
import MacTypeControl.Events.Retained
import MacTypeControl.Events.Sanitize
import MacTypeControl.Execution.Designated
import MacTypeControl.Execution.Runtime
import MacTypeControl.Generations.OwnedRemoval
import MacTypeControl.Generations.PartialRemoval
import MacTypeControl.Generations.Removal
import MacTypeControl.Generations.Retention
import MacTypeControl.Generations.Store
import MacTypeControl.Host.CleanStop
import MacTypeControl.Host.Driver
import MacTypeControl.Host.EndedSession
import MacTypeControl.Host.EtwObserver
import MacTypeControl.Host.Health
import MacTypeControl.Host.HelperBroker
import MacTypeControl.Host.HelperTrust
import MacTypeControl.Host.Lifecycle
import MacTypeControl.Host.QueueAccounts
import MacTypeControl.Host.SessionEventQueue
import MacTypeControl.Host.Sticky
import MacTypeControl.Host.StopOnRequest
import MacTypeControl.Injection.Cancellation
import MacTypeControl.Injection.Capacity
import MacTypeControl.Injection.History
import MacTypeControl.Injection.Invariant
import MacTypeControl.Injection.NoneLost
import MacTypeControl.Injection.Once
import MacTypeControl.Injection.Orchestrator
import MacTypeControl.Injector.ModuleInventory
import MacTypeControl.Injector.RemoteInjection
import MacTypeControl.Injector.Result
import MacTypeControl.Installer.Activation
import MacTypeControl.Installer.BoundRecovery
import MacTypeControl.Installer.Deployment
import MacTypeControl.Installer.Generation
import MacTypeControl.Installer.Repair
import MacTypeControl.Installer.RepairConvergence
import MacTypeControl.Installer.RepairReceipts
import MacTypeControl.Installer.RepairRecovery
import MacTypeControl.Installer.RepairedBridge
import MacTypeControl.Installer.RepairedProfile
import MacTypeControl.Integration.LegacyWatch
import MacTypeControl.Integration.Migration
import MacTypeControl.Integration.NeverBoth
import MacTypeControl.Integration.Publish
import MacTypeControl.Integration.PublishRollback
import MacTypeControl.Legacy.Backup
import MacTypeControl.Legacy.Continuation
import MacTypeControl.Legacy.Control
import MacTypeControl.Legacy.ControlLogic
import MacTypeControl.Legacy.Receipt
import MacTypeControl.Legacy.Scm
import MacTypeControl.Legacy.Stages
import MacTypeControl.Legacy.Transaction
import MacTypeControl.Legacy.Undisturbed
import MacTypeControl.Profile.Validation
import MacTypeControl.ProfileStore.Interrupted
import MacTypeControl.ProfileStore.Operations
import MacTypeControl.ProfileStore.Recovery
import MacTypeControl.ProfileStore.Store
import MacTypeControl.Protection.Ownership
import MacTypeControl.Protection.Rollback
import MacTypeControl.Protection.Storage
import MacTypeControl.Relay.Classification
import MacTypeControl.Relay.Injection
import MacTypeControl.Relay.Obligation
import MacTypeControl.Platform.ModulePath
import MacTypeControl.Platform.ModulePresence
import MacTypeControl.Platform.PathSpelling
import MacTypeControl.Relay.SameTargets
import MacTypeControl.Startup.Artifacts
import MacTypeControl.Startup.Custody
import MacTypeControl.Startup.Receipt
import MacTypeControl.Startup.Removal
import MacTypeControl.Startup.Rerun
import MacTypeControl.Startup.Snapshot
import MacTypeControl.Storage.Bridge
import MacTypeControl.Storage.BridgeLogic
import MacTypeControl.Storage.Machine
import MacTypeControl.Tables.Folder
import MacTypeControl.Tables.Slots
import MacTypeControl.Calls.Partial
import MacTypeControl.Host.HelperLauncher
import MacTypeControl.Host.HelperConfinement
import MacTypeControl.Processes.Table
import MacTypeControl.Scm.StopService
import MacTypeControl.Scm.StoppedProcess
import MacTypeControl.Execution.AppliedRuntime
import MacTypeControl.Injector.BrokerRequest
import MacTypeControl.Injector.FixedInjection
import MacTypeControl.Json.Flat
import MacTypeControl.Host.HelperProtocol
import MacTypeControl.Events.MixedWriters
import MacTypeControl.Events.MixedRuns
import MacTypeControl.Events.MixedRecords
import MacTypeControl.Preview.Frames
import MacTypeControl.Preview.HelperLoop
import MacTypeControl.Preview.HelperRuns
import MacTypeControl.Preview.HelperRequests
import MacTypeControl.Preview.RequestRuns
import MacTypeControl.Preview.FrameStreams
import MacTypeControl.Host.Backlog
import MacTypeControl.Host.EventLogger
import MacTypeControl.Host.SummaryAccounts
import MacTypeControl.Json.Strings
import MacTypeControl.Broker.ResultFrame
import MacTypeControl.Broker.ReportedFailures
import MacTypeControl.Editor.Codec
import MacTypeControl.Editor.Lines
import MacTypeControl.Editor.Document
import MacTypeControl.Editor.Lossless
import MacTypeControl.Editor.Settings
import MacTypeControl.Editor.Mutation
import MacTypeControl.Histories.Timeline
import MacTypeControl.Editor.History
import MacTypeControl.Editor.CleanState
import MacTypeControl.Editor.Readings
import MacTypeControl.Text.Trimming
import MacTypeControl.Editor.ScalarEdits
import MacTypeControl.Editor.ListEdits
import MacTypeControl.Injection.LaunchBound
import MacTypeControl.Text.Marking
import MacTypeControl.Events.SanitizedText
import MacTypeControl.Events.NonceRuns
import MacTypeControl.Events.NoLeak
import MacTypeControl.Host.ThrottleWindow
import MacTypeControl.Profile.Catalog
import MacTypeControl.Text.Utf8Bytes
import MacTypeControl.Profile.TextEncodings
import MacTypeControl.Profile.EncodingAgreement
import MacTypeControl.Installer.FailedRepair
import MacTypeControl.Generations.RetentionBound
import MacTypeControl.Host.HealthFile
import MacTypeControl.Host.KeptWorld
import MacTypeControl.Json.Tree
import MacTypeControl.Host.HealthFormat
import MacTypeControl.Host.HealthLifecycle
import MacTypeControl.Editor.Advanced
import MacTypeControl.Json.Grammar
import MacTypeControl.Preview.JsonDocument
import MacTypeControl.Preview.JsonReading
import MacTypeControl.Preview.JsonAcceptance
import MacTypeControl.Preview.JsonLookups
import MacTypeControl.Json.PrintedGrammar
import MacTypeControl.Preview.Requests
import MacTypeControl.Preview.RequestAgreement
import MacTypeControl.Platform.BoundedRead
import MacTypeControl.Platform.CommandLine
import MacTypeControl.Broker.TransferFrame
import MacTypeControl.Broker.TransferPipe
import MacTypeControl.Broker.TransferExactness
import MacTypeControl.Platform.ScmResponse
import MacTypeControl.Acl.DaclBytes
import MacTypeControl.Acl.DaclExactness
import MacTypeControl.Preview.NativeWindow
import MacTypeControl.Preview.WholeRequests
import MacTypeControl.Preview.NativeRuns
import MacTypeControl.Engine.Tokenizer
import MacTypeControl.Engine.Settings
import MacTypeControl.Engine.EditorAgreement
import MacTypeControl.Engine.GlyphRuns
import MacTypeControl.Generations.RuntimePins
import MacTypeControl.Generations.Uninstall
import MacTypeControl.Host.ProfileRuntime
import MacTypeControl.ProfileStore.Register
import MacTypeControl.Host.ServedProfile
import MacTypeControl.Execution.Loader
