import CloudStore.Interface.Resolution
import CloudStore.Library.RefStore
import CloudStore.Library.TreeFrame
import CloudStore.Model.Server
import CloudStore.Interface.Storage
import CloudStore.Interface.Keys
import CloudStore.Interface.StoreOps
import CloudStore.Interface.FileEffects
import CloudStore.Interface.Calls
import CloudStore.Interface.Handlers
import CloudStore.Interface.ObjectCopy
import CloudStore.Interface.Services
import CloudStore.Interface.Safety
import CloudStore.Analysis.Isolation
import CloudStore.Interface.Effects
import CloudStore.Analysis.NoDangling
import CloudStore.Analysis.Mirror
import CloudStore.Analysis.NoLeak
import CloudStore.Analysis.PathConfinement
import CloudStore.Interface.Startup
import CloudStore.Interface.Playback
import CloudStore.Interface.Sessions
import CloudStore.Analysis.Authentication
import CloudStore.Analysis.Revocation
import CloudStore.Analysis.TransferOwner
import CloudStore.Interface.Framing
import CloudStore.Analysis.FaithfulFraming
import CloudStore.Analysis.ContentAddressing
import CloudStore.Analysis.Snapshot
import CloudStore.Analysis.OneReply
import CloudStore.Analysis.EventThread
import CloudStore.Analysis.FinishUpload
import CloudStore.Analysis.GarbageCollection
import CloudStore.Analysis.OneAccount
import CloudStore.Analysis.PoolConservation
import CloudStore.Analysis.ReadFailure
import CloudStore.Analysis.RenameDirectory
import CloudStore.Analysis.RenameFile
import CloudStore.Analysis.Replacing
import CloudStore.Analysis.ChallengeWindow
import CloudStore.Analysis.NormalForm
import CloudStore.Analysis.IndexedChildren
import CloudStore.Analysis.BoundParameters
import CloudStore.Analysis.ResultColumns
import CloudStore.Analysis.MakeDirectory
import CloudStore.Analysis.RemoveDirectory
import CloudStore.Analysis.SubtreeRemoval
import CloudStore.Analysis.UsablePaths
import CloudStore.Analysis.CompleteListing
import CloudStore.Analysis.PossessionProof
import CloudStore.Analysis.ConcurrentUploads
import CloudStore.Analysis.ChunkBounds
import CloudStore.Analysis.PreparedConnection
import CloudStore.Analysis.ConfigNumbers
import CloudStore.Analysis.HandleBalance
import CloudStore.Analysis.FaithfulPublishing
import CloudStore.Analysis.CompleteDownload
import CloudStore.Analysis.LockDiscipline
import CloudStore.Analysis.MixedTransfers
import CloudStore.Analysis.PairedReplies
import CloudStore.Analysis.BufferedServer
import CloudStore.Analysis.Passwords
import CloudStore.Analysis.ResumedTransfers
import CloudStore.Analysis.LastUpload
