import ZBStorage.Simulation.SessionDrain
import ZBStorage.Scheduler.MetricsConservation
import ZBStorage.Mds.Archive.StagerCrashes
import ZBStorage.Client.OpenHandleRuns
import ZBStorage.Client.BatchRuns
import ZBStorage.Mds.Masstree.DecimalUtils
import ZBStorage.OpticalNode.VolumePacking
import ZBStorage.OpticalNode.DiscSchedule
import ZBStorage.DataNode.WriteExclusion
import ZBStorage.OpticalNode.DiscRuns
import ZBStorage.OpticalNode.ImageTableRuns
import ZBStorage.OpticalNode.PreparedRead
import ZBStorage.Client.InodeCache
import ZBStorage.Mds.Masstree.OpticalLayout
import ZBStorage.DataNode.ArchiveReplay
import ZBStorage.DataNode.FileMetaReload
import ZBStorage.Scheduler.LifecycleOperations
import ZBStorage.DataNode.FileRanges
import ZBStorage.Mds.Storage.DirectoryPages
import ZBStorage.Mds.Allocator.NodeIdResolution
import ZBStorage.Mds.Allocator.RendezvousPlacement
import ZBStorage.Mds.Service.OpenHandles
import ZBStorage.Mds.Archive.FileArchiveCandidateQueue
import ZBStorage.Mds.Storage.PutInodeFrame
import ZBStorage.Mds.Archive.SegmentWriter
import ZBStorage.Client.ReadyCallbacks
import ZBStorage.Mds.Archive.ReconciliationRuns
import ZBStorage.Mds.Archive.ArchiveMetaStore
import ZBStorage.Mds.Archive.RouteLookup
import ZBStorage.OpticalNode.IssuedIds
import ZBStorage.OpticalNode.ArchiveResumption
import ZBStorage.Client.ByteArrayFile
import ZBStorage.Mds.Storage.NamespaceTree
import ZBStorage.Mds.Allocator.PlacementHistory
import ZBStorage.Mds.Masstree.InodeRanges
import ZBStorage.Mds.Service.ArchiveFence
import ZBStorage.Mds.Service.ArchivedFiles
import ZBStorage.Mds.Service.OpticalLibraryHandoff
import ZBStorage.Scheduler.Drain
import ZBStorage.Scheduler.Failures
import ZBStorage.Scheduler.StayingOff
import ZBStorage.Scheduler.CmsNodeCatalogPublisher
import ZBStorage.OpticalNode.OpenSessions
