import RuCCL.Rank.PeerDeadlock
import RuCCL.Rank.PointToPointCorrect
import RuCCL.Rank.PointToPointClientCorrect
import RuCCL.InProcess.NativeCommunicatorCorrect
import RuCCL.InProcess.Transferred
import RuCCL.Local.ServerRegistrations
import RuCCL.Global.Sync
import RuCCL.Tensor.RowExchangeCorrect
import RuCCL.Local.ReduceCaller
import RuCCL.Global.TransferIds
import RuCCL.Rank.TuningIdempotent
import RuCCL.Local.AllReduceExact
import RuCCL.Rank.SessionSetupComplete
import RuCCL.Global.RootedNeighbors
import RuCCL.Local.RootedTrees
import RuCCL.Local.TreeRecursion
import RuCCL.Rank.ProfileRanges
import RuCCL.Rank.TopologyRebuild
import RuCCL.Rank.InferredHierarchy
import RuCCL.Rank.DeviceReduceScatterCorrect
import RuCCL.Rank.DeviceAllGatherCorrect
import RuCCL.Rank.DeviceAllToAllCorrect
import RuCCL.Rank.CallAgreement
import RuCCL.Rank.ProbeBuckets
import RuCCL.Rank.TagFamilies
import RuCCL.InProcess.PartitionsAgree
import RuCCL.Rank.HostReduction
import RuCCL.Tensor.StorageKind
import RuCCL.Rank.EstimatesMonotone
import RuCCL.Global.ClientCompletion
