import Zboss.AckPairing
import Zboss.AddressCompression
import Zboss.AlarmTies
import Zboss.ApsAckMatching
import Zboss.AssociationAttempts
import Zboss.BeaconRoundTrip
import Zboss.BestPaths
import Zboss.BindingReferences
import Zboss.BoundDestinations
import Zboss.BroadcastDuplicates
import Zboss.BroadcastSchedule
import Zboss.CallbackQueue
import Zboss.CcmConformance
import Zboss.ChildAddresses
import Zboss.CommandBuffers
import Zboss.CommonParts
import Zboss.ConfirmMatching
import Zboss.CounterLog
import Zboss.DuplicatedFrames
import Zboss.EnergyReports
import Zboss.ExpiredDiscoveries
import Zboss.FormationChannel
import Zboss.FrameCheckSequence
import Zboss.IndirectDelivery
import Zboss.InformationBases
import Zboss.JoinedParent
import Zboss.LeaveCompletion
import Zboss.MatchDescriptors
import Zboss.MergedNeighbors
import Zboss.NeighborCapacity
import Zboss.NetworkJoin
import Zboss.NonceUniqueness
import Zboss.NvramSections
import Zboss.PackedRows
import Zboss.PagedReports
import Zboss.PanIdMapRuns
import Zboss.PanidAgreement
import Zboss.PanidChoice
import Zboss.PathCosts
import Zboss.PendingOwners
import Zboss.PendingSlots
import Zboss.PollAnswers
import Zboss.PollChain
import Zboss.PoolAccounting
import Zboss.PooledLists
import Zboss.PooledSlLists
import Zboss.RefusedJoins
import Zboss.RejoinBuffers
import Zboss.RejoinResponses
import Zboss.ReplayProtection
import Zboss.ReportedDuplicates
import Zboss.RequestConfirms
import Zboss.RetransmissionAnswers
import Zboss.ScanResults
import Zboss.SeparateContexts
import Zboss.SimpleDescriptors
import Zboss.ToggledBindings
import Zboss.TransmitOrder
import Zboss.TreeRoutingDelivery
import Zboss.UnsecuredLength
import Zboss.Rijndael
import Zboss.AesEncryption
