import ClawMessenger.Ports.ArtifactSplitting
import ClawMessenger.Ports.AutopilotPlanner
import ClawMessenger.Ports.AutopilotQuotaAccounted
import ClawMessenger.Ports.BindingServiceProviders
import ClawMessenger.Ports.BridgeTaskFence
import ClawMessenger.Ports.BridgeTaskGate
import ClawMessenger.Ports.ChannelLeaseOwner
import ClawMessenger.Ports.ChatResumePointerAlive
import ClawMessenger.Ports.ChatTranscriptOrder
import ClawMessenger.Ports.ChildDoneBarrier
import ClawMessenger.Ports.CommentResolutionThreads
import ClawMessenger.Ports.DelegatedRecoveryBounded
import ClawMessenger.Ports.DiscussionV1Walk
import ClawMessenger.Ports.DiscussionV2GuardLedger
import ClawMessenger.Ports.DiscussionWireIsolation
import ClawMessenger.Ports.DiscussionWireRoundTrip
import ClawMessenger.Ports.EmptyClaimCache
import ClawMessenger.Ports.EventStreamFrames
import ClawMessenger.Ports.FeatureFlags
import ClawMessenger.Ports.HookOccurrences
import ClawMessenger.Ports.IssueBoardEvents
import ClawMessenger.Ports.IssueCertain
import ClawMessenger.Ports.IssueDirective
import ClawMessenger.Ports.IssueTablePages
import ClawMessenger.Ports.LanesContract
import ClawMessenger.Ports.LocalPathLocker
import ClawMessenger.Ports.LocalSkillPromises
import ClawMessenger.Ports.LocalSkillStoresPop
import ClawMessenger.Ports.LocalStoreErrors
import ClawMessenger.Ports.MessageCache
import ClawMessenger.Ports.MessageCrossing
import ClawMessenger.Ports.OutputReplay
import ClawMessenger.Ports.ParseMarkerSeams
import ClawMessenger.Ports.PendingBatcherOnce
import ClawMessenger.Ports.PendingChatSession
import ClawMessenger.Ports.RealtimeHubDelivery
import ClawMessenger.Ports.RealtimeHubRelay
import ClawMessenger.Ports.ReconcileBroadcaster
import ClawMessenger.Ports.RecoveringTask
import ClawMessenger.Ports.ResumeQueries
import ClawMessenger.Ports.RetryChainsBounded
import ClawMessenger.Ports.SchedulerManagerPlans
import ClawMessenger.Ports.SessionStoreCapacity
import ClawMessenger.Ports.SessionStoreClaims
import ClawMessenger.Ports.SessionStoreFile
import ClawMessenger.Ports.TaskQueueRows
import ClawMessenger.Ports.WsRpc
