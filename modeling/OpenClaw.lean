import OpenClaw.Markdown.FencedChunks
import OpenClaw.Markdown.IRChunks
import OpenClaw.Markdown.RenderedChunks
import OpenClaw.Process.CommandQueueProgress
import OpenClaw.Tasks.Notices
import OpenClaw.Cron.Interrupted
import OpenClaw.Cron.Reschedule
import OpenClaw.Cron.LiveRuns
import OpenClaw.Cron.RefireSpacing
import OpenClaw.Cron.StaggeredSchedule
import OpenClaw.Exec.SafeBinSoundness
import OpenClaw.Exec.SkillPreludes
import OpenClaw.Exec.AllowAlways
import OpenClaw.Config.RawRedaction
import OpenClaw.Config.Includes
import OpenClaw.Agents.ApplyPatch
import OpenClaw.Agents.PatchContext
import OpenClaw.Agents.AuthProfileUsage
import OpenClaw.Agents.ToolResultGuard
import OpenClaw.Agents.TurnValidation
import OpenClaw.Agents.ResultPairing
import OpenClaw.Agents.ToolCallIdRewriting
import OpenClaw.Reply.CollectBatch
import OpenClaw.Reply.FollowupDelivery
import OpenClaw.Reply.FollowupOverflow
import OpenClaw.Reply.FollowupProgress
import OpenClaw.Reply.SingleOwner
import OpenClaw.Heartbeat.Exclusion
import OpenClaw.Heartbeat.Pending
import OpenClaw.Infra.DedupeCache
import OpenClaw.Infra.TaskRunner
import OpenClaw.Pairing.DeviceScopes
import OpenClaw.Pairing.BootstrapBinding
import OpenClaw.Pairing.ChannelIsolation
import OpenClaw.Outbound.SingleDelivery
import OpenClaw.Gateway.Reconnects
import OpenClaw.Gateway.ApprovalDecisions
import OpenClaw.Gateway.RateLimitExact
import OpenClaw.Gateway.ChatEnds
import OpenClaw.Gateway.ChatMerge
import OpenClaw.Routing.SessionIsolation
import OpenClaw.Routing.KeyRoundTrip
import OpenClaw.Routing.RouteCache
import OpenClaw.Sessions.Aliases
import OpenClaw.Acp.RunIndex
import OpenClaw.Acp.Serialisation
import OpenClaw.Desktop.LayerDecision
import OpenClaw.Net.PinnedLookup
import OpenClaw.Net.Cidr
import OpenClaw.Memory.EmbeddingLimits
import OpenClaw.Agents.ToolPolicyCollisions
import OpenClaw.Boundary.Agreement
import OpenClaw.Boundary.Soundness
import OpenClaw.Agents.WriteLockExclusion
