import EverWorks.Billing.AutoRecharge
import EverWorks.Subscriptions.Revocation
import EverWorks.Workflow.Walk
import EverWorks.Fleet.DesktopTiles
import EverWorks.Fleet.Credit
import EverWorks.Fleet.LinkRoundTrip
import EverWorks.Fleet.Generations
import EverWorks.Fleet.ChannelNumbers
import EverWorks.Fleet.ResumeAgreement
import EverWorks.Fleet.LogAccounting
import EverWorks.Fleet.UnpackInside
import EverWorks.Policy.ToolNarrowing
import EverWorks.Policy.MergeFloor
import EverWorks.Policy.RedactionClean
import EverWorks.Review.FenceKept
import EverWorks.Schedule.ClockChange
import EverWorks.Schedule.TwoEngines
import EverWorks.Ci.HeadOrder
import EverWorks.Ci.FixLoopBound
import EverWorks.Review.Claims
import EverWorks.Tasks.Blockers
import EverWorks.Fleet.UsageRuns
import EverWorks.Sessions.AttentionKeys
import EverWorks.Sessions.Convergence
import EverWorks.Sessions.DaemonRestart
import EverWorks.Goals.DodOverlap
import EverWorks.Goals.LoopControl
import EverWorks.Goals.LoopCeilings
import EverWorks.Fleet.RunTopUps
import EverWorks.DomainEvents.DeliveryRuns
import EverWorks.Pipeline.GroupedSteps
import EverWorks.Credits.PlanGrants
import EverWorks.Credits.PriceList
import EverWorks.Fleet.UnpackFinish
import EverWorks.Frames.FrameBytes
import EverWorks.AppEnv.DotenvKept
import EverWorks.Fleet.CancelTruth
import EverWorks.Fleet.WorkConserving
import EverWorks.Fleet.ModelThrottles
import EverWorks.Tasks.Recurrence
import EverWorks.Schedule.GrammarExact
import EverWorks.Schedule.StopReaches
import EverWorks.Policy.Interpolation
import EverWorks.Tasks.SyncRefused
import EverWorks.Agents.RunDrain
import EverWorks.Ci.FeedbackReading
import EverWorks.Agents.RejectionReplay
import EverWorks.Agents.BudgetPeriod
import EverWorks.Agents.WindowDays
import EverWorks.Agents.LoopDetector
import EverWorks.Approvals.ApproveAgain
import EverWorks.Tasks.Fanout
import EverWorks.Tasks.TemplateTree
import EverWorks.Sessions.DaemonFrames
import EverWorks.Review.Verdicts
import EverWorks.Email.RetryAfter
import EverWorks.Builds.InputsHash
import EverWorks.Fleet.DownloadReads
import EverWorks.Apps.TemplateCycles
import EverWorks.Apps.SecretFlow
