import SkillAudit.Main
import SkillAudit.Proofs.ApprovalHistory
import SkillAudit.Proofs.FingerprintFraming
import SkillAudit.Proofs.FlowChains
import SkillAudit.Proofs.Installation
import SkillAudit.Proofs.LedgerHandles
import SkillAudit.Proofs.PenaltySum
import SkillAudit.Proofs.StoredDocuments
import SkillAudit.Proofs.WatchHistory
import SkillAudit.Proofs.TreeKept
import SkillAudit.Proofs.HubFetch
import SkillAudit.Proofs.FailedInstall
import SkillAudit.Proofs.Discovery
import SkillAudit.Proofs.WatchedInstall
import SkillAudit.Proofs.PendingReviews
import SkillAudit.Proofs.ReviewsKept
import SkillAudit.Proofs.LedgerSessions
import SkillAudit.Proofs.ApprovalAgreement
import SkillAudit.Proofs.ReviewLoop
import SkillAudit.Proofs.ListedContent
import SkillAudit.Proofs.Presentation
import SkillAudit.Proofs.ReviewMap
import SkillAudit.Proofs.LedgerMirror
import SkillAudit.Proofs.FlowRoutes
import SkillAudit.Proofs.ImportPaths
import SkillAudit.Proofs.WatchVerdict
import SkillAudit.Proofs.ApprovalRace
import SkillAudit.Proofs.ScanComposition
import SkillAudit.Proofs.VersionDiff
import SkillAudit.Proofs.RiskDelta
import SkillAudit.Proofs.Materialization
import SkillAudit.Proofs.CommentLines
import SkillAudit.Proofs.HubFraming
import SkillAudit.Proofs.PercentText
import SkillAudit.Proofs.TableLayout
import SkillAudit.Proofs.PackageUrl
import SkillAudit.Proofs.FrontMatter
import SkillAudit.Proofs.LineNumbers
import SkillAudit.Proofs.StrictPolicy
