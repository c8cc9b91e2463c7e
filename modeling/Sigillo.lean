import Sigillo.SignerRun
import Sigillo.GrowingChain
import Sigillo.OtlpForms
import Sigillo.FilterAgreement
import Sigillo.SentSpans
import Sigillo.OneToken
import Sigillo.AuditPaths
import Sigillo.CountedReceipts
import Sigillo.SignerDivergence
import Sigillo.ClockSteps
import Sigillo.SpanAnswers
import Sigillo.ProvenTimes
import Sigillo.IndexedDocuments
import Sigillo.RefusedBatches
import Sigillo.ServedKeys
import Sigillo.ToldGaps
import Sigillo.LineEndings
import Sigillo.ZipWriter
import Sigillo.CanonicalText
import Sigillo.SilentSessions
import Sigillo.SessionProtocol
import Sigillo.SavedSessions
import Sigillo.OpenedSessions
import Sigillo.OrganizationDeletion
import Sigillo.ArrivalOrder
import Sigillo.AttemptThrottle
import Sigillo.Checkpointer
import Sigillo.DailyExport
import Sigillo.AttestedTime
import Sigillo.ChainHealth
import Sigillo.DigestMakers
import Sigillo.SignerReplies
import Sigillo.InitAgain
import Sigillo.ToolAgreement
import Sigillo.Frontiers
import Sigillo.SignerConnection
import Sigillo.UiSessions
import Sigillo.VaultTakeover
import Sigillo.LocalDays
import Sigillo.GuardLoop
import Sigillo.SpanBatches
import Sigillo.ComparedChains
import Sigillo.AnsweredWrites
import Sigillo.ResentSpans
import Sigillo.ServedArchives
import Sigillo.LastingChains
