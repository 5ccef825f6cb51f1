import Eliot.Chat.Safety
import Eliot.Understanding.ClaimIndex
import Eliot.Library.Paging
import Eliot.Library.Promises
import Eliot.Context.Admission
import Eliot.Domain.SourceOwnership
import Eliot.Domain.ScopeCanonical
import Eliot.Domain.ScopeDraft
import Eliot.Investigation.Obligations
import Eliot.Investigation.Reconciliation
import Eliot.Wiki.Outcomes
import Eliot.Dispatch.Retries
import Eliot.Retrieval.Agreement
import Eliot.Delivery.Leases
import Eliot.Numbers.Quantities
import Eliot.Numbers.Quoting
import Eliot.Citations.Cleaning
import Eliot.Blocks.Agreement
import Eliot.Citations.Fenced
import Eliot.Context.Limits
import Eliot.Tools.Passages
import Eliot.Tools.Advice
import Eliot.Tools.Enumeration
import Eliot.Context.Packing
import Eliot.Context.ModelHistory
import Eliot.Capture.UrlGuard
import Eliot.Workflow.FailureHistory
import Eliot.Web.Merging
import Eliot.Retrieval.FusionOrder
import Eliot.Retrieval.Scanning
import Eliot.Canonical.StableId
import Eliot.Canonical.ResidencyKey
import Eliot.Canonical.Frame
import Eliot.Citations.Splitting
import Eliot.Canonical.Timestamp
import Eliot.Canonical.Sha256
import Eliot.Domain.Membership
import Eliot.Retrieval.Atlas
import Eliot.Context.Evidence
import Eliot.Policy.Compiler
import Eliot.Retrieval.Projection
