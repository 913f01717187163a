import Termivar.Ontology.Closure
import Termivar.Knowledge.Revisions
import Termivar.Knowledge.Lineage
import Termivar.Distributed.Assignment
import Termivar.Exploit.Execution
import Termivar.Plugin.Accounting
import Termivar.Runtime.Accounting
import Termivar.XmlReview.Review
import Termivar.WebSocket.Review
import Termivar.Adaptive.Run
import Termivar.ApiObservation.Pagination
import Termivar.Artifact.BruteForce
import Termivar.Artifact.Completion
import Termivar.Artifact.Digest
import Termivar.AuthorizationReview.Verdict
import Termivar.Cache.Recency
import Termivar.Discovery.Result
import Termivar.Experience.Run
import Termivar.Exploit.Canonical
import Termivar.Oast.Isolation
import Termivar.Planner.Defense
import Termivar.Policy.Omission
import Termivar.Reporting.Comparison
import Termivar.Rules.Reapply
import Termivar.SsrfOast.Mutation
import Termivar.Verification.Selection
import Termivar.WordPress.Grammar
import Termivar.WordPress.Injective
import Termivar.WordPress.Streaming
import Termivar.Discovery.Flags
import Termivar.HttpEvidence.Collect
import Termivar.Artifact.Canonical
