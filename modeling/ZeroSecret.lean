import ZeroSecret.Base.Json
import ZeroSecret.Base.JsonRoundTrip
import ZeroSecret.Base.JsonFields
import ZeroSecret.Base.Interleave
import ZeroSecret.Crypto.Common
import ZeroSecret.Crypto.AuditSeal
import ZeroSecret.Crypto.AuditSealRoundTrip
import ZeroSecret.Base.P256
import ZeroSecret.Audit.Chain
import ZeroSecret.Audit.Sealer
import ZeroSecret.Audit.Appenders
import ZeroSecret.Audit.ChainIntegrity
import ZeroSecret.Audit.ChainVerification
import ZeroSecret.Base.Cedar
import ZeroSecret.Crypto.DecisionBinding
import ZeroSecret.Crypto.DecisionSeal
import ZeroSecret.Policy.Pdp
import ZeroSecret.Policy.HashBinding
import ZeroSecret.Policy.Corpus
import ZeroSecret.Policy.Authorization
import ZeroSecret.Policy.Replay
import ZeroSecret.Issuance.Issuer
import ZeroSecret.Issuance.AtMostOnce
import ZeroSecret.Issuance.Binding
import ZeroSecret.Access.Broker
import ZeroSecret.Access.DecisionTrace
import ZeroSecret.Access.Lifetimes
import ZeroSecret.Access.SelfApproval
import ZeroSecret.Crypto.AuditSealSize
import ZeroSecret.Audit.Acceptance
import ZeroSecret.Crypto.AuditSealVerified
import ZeroSecret.Audit.TamperEvidence
import ZeroSecret.Crypto.IdentityAssertion
import ZeroSecret.Crypto.Malleability
import ZeroSecret.Policy.SelfVerification
import ZeroSecret.Admin.Handler
import ZeroSecret.Admin.Quorum
import ZeroSecret.Base.History
import ZeroSecret.Crypto.AuthenticatorProof
import ZeroSecret.Webauthn.Authentication
import ZeroSecret.Base.Der
import ZeroSecret.Webauthn.SignatureEncoding
import ZeroSecret.Webauthn.Registration
import ZeroSecret.Identity.Handler
import ZeroSecret.Identity.Paths
import ZeroSecret.Base.KeyedTable
import ZeroSecret.Identity.Ceremonies
import ZeroSecret.Audit.Appending
import ZeroSecret.Identity.Events
import ZeroSecret.Identity.Counterless
import ZeroSecret.Identity.RecordedRegistrations
import ZeroSecret.Identity.IssuedAssertions
import ZeroSecret.Base.Binary64
import ZeroSecret.Base.JsonOrder
import ZeroSecret.Base.KeyOrder
import ZeroSecret.Crypto.CanonicalForm
import ZeroSecret.Base.Framing
import ZeroSecret.Crypto.SignedMessages
import ZeroSecret.Audit.Fidelity
import ZeroSecret.Audit.Refusals
import ZeroSecret.Crypto.CorpusBinding
import ZeroSecret.Crypto.IdentityAssertionRoundTrip
import ZeroSecret.Base.LexicalPath
import ZeroSecret.Issuance.PathConfinement
import ZeroSecret.Audit.Trail
import ZeroSecret.Admin.QuorumTrace
import ZeroSecret.Hsm.SessionPool
import ZeroSecret.Hsm.Conservation
import ZeroSecret.Base.Slices
import ZeroSecret.Base.Gregorian
import ZeroSecret.Webauthn.Recovery
import ZeroSecret.Webauthn.FirstItem
import ZeroSecret.Webauthn.RegistrationOutcome
import ZeroSecret.Webauthn.RegistrationParsing
import ZeroSecret.Webauthn.AlgorithmBinding
import ZeroSecret.Hsm.EcPoint
import ZeroSecret.Identity.Instants
import ZeroSecret.Base.Script
import ZeroSecret.Base.LenientBase64
import ZeroSecret.Console.Session
import ZeroSecret.Base.Escaping
import ZeroSecret.Console.Html
import ZeroSecret.Console.Authentication
import ZeroSecret.Base.JsonSchema
import ZeroSecret.Audit.Contract
import ZeroSecret.Policy.Loading
import ZeroSecret.Base.Regex
import ZeroSecret.Base.Rego
import ZeroSecret.Platform.Exemption
import ZeroSecret.Platform.Compose
import ZeroSecret.Platform.Justification
import ZeroSecret.Platform.ExemptionScope
import ZeroSecret.Platform.Decision
import ZeroSecret.Platform.HostMounts
import ZeroSecret.Platform.UnreadElements
import ZeroSecret.Base.Relabelling
import ZeroSecret.Base.Guards
import ZeroSecret.Base.PercentEncoding
import ZeroSecret.Console.Pages
import ZeroSecret.Console.AssertionsBlock
import ZeroSecret.Console.Server
import ZeroSecret.Console.Conduct
import ZeroSecret.Console.Custody
import ZeroSecret.Console.Opacity
import ZeroSecret.Console.StaticFiles
import ZeroSecret.Base.Grants
import ZeroSecret.Deploy.Migrations
import ZeroSecret.Deploy.Privileges
import ZeroSecret.Access.Logins
import ZeroSecret.Access.Leases
