import Pkix.Lib.Walk
import Pkix.Path.Asn1
import Pkix.Path.Names
import Pkix.Path.NameConstraintState
import Pkix.Path.ChainWalk
import Pkix.Path.WalkFacts
import Pkix.Path.ConcreteCodec
import Pkix.Path.LinkSoundness
import Pkix.Path.WalkTracks
import Pkix.Path.NameConstraintRules
import Pkix.Path.NameConstraintSoundness
import Pkix.Path.UnprocessedForms
import Pkix.Lib.Levels
import Pkix.Path.PolicyTreeFacts
import Pkix.Path.PolicyTrim
import Pkix.Path.PolicyWalk
import Pkix.Path.PolicyInvariants
import Pkix.Path.UserPolicySet
import Pkix.Path.PolicyVerdict
import Pkix.Path.PolicyLevels
import Pkix.Path.PolicyLevelWalk
import Pkix.Path.PolicyCompleteness
import Pkix.Path.PolicyTreeSize
import Pkix.Path.PolicyTreeShape
import Pkix.Path.AnchorChoice
import Pkix.Path.FirstExtension
import Pkix.Path.PolicyCounters
import Pkix.Revocation.CrlChecker
import Pkix.Revocation.ConcreteCrl
import Pkix.Revocation.CrlFacts
import Pkix.Revocation.CrlIssuer
import Pkix.Revocation.ProcessedContent
import Pkix.Revocation.DeltaScope
import Pkix.Revocation.EntryPoints
import Pkix.Revocation.ConcreteOcsp
import Pkix.Revocation.OcspSoundness
import Pkix.Lib.Choices
import Pkix.Revocation.SignerChoice
import Pkix.Revocation.BundleOrder
import Pkix.Revocation.SelfSignedReach
import Pkix.Lib.Octets
import Pkix.RevocationHttp.CrlCache
import Pkix.RevocationHttp.CachedCrlFetcher
import Pkix.RevocationHttp.CacheRuns
import Pkix.RevocationHttp.RollbackGuard
import Pkix.Lib.DepthFirst
import Pkix.PathBuilder.PathCandidates
import Pkix.PathBuilder.SearchTermination
import Pkix.PathBuilder.SearchRuns
import Pkix.PathBuilder.SearchOrder
import Pkix.PathBuilder.PathEnumeration
import Pkix.PathBuilder.BuildPath
import Pkix.PathBuilder.BuildCompleteness
import Pkix.Chain.Verifier
import Pkix.Chain.VerifySoundness
import Pkix.Chain.OcspResponder
import Pkix.Chain.PoolOrder
import Pkix.Chain.AiaCompleteness
import Pkix.Ct.MerkleInclusion
import Pkix.Revocation.OcspVerdicts
import Pkix.RevocationHttp.OcspCache
import Pkix.RevocationHttp.OcspTransparency
import Pkix.RevocationHttp.CrlCalls
import Pkix.RevocationHttp.CrlTransparency
import Pkix.RevocationHttp.ForgedResponses
import Pkix.Lib.Framing
import Pkix.Ct.SctList
import Pkix.Lib.Selection
import Pkix.Lib.StdText
import Pkix.Lint.Deviation
import Pkix.Lint.DeviationRunner
import Pkix.Lint.OscalRisks
import Pkix.Lint.OscalRoundTrip
import Pkix.Identity.Mailbox
import Pkix.Identity.MailboxMatching
import Pkix.Path.SubtreeIntersection
import Pkix.Path.HostMatching
import Pkix.Path.SubjectEmails
import Pkix.Path.DnsLabels
import Pkix.Path.MappedPolicies
import Pkix.Path.MappingExactness
import Pkix.Lib.Allowance
import Pkix.Path.PathLength
import Pkix.Lib.DerFraming
import Pkix.Path.RsaFloor
import Pkix.Revocation.StaleDelta
import Pkix.Revocation.IndirectEntries
import Pkix.Revocation.OcspSelection
import Pkix.PathBuilder.ErrorDiagnosis
import Pkix.Lib.Numerals
import Pkix.Identity.ServerName
import Pkix.Identity.DnsNames
import Pkix.Identity.DnsMatching
import Pkix.Identity.IpGrammar
import Pkix.Identity.IpExactness
import Pkix.Identity.ServerNameRoundTrip
import Pkix.Ct.SignedInputs
import Pkix.Lib.Calendar
import Pkix.Ct.LogTimestamps
import Pkix.Ct.LogList
import Pkix.Lint.EmittedTimes
import Pkix.Lint.ParameterOverrides
import Pkix.Lib.Reentry
import Pkix.Lint.ProfileDocuments
import Pkix.Lint.ProfileResolution
import Pkix.Lint.AssessmentResults
import Pkix.Lint.AssessmentReferences
import Pkix.Lib.Slots
import Pkix.Lib.TextLines
import Pkix.Zlint.Bridge
import Pkix.Zlint.BatchRuns
import Pkix.Zlint.BatchExactness
import Pkix.Lint.MailboxEquivalence
import Pkix.Lint.RsaKeySize
import Pkix.Lint.SerialRanges
import Pkix.Lib.PairedWalks
import Pkix.Path.Requirements
import Pkix.Path.Relaxation
import Pkix.Path.ChainSuffix
import Pkix.Path.ErrorBlame
import Pkix.Profiles.ProfilePolicies
import Pkix.Profiles.Hierarchy
import Pkix.Ct.SctVerifier
import Pkix.Ct.EmbeddedScts
import Pkix.Ct.LogPromises
import Pkix.ChainSimple.VerifySimple
import Pkix.Chain.EntryPoints
import Pkix.Chain.FetchedRevocation
import Pkix.Chain.PurposeSoundness
import Pkix.Lint.CertificateLints
import Pkix.Lint.ProfileAgreement
import Pkix.Lib.KeyedSlots
import Pkix.Lint.CatalogRoundTrip
import Pkix.Path.Specification
import Pkix.Lint.SmimeLints
