import Dnsid.Merkle.Inclusion
import Dnsid.Merkle.Consistency
import Dnsid.Errors
import Dnsid.Merkle.TilePath
import Dnsid.Merkle.HashTiles
import Dnsid.Merkle.HashTilesExact
import Dnsid.Checkpoint.TrustedStore
import Dnsid.Foundations.Runs
import Dnsid.Checkpoint.AdvanceRun
import Dnsid.Checkpoint.NoRollback
import Dnsid.Foundations.Replay
import Dnsid.Events.EventCodec
import Dnsid.Stream.Lifecycle
import Dnsid.Stream.Selection
import Dnsid.Events.ParsedEvents
import Dnsid.Stream.Identity
import Dnsid.Stream.ReplayTracks
import Dnsid.Stream.SelectionInvariant
import Dnsid.Stream.WellFormed
import Dnsid.Stream.Authority
import Dnsid.Stream.NoDrop
import Dnsid.Stream.Cutoff
import Dnsid.Events.ParseErrors
import Dnsid.Stream.NoVeto
import Dnsid.Stream.Growth
import Dnsid.Protocol.DomainLog
import Dnsid.Protocol.Materialize
import Dnsid.Protocol.SnapshotPrefix
import Dnsid.Stream.Stitch
import Dnsid.Stream.BundleThumbprint
import Dnsid.Stream.Replays
import Dnsid.Manager.IdentityCache
import Dnsid.Manager.SharedWork
import Dnsid.Manager.SharedSteps
import Dnsid.Manager.Barriers
import Dnsid.Manager.ZeroTtl
import Dnsid.Manager.Cancellation
import Dnsid.Events.CanonicalJson
import Dnsid.Writer.PreparedEvent
import Dnsid.Writer.Envelopes
import Dnsid.Writer.SplitSigning
import Dnsid.Writer.Finalized
import Dnsid.Foundations.Effects
import Dnsid.Managed.Workflow
import Dnsid.Managed.Issuance
import Dnsid.Managed.IssuanceRuns
import Dnsid.Managed.OneEntry
import Dnsid.Managed.Outcomes
import Dnsid.Foundations.NamedPairs
import Dnsid.Foundations.MapSet
import Dnsid.Record.TxtRecord
import Dnsid.Record.TagMaps
import Dnsid.Record.CanonicalForm
import Dnsid.Record.Publication
import Dnsid.References.CanonicalPrefix
import Dnsid.References.LogReference
import Dnsid.Registry.RecordSigning
import Dnsid.Keys.AwsKms
import Dnsid.Keys.LocalKeyProvider
import Dnsid.Keys.LocalKeyStore
import Dnsid.Foundations.Positions
import Dnsid.Keys.KeyStoreRuns
import Dnsid.Keys.SigningGate
import Dnsid.Foundations.StructuredText
import Dnsid.HttpSignatures.SignatureBase
import Dnsid.HttpSignatures.BaseInjective
import Dnsid.HttpSignatures.SignatureHeaders
import Dnsid.Foundations.PoolHistory
import Dnsid.WebBotAuth.Verify
import Dnsid.WebBotAuth.ReplayWindow
import Dnsid.Foundations.AuditSplit
import Dnsid.Merkle.Rfc6962
import Dnsid.Merkle.ConsistencyComplete
import Dnsid.Foundations.ThresholdRule
import Dnsid.Foundations.Trimming
import Dnsid.Protocol.Encoding
import Dnsid.Checkpoint.SignedNote
import Dnsid.Checkpoint.Policy
import Dnsid.Checkpoint.PolicyFile
import Dnsid.Checkpoint.Quorum
import Dnsid.Checkpoint.WitnessTimes
import Dnsid.Oidc.PrivateJwk
import Dnsid.Protocol.SignatureKeys
import Dnsid.Keys.ProfileSigning
import Dnsid.Keys.ActiveKey
import Dnsid.Keys.NamedKeys
import Dnsid.Scan.EntryBundles
import Dnsid.Scan.FullScan
import Dnsid.Scan.StreamSource
import Dnsid.Sdk.ResponseSigning
import Dnsid.Sdk.SentResponses
import Dnsid.HttpSignatures.AcceptedInput
import Dnsid.HttpSignatures.DictionaryMembers
import Dnsid.HttpSignatures.VerifyRequest
import Dnsid.HttpSignatures.Candidates
import Dnsid.HttpSignatures.Coexisting
import Dnsid.Reader.NonRevocation
import Dnsid.Reader.KeyTimes
import Dnsid.Foundations.Utf16
import Dnsid.Notes.Evidence
import Dnsid.Notes.Lines
import Dnsid.Notes.ParseCheckpoint
import Dnsid.Checkpoint.UsablePolicies
import Dnsid.HttpSignatures.StructuredFields
import Dnsid.HttpSignatures.StructuredParser
import Dnsid.HttpSignatures.MemberScan
import Dnsid.HttpSignatures.SplitMembers
import Dnsid.HttpSignatures.DictionaryHeaders
import Dnsid.HttpSignatures.ParameterSegments
import Dnsid.Foundations.Word32
import Dnsid.Foundations.ReflectedCrc
import Dnsid.Keys.KmsChecksum
import Dnsid.Foundations.Der
import Dnsid.Keys.EcdsaSignature
import Dnsid.Foundations.JsonText
import Dnsid.Foundations.JsonParser
import Dnsid.Protocol.StrictJson
import Dnsid.Events.JsonDepth
import Dnsid.Protocol.CompactJose
import Dnsid.Transport.TxtWire
import Dnsid.HttpSignatures.QueryParams
import Dnsid.Transport.IpAddresses
import Dnsid.Transport.IpSpellings
import Dnsid.Transport.UnsafeIps
import Dnsid.Foundations.Edwards
import Dnsid.Foundations.Primality
import Dnsid.Protocol.Ed25519Keys
import Dnsid.Events.CanonicalTree
import Dnsid.Events.CanonicalRoundTrip
import Dnsid.Events.CodecJson
import Dnsid.Foundations.Custody
import Dnsid.Managed.Rotation
import Dnsid.Managed.RotationRuns
import Dnsid.Managed.RotationKeys
import Dnsid.Managed.CrashSafety
import Dnsid.Managed.RotationSafety
import Dnsid.Keys.LocalCustody
import Dnsid.Transport.HttpsFetch
import Dnsid.Transport.SafeContacts
import Dnsid.Notes.PolicyView
import Dnsid.Bundles.BundleEvidence
