import DigIdentity.UniqueMatch
import DigIdentity.MerkleCrate
import DigIdentity.ShaDigest
import DigIdentity.TreeRefinement
import DigIdentity.Pairings
import DigIdentity.FieldVerification
import DigIdentity.Resolvers
import DigIdentity.Bech32m
import DigIdentity.References
import DigIdentity.TreeHistories
import DigIdentity.TreeProofs
import DigIdentity.RootBinding
import DigIdentity.ResolutionOutcomes
import DigIdentity.ThirdPartyStores
import DigIdentity.FieldOutcomes
import DigIdentity.ProfileProofs
import DigIdentity.FieldAgreement
import DigIdentity.ProfileLifecycles
import DigIdentity.SpendHistories
import DigIdentity.DidSpellings
import DigIdentity.Authorities
import DigIdentity.AuthorityRuns
import DigIdentity.AuthorityLocality
import DigIdentity.ValueCodec
import DigIdentity.DamagedBlobs
import DigIdentity.RelayedBytes
import DigIdentity.HashDomains
import DigIdentity.ProfileReadback
import DigIdentity.FailedEdits
import DigIdentity.PaymentAddresses
import DigIdentity.PrimeOrderGroups
import DigIdentity.Bls
import DigIdentity.SealDh
import DigIdentity.PrimePairings
import DigIdentity.KeyTrees
import DigIdentity.BlsKeys
import DigIdentity.SignatureReadings
import DigIdentity.PointTables
import DigIdentity.SignatureReference
import DigIdentity.Signatures
import DigIdentity.ProfileKeys
import DigIdentity.PendingEdits
import DigIdentity.UnrecognisedSlots
import DigIdentity.Runs
import DigIdentity.ChainWorlds
import DigIdentity.WorldSources
import DigIdentity.Provenance
import DigIdentity.SuccessiveReads
import DigIdentity.FieldProvenance
import DigIdentity.DelegationChains
import DigIdentity.AuthorityWindows
import DigIdentity.Interference
import DigIdentity.IncompleteScans
import DigIdentity.PairingHistories
import DigIdentity.Publishing
import DigIdentity.SerialEdits
import DigIdentity.KeyRotation
import DigIdentity.AuthenticatedMessages
