import JavaGenerics.Arguments
import JavaGenerics.BoundList
import JavaGenerics.Erasure
import JavaGenerics.Loader
import JavaGenerics.Application
import JavaGenerics.Settings.LogFilter
import JavaGenerics.Settings.Schema
import JavaGenerics.Signature.Descriptor
import JavaGenerics.Store.Stock
import JavaGenerics.Proofs.Walk
import JavaGenerics.Proofs.Assignability
import JavaGenerics.Proofs.SignatureDeclarations
import JavaGenerics.Proofs.CacheTransparency
import JavaGenerics.Proofs.HigherLimits
import JavaGenerics.Proofs.ErrorCauses
import JavaGenerics.Proofs.UnderContext
import JavaGenerics.Proofs.WalkAgreement
import JavaGenerics.Proofs.Stopovers
import JavaGenerics.Proofs.Transitivity
import JavaGenerics.Proofs.ViewAgreement
import JavaGenerics.Proofs.ConsistentLoading
import JavaGenerics.Proofs.Directories
import JavaGenerics.Proofs.Renaming
import JavaGenerics.Proofs.Mentions
import JavaGenerics.Proofs.MethodVariables
import JavaGenerics.Proofs.OwnArguments
import JavaGenerics.Proofs.SearchOutcomes
import JavaGenerics.Proofs.InvariantArguments
import JavaGenerics.Proofs.SelfBindings
import JavaGenerics.Proofs.WildcardPlaces
import JavaGenerics.Proofs.ImpliedBounds
import JavaGenerics.Proofs.ClassBounds
import JavaGenerics.Proofs.InferredArguments
import JavaGenerics.Proofs.ArrayCovariance
import JavaGenerics.Proofs.ErasedTargets
import JavaGenerics.Proofs.InferenceInverts
import JavaGenerics.Proofs.NestedClasses
import JavaGenerics.Proofs.Descriptors
import JavaGenerics.Proofs.FailedLoading
import JavaGenerics.Proofs.LexicalScopes
import JavaGenerics.Proofs.BoundOrders
import JavaGenerics.Proofs.OwnerVariables
import JavaGenerics.Proofs.EnclosingCircles
import JavaGenerics.Proofs.CacheAccounting
import JavaGenerics.Proofs.ComposedSubstitution
import JavaGenerics.Proofs.FollowedChains
import JavaGenerics.Proofs.ForeignBindings
import JavaGenerics.Proofs.ClosestParents
import JavaGenerics.Proofs.SignaturePositions
