import CliMetadata.Describe.Image
import CliMetadata.Describe.Module
import CliMetadata.Describe.Reference
import CliMetadata.Describe.Signature
import CliMetadata.Describe.Survey
import CliMetadata.Describe.Tables
import CliMetadata.Registry.Session
import CliMetadata.TypeSystem.Construction
import CliMetadata.Proofs.Binding.Canonical
import CliMetadata.Proofs.Binding.Spelling
import CliMetadata.Proofs.Bytes.Compressed
import CliMetadata.Proofs.Bytes.Cursors
import CliMetadata.Proofs.Bytes.Placement
import CliMetadata.Proofs.Bytes.ShortestForms
import CliMetadata.Proofs.Draft.Owners
import CliMetadata.Proofs.Draft.SideTables
import CliMetadata.Proofs.Heap.Heaps
import CliMetadata.Proofs.Heap.Lookups
import CliMetadata.Proofs.Image.Rewriting
import CliMetadata.Proofs.Image.Root
import CliMetadata.Proofs.Image.RoundTrip
import CliMetadata.Proofs.Reference.MemberReferences
import CliMetadata.Proofs.Reference.NestedSegments
import CliMetadata.Proofs.Reference.Rereading
import CliMetadata.Proofs.Reference.Resolving
import CliMetadata.Proofs.Reference.RoundTrip
import CliMetadata.Proofs.Reference.Soundness
import CliMetadata.Proofs.Signature.Expressible
import CliMetadata.Proofs.Signature.Rewriting
import CliMetadata.Proofs.Signature.RoundTrip
import CliMetadata.Proofs.TypeSystem.ConstructedMembers
import CliMetadata.Proofs.Binding.FixedPoints
import CliMetadata.Proofs.Module.Walks
import CliMetadata.Proofs.Registry.Universes
import CliMetadata.Proofs.Registry.Remains
import CliMetadata.Proofs.TypeSystem.RespectfulLookup
import CliMetadata.Proofs.Registry.Dropping
import CliMetadata.Proofs.Registry.Sweeping
import CliMetadata.Proofs.Registry.Transparency
import CliMetadata.Proofs.TypeSystem.AssignmentOrder
import CliMetadata.Proofs.TypeSystem.ConstructedSupertypes
import CliMetadata.Proofs.Registry.SearchOrder
import CliMetadata.Proofs.TypeSystem.Classification
import CliMetadata.Proofs.Binding.Replacement
import CliMetadata.Proofs.TypeSystem.ConstraintChecks
import CliMetadata.Proofs.Module.FullNames
import CliMetadata.Proofs.Reference.TypeReferences
import CliMetadata.Proofs.Binding.Routes
import CliMetadata.Proofs.TypeSystem.FreshMembers
import CliMetadata.Proofs.TypeSystem.ImplementedInterfaces
import CliMetadata.Proofs.TypeSystem.InheritedConstructors
import CliMetadata.Proofs.TypeSystem.InheritedMembers
import CliMetadata.Proofs.TypeSystem.ParameterLevels
import CliMetadata.Proofs.TypeSystem.ExtensionMembers
import CliMetadata.Proofs.TypeSystem.ReferencedMethods
import CliMetadata.Proofs.Tables.Walking
import CliMetadata.Proofs.Image.Writing
import CliMetadata.Proofs.TypeSystem.Substitutability
import CliMetadata.Proofs.TypeSystem.Unwrapping
import CliMetadata.Proofs.Constant
import CliMetadata.Proofs.Heap.Additions
import CliMetadata.Proofs.Image.Directory
import CliMetadata.Proofs.Tables.CodedWidth
import CliMetadata.Proofs.Tables.MemberRuns
