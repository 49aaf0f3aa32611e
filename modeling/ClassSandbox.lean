import ClassSandbox.Main
import ClassSandbox.Proofs.Resolution.Containment
import ClassSandbox.Proofs.Resolution.Idempotence
import ClassSandbox.Proofs.Confinement.Modes
import ClassSandbox.Proofs.Confinement.Linking
import ClassSandbox.Proofs.Confinement.Frame
import ClassSandbox.Proofs.Confinement.Distinction
import ClassSandbox.Proofs.Confinement.Repetition
import ClassSandbox.Proofs.Hierarchy.Search
import ClassSandbox.Proofs.Hierarchy.Order
import ClassSandbox.Proofs.Bytes.Copies
import ClassSandbox.Proofs.Command
import ClassSandbox.Proofs.ClassFile.Canonical
import ClassSandbox.Proofs.Hierarchy.History
import ClassSandbox.Proofs.Hierarchy.Queries
import ClassSandbox.Proofs.Resolution.Renaming
import ClassSandbox.Proofs.Signature.Trees
import ClassSandbox.Proofs.Descriptor.Trees
import ClassSandbox.Proofs.Descriptor.Truncation
import ClassSandbox.Proofs.Resolution.Paths
import ClassSandbox.Proofs.Confinement.Gating
import ClassSandbox.Proofs.ConstantPool.History
import ClassSandbox.Proofs.Signature.Mapping
import ClassSandbox.Proofs.ConstantPool.Failure
import ClassSandbox.Proofs.ModifiedUtf8.Bits
import ClassSandbox.Proofs.ClassFile.Delimited
import ClassSandbox.Proofs.ModifiedUtf8.Length
import ClassSandbox.Proofs.Hierarchy.Acyclic
import ClassSandbox.Proofs.Hierarchy.Steps
import ClassSandbox.Proofs.Confinement.Pools
import ClassSandbox.Proofs.Confinement.Silence
import ClassSandbox.Proofs.MethodCost
import ClassSandbox.Proofs.OffsetVector.AsList
import ClassSandbox.Proofs.Command.Saving
