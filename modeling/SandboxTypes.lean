import SandboxTypes.Hierarchy.History
import SandboxTypes.Hierarchy.Subtype
import SandboxTypes.Hierarchy.InPlace
import SandboxTypes.Hierarchy.Descent
import SandboxTypes.Sandbox.Array
import SandboxTypes.Contract
import SandboxTypes.Wrapper.Reading
import SandboxTypes.Proofs.Answer
import SandboxTypes.Proofs.Walk
import SandboxTypes.Proofs.Hierarchy.Links
import SandboxTypes.Proofs.Hierarchy.Ancestors
import SandboxTypes.Proofs.Hierarchy.Growth
import SandboxTypes.Proofs.Hierarchy.Invariant
import SandboxTypes.Proofs.Hierarchy.CommonAncestry
import SandboxTypes.Proofs.Hierarchy.InPlace
import SandboxTypes.Proofs.Hierarchy.Extension
import SandboxTypes.Proofs.Hierarchy.Order
import SandboxTypes.Proofs.Hierarchy.Batch
import SandboxTypes.Proofs.Hierarchy.Rounds
import SandboxTypes.Proofs.Hierarchy.PassedOver
import SandboxTypes.Proofs.Hierarchy.Register
import SandboxTypes.Proofs.Hierarchy.Kinds
import SandboxTypes.Proofs.Hierarchy.StandIn
import SandboxTypes.Proofs.Hierarchy.ArrayTypes
import SandboxTypes.Proofs.Hierarchy.Content
import SandboxTypes.Proofs.Hierarchy.Closure
import SandboxTypes.Proofs.ArrayType.Format
import SandboxTypes.Proofs.Renamer.ArrayNames
import SandboxTypes.Proofs.Renamer.RoundTrip
import SandboxTypes.Proofs.Renamer.KeptNames
import SandboxTypes.Proofs.Renamer.Whitelist
import SandboxTypes.Proofs.Sandbox.Operands
import SandboxTypes.Proofs.Sandbox.Ancestors
import SandboxTypes.Proofs.Sandbox.Stability
import SandboxTypes.Proofs.Sandbox.HostNames
import SandboxTypes.Proofs.Sandbox.HostArrays
import SandboxTypes.Proofs.Sandbox.Dispatch
import SandboxTypes.Proofs.Sandbox.Commutativity
import SandboxTypes.Proofs.Sandbox.AnyRenamer
import SandboxTypes.Proofs.Sandbox.Styles
import SandboxTypes.Proofs.Sandbox.MixedArrays
import SandboxTypes.Proofs.Sandbox.ObjectWrappers
import SandboxTypes.Proofs.Sandbox.ForbiddenElements
import SandboxTypes.Proofs.Contract.Counterpart
import SandboxTypes.Proofs.Contract.Subtype
