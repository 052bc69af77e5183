import SandboxTypes.Hierarchy.Ancestry
import SandboxTypes.Renamer
import SandboxTypes.Sandbox.Error

/-!
# Sandboxes, and the common super types of classes

A sandbox is a hierarchy of sandbox types with the renamer that brings host types
into it.  Its question is the tightest type above two given ones, each of which
may be named in either world.  This module answers it for classes and interfaces;
`SandboxTypes.Sandbox.Array` answers it for arrays.

The answer to two host names is a host name, and any other answer is a sandbox
name.  Where the tightest common ancestor is not unique, the answer is the
interface root in the sandbox and the class of all objects on the host.
-/

namespace SandboxTypes

/-- A hierarchy of sandbox types with the renamer that brings host types into it. -/
structure Sandbox where
  hierarchy : Hierarchy
  renamer : Renamer

/-- The name of a type in the sandbox, and the world the type was named in. -/
structure Resolved where
  name : Name
  world : World
  deriving DecidableEq, Repr

namespace Sandbox

/-- The tightest common ancestors of two types of the sandbox. -/
def ancestry (sandbox : Sandbox) (a b : Name) : Except MergeError Ancestry :=
  (sandbox.hierarchy.commonAncestry a b).mapError .hierarchy

/-- The sandbox name of a host class. -/
def rename (sandbox : Sandbox) (name : Name) : Except MergeError Name :=
  (sandbox.renamer.sandboxName name none).mapError .rename

/-- Resolves the name of a class in either world.  A type of the hierarchy is meant wherever one has
the name; a sandbox name that the hierarchy does not hold is an error. -/
def resolve (sandbox : Sandbox) (name : Name) : Except MergeError Resolved :=
  if sandbox.hierarchy.contains name then
    .ok ⟨name, .sandbox⟩
  else
    match sandbox.renamer.hostName name with
    | .ok _ => .error (.hierarchy (.unknownType name))
    | .error _ => (sandbox.rename name).map (Resolved.mk · .host)

/-- The host name of a common ancestor.  The roots that have no host name stand for the class of all
objects, which also stands in for several ancestors; the class of everything that can be thrown is
its own host name. -/
def hostForm (sandbox : Sandbox) : Ancestry → Except MergeError Name
  | .ambiguous _ => .ok FixedType.hostObject.name
  | .unique name =>
    if name ∈ [FixedType.iObject.name, FixedType.shadowObject.name, FixedType.hostObject.name] then
      .ok FixedType.hostObject.name
    else if name = FixedType.hostThrowable.name then
      .ok name
    else
      (sandbox.renamer.hostName name).mapError .rename

/-- The common super type of two dotted names that are not read as arrays. -/
def mergeClasses (sandbox : Sandbox) (a b : Name) : Except MergeError Name :=
  if a = b then
    .ok a
  else if a = FixedType.hostObject.name ∨ b = FixedType.hostObject.name then
    .ok FixedType.hostObject.name
  else do
    let lhs ← sandbox.resolve a
    let rhs ← sandbox.resolve b
    let ancestry ← sandbox.ancestry lhs.name rhs.name
    if lhs.world = .host ∧ rhs.world = .host then sandbox.hostForm ancestry
    else return ancestry.uniqueOr FixedType.iObject.name

/-- The common super class of two host names, as a host name. -/
def mergeHostClasses (sandbox : Sandbox) (a b : Name) : Except MergeError Name :=
  if a = b then
    .ok a
  else if a = FixedType.hostObject.name ∨ b = FixedType.hostObject.name then
    .ok FixedType.hostObject.name
  else do
    let lhs ← sandbox.rename a
    let rhs ← sandbox.rename b
    let ancestry ← sandbox.ancestry lhs rhs
    sandbox.hostForm ancestry

/-- The common super type of two dotted names, unless one of them is read as an array. -/
def mergePlain (sandbox : Sandbox) (a b : Name) : Except MergeError (Option Name) :=
  if isArrayShaped a || isArrayShaped b then .ok none else (sandbox.mergeClasses a b).map some

end Sandbox

end SandboxTypes
