import SandboxTypes.Hierarchy

/-!
# Common ancestry

Two types have common ancestors, and of those the ones that are not above another
common ancestor are the tightest.  With multiple inheritance of interfaces there
may be several.
-/

namespace SandboxTypes

/-- The tightest common ancestors of two types. -/
inductive Ancestry where
  /-- One common ancestor is below all others. -/
  | unique (name : Name)
  /-- Several unrelated common ancestors are equally tight, in increasing order. -/
  | ambiguous (names : List Name)
  deriving DecidableEq, Repr

namespace Ancestry

/-- The unique tightest ancestor, or a fallback. -/
def uniqueOr (fallback : Name) : Ancestry → Name
  | unique name => name
  | ambiguous _ => fallback

/-- Checks if there are several tightest ancestors. -/
def isAmbiguous : Ancestry → Bool
  | unique _ => false
  | ambiguous _ => true

/-- The tightest ancestors. -/
def names : Ancestry → List Name
  | unique name => [name]
  | ambiguous names => names

end Ancestry

namespace Hierarchy

/-- Those of the given types that are not above another one of them.  What is above is found by
walks from the types directly above each, in the order of the list. -/
def lowest (hierarchy : Hierarchy) (names : List Name) : NameSet :=
  let above := walkEach hierarchy.nodes hierarchy.supersOf (names.flatMap hierarchy.supersOf)
  NameSet.ofList (names.filter (· ∉ above))

/-- The types that are ancestors of both, where a type counts as its own ancestor. -/
def commonAncestors (hierarchy : Hierarchy) (a b : Name) : Except HierarchyError (List Name) := do
  let above ← hierarchy.ancestorsOf a
  let other ← hierarchy.ancestorsOf b
  return above.names.filter (· ∈ other)

/-- The tightest of the given types.  The class of all host objects stands in where there is
none. -/
def tightestAmong (hierarchy : Hierarchy) (names : List Name) : Ancestry :=
  match (hierarchy.lowest names).names with
  | [] => .unique FixedType.hostObject.name
  | [name] => .unique name
  | names => .ambiguous names

/-- The tightest common ancestors of two types.  A name is its own ancestor, known or not. -/
def commonAncestry (hierarchy : Hierarchy) (a b : Name) : Except HierarchyError Ancestry :=
  if a = b then
    .ok (.unique a)
  else
    (hierarchy.commonAncestors a b).map hierarchy.tightestAmong

/-- The tightest common ancestor of two types, or the interface root where there are several. -/
def tightestCommonAncestor (hierarchy : Hierarchy) (a b : Name) : Except HierarchyError Name :=
  (hierarchy.commonAncestry a b).map (Ancestry.uniqueOr FixedType.iObject.name)

end Hierarchy

end SandboxTypes
