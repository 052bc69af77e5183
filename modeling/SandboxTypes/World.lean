/-!
# The two worlds of names

A type has a host name and a sandbox name.  Wherever a name may be given in
either, a `World` tells which one is meant.
-/

namespace SandboxTypes

/-- The namespace a name is written in. -/
inductive World where
  /-- Before renaming. -/
  | host
  /-- After renaming. -/
  | sandbox
  deriving DecidableEq, Repr

/-- The words for the namespace of a world. -/
def World.label : World → String
  | host => "pre-rename"
  | sandbox => "post-rename"

end SandboxTypes
