import SandboxTypes.Name

/-!
# Why a name is not renamed

Names in the errors are in dotted form, whatever style the request was in.
-/

namespace SandboxTypes

/-- A cause for which a name has no counterpart in the other world. -/
inductive RenameError where
  /-- The host type may not be used in the sandbox. -/
  | notWhitelisted (name : Name)
  /-- A contract asks for a host type that may not be used in the sandbox. -/
  | rejected (name : Name)
  /-- The name is a host name already. -/
  | alreadyHost (name : Name)
  /-- The type belongs to the sandbox alone. -/
  | noHostForm (name : Name)
  /-- An array is to be renamed, and no wrapper family was asked for. -/
  | missingFamily (descriptor : Name)
  /-- The name has the form of an array and stands for none. -/
  | malformedArray (name : Name)
  /-- A sandbox name in a configuration lacks the mark of its zone. -/
  | missingMark (name mark : Name)
  deriving DecidableEq, Repr

namespace RenameError

/-- The text reported for an error. -/
def message : RenameError → String
  | notWhitelisted name => "Class " ++ name ++ " is not whitelisted"
  | rejected name => "Class " ++ name ++ " is not available to contracts"
  | alreadyHost name => "Name " ++ name ++ " is already in its original form"
  | noHostForm name => "Name " ++ name ++ " has no original form"
  | missingFamily descriptor => "An array kind is required to rename " ++ descriptor
  | malformedArray name => "Malformed array name: " ++ name
  | missingMark name mark =>
    "Invalid renamer configuration: " ++ name ++ " does not start with `" ++ mark ++ "`"

/-- Blames the contract for asking, where the type is not whitelisted. -/
def asRejection : RenameError → RenameError
  | notWhitelisted name => rejected name
  | error => error

end RenameError

end SandboxTypes
