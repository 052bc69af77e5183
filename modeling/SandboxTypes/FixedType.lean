import SandboxTypes.Name

/-!
# Types with a fixed place

Eight types have the same name and the same place in every sandbox: four roots
that every hierarchy holds, and four exception classes that are seeded whatever
else is.
-/

namespace SandboxTypes

/-- A type whose name and place are the same in every sandbox. -/
inductive FixedType where
  /-- The class of all objects on the host, and the top of the hierarchy. -/
  | hostObject
  /-- The interface above all types of the sandbox. -/
  | iObject
  /-- The class of all objects of the sandbox. -/
  | shadowObject
  /-- The class of everything the host can throw. -/
  | hostThrowable
  | shadowThrowable
  | shadowError
  | shadowException
  | shadowRuntimeException
  deriving DecidableEq, Repr

namespace FixedType

/-- All types with a fixed place. -/
def all : List FixedType :=
  [hostObject, iObject, shadowObject, hostThrowable, shadowThrowable, shadowError,
    shadowException, shadowRuntimeException]

/-- The types that every hierarchy holds. -/
def roots : List FixedType := [hostObject, iObject, shadowObject, hostThrowable]

/-- The dotted name of the type. -/
def name : FixedType → Name
  | hostObject => "java.lang.Object"
  | iObject => "i.IObject"
  | shadowObject => "s.java.lang.Object"
  | hostThrowable => "java.lang.Throwable"
  | shadowThrowable => "s.java.lang.Throwable"
  | shadowError => "s.java.lang.Error"
  | shadowException => "s.java.lang.Exception"
  | shadowRuntimeException => "s.java.lang.RuntimeException"

/-- The fixed type with the given name. -/
def ofName? (text : Name) : Option FixedType := all.find? (·.name = text)

/-- Checks if every hierarchy holds the type from the start. -/
def isRoot : FixedType → Bool
  | hostObject | iObject | shadowObject | hostThrowable => true
  | shadowThrowable | shadowError | shadowException | shadowRuntimeException => false

/-- Checks if the type is an interface. -/
def isInterface (type : FixedType) : Bool := type = iObject

/-- Checks if the type is one of the upper exception classes of the sandbox. -/
def isExceptionRoot : FixedType → Bool
  | shadowThrowable | shadowError | shadowException | shadowRuntimeException => true
  | hostObject | iObject | shadowObject | hostThrowable => false

theorem mem_all (type : FixedType) : type ∈ all := by cases type <;> decide

theorem mem_roots_iff (type : FixedType) : type ∈ roots ↔ type.isRoot := by
  cases type <;> decide

theorem ofName?_eq_some_iff {text : Name} {type : FixedType} :
    ofName? text = some type ↔ text = type.name := by
  constructor
  · intro h
    have found := List.find?_some h
    exact (of_decide_eq_true found).symm
  · rintro rfl
    cases type <;> decide

end FixedType

/-- The root above two sandbox types that share nothing else: the interface root if one of them
is known only by its interface, and the class root otherwise. -/
def sharedRoot (byInterface : Bool) : Name :=
  if byInterface then FixedType.iObject.name else FixedType.shadowObject.name

end SandboxTypes
