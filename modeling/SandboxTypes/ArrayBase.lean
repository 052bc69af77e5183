import SandboxTypes.Name.Zone

/-!
# Array base types

Inside the sandbox every array is an object of a wrapper class, and the wrapper
classes share four hand-written base types: a class and an interface for arrays
of every kind, and a class and an interface for arrays of objects.  The base
types stand for no particular array and have no dimension.
-/

namespace SandboxTypes

/-- A hand-written base type of array wrappers. -/
inductive ArrayBase where
  /-- The class of all arrays. -/
  | array
  /-- The interface of all arrays. -/
  | iArray
  /-- The class of object arrays. -/
  | objectArray
  /-- The interface of object arrays. -/
  | iObjectArray
  deriving DecidableEq, Repr

namespace ArrayBase

/-- All array base types. -/
def all : List ArrayBase := [array, iArray, objectArray, iObjectArray]

/-- The dotted name of the type. -/
def name : ArrayBase → Name
  | array => "a.Array"
  | iArray => "a.IArray"
  | objectArray => "a.ObjectArray"
  | iObjectArray => "a.IObjectArray"

/-- Checks if the type is an interface. -/
def isInterface : ArrayBase → Bool
  | array | objectArray => false
  | iArray | iObjectArray => true

/-- The base type with the given name. -/
def ofName? (text : Name) : Option ArrayBase := all.find? (·.name = text)

theorem mem_all (base : ArrayBase) : base ∈ all := by cases base <;> decide

theorem ofName?_eq_some_iff {text : Name} {base : ArrayBase} :
    ofName? text = some base ↔ text = base.name := by
  constructor
  · intro h
    have found := List.find?_some h
    exact (of_decide_eq_true found).symm
  · rintro rfl
    cases base <;> decide

@[simp] theorem ofName?_name (base : ArrayBase) : ofName? base.name = some base :=
  ofName?_eq_some_iff.2 rfl

/-- The tightest base type above both.  Apart from a class and its own super class, and a class
and its own interface, two different base types meet at the interface of all arrays only. -/
def join : ArrayBase → ArrayBase → ArrayBase
  | array, array => array
  | array, objectArray => array
  | objectArray, array => array
  | objectArray, objectArray => objectArray
  | objectArray, iObjectArray => iObjectArray
  | iObjectArray, objectArray => iObjectArray
  | iObjectArray, iObjectArray => iObjectArray
  | _, _ => iArray

theorem join_self (base : ArrayBase) : base.join base = base := by cases base <;> rfl

theorem join_comm (a b : ArrayBase) : a.join b = b.join a := by cases a <;> cases b <;> rfl

end ArrayBase

end SandboxTypes
