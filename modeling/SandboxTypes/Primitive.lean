import SandboxTypes.Name

/-!
# Primitive types

The eight types whose values are not objects.  Each has a keyword, a one-letter
tag for use in descriptors, and a hand-written wrapper class for its
one-dimensional arrays.
-/

namespace SandboxTypes

/-- A type whose values are not objects. -/
inductive Primitive where
  | boolean
  | char
  | float
  | double
  | byte
  | short
  | int
  | long
  deriving DecidableEq, Repr

namespace Primitive

/-- All primitive types. -/
def all : List Primitive := [boolean, char, float, double, byte, short, int, long]

/-- The word for the type in a program text. -/
def keyword : Primitive → String
  | boolean => "boolean"
  | char => "char"
  | float => "float"
  | double => "double"
  | byte => "byte"
  | short => "short"
  | int => "int"
  | long => "long"

/-- The letter for the type in a descriptor. -/
def tag : Primitive → Char
  | boolean => 'Z'
  | char => 'C'
  | float => 'F'
  | double => 'D'
  | byte => 'B'
  | short => 'S'
  | int => 'I'
  | long => 'J'

/-- The unqualified name of the class that wraps a one-dimensional array of the type. -/
def wrapperName : Primitive → Name
  | boolean => "BooleanArray"
  | char => "CharArray"
  | float => "FloatArray"
  | double => "DoubleArray"
  | byte => "ByteArray"
  | short => "ShortArray"
  | int => "IntArray"
  | long => "LongArray"

/-- The type with the given tag. -/
def ofTag? (c : Char) : Option Primitive := all.find? (·.tag = c)

/-- The type whose one-dimensional arrays have the given wrapper. -/
def ofWrapperName? (name : Name) : Option Primitive := all.find? (·.wrapperName = name)

theorem mem_all (p : Primitive) : p ∈ all := by cases p <;> decide

theorem ofTag?_eq_some_iff {c : Char} {p : Primitive} : ofTag? c = some p ↔ c = p.tag := by
  constructor
  · intro h
    have found := List.find?_some h
    exact (of_decide_eq_true found).symm
  · rintro rfl
    cases p <;> decide

theorem ofWrapperName?_eq_some_iff {name : Name} {p : Primitive} :
    ofWrapperName? name = some p ↔ name = p.wrapperName := by
  constructor
  · intro h
    have found := List.find?_some h
    exact (of_decide_eq_true found).symm
  · rintro rfl
    cases p <;> decide

end Primitive

end SandboxTypes
