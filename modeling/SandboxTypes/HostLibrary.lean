import SandboxTypes.Name

/-!
# The host library

The host types that a contract may use, as three tables: the part of the
standard library that has counterparts in the sandbox, the exceptions that have,
and the types that face the host.  The order of a table, and of the interfaces
of a type, is the order of listing.

The class of all objects is in no table: its counterpart has a fixed place.
-/

namespace SandboxTypes

/-- A host class or interface, described in host names. -/
structure HostType where
  name : Name
  isInterface : Bool
  superClass? : Option Name
  interfaces : List Name
  deriving DecidableEq, Repr

namespace HostType

/-- A class with its super class and its interfaces. -/
def classOf (name superClass : Name) (interfaces : List Name) : HostType :=
  ⟨name, false, some superClass, interfaces⟩

/-- An interface with its super-interfaces. -/
def interfaceOf (name : Name) (interfaces : List Name) : HostType :=
  ⟨name, true, none, interfaces⟩

/-- The declared parents: the super class, and the interfaces. -/
def parents (type : HostType) : List Name := type.superClass?.toList ++ type.interfaces

end HostType

namespace HostLibrary

open HostType

/-- The class of all objects. -/
def object : Name := "java.lang.Object"

/-- The interface of types with an order. -/
def comparable : Name := "java.lang.Comparable"

/-- The interface of types that can be stored. -/
def serializable : Name := "java.io.Serializable"

/-- The interface of texts. -/
def charSequence : Name := "java.lang.CharSequence"

/-- The standard library types with a counterpart in the sandbox, other than exceptions. -/
def shadowTypes : List HostType :=
  [ interfaceOf comparable [],
    interfaceOf serializable [],
    interfaceOf charSequence [],
    interfaceOf "java.lang.Iterable" [],
    interfaceOf "java.lang.Runnable" [],
    interfaceOf "java.lang.AutoCloseable" [],
    interfaceOf "java.util.Collection" ["java.lang.Iterable"],
    interfaceOf "java.util.List" ["java.util.Collection"],
    interfaceOf "java.util.Set" ["java.util.Collection"],
    interfaceOf "java.util.Map" [],
    interfaceOf "java.util.Iterator" [],
    interfaceOf "java.util.function.Function" [],
    classOf "java.lang.Number" object [serializable],
    classOf "java.lang.Byte" "java.lang.Number" [comparable],
    classOf "java.lang.Short" "java.lang.Number" [comparable],
    classOf "java.lang.Integer" "java.lang.Number" [comparable],
    classOf "java.lang.Long" "java.lang.Number" [comparable],
    classOf "java.lang.Float" "java.lang.Number" [comparable],
    classOf "java.lang.Double" "java.lang.Number" [comparable],
    classOf "java.lang.Boolean" object [serializable, comparable],
    classOf "java.lang.Character" object [serializable, comparable],
    classOf "java.lang.String" object [serializable, comparable, charSequence],
    classOf "java.lang.StringBuilder" object [serializable, charSequence],
    classOf "java.lang.Class" object [serializable],
    classOf "java.lang.Enum" object [comparable, serializable],
    classOf "java.lang.Math" object [],
    classOf "java.lang.System" object [],
    classOf "java.math.BigInteger" "java.lang.Number" [comparable],
    classOf "java.math.BigDecimal" "java.lang.Number" [comparable],
    classOf "java.math.MathContext" object [serializable],
    classOf "java.math.RoundingMode" "java.lang.Enum" [],
    classOf "java.util.Arrays" object [] ]

/-- The exceptions with a counterpart in the sandbox. -/
def shadowExceptions : List HostType :=
  [ classOf "java.lang.Throwable" object [],
    classOf "java.lang.Error" "java.lang.Throwable" [],
    classOf "java.lang.Exception" "java.lang.Throwable" [],
    classOf "java.lang.RuntimeException" "java.lang.Exception" [],
    classOf "java.lang.AssertionError" "java.lang.Error" [],
    classOf "java.lang.LinkageError" "java.lang.Error" [],
    classOf "java.lang.NoClassDefFoundError" "java.lang.LinkageError" [],
    classOf "java.lang.ExceptionInInitializerError" "java.lang.LinkageError" [],
    classOf "java.lang.VirtualMachineError" "java.lang.Error" [],
    classOf "java.lang.OutOfMemoryError" "java.lang.VirtualMachineError" [],
    classOf "java.lang.StackOverflowError" "java.lang.VirtualMachineError" [],
    classOf "java.lang.ReflectiveOperationException" "java.lang.Exception" [],
    classOf "java.lang.ClassNotFoundException" "java.lang.ReflectiveOperationException" [],
    classOf "java.lang.NoSuchFieldException" "java.lang.ReflectiveOperationException" [],
    classOf "java.lang.CloneNotSupportedException" "java.lang.Exception" [],
    classOf "java.lang.InterruptedException" "java.lang.Exception" [],
    classOf "java.lang.ArithmeticException" "java.lang.RuntimeException" [],
    classOf "java.lang.ArrayStoreException" "java.lang.RuntimeException" [],
    classOf "java.lang.ClassCastException" "java.lang.RuntimeException" [],
    classOf "java.lang.IllegalArgumentException" "java.lang.RuntimeException" [],
    classOf "java.lang.NumberFormatException" "java.lang.IllegalArgumentException" [],
    classOf "java.lang.IllegalStateException" "java.lang.RuntimeException" [],
    classOf "java.lang.IndexOutOfBoundsException" "java.lang.RuntimeException" [],
    classOf "java.lang.ArrayIndexOutOfBoundsException" "java.lang.IndexOutOfBoundsException" [],
    classOf "java.lang.StringIndexOutOfBoundsException" "java.lang.IndexOutOfBoundsException" [],
    classOf "java.lang.NegativeArraySizeException" "java.lang.RuntimeException" [],
    classOf "java.lang.NullPointerException" "java.lang.RuntimeException" [],
    classOf "java.lang.UnsupportedOperationException" "java.lang.RuntimeException" [],
    classOf "java.util.NoSuchElementException" "java.lang.RuntimeException" [],
    classOf "java.util.ConcurrentModificationException" "java.lang.RuntimeException" [] ]

/-- The types that face the host. -/
def apiTypes : List HostType :=
  [ classOf "avm.Address" object [],
    classOf "avm.Blockchain" object [],
    classOf "avm.Result" object [],
    classOf "avm.RequireFailedException" "java.lang.RuntimeException" [] ]

/-- All types of the host library. -/
def all : List HostType := shadowTypes ++ shadowExceptions ++ apiTypes

/-- The names of all types of the host library, and of the class of all objects. -/
def names : List Name := object :: all.map HostType.name

end HostLibrary

end SandboxTypes
