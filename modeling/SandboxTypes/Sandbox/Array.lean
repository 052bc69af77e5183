import SandboxTypes.Sandbox

/-!
# Common super types of arrays

Inside the sandbox an array is an object of an ordinary class, so two arrays of
different shapes meet at a root only.  Object arrays of one dimension follow their
elements, and become unifying where one of them is or where the elements have no
single tightest ancestor.  Host arrays follow the covariance of the host, and
become precise arrays where they meet a type of the sandbox.
-/

namespace SandboxTypes

/-- The family of an array above two arrays: precise above precise ones only. -/
def Family.join : Family → Family → Family
  | precise, precise => precise
  | _, _ => unifying

theorem Family.join_comm (f g : Family) : f.join g = g.join f := by cases f <;> cases g <;> rfl

/-- A name that is read as an array. -/
inductive ArrayOperand where
  /-- A base type of array wrappers. -/
  | base (type : ArrayBase)
  /-- An array of the sandbox. -/
  | wrapper (wrapper : Wrapper)
  /-- An array of the host. -/
  | host (array : ArrayType)
  deriving DecidableEq, Repr

namespace ArrayOperand

/-- Reads a dotted name as an array, where it has the form of one. -/
def ofName? (text : Name) : Except RenameError (Option ArrayOperand) :=
  match ArrayBase.ofName? text, Wrapper.ofName? text with
  | some type, _ => .ok (some (base type))
  | none, some found => .ok (some (wrapper found))
  | none, none =>
    if ArrayType.opensDescriptor text then (ArrayType.ofHostName text).map (some ∘ host)
    else .ok none

end ArrayOperand

/-- Checks if the array is one-dimensional with primitive elements. -/
def ArrayType.isFlatPrimitive (array : ArrayType) : Bool :=
  array.dimension = 1 && array.isPrimitive

/-- Checks if the wrapper is an interface above precise wrappers. -/
def Wrapper.isUnifying (wrapper : Wrapper) : Bool := wrapper.family = .unifying

namespace ArrayOperand

/-- The type of the hierarchy that stands for an array, and the root that stands for it where the
hierarchy does not hold that type. -/
def anchors : ArrayOperand → Name × Name
  | base type => (type.name, sharedRoot type.isInterface)
  | wrapper found =>
    if found.array.isFlatPrimitive then (ArrayBase.array.name, sharedRoot false)
    else (sharedRoot found.isUnifying, sharedRoot found.isUnifying)
  | host array =>
    if array.isFlatPrimitive then (ArrayBase.array.name, sharedRoot false)
    else (sharedRoot false, sharedRoot false)

end ArrayOperand

/-- The common super type of a base type and an array of the sandbox. -/
def ArrayBase.meetWrapper (base : ArrayBase) (wrapper : Wrapper) : Name :=
  if base = .array ∧ wrapper.array.isFlatPrimitive then base.name
  else sharedRoot (base.isInterface || wrapper.isUnifying)

namespace Sandbox

/-- A host array as a precise array of the sandbox. -/
def wrap (sandbox : Sandbox) (array : ArrayType) : Except MergeError Wrapper :=
  (array.renameBase sandbox.rename).map (Wrapper.mk · .precise)

/-- The common super type of two arrays of the sandbox. -/
def mergeWrappers (sandbox : Sandbox) (lhs rhs : Wrapper) : Except MergeError Name :=
  if lhs = rhs then
    .ok lhs.name
  else if lhs.array.dimension ≠ rhs.array.dimension then
    .ok (sharedRoot (lhs.isUnifying || rhs.isUnifying))
  else
    match lhs.array.element, rhs.array.element with
    | .primitive _, .primitive _ => .ok (sharedRoot false)
    | .primitive _, .object _ => .ok (sharedRoot rhs.isUnifying)
    | .object _, .primitive _ => .ok (sharedRoot lhs.isUnifying)
    | .object x, .object y =>
      if x = y then
        .ok (Wrapper.name ⟨lhs.array, .unifying⟩)
      else do
        match ← sandbox.ancestry x y with
        | .ambiguous _ =>
          return Wrapper.name ⟨⟨lhs.array.dimension, .object FixedType.iObject.name⟩, .unifying⟩
        | .unique base =>
          return Wrapper.name ⟨⟨lhs.array.dimension, .object base⟩, lhs.family.join rhs.family⟩

/-- The common super type of two host arrays.  Arrays of different dimensions are both arrays of
objects at the smaller one. -/
def mergeHostArrays (sandbox : Sandbox) (lhs rhs : ArrayType) : Except MergeError Name :=
  if lhs.dimension ≠ rhs.dimension then
    .ok (ArrayType.descriptor
      ⟨min lhs.dimension rhs.dimension, .object FixedType.hostObject.name⟩)
  else
    match lhs.element, rhs.element with
    | .object x, .object y =>
      (sandbox.mergeHostClasses x y).map fun base =>
        ArrayType.descriptor ⟨lhs.dimension, .object base⟩
    | _, _ => .ok (sharedRoot false)

/-- The common super type of two different arrays. -/
def mergeOperands (sandbox : Sandbox) : ArrayOperand → ArrayOperand → Except MergeError Name
  | .base lhs, .base rhs => .ok (lhs.join rhs).name
  | .base base, .wrapper wrapper => .ok (base.meetWrapper wrapper)
  | .wrapper wrapper, .base base => .ok (base.meetWrapper wrapper)
  | .base base, .host array => (sandbox.wrap array).map base.meetWrapper
  | .host array, .base base => (sandbox.wrap array).map base.meetWrapper
  | .wrapper lhs, .wrapper rhs => sandbox.mergeWrappers lhs rhs
  | .wrapper lhs, .host rhs => do sandbox.mergeWrappers lhs (← sandbox.wrap rhs)
  | .host lhs, .wrapper rhs => do sandbox.mergeWrappers (← sandbox.wrap lhs) rhs
  | .host lhs, .host rhs => sandbox.mergeHostArrays lhs rhs

/-- The common super type of an array and a class or interface.  Above a host array and a host class
is the class of all objects only. -/
def mergeWithClass (sandbox : Sandbox) (operand : ArrayOperand) (name : Name) :
    Except MergeError Name :=
  if name = FixedType.hostObject.name then
    .ok FixedType.hostObject.name
  else do
    let resolved ← sandbox.resolve name
    match operand, resolved.world with
    | .host _, .host => return FixedType.hostObject.name
    | _, _ =>
      let (anchor, root) := operand.anchors
      let ancestry ← sandbox.ancestry
        (if sandbox.hierarchy.contains anchor then anchor else root) resolved.name
      return ancestry.uniqueOr FixedType.iObject.name

/-- The common super type of two dotted names, unless neither is read as an array. -/
def mergeArrays (sandbox : Sandbox) (a b : Name) : Except MergeError (Option Name) := do
  let lhs ← (ArrayOperand.ofName? a).mapError .rename
  let rhs ← (ArrayOperand.ofName? b).mapError .rename
  match lhs, rhs with
  | none, none => return none
  | some lhs, none => some <$> sandbox.mergeWithClass lhs b
  | none, some rhs => some <$> sandbox.mergeWithClass rhs a
  | some lhs, some rhs => if a = b then return some a else some <$> sandbox.mergeOperands lhs rhs

/-! ### In the style of the renamer -/

/-- The common super type of two classes or interfaces, and nothing where a name is read as an
array. -/
def commonSuperOfClasses (sandbox : Sandbox) (a b : Name) : Except MergeError (Option Name) :=
  sandbox.renamer.style.around₂ sandbox.mergePlain a b

/-- The common super type of two types one of which is read as an array, and nothing where neither
is. -/
def commonSuperOfArrays (sandbox : Sandbox) (a b : Name) : Except MergeError (Option Name) :=
  sandbox.renamer.style.around₂ sandbox.mergeArrays a b

/-- The common super type of two dotted names. -/
def merge (sandbox : Sandbox) (a b : Name) : Except MergeError Name := do
  match ← sandbox.mergeArrays a b with
  | some merged => return merged
  | none => sandbox.mergeClasses a b

/-- The common super type of two types.  A type merged with itself is given back as it was written,
whatever it is. -/
def commonSuper (sandbox : Sandbox) (a b : Name) : Except MergeError Name :=
  if sandbox.renamer.style.toDotted a = sandbox.renamer.style.toDotted b then
    .ok a
  else
    (sandbox.merge (sandbox.renamer.style.toDotted a) (sandbox.renamer.style.toDotted b)).map
      sandbox.renamer.style.ofDotted

end Sandbox

end SandboxTypes
