import SandboxTypes.FixedType
import SandboxTypes.HostLibrary
import SandboxTypes.Name.Style
import SandboxTypes.Renamer.ArrayName
import SandboxTypes.World

/-!
# The renamer

A renamer maps names between the host and the sandbox.  It is given by the host
names of the types a contract may use, in four lists, one for each rule:

* classes of the contract lie in the user zone, or keep their names in debug mode;
* exceptions and other library types lie in the shadow zone;
* types that face the host lie in the API zone.

The class of all objects is always allowed and lies in the shadow zone.

`sandboxName` and `hostName` work on dotted names.  `toSandbox`, `toHost` and the
other functions at the end read and write names in the renamer's style.
-/

namespace SandboxTypes

/-- What a renamer is made from.  All names are in `style`.  Classes of the contract and exceptions
may be listed by either of their names. -/
structure RenamerConfig where
  style : NameStyle
  /-- Whether classes of the contract keep their names. -/
  debug : Bool
  contractClasses : List (Name × World)
  exceptions : List (Name × World)
  shadowTypes : List Name
  apiTypes : List Name
  deriving Repr

/-- The lists of a renamer, in dotted host names. -/
structure Renamer where
  style : NameStyle
  debug : Bool
  contractClasses : List Name
  exceptions : List Name
  shadowTypes : List Name
  apiTypes : List Name
  deriving Repr

namespace RenamerConfig

/-- The configuration that allows nothing but the class of all objects. -/
def empty (style : NameStyle) (debug : Bool) : RenamerConfig := ⟨style, debug, [], [], [], []⟩

/-- Allows the host library, after what is allowed already. -/
def withHostLibrary (config : RenamerConfig) : RenamerConfig :=
  let written (types : List HostType) := types.map fun type => config.style.ofDotted type.name
  { config with
    exceptions := config.exceptions ++ (written HostLibrary.shadowExceptions).map (·, .host)
    shadowTypes := config.shadowTypes ++ written HostLibrary.shadowTypes
    apiTypes := config.apiTypes ++ written HostLibrary.apiTypes }

end RenamerConfig

namespace Renamer

/-! ### Making a renamer -/

/-- The dotted host name of a listed type, whose sandbox name starts with `mark`. -/
def listedName (style : NameStyle) (mark : Name) : Name × World → Except RenameError Name
  | (name, .host) => .ok (style.toDotted name)
  | (name, .sandbox) =>
    match dropMark? mark (style.toDotted name) with
    | some hostName => .ok hostName
    | none => .error (.missingMark (style.toDotted name) mark)

/-- What the sandbox names of contract classes start with. -/
def userMark (debug : Bool) : Name := if debug then "" else Zone.user.mark

/-- Makes a renamer.  Contract classes are read before exceptions, each in the order of its list,
and the first name that lacks its mark is reported. -/
def ofConfig (config : RenamerConfig) : Except RenameError Renamer := do
  let contractClasses ←
    config.contractClasses.mapM (listedName config.style (userMark config.debug))
  let exceptions ← config.exceptions.mapM (listedName config.style Zone.shadow.mark)
  return {
    style := config.style
    debug := config.debug
    contractClasses := contractClasses
    exceptions := exceptions
    shadowTypes := config.shadowTypes.map config.style.toDotted
    apiTypes := config.apiTypes.map config.style.toDotted }

/-! ### From the host to the sandbox -/

/-- The sandbox name of a host class.  The lists are asked in order of priority. -/
def sandboxClassName (renamer : Renamer) (name : Name) : Except RenameError Name :=
  if name ∈ renamer.contractClasses then
    .ok (if renamer.debug then name else Zone.user.qualify name)
  else if name = FixedType.hostObject.name ∨ name ∈ renamer.exceptions ∨
      name ∈ renamer.shadowTypes then
    .ok (Zone.shadow.qualify name)
  else if name ∈ renamer.apiTypes then
    .ok (Zone.api.qualify name)
  else
    .error (.notWhitelisted name)

/-- The sandbox name of a host class or array.  An array is renamed in its element, and becomes a
wrapper of the requested family. -/
def sandboxName (renamer : Renamer) (name : Name) (family : Option Family) :
    Except RenameError Name :=
  if ArrayType.opensDescriptor name then do
    let array ← ArrayType.ofHostName name
    let renamed ← array.renameBase renamer.sandboxClassName
    renamed.wrapperName family
  else
    renamer.sandboxClassName name

/-- The name of the class that carries a host exception which is thrown again in the sandbox. -/
def exceptionWrapperName (renamer : Renamer) (name : Name) : Except RenameError Name :=
  if name ∈ renamer.exceptions ∨ name ∈ renamer.contractClasses then
    .ok (Zone.exception.qualify name)
  else
    .error (.notWhitelisted name)

/-! ### From the sandbox to the host -/

/-- Checks if a name is the unchanged name of a contract class. -/
def keepsName (renamer : Renamer) (name : Name) : Bool :=
  renamer.debug && decide (name ∈ renamer.contractClasses)

/-- The zones that mark the sandbox names of host classes. -/
def classZones (renamer : Renamer) : List Zone :=
  if renamer.debug then [.shadow, .api] else [.user, .shadow, .api]

/-- The host name of a sandbox class. -/
def hostClassName (renamer : Renamer) (name : Name) : Except RenameError Name :=
  if renamer.keepsName name then
    .ok name
  else
    match renamer.classZones.findSome? (·.unqualify? name) with
    | some hostName => .ok hostName
    | none =>
      if Zone.internal.covers name then .error (.noHostForm name) else .error (.alreadyHost name)

/-- The host name of a sandbox class, of an exception carrier or of an array wrapper. -/
def hostName (renamer : Renamer) (name : Name) : Except RenameError Name :=
  if renamer.keepsName name then
    .ok name
  else if let some carried := Zone.exception.unqualify? name then
    .ok carried
  else if (ArrayBase.ofName? name).isSome then
    .error (.noHostForm name)
  else if let some wrapper := Wrapper.ofName? name then
    (wrapper.array.renameBase renamer.hostClassName).map ArrayType.descriptor
  else if Zone.array.covers name ∨ Zone.unifying.covers name then
    .error (.malformedArray name)
  else
    renamer.hostClassName name

/-! ### In the renamer's style -/

/-- Maps a host name to its sandbox name.  A class ignores the family. -/
def toSandbox (renamer : Renamer) (name : Name) (family : Option Family) :
    Except RenameError Name :=
  renamer.style.around (renamer.sandboxName · family) name

/-- Maps a host name that a contract refers to. -/
def toSandboxOrReject (renamer : Renamer) (name : Name) (family : Option Family) :
    Except RenameError Name :=
  (renamer.toSandbox name family).mapError RenameError.asRejection

/-- Maps a sandbox name to its host name. -/
def toHost (renamer : Renamer) (name : Name) : Except RenameError Name :=
  renamer.style.around renamer.hostName name

/-- Maps the host name of an exception to the name of its carrier, which `toHost` maps back. -/
def toExceptionWrapper (renamer : Renamer) (name : Name) : Except RenameError Name :=
  renamer.style.around renamer.exceptionWrapperName name

/-- Checks if a name is read as an array in either world. -/
def isArrayName (renamer : Renamer) (name : Name) : Bool :=
  isArrayShaped (renamer.style.toDotted name)

end Renamer

end SandboxTypes
