import SandboxTypes.Proofs.ArrayType.Format
import SandboxTypes.Proofs.Renamer.KeptNames

/-!
# The whitelist

A configuration lists types in four places, in a style, and some of them by their
sandbox names.  `RenamerConfig.Allows` says which classes that comes to, in dotted host
names, and `RenamerConfig.Admits` which host names a renamer has to let in: the classes
themselves, and the arrays of these and of primitives.

`toSandbox_whitelist` is that the renamer lets in these and no others.  A host name falls
into one of three kinds (`exists_reading`), a class, an array or a malformed text, and
each kind has its rule.  Whatever the kind is, it is one class that is looked up, if any
(`ClassIn`), and it is this class that a refusal names.
-/

namespace SandboxTypes

open FixedType (hostObject)

/-! ## What a configuration allows -/

/-- A type is listed with a dotted host name, be it by this name or by its sandbox name. -/
inductive IsListedAs (style : NameStyle) (mark : Name) : Name × World → Name → Prop where
  | host (name : Name) : IsListedAs style mark (name, .host) (style.toDotted name)
  | sandbox {name host : Name} (marked : style.toDotted name = mark ++ host) :
      IsListedAs style mark (name, .sandbox) host

theorem isListedAs_host_iff {style : NameStyle} {mark written name : Name} :
    IsListedAs style mark (written, .host) name ↔ style.toDotted written = name := by
  constructor
  · rintro ⟨⟩
    rfl
  · rintro rfl
    exact .host written

theorem isListedAs_sandbox_iff {style : NameStyle} {mark written name : Name} :
    IsListedAs style mark (written, .sandbox) name ↔ style.toDotted written = mark ++ name := by
  constructor
  · intro h
    cases h with
    | sandbox marked => exact marked
  · exact .sandbox

namespace RenamerConfig

/-- The classes that a configuration lets in, by their dotted host names. -/
inductive Allows (config : RenamerConfig) : Name → Prop where
  | object : Allows config hostObject.name
  | contractClass {listed : Name × World} {name : Name} (mem : listed ∈ config.contractClasses)
      (named : IsListedAs config.style (Renamer.userMark config.debug) listed name) :
      Allows config name
  | exception {listed : Name × World} {name : Name} (mem : listed ∈ config.exceptions)
      (named : IsListedAs config.style Zone.shadow.mark listed name) : Allows config name
  | shadowType {listed : Name} (mem : listed ∈ config.shadowTypes) :
      Allows config (config.style.toDotted listed)
  | apiType {listed : Name} (mem : listed ∈ config.apiTypes) :
      Allows config (config.style.toDotted listed)

/-- The dotted host names that a configuration lets in, where a family of wrappers may be asked
for.  A class needs none, and an array needs one. -/
inductive Admits (config : RenamerConfig) : Name → Option Family → Prop where
  | plain {name : Name} (family? : Option Family)
      (notArray : ArrayType.opensDescriptor name = false) (allowed : config.Allows name) :
      Admits config name family?
  | primitives {name : Name} {dimension : Nat} {type : Primitive} (family : Family)
      (described : ArrayType.Describes name ⟨dimension, .primitive type⟩) :
      Admits config name (some family)
  | objects {name base : Name} {dimension : Nat} (family : Family)
      (described : ArrayType.Describes name ⟨dimension, .object base⟩)
      (allowed : config.Allows base) : Admits config name (some family)

end RenamerConfig

/-- The class that a host name brings up: the class itself, or that of the elements of an array. -/
inductive ClassIn : Name → Name → Prop where
  | plain {name : Name} (notArray : ArrayType.opensDescriptor name = false) : ClassIn name name
  | element {name base : Name} {dimension : Nat}
      (described : ArrayType.Describes name ⟨dimension, .object base⟩) : ClassIn name base

namespace Renamer

variable {config : RenamerConfig} {renamer : Renamer} {name refused : Name}
  {family? : Option Family}

/-! ## From the lists of a configuration to those of a renamer -/

theorem listedName_eq_ok_iff {style : NameStyle} {mark : Name} {listed : Name × World} :
    listedName style mark listed = .ok name ↔ IsListedAs style mark listed name := by
  obtain ⟨written, world⟩ := listed
  cases world with
  | host => rw [isListedAs_host_iff, listedName, Except.ok.injEq]
  | sandbox =>
      rw [isListedAs_sandbox_iff, ← dropMark?_eq_some_iff, listedName]
      cases dropMark? mark (style.toDotted written) <;> simp

section Accepted

variable (accepted : ofConfig config = .ok renamer)

include accepted

theorem allows_iff : config.Allows name ↔
    name ∈ renamer.contractClasses ∨
      (name = hostObject.name ∨ name ∈ renamer.exceptions ∨ name ∈ renamer.shadowTypes) ∨
        name ∈ renamer.apiTypes := by
  obtain ⟨-, -, hcontract, hexceptions, hshadow, hapi⟩ := ofConfig_eq_ok accepted
  simp only [mem_of_mapM_eq_ok hcontract, mem_of_mapM_eq_ok hexceptions, listedName_eq_ok_iff,
    hshadow, hapi, List.mem_map]
  constructor
  · intro h
    cases h with
    | object => exact Or.inr (Or.inl (Or.inl rfl))
    | contractClass mem named => exact Or.inl ⟨_, mem, named⟩
    | exception mem named => exact Or.inr (Or.inl (Or.inr (Or.inl ⟨_, mem, named⟩)))
    | shadowType mem => exact Or.inr (Or.inl (Or.inr (Or.inr ⟨_, mem, rfl⟩)))
    | apiType mem => exact Or.inr (Or.inr ⟨_, mem, rfl⟩)
  · rintro (⟨listed, mem, named⟩ | (rfl | ⟨listed, mem, named⟩ | ⟨listed, mem, rfl⟩) |
      ⟨listed, mem, rfl⟩)
    · exact .contractClass mem named
    · exact .object
    · exact .exception mem named
    · exact .shadowType mem
    · exact .apiType mem

/-- A class is let in if it is on the whitelist, and is refused by its name if it is not. -/
theorem sandboxClassName_whitelist (name : Name) :
    (config.Allows name ∧ ∃ answer, renamer.sandboxClassName name = .ok answer) ∨
      (¬ config.Allows name ∧ renamer.sandboxClassName name = .error (.notWhitelisted name)) := by
  rw [allows_iff accepted]
  unfold sandboxClassName
  split
  case isTrue hcontract => exact Or.inl ⟨Or.inl hcontract, _, rfl⟩
  case isFalse hforeign =>
    split
    case isTrue hshadow => exact Or.inl ⟨Or.inr (Or.inl hshadow), _, rfl⟩
    case isFalse hunlisted =>
      split
      case isTrue hapi => exact Or.inl ⟨Or.inr (Or.inr hapi), _, rfl⟩
      case isFalse hunknown => exact Or.inr ⟨by simp [hforeign, hunlisted, hunknown], rfl⟩

end Accepted

/-! ## The three kinds of host names -/

theorem exists_reading (name : Name) :
    ArrayType.opensDescriptor name = false ∨ (∃ array, ArrayType.Describes name array) ∨
      (ArrayType.opensDescriptor name = true ∧ ArrayType.ofDescriptor? name = none) := by
  cases hopens : ArrayType.opensDescriptor name with
  | false => exact Or.inl rfl
  | true =>
      cases hread : ArrayType.ofDescriptor? name with
      | none => exact Or.inr (Or.inr ⟨rfl, rfl⟩)
      | some array =>
          exact Or.inr (Or.inl ⟨array, ArrayType.ofDescriptor?_eq_some_iff_describes.1 hread⟩)

theorem sandboxName_of_class (notArray : ArrayType.opensDescriptor name = false) :
    renamer.sandboxName name family? = renamer.sandboxClassName name := by
  rw [sandboxName, if_neg (Bool.eq_false_iff.1 notArray)]

theorem sandboxName_of_describes {array : ArrayType} (h : ArrayType.Describes name array) :
    renamer.sandboxName name family? =
      array.renameBase renamer.sandboxClassName >>= (·.wrapperName family?) := by
  rw [h.eq_descriptor]
  exact sandboxName_descriptor h.isWritable

theorem sandboxName_of_malformed (hopens : ArrayType.opensDescriptor name = true)
    (hread : ArrayType.ofDescriptor? name = none) :
    renamer.sandboxName name family? = .error (.malformedArray name) := by
  rw [sandboxName, if_pos hopens, ArrayType.ofHostName, hread]
  rfl

/-- An array is named after the class of its elements only. -/
theorem sandboxName_of_objects {base : Name} {dimension : Nat}
    (h : ArrayType.Describes name ⟨dimension, .object base⟩) :
    renamer.sandboxName name family? = renamer.sandboxClassName base >>= fun renamed =>
      ArrayType.wrapperName ⟨dimension, .object renamed⟩ family? := by
  rw [sandboxName_of_describes h]
  cases hbase : renamer.sandboxClassName base with
  | error error => simp [ArrayType.renameBase, hbase, Except.map, bind, Except.bind]
  | ok renamed => simp [ArrayType.renameBase, hbase, Except.map, bind, Except.bind]

theorem wrapperName_ne_notWhitelisted (array : ArrayType) (family? : Option Family)
    (refused : Name) : array.wrapperName family? ≠ .error (.notWhitelisted refused) := by
  cases family? <;> simp [ArrayType.wrapperName]

section Accepted

variable (accepted : ofConfig config = .ok renamer)

include accepted

/-- A dotted name is let in exactly if the configuration says so. -/
theorem exists_sandboxName_iff :
    (∃ answer, renamer.sandboxName name family? = .ok answer) ↔ config.Admits name family? := by
  constructor
  · rintro ⟨answer, h⟩
    rcases exists_reading name with notArray | ⟨⟨dimension, element⟩, described⟩ | ⟨hopens, hread⟩
    · rw [sandboxName_of_class notArray] at h
      rcases sandboxClassName_whitelist accepted name with ⟨allowed, -⟩ | ⟨-, hrefused⟩
      · exact .plain family? notArray allowed
      · rw [hrefused] at h
        exact absurd h (by simp)
    · rw [sandboxName_of_describes described] at h
      obtain ⟨renamed, hrenamed, h⟩ := bind_eq_ok_iff.1 h
      obtain ⟨family, rfl, -⟩ := ArrayType.wrapperName_eq_ok_iff.1 h
      cases element with
      | primitive type => exact .primitives family described
      | object base =>
          rcases sandboxClassName_whitelist accepted base with ⟨allowed, -⟩ | ⟨-, hrefused⟩
          · exact .objects family described allowed
          · simp [ArrayType.renameBase, hrefused, Except.map] at hrenamed
    · rw [sandboxName_of_malformed hopens hread] at h
      exact absurd h (by simp)
  · have hgranted : ∀ {name}, config.Allows name →
        ∃ answer, renamer.sandboxClassName name = .ok answer := by
      intro name allowed
      rcases sandboxClassName_whitelist accepted name with ⟨-, hanswer⟩ | ⟨hforbidden, -⟩
      · exact hanswer
      · exact absurd allowed hforbidden
    intro h
    cases h with
    | plain _ notArray allowed =>
        rw [sandboxName_of_class notArray]
        exact hgranted allowed
    | primitives family described =>
        rw [sandboxName_of_describes described]
        exact ⟨_, rfl⟩
    | objects family described allowed =>
        obtain ⟨renamed, hrenamed⟩ := hgranted allowed
        rw [sandboxName_of_objects described, hrenamed]
        exact ⟨_, rfl⟩

/-- A dotted name is refused for a class exactly if it brings up the class, and the configuration
does not allow it. -/
theorem sandboxName_eq_notWhitelisted_iff :
    renamer.sandboxName name family? = .error (.notWhitelisted refused) ↔
      ClassIn name refused ∧ ¬ config.Allows refused := by
  constructor
  · intro h
    rcases exists_reading name with notArray | ⟨⟨dimension, element⟩, described⟩ | ⟨hopens, hread⟩
    · rw [sandboxName_of_class notArray] at h
      rcases sandboxClassName_whitelist accepted name with ⟨-, answer, hanswer⟩ |
        ⟨hforbidden, hrefused⟩
      · rw [hanswer] at h
        exact absurd h (by simp)
      · rw [hrefused, Except.error.injEq, RenameError.notWhitelisted.injEq] at h
        exact h ▸ ⟨.plain notArray, hforbidden⟩
    · cases element with
      | primitive type =>
          rw [sandboxName_of_describes described] at h
          exact absurd h (wrapperName_ne_notWhitelisted _ _ _)
      | object base =>
          rw [sandboxName_of_objects described] at h
          rcases sandboxClassName_whitelist accepted base with ⟨-, renamed, hrenamed⟩ |
            ⟨hforbidden, hrefused⟩
          · rw [hrenamed] at h
            exact absurd h (wrapperName_ne_notWhitelisted _ _ _)
          · rw [hrefused] at h
            obtain rfl : base = refused := RenameError.notWhitelisted.inj (Except.error.inj h)
            exact ⟨.element described, hforbidden⟩
    · rw [sandboxName_of_malformed hopens hread] at h
      exact absurd h (by simp)
  · rintro ⟨brought, forbidden⟩
    have hrefused := (sandboxClassName_whitelist accepted refused).resolve_left
      fun allowed => forbidden allowed.1
    cases brought with
    | plain notArray =>
        rw [sandboxName_of_class notArray]
        exact hrefused.2
    | element described =>
        rw [sandboxName_of_objects described, hrefused.2]
        rfl

/-! ## In the renamer's style -/

/-- A host name is let in exactly if the configuration admits it.  It is refused for a class exactly
if that is the class that it brings up, and the class is not allowed.  Who asks on behalf of a
contract is let in alike, and is refused alike but for the blame in that case. -/
theorem toSandbox_whitelist (name : Name) (family? : Option Family) :
    ((∃ answer, renamer.toSandbox name family? = .ok answer) ↔
      config.Admits (config.style.toDotted name) family?) ∧
    (∀ refused, renamer.toSandbox name family? = .error (.notWhitelisted refused) ↔
      ClassIn (config.style.toDotted name) refused ∧ ¬ config.Allows refused) ∧
    (∀ answer, renamer.toSandboxOrReject name family? = .ok answer ↔
      renamer.toSandbox name family? = .ok answer) ∧
    (∀ refused, renamer.toSandbox name family? = .error (.notWhitelisted refused) →
      renamer.toSandboxOrReject name family? = .error (.rejected refused)) ∧
    ∀ error, (∀ refused, error ≠ .notWhitelisted refused) →
      renamer.toSandbox name family? = .error error →
        renamer.toSandboxOrReject name family? = .error error := by
  obtain ⟨hstyle, -⟩ := ofConfig_eq_ok accepted
  refine ⟨?_, fun refused => ?_, fun answer => ?_, fun refused h => ?_, fun error hother h => ?_⟩
  · rw [← exists_sandboxName_iff accepted, toSandbox, hstyle, NameStyle.around]
    simp only [map_eq_ok_iff]
    constructor
    · rintro ⟨_, dotted, h, _⟩
      exact ⟨dotted, h⟩
    · rintro ⟨dotted, h⟩
      exact ⟨_, dotted, h, rfl⟩
  · rw [← sandboxName_eq_notWhitelisted_iff accepted, toSandbox, hstyle, NameStyle.around,
      map_eq_error_iff]
  · rw [toSandboxOrReject, mapError_eq_ok_iff]
  · rw [toSandboxOrReject, h]
    rfl
  · rw [toSandboxOrReject, h]
    cases error with
    | notWhitelisted refused => exact absurd rfl (hother refused)
    | _ => rfl

end Accepted

/-- An array whose elements are listed by their sandbox name is let in.  One of forbidden elements
is refused for these, although no family is asked for either. -/
theorem crookedConfig_toSandbox_whitelist :
    ofConfig crookedConfig = .ok crookedRenamer ∧
    (crookedRenamer.toSandbox "[[Le/_[;" (some .unifying) = .ok "w/__Luser/e/_[" ∧
      crookedConfig.Admits "[[Le._[;" (some .unifying)) ∧
    (crookedRenamer.toSandbox "[[Le/_[;" none = .error (.missingFamily "[[Luser.e._[;") ∧
      ¬ crookedConfig.Admits "[[Le._[;" none ∧
      crookedRenamer.toSandboxOrReject "[[Le/_[;" none =
        .error (.missingFamily "[[Luser.e._[;")) ∧
    crookedRenamer.toSandbox "[La/Thread;" none = .error (.notWhitelisted "a.Thread") ∧
      ClassIn "[La.Thread;" "a.Thread" ∧ ¬ crookedConfig.Allows "a.Thread" ∧
      crookedRenamer.toSandboxOrReject "[La/Thread;" none = .error (.rejected "a.Thread") := by
  have haccepted : ofConfig crookedConfig = .ok crookedRenamer := by rfl
  have hgranted : crookedRenamer.toSandbox "[[Le/_[;" (some .unifying) =
      .ok "w/__Luser/e/_[" := by rfl
  have hbare : crookedRenamer.toSandbox "[[Le/_[;" none =
      .error (.missingFamily "[[Luser.e._[;") := by rfl
  have hthread : crookedRenamer.toSandbox "[La/Thread;" none =
      .error (.notWhitelisted "a.Thread") := by rfl
  have harray : crookedConfig.style.toDotted "[[Le/_[;" = "[[Le._[;" := by rfl
  have hthreads : crookedConfig.style.toDotted "[La/Thread;" = "[La.Thread;" := by rfl
  have hadmitted := (toSandbox_whitelist haccepted "[[Le/_[;" (some .unifying)).1.1 ⟨_, hgranted⟩
  obtain ⟨hadmits, -, -, -, hother⟩ := toSandbox_whitelist haccepted "[[Le/_[;" none
  obtain ⟨-, hforbidden, -, hrejected, -⟩ := toSandbox_whitelist haccepted "[La/Thread;" none
  have hclass := (hforbidden _).1 hthread
  rw [harray] at hadmitted hadmits
  rw [hthreads] at hclass
  refine ⟨haccepted, ⟨hgranted, hadmitted⟩, ⟨hbare, fun hbad => ?_, hother _ (by simp) hbare⟩,
    hthread, hclass.1, hclass.2, hrejected _ hthread⟩
  obtain ⟨answer, hanswer⟩ := hadmits.2 hbad
  rw [hbare] at hanswer
  exact absurd hanswer (by simp)

end Renamer

end SandboxTypes
