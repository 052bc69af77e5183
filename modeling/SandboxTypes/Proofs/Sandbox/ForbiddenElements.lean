import SandboxTypes.Proofs.Sandbox.Dispatch
import SandboxTypes.Proofs.Sandbox.HostArrays

/-!
# Host arrays of forbidden classes

The renamer refuses a host class that it does not list, and an array of such a class
with it.  Merging asks the renamer for the class of the elements only where the answer
depends on it: in front of an array of the sandbox or a base type, where the host array
is renamed first, and in front of an array of another class in the same dimension.

Everywhere else the answer is found without the class, and the array is merged although
the sandbox may not use it.  `MetUnseen` lists these answers for two host arrays, and
`MergedUnseen` for a host array and any name:

* host arrays of another dimension, of primitives, or of the class of all objects;
* classes and interfaces, in either world.

The rules give these answers (`mergeHostArrays_of_metUnseen`,
`commonSuper_of_mergedUnseen`), and refuse everything else that is read as an array for
the class of the elements (`metUnseen_or_refused`, `commonSuper_array_or_refused`).
-/

namespace SandboxTypes

open FixedType (hostObject iObject shadowObject)

/-! ## What is answered without the class -/

/-- The answer to an array of objects in `n` dimensions and another host array, where it does not
depend on the class of the objects. -/
inductive MetUnseen (n : Nat) : ArrayType → Name → Prop where
  | dimension {array : ArrayType} (differs : n ≠ array.dimension) :
      MetUnseen n array (ArrayType.objectDescriptor (min n array.dimension) hostObject.name)
  | primitives (type : Primitive) : MetUnseen n ⟨n, .primitive type⟩ (sharedRoot false)
  | objects :
      MetUnseen n ⟨n, .object hostObject.name⟩ (ArrayType.objectDescriptor n hostObject.name)

/-- The answer to a host array of objects in `n` dimensions and another name, where it does not
depend on the class of the objects. -/
inductive Sandbox.MergedUnseen (sandbox : Sandbox) (n : Nat) : Name → Name → Prop where
  | array {text answer : Name} {array : ArrayType}
      (read : ArrayType.ofDescriptor? text = some array) (met : MetUnseen n array answer) :
      MergedUnseen sandbox n text answer
  | hostClass {name renamed : Name} (notArray : isArrayShaped name = false)
      (resolved : sandbox.resolve name = .ok ⟨renamed, .host⟩) :
      MergedUnseen sandbox n name hostObject.name
  | sandboxType {name answer : Name} (notArray : isArrayShaped name = false)
      (held : sandbox.hierarchy.contains name)
      (merged : sandbox.hierarchy.tightestCommonAncestor shadowObject.name name = .ok answer) :
      MergedUnseen sandbox n name answer

theorem ArrayType.ofDescriptor?_of_plain {name : Name} (plain : isArrayShaped name = false) :
    ofDescriptor? name = none := by
  apply Option.eq_none_iff_forall_ne_some.2
  intro array hread
  obtain ⟨rfl, harray⟩ := ofDescriptor?_eq_some_iff.1 hread
  have hopens := opensDescriptor_descriptor harray.1
  rw [(arrayReadings_of_plain plain).1] at hopens
  exact absurd hopens (by simp)

/-- A name is read as a host array exactly if it is the descriptor of that array. -/
theorem ArrayOperand.ofName?_eq_host_iff {name : Name} {array : ArrayType} :
    ofName? name = .ok (some (.host array)) ↔ ArrayType.ofDescriptor? name = some array := by
  constructor
  · intro h
    unfold ofName? at h
    split at h
    case h_1 => exact absurd h (by simp)
    case h_2 => exact absurd h (by simp)
    case h_3 =>
      split at h
      case isTrue =>
        obtain ⟨found, hfound, hhost⟩ := map_eq_ok_iff.1 h
        obtain rfl : found = array := ArrayOperand.host.inj (Option.some.inj hhost)
        exact ArrayType.ofHostName_eq_ok_iff.1 hfound
      case isFalse => exact absurd h (by simp)
  · intro h
    obtain ⟨rfl, harray⟩ := ArrayType.ofDescriptor?_eq_some_iff.1 h
    exact ofName?_host harray

/-- The class of all objects is never refused. -/
theorem Renamer.ne_hostObject_of_forbidden {renamer : Renamer} {base : Name} {error : RenameError}
    (forbidden : renamer.sandboxName base none = .error error) : base ≠ hostObject.name := by
  rintro rfl
  have hclass : ArrayType.opensDescriptor hostObject.name = false := by decide
  rw [sandboxName, if_neg (Bool.eq_false_iff.1 hclass), sandboxClassName] at forbidden
  split at forbidden
  case isTrue => exact absurd forbidden (by simp)
  case isFalse =>
    rw [if_pos (Or.inl rfl)] at forbidden
    exact absurd forbidden (by simp)

namespace Sandbox

open Hierarchy

variable {sandbox : Sandbox} {n : Nat} {array : ArrayType} {operand : ArrayOperand}
  {d s name base refused answer : Name} {cause : MergeError}

/-! ## Classes and interfaces -/

/-- A name that is not of the hierarchy is resolved as a host name, if at all. -/
theorem eq_host_of_resolve_eq_ok {resolved : Resolved}
    (fresh : sandbox.hierarchy.contains name = false) (h : sandbox.resolve name = .ok resolved) :
    ∃ renamed, resolved = ⟨renamed, .host⟩ := by
  rw [resolve, if_neg (by simp [fresh])] at h
  cases hread : sandbox.renamer.hostName name with
  | ok host => simp [hread] at h
  | error unread =>
      rw [hread] at h
      obtain ⟨renamed, -, rfl⟩ := map_eq_ok_iff.1 h
      exact ⟨renamed, rfl⟩

/-- A host array of objects and a type of the hierarchy meet where the class root and that type
do. -/
theorem mergeWithClass_objects_of_contains (hroot : name ≠ hostObject.name)
    (held : sandbox.hierarchy.contains name) :
    sandbox.mergeWithClass (.host ⟨n, .object base⟩) name = .ok answer ↔
      sandbox.hierarchy.tightestCommonAncestor shadowObject.name name = .ok answer := by
  have hanchors : (ArrayOperand.host ⟨n, .object base⟩).anchors =
      (shadowObject.name, shadowObject.name) := by
    simp [ArrayOperand.anchors, ArrayType.isFlatPrimitive, ArrayType.isPrimitive, Element.base?,
      sharedRoot]
  rw [mergeWithClass_of_contains _ held, if_neg hroot, hanchors, ite_self, tightestCommonAncestor,
    ancestry, map_eq_ok_iff, map_eq_ok_iff]
  simp only [mapError_eq_ok_iff]

theorem mergeWithClass_host_of_resolve {renamed : Name} (hroot : name ≠ hostObject.name)
    (h : sandbox.resolve name = .ok ⟨renamed, .host⟩) :
    sandbox.mergeWithClass (.host array) name = .ok hostObject.name := by
  rw [mergeWithClass, if_neg hroot, h]
  rfl

/-- A class or interface that is merged with a host array of objects is merged as a name of its
world, and the class of the objects plays no part. -/
theorem mergedUnseen_of_mergeWithClass (hroot : name ≠ hostObject.name)
    (notArray : isArrayShaped name = false)
    (h : sandbox.mergeWithClass (.host ⟨n, .object base⟩) name = .ok answer) :
    sandbox.MergedUnseen n name answer := by
  cases hheld : sandbox.hierarchy.contains name with
  | true =>
      exact .sandboxType notArray hheld ((mergeWithClass_objects_of_contains hroot hheld).1 h)
  | false =>
      have hgranted := h
      rw [mergeWithClass, if_neg hroot] at hgranted
      obtain ⟨resolved, hresolved, -⟩ := bind_eq_ok_iff.1 hgranted
      obtain ⟨renamed, rfl⟩ := eq_host_of_resolve_eq_ok hheld hresolved
      rw [mergeWithClass_host_of_resolve hroot hresolved] at h
      exact Except.ok.inj h ▸ .hostClass notArray hresolved

/-- In a hierarchy that callers can hold, every class or interface that can be resolved at all is
merged with a host array of objects. -/
theorem exists_mergedUnseen_iff (reachable : Reachable sandbox.hierarchy)
    (notArray : isArrayShaped name = false) :
    (∃ answer, sandbox.MergedUnseen n name answer) ↔
      ∃ resolved, sandbox.resolve name = .ok resolved := by
  constructor
  · rintro ⟨answer, h⟩
    cases h with
    | array read met =>
        rw [ArrayType.ofDescriptor?_of_plain notArray] at read
        exact absurd read (by simp)
    | hostClass _ resolved => exact ⟨_, resolved⟩
    | sandboxType _ held merged => exact ⟨_, resolve_of_contains held⟩
  · rintro ⟨resolved, hresolved⟩
    cases hheld : sandbox.hierarchy.contains name with
    | true =>
        have wf := reachable.wellFormed
        have hclassRoot : sandbox.hierarchy.contains shadowObject.name :=
          wf.contains_root (by decide)
        obtain ⟨ancestry, hancestry⟩ := commonAncestry_eq_ok wf hclassRoot hheld
        exact ⟨_, .sandboxType notArray hheld (map_eq_ok_iff.2 ⟨ancestry, hancestry, rfl⟩)⟩
    | false =>
        obtain ⟨renamed, rfl⟩ := eq_host_of_resolve_eq_ok hheld hresolved
        exact ⟨_, .hostClass notArray hresolved⟩

/-! ## Arrays -/

section Forbidden

variable (forbidden : sandbox.rename base = .error cause) (hbase : base ≠ hostObject.name)

include hbase in
theorem mergeHostArrays_of_metUnseen (h : MetUnseen n array answer) :
    sandbox.mergeHostArrays ⟨n, .object base⟩ array = .ok answer := by
  cases h with
  | dimension differs => exact if_pos differs
  | primitives type => exact if_neg (not_not.2 rfl)
  | objects =>
      rw [mergeHostArrays_objects, mergeHostClasses, if_neg hbase, if_pos (Or.inr rfl)]
      rfl

include forbidden

theorem wrap_of_forbidden : sandbox.wrap ⟨n, .object base⟩ = .error cause := by
  rw [wrap, ArrayType.renameBase, Element.renameBase_object, forbidden]
  rfl

include hbase

theorem mergeHostClasses_of_forbidden (hne : base ≠ name) (hroot : name ≠ hostObject.name) :
    sandbox.mergeHostClasses base name = .error cause := by
  rw [mergeHostClasses, if_neg hne, if_neg (by simp [hbase, hroot]), forbidden]
  rfl

theorem metUnseen_or_refused (hne : array ≠ ⟨n, .object base⟩) :
    (∃ answer, MetUnseen n array answer) ∨
      sandbox.mergeHostArrays ⟨n, .object base⟩ array = .error cause := by
  by_cases hdimension : n = array.dimension
  · obtain ⟨dimension, element⟩ := array
    obtain rfl : n = dimension := hdimension
    cases element with
    | primitive type => exact Or.inl ⟨_, .primitives type⟩
    | object other =>
        by_cases hroot : other = hostObject.name
        · subst hroot
          exact Or.inl ⟨_, .objects⟩
        · have hother : base ≠ other := fun heq => hne (by rw [heq])
          right
          rw [mergeHostArrays_objects, mergeHostClasses_of_forbidden forbidden hbase hother hroot]
          rfl
  · exact Or.inl ⟨_, .dimension hdimension⟩

/-- A forbidden class is reported to every other array of either world, unless the array is a host
array that is met unseen. -/
theorem mergedUnseen_or_refused (hne : operand ≠ .host ⟨n, .object base⟩) :
    (∃ array answer, operand = .host array ∧ MetUnseen n array answer) ∨
      sandbox.mergeOperands (.host ⟨n, .object base⟩) operand = .error cause := by
  cases operand with
  | base type =>
      -- in front of a name of the sandbox the host array is renamed first
      right
      rw [mergeOperands, wrap_of_forbidden forbidden]
      rfl
  | wrapper other =>
      right
      rw [mergeOperands, wrap_of_forbidden forbidden]
      rfl
  | host array =>
      have hother : array ≠ ⟨n, .object base⟩ := fun heq => hne (by rw [heq])
      rcases metUnseen_or_refused forbidden hbase hother with ⟨answer, met⟩ | hrefused
      · exact Or.inl ⟨array, answer, rfl, met⟩
      · exact Or.inr hrefused

end Forbidden

/-! ## The main statement -/

/-- In front of a descriptor the question for arrays is the one that is answered. -/
theorem commonSuperOfArrays_of_descriptor (dotted : sandbox.renamer.style = .dotted)
    (hread : ArrayType.ofDescriptor? d = some array) (hne : d ≠ s) :
    sandbox.commonSuperOfArrays d s = (sandbox.commonSuper d s).map some := by
  have hshaped : isArrayShaped d ∨ isArrayShaped s := by
    left
    by_contra hplain
    rw [ArrayType.ofDescriptor?_of_plain (by simpa using hplain)] at hread
    exact absurd hread (by simp)
  have hanswered : sandbox.mergeArrays d s ≠ .ok none :=
    fun hdeclined => mergeArrays_eq_none_iff.1 hdeclined hshaped
  rw [commonSuper_of_ne dotted hne, map_some_merge, if_neg hanswered, commonSuperOfArrays, dotted,
    NameStyle.around₂_dotted]

section Answers

variable (dotted : sandbox.renamer.style = .dotted)
  (hread : ArrayType.ofDescriptor? d = some ⟨n, .object base⟩) (hne : d ≠ s)

include dotted hread hne

theorem commonSuper_of_mergedUnseen (hbase : base ≠ hostObject.name) (hroot : s ≠ hostObject.name)
    (h : sandbox.MergedUnseen n s answer) : sandbox.commonSuper d s = .ok answer := by
  have hd := ArrayOperand.ofName?_eq_host_iff.2 hread
  rw [commonSuper_of_ne dotted hne]
  cases h with
  | array read met =>
      rw [merge_arrays hne hd (ArrayOperand.ofName?_eq_host_iff.2 read)]
      exact mergeHostArrays_of_metUnseen hbase met
  | hostClass notArray resolved =>
      rw [merge_array_plain hd notArray]
      exact mergeWithClass_host_of_resolve hroot resolved
  | sandboxType notArray held merged =>
      rw [merge_array_plain hd notArray]
      exact (mergeWithClass_objects_of_contains hroot held).2 merged

variable (forbidden : sandbox.rename base = .error cause) (hbase : base ≠ hostObject.name)

include forbidden hbase

/-- What is read as an array is merged unseen, or the class is reported. -/
theorem commonSuper_array_or_refused (hs : ArrayOperand.ofName? s = .ok (some operand)) :
    (∃ answer, sandbox.commonSuper d s = .ok answer ∧ sandbox.MergedUnseen n s answer) ∨
      sandbox.commonSuper d s = .error cause := by
  have hd := ArrayOperand.ofName?_eq_host_iff.2 hread
  have hoperand : operand ≠ .host ⟨n, .object base⟩ := by
    rintro rfl
    obtain ⟨hnameD, -⟩ := ArrayType.ofDescriptor?_eq_some_iff.1 hread
    obtain ⟨hnameS, -⟩ :=
      ArrayType.ofDescriptor?_eq_some_iff.1 (ArrayOperand.ofName?_eq_host_iff.1 hs)
    exact hne (hnameD.trans hnameS.symm)
  rw [commonSuper_of_ne dotted hne, merge_arrays hne hd hs]
  rcases mergedUnseen_or_refused forbidden hbase hoperand with ⟨array, answer, rfl, met⟩ | hrefused
  · left
    exact ⟨answer, mergeHostArrays_of_metUnseen hbase met,
      .array (ArrayOperand.ofName?_eq_host_iff.1 hs) met⟩
  · exact Or.inr hrefused

theorem mergedUnseen_of_commonSuper (hroot : s ≠ hostObject.name)
    (h : sandbox.commonSuper d s = .ok answer) : sandbox.MergedUnseen n s answer := by
  have hd := ArrayOperand.ofName?_eq_host_iff.2 hread
  rcases hs : ArrayOperand.ofName? s with error | _ | operand
  · -- a name that has the form of an array and cannot be read is merged with nothing
    rw [commonSuper_of_ne dotted hne, merge, mergeArrays, hd, hs] at h
    cases h
  · have notArray := ArrayOperand.ofName?_eq_none_iff.1 hs
    rw [commonSuper_of_ne dotted hne, merge_array_plain hd notArray] at h
    exact mergedUnseen_of_mergeWithClass hroot notArray h
  · rcases commonSuper_array_or_refused dotted hread hne forbidden hbase hs with
      ⟨merged, hmerged, hunseen⟩ | hrefused
    · obtain rfl := Except.ok.inj (hmerged.symm.trans h)
      exact hunseen
    · rw [hrefused] at h
      exact absurd h (by simp)

end Answers

/-- A host array whose class is forbidden is merged with another name exactly if the answer is found
without the class.  With a class or interface this is so whenever that can be resolved, and arrays
that are not merged are refused for the forbidden class. -/
theorem commonSuper_forbidden (reachable : Reachable sandbox.hierarchy)
    (dotted : sandbox.renamer.style = .dotted)
    (hread : ArrayType.ofDescriptor? d = some ⟨n, .object base⟩)
    (forbidden : sandbox.renamer.toSandbox base none = .error (.notWhitelisted refused))
    (hne : d ≠ s) (hroot : s ≠ hostObject.name) :
    sandbox.commonSuperOfArrays d s = (sandbox.commonSuper d s).map some ∧
    (∀ answer, sandbox.commonSuper d s = .ok answer ↔ sandbox.MergedUnseen n s answer) ∧
    (isArrayShaped s = false → ((∃ answer, sandbox.commonSuper d s = .ok answer) ↔
      ∃ resolved, sandbox.resolve s = .ok resolved)) ∧
    ∀ operand, ArrayOperand.ofName? s = .ok (some operand) →
      (∃ answer, sandbox.commonSuper d s = .ok answer) ∨
        sandbox.commonSuper d s = .error (.rename (.notWhitelisted refused)) := by
  rw [Renamer.toSandbox, dotted, NameStyle.around_dotted] at forbidden
  have hbase := Renamer.ne_hostObject_of_forbidden forbidden
  have hrefused : sandbox.rename base = .error (.rename (.notWhitelisted refused)) := by
    rw [rename, forbidden]
    rfl
  have hiff : ∀ answer, sandbox.commonSuper d s = .ok answer ↔ sandbox.MergedUnseen n s answer :=
    fun answer => ⟨mergedUnseen_of_commonSuper dotted hread hne hrefused hbase hroot,
      commonSuper_of_mergedUnseen dotted hread hne hbase hroot⟩
  refine ⟨commonSuperOfArrays_of_descriptor dotted hread hne, hiff, fun notArray => ?_,
    fun operand hs => ?_⟩
  · simp only [hiff]
    exact exists_mergedUnseen_iff reachable notArray
  · rcases commonSuper_array_or_refused dotted hread hne hrefused hbase hs with
      ⟨answer, hanswer, -⟩ | hfailed
    · exact Or.inl ⟨answer, hanswer⟩
    · exact Or.inr hfailed

/-- A sandbox that allows strings only. -/
def stringSandbox : Sandbox where
  hierarchy := initial.run [.single (.sandboxClass "s.java.lang.String" shadowObject.name [])]
  renamer := ⟨.dotted, false, [], [], ["java.lang.String"], []⟩

/-- An array of threads is merged with a string, and is refused in front of an array of strings. -/
theorem stringSandbox_commonSuper_forbidden :
    (Reachable stringSandbox.hierarchy ∧ stringSandbox.renamer.style = .dotted ∧
      ArrayType.ofDescriptor? "[Ljava.lang.Thread;" = some ⟨1, .object "java.lang.Thread"⟩ ∧
      stringSandbox.renamer.toSandbox "java.lang.Thread" none =
        .error (.notWhitelisted "java.lang.Thread")) ∧
    (isArrayShaped "java.lang.String" = false ∧
      stringSandbox.resolve "java.lang.String" = .ok ⟨"s.java.lang.String", .host⟩ ∧
      (∃ answer, stringSandbox.commonSuper "[Ljava.lang.Thread;" "java.lang.String" =
        .ok answer) ∧
      stringSandbox.MergedUnseen 1 "java.lang.String" hostObject.name) ∧
    ArrayOperand.ofName? "[Ljava.lang.String;" =
        .ok (some (.host ⟨1, .object "java.lang.String"⟩)) ∧
      stringSandbox.commonSuper "[Ljava.lang.Thread;" "[Ljava.lang.String;" =
        .error (.rename (.notWhitelisted "java.lang.Thread")) ∧
      ∀ answer, ¬ stringSandbox.MergedUnseen 1 "[Ljava.lang.String;" answer := by
  have hreachable : Reachable stringSandbox.hierarchy := Reachable.initial.run _
  have hread : ArrayType.ofDescriptor? "[Ljava.lang.Thread;" =
      some ⟨1, .object "java.lang.Thread"⟩ := by rfl
  have hforbidden : stringSandbox.renamer.toSandbox "java.lang.Thread" none =
      .error (.notWhitelisted "java.lang.Thread") := by rfl
  have hplain : isArrayShaped "java.lang.String" = false := by decide
  have hresolved : stringSandbox.resolve "java.lang.String" =
      .ok ⟨"s.java.lang.String", .host⟩ := by decide +kernel
  have hstrings : ArrayOperand.ofName? "[Ljava.lang.String;" =
      .ok (some (.host ⟨1, .object "java.lang.String"⟩)) := by rfl
  have hrefused : stringSandbox.commonSuper "[Ljava.lang.Thread;" "[Ljava.lang.String;" =
      .error (.rename (.notWhitelisted "java.lang.Thread")) := by decide +kernel
  obtain ⟨-, -, hclass, -⟩ := commonSuper_forbidden hreachable rfl hread hforbidden
    (s := "java.lang.String") (by decide) (by decide)
  obtain ⟨-, hunseen, -, -⟩ := commonSuper_forbidden hreachable rfl hread hforbidden
    (s := "[Ljava.lang.String;") (by decide) (by decide)
  refine ⟨⟨hreachable, rfl, hread, hforbidden⟩,
    ⟨hplain, hresolved, (hclass hplain).2 ⟨_, hresolved⟩, .hostClass hplain hresolved⟩,
    hstrings, hrefused, fun answer hmerged => ?_⟩
  rw [(hunseen answer).2 hmerged] at hrefused
  exact absurd hrefused (by simp)

/-- The forbidden array is merged with arrays of another dimension, of primitives and of objects,
and with a class in either of its names. -/
theorem stringSandbox_commonSuper_merged :
    (Reachable stringSandbox.hierarchy ∧ stringSandbox.renamer.style = .dotted ∧
      ArrayType.ofDescriptor? "[Ljava.lang.Thread;" = some ⟨1, .object "java.lang.Thread"⟩ ∧
      stringSandbox.renamer.toSandbox "java.lang.Thread" none =
        .error (.notWhitelisted "java.lang.Thread")) ∧
    ∀ pair ∈ [("[[Ljava.lang.String;", "[Ljava.lang.Object;"), ("[I", "s.java.lang.Object"),
        ("[Ljava.lang.Object;", "[Ljava.lang.Object;"), ("java.lang.String", "java.lang.Object"),
        ("s.java.lang.String", "s.java.lang.Object")],
      stringSandbox.commonSuperOfArrays "[Ljava.lang.Thread;" pair.1 = .ok (some pair.2) ∧
        stringSandbox.commonSuper "[Ljava.lang.Thread;" pair.1 = .ok pair.2 := by
  refine ⟨⟨Reachable.initial.run _, rfl, rfl, rfl⟩, ?_⟩
  decide +kernel

end Sandbox

end SandboxTypes
