import SandboxTypes.Proofs.Sandbox.HostNames

/-!
# Merging arrays of the host

A host array is told by its descriptor, so that the world of its elements is not in
question: arrays of objects of one dimension are merged as their elements are on the
host, whatever these are named (`mergeArrays_objects`).  Where the elements by
themselves are left to the host too, the arrays follow their elements.

A host class that the hierarchy holds by its host name, as it holds the class of
everything that can be thrown, is a sandbox type by itself and a host class as an
element.  There the two answers part (`faultSandbox`).
-/

namespace SandboxTypes

open FixedType (hostObject shadowObject hostThrowable)

/-! ## Reading descriptors -/

/-- The descriptor of the arrays of a dimension with objects of a class. -/
def ArrayType.objectDescriptor (dimension : Nat) (base : Name) : Name :=
  descriptor ⟨dimension, .object base⟩

/-- The descriptor of a host array is read as that array, since no array of the sandbox is named by
a descriptor. -/
theorem ArrayOperand.ofName?_host {array : ArrayType} (h : array.IsWritable) :
    ofName? array.descriptor = .ok (some (.host array)) := by
  have hopens := ArrayType.opensDescriptor_descriptor h.1
  have hbase : ArrayBase.ofName? array.descriptor = none := by
    apply Option.eq_none_iff_forall_ne_some.2
    intro base hread
    rw [ArrayBase.ofName?_eq_some_iff.1 hread] at hopens
    revert hopens
    cases base <;> decide
  have hwrapper : Wrapper.ofName? array.descriptor = none := by
    apply Option.eq_none_iff_forall_ne_some.2
    intro wrapper hread
    obtain ⟨hname, hnameable⟩ := Wrapper.ofName?_eq_some_iff.1 hread
    rw [hname, Wrapper.name_eq_qualify hnameable, opensDescriptor_qualify] at hopens
    exact absurd hopens (by simp)
  have hread : ArrayType.ofHostName array.descriptor = .ok array :=
    ArrayType.ofHostName_eq_ok_iff.2 (ArrayType.ofDescriptor?_eq_some_iff.2 ⟨rfl, h⟩)
  simp [ofName?, hbase, hwrapper, hopens, hread, Except.map]

namespace Sandbox

open Hierarchy

variable {sandbox : Sandbox} {x y : Name} {n : Nat}

/-! ## Arrays of one dimension -/

theorem mergeArrays_host {v w : ArrayType} (hv : v.IsWritable) (hw : w.IsWritable) (hne : v ≠ w) :
    sandbox.mergeArrays v.descriptor w.descriptor = (sandbox.mergeHostArrays v w).map some := by
  have hnames : v.descriptor ≠ w.descriptor :=
    fun h => hne (ArrayType.descriptor_injective hv hw h)
  rw [mergeArrays_arrays hnames (ArrayOperand.ofName?_host hv) (ArrayOperand.ofName?_host hw),
    mergeOperands]

theorem mergeHostArrays_objects (sandbox : Sandbox) (n : Nat) (x y : Name) :
    sandbox.mergeHostArrays ⟨n, .object x⟩ ⟨n, .object y⟩ =
      (sandbox.mergeHostClasses x y).map (ArrayType.objectDescriptor n) := by
  rw [mergeHostArrays, if_neg (not_not.2 rfl)]
  rfl

section Objects

variable (hdim : 1 ≤ n ∧ n ≤ ArrayType.maxDimension) (hne : x ≠ y)
  (hx : (Element.object x).IsWritable) (hy : (Element.object y).IsWritable)

include hdim hne hx hy

/-- Host arrays of one dimension are merged as their elements are on the host. -/
theorem mergeArrays_objects : sandbox.mergeArrays (ArrayType.objectDescriptor n x)
    (ArrayType.objectDescriptor n y) =
      (sandbox.mergeHostClasses x y).map (some ∘ ArrayType.objectDescriptor n) := by
  have hv : ArrayType.IsWritable ⟨n, .object x⟩ := ⟨hdim, hx⟩
  have hw : ArrayType.IsWritable ⟨n, .object y⟩ := ⟨hdim, hy⟩
  have hnotSame : ArrayType.mk n (.object x) ≠ ⟨n, .object y⟩ := by simp [hne]
  rw [ArrayType.objectDescriptor, ArrayType.objectDescriptor, mergeArrays_host hv hw hnotSame,
    mergeHostArrays_objects]
  cases sandbox.mergeHostClasses x y <;> rfl

/-- Host arrays of one dimension are answered with the array of what their elements are answered
with on the host.  This is the array of what the elements are answered with by themselves, where
these are left to the host or one of them is the class of all objects. -/
theorem commonSuperOfArrays_objects (dotted : sandbox.renamer.style = .dotted)
    (release : sandbox.renamer.debug = false) (plainX : isArrayShaped x = false)
    (plainY : isArrayShaped y = false) :
    sandbox.commonSuperOfArrays (ArrayType.objectDescriptor n x) (ArrayType.objectDescriptor n y) =
        (sandbox.mergeHostClasses x y).map (some ∘ ArrayType.objectDescriptor n) ∧
      (x = hostObject.name ∨ y = hostObject.name ∨
          sandbox.LeftToHost x ∧ sandbox.LeftToHost y →
        sandbox.commonSuperOfArrays (ArrayType.objectDescriptor n x)
            (ArrayType.objectDescriptor n y) =
          (sandbox.commonSuperOfClasses x y).map (Option.map (ArrayType.objectDescriptor n))) := by
  have harrays : sandbox.commonSuperOfArrays (ArrayType.objectDescriptor n x)
      (ArrayType.objectDescriptor n y) =
        (sandbox.mergeHostClasses x y).map (some ∘ ArrayType.objectDescriptor n) := by
    rw [commonSuperOfArrays, dotted, NameStyle.around₂_dotted]
    exact mergeArrays_objects hdim hne hx hy
  refine ⟨harrays, fun left => ?_⟩
  rw [harrays, commonSuperOfClasses, dotted, NameStyle.around₂_dotted, mergePlain, plainX, plainY,
    mergeClasses_of_leftToHost release left]
  cases sandbox.mergeHostClasses x y <;> rfl

end Objects

theorem sketchSandbox_commonSuperOfArrays_objects :
    ((1 ≤ 2 ∧ 2 ≤ ArrayType.maxDimension) ∧ (Element.object "a.Circle").IsWritable ∧
      (Element.object "i.Drawn").IsWritable ∧ sketchSandbox.LeftToHost "a.Circle" ∧
      sketchSandbox.LeftToHost "i.Drawn") ∧
    sketchSandbox.commonSuperOfClasses "a.Circle" "i.Drawn" = .ok (some "i.Drawn") ∧
    sketchSandbox.commonSuperOfArrays "[[La.Circle;" "[[Li.Drawn;" = .ok (some "[[Li.Drawn;") := by
  have hdim : 1 ≤ 2 ∧ 2 ≤ ArrayType.maxDimension := by decide
  have hcircle : (Element.object "a.Circle").IsWritable := ⟨by decide, by decide⟩
  have hdrawn : (Element.object "i.Drawn").IsWritable := ⟨by decide, by decide⟩
  have left : sketchSandbox.LeftToHost "a.Circle" ∧ sketchSandbox.LeftToHost "i.Drawn" :=
    ⟨⟨by decide, by decide +kernel, by decide⟩, ⟨by decide, by decide +kernel, by decide⟩⟩
  have hclasses : sketchSandbox.commonSuperOfClasses "a.Circle" "i.Drawn" =
      .ok (some "i.Drawn") := by decide +kernel
  have harrays := (commonSuperOfArrays_objects hdim (by decide) hcircle hdrawn rfl rfl
    left.1.notArray left.2.notArray).2 (Or.inr (Or.inr left))
  rw [hclasses] at harrays
  exact ⟨⟨hdim, hcircle, hdrawn, left⟩, hclasses, harrays⟩

/-- A sandbox with the upper exceptions of the host library. -/
def faultSandbox : Sandbox where
  hierarchy := initial.run
    [.batch [.sandboxClass "s.java.lang.Throwable" shadowObject.name [],
      .sandboxClass "s.java.lang.Exception" "s.java.lang.Throwable" []]]
  renamer := ⟨.dotted, false, [], ["java.lang.Throwable", "java.lang.Exception"], [], []⟩

/-- The class of everything that can be thrown is a type of the hierarchy by itself, and is renamed
as an element. -/
theorem faultSandbox_commonSuperOfArrays_ne :
    (Reachable faultSandbox.hierarchy ∧ faultSandbox.renamer.style = .dotted ∧
      faultSandbox.renamer.debug = false) ∧
    (faultSandbox.renamer.toSandbox "java.lang.Throwable" none = .ok "s.java.lang.Throwable" ∧
      faultSandbox.renamer.toSandbox "java.lang.Exception" none = .ok "s.java.lang.Exception" ∧
      isArrayShaped "java.lang.Throwable" = false ∧ isArrayShaped "java.lang.Exception" = false) ∧
    faultSandbox.commonSuperOfClasses "java.lang.Throwable" "java.lang.Exception" =
        .ok (some hostObject.name) ∧
      faultSandbox.commonSuperOfArrays "[Ljava.lang.Throwable;" "[Ljava.lang.Exception;" =
        .ok (some "[Ljava.lang.Throwable;") := by
  refine ⟨⟨Reachable.initial.run _, rfl, rfl⟩, ?_⟩
  decide +kernel

end Sandbox

end SandboxTypes
