import SandboxTypes.Proofs.Renamer.KeptNames
import SandboxTypes.Proofs.Sandbox.AnyRenamer
import SandboxTypes.Proofs.Sandbox.HostArrays

/-!
# Host arrays among names of the sandbox

A host array that meets a name of the sandbox becomes a precise array of the sandbox
first, by renaming the elements of the array that was read (`Sandbox.wrap`).  The renamer
by itself is given the name of the whole array, which it reads, renames and writes.  Both
come to the same wrapper (`exists_wrap`), and from there on every rule treats the host
array as it treats that wrapper: in front of an array (`mergeOperands_host`), and in
front of a class or interface (`mergeWithClass_host`).

One case is left.  The other name may be the very wrapper that the host array becomes.
Two equal names are answered before any rule is asked, whereas the host array goes
through the rules, which then give back the wrapper.
-/

namespace SandboxTypes

section Elements

variable {ε δ : Type} {f : Name → Except ε Name} {g : Name → Except δ Name}
  {array renamed : ArrayType}

theorem ArrayType.renameBase_congr (h : array.renameBase f = .ok renamed)
    (agree : ∀ original base, array.element = .object original → f original = .ok base →
      g original = .ok base) : array.renameBase g = .ok renamed := by
  refine renameBase_eq_ok_iff.2 ?_
  cases renameBase_eq_ok_iff.1 h with
  | primitive dimension type => exact .primitive dimension type
  | object dimension hbase => exact .object dimension (agree _ _ rfl hbase)

theorem ArrayType.isFlatPrimitive_of_renameBase (h : array.renameBase f = .ok renamed) :
    renamed.isFlatPrimitive = array.isFlatPrimitive := by
  cases renameBase_eq_ok_iff.1 h with
  | primitive dimension type => rfl
  | object dimension _ => rfl

end Elements

namespace Sandbox

open Hierarchy

variable {sandbox : Sandbox} {array : ArrayType} {wrapper : Wrapper} {operand : ArrayOperand}
  {d p s name : Name}

/-! ## The wrapper of a host array -/

/-- The wrapper that a host array becomes in the sandbox has the name that the renamer gives it. -/
theorem exists_wrap (harray : array.IsWritable)
    (hclass : ∀ base, array.element = .object base → ArrayType.opensDescriptor base = false)
    (h : sandbox.renamer.sandboxName array.descriptor (some .precise) = .ok name) :
    ∃ wrapper : Wrapper, sandbox.wrap array = .ok wrapper ∧ wrapper.IsNameable ∧
      wrapper.name = name := by
  rw [Renamer.sandboxName_descriptor harray] at h
  obtain ⟨renamed, hrenamed, hname⟩ := bind_eq_ok_iff.1 h
  have hread := Renamer.ofName?_renamed harray hrenamed .precise
  have hprecise : renamed.grantedFamily .precise = .precise := ite_self _
  rw [hprecise] at hread
  have hwrap : array.renameBase sandbox.rename = .ok renamed :=
    ArrayType.renameBase_congr hrenamed fun original _ horiginal =>
      rename_of_class (hclass original horiginal)
  refine ⟨⟨renamed, .precise⟩, ?_, (Wrapper.ofName?_eq_some_iff.1 hread).2, Except.ok.inj hname⟩
  rw [wrap, hwrap]
  rfl

section Wrapped

variable (hwrap : sandbox.wrap array = .ok wrapper)

include hwrap

/-- Where it meets a class or interface, the same types stand for a host array and its wrapper. -/
theorem anchors_of_wrap :
    (ArrayOperand.host array).anchors = (ArrayOperand.wrapper wrapper).anchors := by
  obtain ⟨renamed, hrenamed, rfl⟩ := map_eq_ok_iff.1 hwrap
  rw [ArrayOperand.anchors, ArrayOperand.anchors, ArrayType.isFlatPrimitive_of_renameBase hrenamed]
  rfl

theorem mergeWithClass_host (hname : sandbox.hierarchy.contains name) :
    sandbox.mergeWithClass (.host array) name = sandbox.mergeWithClass (.wrapper wrapper) name := by
  rw [mergeWithClass_of_contains _ hname, mergeWithClass_of_contains _ hname, anchors_of_wrap hwrap]

theorem mergeOperands_host (inside : ∀ other, operand ≠ .host other) :
    sandbox.mergeOperands (.host array) operand = sandbox.mergeOperands (.wrapper wrapper) operand ∧
      sandbox.mergeOperands operand (.host array) =
        sandbox.mergeOperands operand (.wrapper wrapper) := by
  cases operand with
  | base base =>
      simp only [mergeOperands, hwrap]
      exact ⟨rfl, rfl⟩
  | wrapper other =>
      simp only [mergeOperands, hwrap]
      exact ⟨rfl, rfl⟩
  | host other => exact absurd rfl (inside other)

end Wrapped

/-! ## The main statement -/

theorem mergeArrays_host_eq_wrapper (harray : array.IsWritable)
    (hwrap : sandbox.wrap array = .ok wrapper) (nameable : wrapper.IsNameable)
    (hs : sandbox.hierarchy.IsSandboxName s) :
    sandbox.mergeArrays array.descriptor s = sandbox.mergeArrays wrapper.name s ∧
      sandbox.mergeArrays s array.descriptor = sandbox.mergeArrays s wrapper.name := by
  have hhost := ArrayOperand.ofName?_host harray
  have hwrapper := ArrayOperand.ofName?_wrapper nameable
  rcases hs.reading with ⟨held, plain⟩ | ⟨operand, hread, inside⟩
  · rw [mergeArrays_array_plain hhost plain, mergeArrays_array_plain hwrapper plain,
      mergeArrays_plain_array plain hhost, mergeArrays_plain_array plain hwrapper,
      mergeWithClass_host hwrap held]
    exact ⟨rfl, rfl⟩
  have hne : array.descriptor ≠ s := by
    intro heq
    rw [heq, hread] at hhost
    exact inside array (Option.some.inj (Except.ok.inj hhost))
  obtain ⟨hleft, hright⟩ := mergeOperands_host hwrap inside
  rw [mergeArrays_arrays hne hhost hread, mergeArrays_arrays (Ne.symm hne) hread hhost, hleft,
    hright]
  by_cases hsame : wrapper.name = s
  · -- the other name is the wrapper itself
    subst hsame
    obtain rfl : ArrayOperand.wrapper wrapper = operand :=
      Option.some.inj (Except.ok.inj (hwrapper.symm.trans hread))
    have hself : sandbox.mergeArrays wrapper.name wrapper.name = .ok (some wrapper.name) := by
      rw [mergeArrays, hwrapper]
      exact if_pos rfl
    rw [hself, mergeOperands, mergeWrappers, if_pos rfl]
    exact ⟨rfl, rfl⟩
  · rw [mergeArrays_arrays hsame hwrapper hread, mergeArrays_arrays (Ne.symm hsame) hread hwrapper]
    exact ⟨rfl, rfl⟩

/-- A host array and a name of the sandbox are answered as the precise wrapper of the host array and
that name are, be it by a type or by an error, in either order and in either mode of the renamer. -/
theorem commonSuperOfArrays_host_eq_wrapper (dotted : sandbox.renamer.style = .dotted)
    (hread : ArrayType.ofDescriptor? d = some array)
    (hclass : ∀ base, array.element = .object base → ArrayType.opensDescriptor base = false)
    (renamed : sandbox.renamer.toSandbox d (some .precise) = .ok p)
    (hs : sandbox.hierarchy.IsSandboxName s) :
    sandbox.commonSuperOfArrays d s = sandbox.commonSuperOfArrays p s ∧
      sandbox.commonSuperOfArrays s d = sandbox.commonSuperOfArrays s p := by
  obtain ⟨rfl, harray⟩ := ArrayType.ofDescriptor?_eq_some_iff.1 hread
  rw [Renamer.toSandbox, dotted, NameStyle.around_dotted] at renamed
  obtain ⟨wrapper, hwrap, nameable, rfl⟩ := exists_wrap harray hclass renamed
  simp only [commonSuperOfArrays, dotted, NameStyle.around₂_dotted]
  exact mergeArrays_host_eq_wrapper harray hwrap nameable hs

/-- In debug mode the class of the elements keeps its name. -/
theorem meddledCrossing_commonSuperOfArrays_host :
    (meddledCrossing.renamer.style = .dotted ∧
      ArrayType.ofDescriptor? "[Luser.Circle;" = some ⟨1, .object "user.Circle"⟩ ∧
      ArrayType.opensDescriptor "user.Circle" = false ∧
      meddledCrossing.renamer.toSandbox "[Luser.Circle;" (some .precise) = .ok "a.$Luser.Circle" ∧
      meddledCrossing.hierarchy.IsSandboxName "a.$Luser.Circle") ∧
    meddledCrossing.commonSuperOfArrays "[Luser.Circle;" "a.$Luser.Circle" =
      meddledCrossing.commonSuperOfArrays "a.$Luser.Circle" "a.$Luser.Circle" ∧
    meddledCrossing.commonSuperOfArrays "[Luser.Circle;" "w._Luser.Square" =
      .ok (some "w._Li.IObject") := by
  have hread : ArrayType.ofDescriptor? "[Luser.Circle;" = some ⟨1, .object "user.Circle"⟩ := by rfl
  have hopens : ArrayType.opensDescriptor "user.Circle" = false := by rfl
  have hclass : ∀ base, Element.object "user.Circle" = .object base →
      ArrayType.opensDescriptor base = false := by
    intro base heq
    exact Element.object.inj heq ▸ hopens
  have renamed : meddledCrossing.renamer.toSandbox "[Luser.Circle;" (some .precise) =
      .ok "a.$Luser.Circle" := by rfl
  have hcircle : meddledCrossing.hierarchy.IsSandboxName "a.$Luser.Circle" := Or.inr (Or.inr rfl)
  have hsquare : meddledCrossing.hierarchy.IsSandboxName "w._Luser.Square" := Or.inr (Or.inr rfl)
  have hmerged : meddledCrossing.commonSuperOfArrays "a.$Luser.Circle" "w._Luser.Square" =
      .ok (some "w._Li.IObject") := by
    decide +kernel
  refine ⟨⟨rfl, hread, hopens, renamed, hcircle⟩, ?_, ?_⟩
  · exact (commonSuperOfArrays_host_eq_wrapper rfl hread hclass renamed hcircle).1
  · rw [(commonSuperOfArrays_host_eq_wrapper rfl hread hclass renamed hsquare).1, hmerged]

end Sandbox

end SandboxTypes
