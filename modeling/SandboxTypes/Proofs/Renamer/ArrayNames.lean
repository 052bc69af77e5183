import SandboxTypes.Renamer.ArrayName
import SandboxTypes.Wrapper.Reading

/-!
# Arrays and the names of their wrappers

An array of objects is named in the family that is asked for, and an array of
primitives has the one wrapper whichever family that is.  Up to this
(`ArrayType.grantedFamily`) writing a wrapper name and reading it are inverse to
each other, and the array base types, whose names have the same mark, are never
read (`Wrapper.wrapperName_inverse`).

A class has a name in a zone of its own, so that no class is read as an array
(`isArrayShaped_qualify`).
-/

namespace SandboxTypes

namespace ArrayType

/-- The family of the wrapper that an array gets where a family is asked for. -/
def grantedFamily (array : ArrayType) (asked : Family) : Family :=
  if array.isPrimitive then .precise else asked

variable {array : ArrayType} {asked : Family}

theorem name_grantedFamily (array : ArrayType) (asked : Family) :
    Wrapper.name ⟨array, array.grantedFamily asked⟩ = Wrapper.name ⟨array, asked⟩ := by
  obtain ⟨dimension, element⟩ := array
  cases element with
  | primitive type => rfl
  | object base => rfl

theorem isNameable_grantedFamily (hdim : array.HasDimension)
    (hbase : array.element.base? ≠ some "") (asked : Family) :
    Wrapper.IsNameable ⟨array, array.grantedFamily asked⟩ := by
  obtain ⟨dimension, element⟩ := array
  cases element with
  | primitive type => exact ⟨hdim, rfl⟩
  | object base => exact ⟨hdim, fun h => hbase (congrArg some h)⟩

theorem ofName?_name (hdim : array.HasDimension) (hbase : array.element.base? ≠ some "")
    (asked : Family) : Wrapper.ofName? (Wrapper.name ⟨array, asked⟩) =
      some ⟨array, array.grantedFamily asked⟩ := by
  refine Wrapper.ofName?_eq_some_iff.2 ⟨?_, isNameable_grantedFamily hdim hbase asked⟩
  exact (name_grantedFamily array asked).symm

theorem wrapperName_eq_ok_iff {family? : Option Family} {text : Name} :
    array.wrapperName family? = .ok text ↔
      ∃ family, family? = some family ∧ text = Wrapper.name ⟨array, family⟩ := by
  cases family? with
  | none => simp [wrapperName]
  | some family => simp [wrapperName, eq_comm]

end ArrayType

/-- An array with a dimension and with a name for its elements is read back from the name of either
of its wrappers, and a name is read as the one wrapper that has it. -/
theorem Wrapper.wrapperName_inverse :
    (∀ array : ArrayType, array.HasDimension → array.element.base? ≠ some "" →
      ∀ asked, ∃ text, array.wrapperName (some asked) = .ok text ∧
        ofName? text = some ⟨array, array.grantedFamily asked⟩) ∧
    ∀ text wrapper, ofName? text = some wrapper → wrapper.array.HasDimension ∧
      wrapper.array.wrapperName (some wrapper.family) = .ok text ∧
        ArrayBase.ofName? text = none := by
  refine ⟨fun array hdim hbase asked => ?_, fun text wrapper hread => ?_⟩
  · exact ⟨Wrapper.name ⟨array, asked⟩, rfl, ArrayType.ofName?_name hdim hbase asked⟩
  · obtain ⟨htext, hnameable⟩ := ofName?_eq_some_iff.1 hread
    refine ⟨hnameable.1, ?_, ofBaseName?_of_ofName? hread⟩
    exact ArrayType.wrapperName_eq_ok_iff.2 ⟨wrapper.family, rfl, htext⟩

/-- The class of the elements is named by two markers and a letter that announces a class. -/
theorem Wrapper.wrapperName_inverse_markers :
    ((ArrayType.mk 3 (.object "$_L")).HasDimension ∧
      (ArrayType.mk 3 (.object "$_L")).element.base? ≠ some "" ∧
        ∃ text, (ArrayType.mk 3 (.object "$_L")).wrapperName (some .unifying) = .ok text ∧
          ofName? text = some ⟨⟨3, .object "$_L"⟩, .unifying⟩) ∧
    ofName? "a.$$L$_L" = some ⟨⟨2, .object "$_L"⟩, .precise⟩ ∧
      (ArrayType.mk 2 (.object "$_L")).HasDimension ∧
      (ArrayType.mk 2 (.object "$_L")).wrapperName (some .precise) = .ok "a.$$L$_L" ∧
        ArrayBase.ofName? "a.$$L$_L" = none := by
  have hdim : (ArrayType.mk 3 (.object "$_L")).HasDimension := by decide
  have hbase : (ArrayType.mk 3 (.object "$_L")).element.base? ≠ some "" := by decide
  have hread : ofName? "a.$$L$_L" = some ⟨⟨2, .object "$_L"⟩, .precise⟩ := by decide
  exact ⟨⟨hdim, hbase, wrapperName_inverse.1 _ hdim hbase .unifying⟩, hread,
    wrapperName_inverse.2 _ _ hread⟩

/-! ## Names of classes -/

variable {zone : Zone}

theorem opensDescriptor_qualify (zone : Zone) (name : Name) :
    ArrayType.opensDescriptor (zone.qualify name) = false := by
  cases zone <;> simp [ArrayType.opensDescriptor, Zone.qualify, Zone.mark]

theorem ArrayBase.ofName?_qualify_of_ne (h : zone ≠ .array) (name : Name) :
    ArrayBase.ofName? (zone.qualify name) = none := by
  cases hfound : ArrayBase.ofName? (zone.qualify name) with
  | none => rfl
  | some base =>
      have hcovers : Zone.array.covers base.name := by cases base <;> decide
      rw [← ArrayBase.ofName?_eq_some_iff.1 hfound, Zone.covers,
        Zone.unqualify?_qualify_of_ne (Ne.symm h)] at hcovers
      exact absurd hcovers (by simp)

theorem isArrayShaped_qualify (hprecise : zone ≠ .array) (hunifying : zone ≠ .unifying)
    (name : Name) : isArrayShaped (zone.qualify name) = false := by
  rw [isArrayShaped, opensDescriptor_qualify, Wrapper.isName,
    Wrapper.ofName?_qualify_of_ne hprecise hunifying, ArrayBase.ofName?_qualify_of_ne hprecise]
  rfl

theorem isArrayShaped_of_ofName? {text : Name} {wrapper : Wrapper}
    (h : Wrapper.ofName? text = some wrapper) : isArrayShaped text := by
  simp [isArrayShaped, Wrapper.isName, h]

end SandboxTypes
