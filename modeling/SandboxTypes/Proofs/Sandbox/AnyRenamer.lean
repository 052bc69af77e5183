import SandboxTypes.Proofs.Sandbox.Ancestors

/-!
# Names that no renamer is asked about

A renamer is asked when a host name is brought into the sandbox, and when an answer is
brought back.  Neither happens between two names of the sandbox (`IsSandboxName`): a
class or interface is found in the hierarchy before the renamer is tried, and the
arrays of the sandbox are merged as they stand.  So what a contract may use has no
influence on how sandbox names are merged: two sandboxes with one hierarchy give the
same answers and the same errors (`Sandbox.commonSuper_eq_of_sandboxNames`).

The comparison of two sandboxes follows the rules one by one, each of which reads no
more of the sandbox than its hierarchy.
-/

namespace SandboxTypes

namespace Hierarchy

/-- A name of the sandbox: a class or interface that the hierarchy holds, an array base type, or an
array wrapper of either family.  The arrays need not be held. -/
def IsSandboxName (hierarchy : Hierarchy) (name : Name) : Prop :=
  hierarchy.contains name ∧ isArrayShaped name = false ∨ (ArrayBase.ofName? name).isSome ∨
    Wrapper.isName name

instance (hierarchy : Hierarchy) (name : Name) : Decidable (hierarchy.IsSandboxName name) :=
  inferInstanceAs (Decidable (_ ∨ _ ∨ _))

/-- A name of the sandbox is a type of the hierarchy, or is read as an array that is not of the
host. -/
theorem IsSandboxName.reading {hierarchy : Hierarchy} {name : Name}
    (h : hierarchy.IsSandboxName name) :
    (hierarchy.contains name ∧ isArrayShaped name = false) ∨
      ∃ operand, ArrayOperand.ofName? name = .ok (some operand) ∧
        ∀ array, operand ≠ .host array := by
  rcases h with hplain | hbase | hwrapper
  · exact Or.inl hplain
  · obtain ⟨base, hbase⟩ := Option.isSome_iff_exists.1 hbase
    obtain rfl := ArrayBase.ofName?_eq_some_iff.1 hbase
    exact Or.inr ⟨.base base, ArrayOperand.ofName?_base base, by simp⟩
  · obtain ⟨wrapper, hread⟩ := Option.isSome_iff_exists.1 hwrapper
    obtain ⟨rfl, hnameable⟩ := Wrapper.ofName?_eq_some_iff.1 hread
    exact Or.inr ⟨.wrapper wrapper, ArrayOperand.ofName?_wrapper hnameable, by simp⟩

end Hierarchy

namespace Sandbox

open Hierarchy

variable {first second : Sandbox} {a b : Name} {lhs rhs : ArrayOperand}

section OneHierarchy

variable (same : first.hierarchy = second.hierarchy)

include same

theorem ancestry_congr (a b : Name) : first.ancestry a b = second.ancestry a b := by
  rw [ancestry, ancestry, same]

theorem mergeClasses_congr (ha : first.hierarchy.contains a) (hb : first.hierarchy.contains b) :
    first.mergeClasses a b = second.mergeClasses a b := by
  rw [mergeClasses_of_contains ha hb, mergeClasses_of_contains (same ▸ ha) (same ▸ hb),
    ancestry_congr same]

theorem mergeWithClass_congr (operand : ArrayOperand) (hb : first.hierarchy.contains b) :
    first.mergeWithClass operand b = second.mergeWithClass operand b := by
  rw [mergeWithClass_of_contains operand hb, mergeWithClass_of_contains operand (same ▸ hb),
    ancestry_congr same, same]

/-- Arrays of the sandbox are merged by the hierarchy alone, whether it holds their elements or
not. -/
theorem mergeWrappers_congr (v w : Wrapper) :
    first.mergeWrappers v w = second.mergeWrappers v w := by
  simp only [mergeWrappers, ancestry_congr same]

theorem mergeOperands_congr (hlhs : ∀ array, lhs ≠ .host array)
    (hrhs : ∀ array, rhs ≠ .host array) :
    first.mergeOperands lhs rhs = second.mergeOperands lhs rhs := by
  cases lhs with
  | host array => exact absurd rfl (hlhs array)
  | base x =>
      cases rhs with
      | host array => exact absurd rfl (hrhs array)
      | base y => rfl
      | wrapper w => rfl
  | wrapper v =>
      cases rhs with
      | host array => exact absurd rfl (hrhs array)
      | base y => rfl
      | wrapper w => exact mergeWrappers_congr same v w

theorem merge_congr (ha : first.hierarchy.IsSandboxName a) (hb : first.hierarchy.IsSandboxName b)
    (hne : a ≠ b) : first.merge a b = second.merge a b := by
  rcases ha.reading with ⟨heldA, plainA⟩ | ⟨lhs, hlhs, insideA⟩ <;>
    rcases hb.reading with ⟨heldB, plainB⟩ | ⟨rhs, hrhs, insideB⟩
  · rw [merge_plain plainA plainB, merge_plain plainA plainB, mergeClasses_congr same heldA heldB]
  · rw [merge_plain_array plainA hrhs, merge_plain_array plainA hrhs,
      mergeWithClass_congr same rhs heldA]
  · rw [merge_array_plain hlhs plainB, merge_array_plain hlhs plainB,
      mergeWithClass_congr same lhs heldB]
  · rw [merge_arrays hne hlhs hrhs, merge_arrays hne hlhs hrhs,
      mergeOperands_congr same insideA insideB]

end OneHierarchy

/-- Two names of the sandbox are merged alike whatever the renamer is, be it into a type or into an
error, as long as it reads and writes in the same style. -/
theorem commonSuper_eq_of_sandboxNames (same : first.hierarchy = second.hierarchy)
    (style : first.renamer.style = second.renamer.style)
    (ha : first.hierarchy.IsSandboxName (first.renamer.style.toDotted a))
    (hb : first.hierarchy.IsSandboxName (first.renamer.style.toDotted b)) :
    first.commonSuper a b = second.commonSuper a b := by
  rw [commonSuper, commonSuper, ← style]
  split
  case isTrue => rfl
  case isFalse hne => rw [merge_congr same ha hb hne]

/-- The types of `crossingSandbox` with a renamer in debug mode whose lists hold sandbox names. -/
def meddledCrossing : Sandbox :=
  { crossingSandbox with
    renamer := ⟨.dotted, true, ["user.Circle", "a.$Luser.Gone"], ["user.Circle"], ["Circle"], []⟩ }

theorem meddledCrossing_commonSuper_eq :
    (crossingSandbox.hierarchy = meddledCrossing.hierarchy ∧
      crossingSandbox.renamer.style = meddledCrossing.renamer.style ∧
      crossingSandbox.hierarchy.IsSandboxName "a.$Luser.Gone" ∧
      crossingSandbox.hierarchy.IsSandboxName "w._Luser.Circle") ∧
    crossingSandbox.commonSuper "a.$Luser.Gone" "w._Luser.Circle" =
      meddledCrossing.commonSuper "a.$Luser.Gone" "w._Luser.Circle" ∧
    meddledCrossing.commonSuper "a.$Luser.Gone" "w._Luser.Circle" =
      .error (.hierarchy (.unknownType "user.Gone")) := by
  have same : crossingSandbox.hierarchy = meddledCrossing.hierarchy := rfl
  have style : crossingSandbox.renamer.style = meddledCrossing.renamer.style := rfl
  have hgone : crossingSandbox.hierarchy.IsSandboxName "a.$Luser.Gone" := Or.inr (Or.inr rfl)
  have hcircle : crossingSandbox.hierarchy.IsSandboxName "w._Luser.Circle" := Or.inr (Or.inr rfl)
  have hmerged : crossingSandbox.commonSuper "a.$Luser.Gone" "w._Luser.Circle" =
      .error (.hierarchy (.unknownType "user.Gone")) := by
    decide +kernel
  have halike := commonSuper_eq_of_sandboxNames same style hgone hcircle
  exact ⟨⟨same, style, hgone, hcircle⟩, halike, halike.symm.trans hmerged⟩

end Sandbox

end SandboxTypes
