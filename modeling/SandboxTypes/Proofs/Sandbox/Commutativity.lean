import SandboxTypes.Proofs.Hierarchy.CommonAncestry
import SandboxTypes.Sandbox.Array

/-!
# The order of the operands

Two types are merged alike in either order: the same type is the answer, or neither
order has one.  Which of several errors is reported may differ, since the first operand
is looked at first; `SameGrant` leaves that open.

Every rule treats its two operands alike, or has a twin for the other order.  What is
done for each operand before the rule applies (reading an array, resolving a class,
renaming an element) does not depend on the other operand, and may be done in either
order (`SameGrant.bind_swap`).  With the common ancestry of two types, which does not
depend on the order either, the rules follow one from another: classes, arrays of the
sandbox, arrays of the host, any two arrays, and any two names.
-/

namespace SandboxTypes

open FixedType (hostObject)

namespace Sandbox

open Hierarchy

variable {sandbox : Sandbox} {a b : Name}

/-! ## Classes -/

theorem ancestry_swap (sandbox : Sandbox) (a b : Name) :
    SameGrant (sandbox.ancestry a b) (sandbox.ancestry b a) :=
  (commonAncestry_swap sandbox.hierarchy a b).mapError _

/-- What two routines do alike before they look a name up. -/
theorem shortcuts_swap {rest other : Except MergeError Name} (h : SameGrant rest other) :
    SameGrant
      (if a = b then .ok a
        else if a = hostObject.name ∨ b = hostObject.name then .ok hostObject.name
        else rest)
      (if b = a then .ok b
        else if b = hostObject.name ∨ a = hostObject.name then .ok hostObject.name
        else other) := by
  by_cases hne : a = b
  · rw [hne, if_pos rfl, if_pos rfl]
  by_cases hroot : a = hostObject.name ∨ b = hostObject.name
  · rw [if_neg hne, if_neg (Ne.symm hne), if_pos hroot, if_pos hroot.symm]
  · rw [if_neg hne, if_neg (Ne.symm hne), if_neg hroot, if_neg (hroot ∘ Or.symm)]
    exact h

theorem mergeClasses_swap (sandbox : Sandbox) (a b : Name) :
    SameGrant (sandbox.mergeClasses a b) (sandbox.mergeClasses b a) := by
  apply shortcuts_swap
  apply SameGrant.bind_swap
  intro lhs rhs
  apply (ancestry_swap sandbox lhs.name rhs.name).bind
  intro ancestry
  simp only [and_comm]
  rfl

theorem mergeHostClasses_swap (sandbox : Sandbox) (a b : Name) :
    SameGrant (sandbox.mergeHostClasses a b) (sandbox.mergeHostClasses b a) := by
  apply shortcuts_swap
  apply SameGrant.bind_swap
  intro lhs rhs
  apply (ancestry_swap sandbox lhs rhs).bind
  intro ancestry
  rfl

/-! ## Arrays -/

theorem mergeWrappers_objects_swap (sandbox : Sandbox) (dimension : Nat) (f g : Family)
    (first second : Name) :
    SameGrant
      (sandbox.mergeWrappers ⟨⟨dimension, .object first⟩, f⟩ ⟨⟨dimension, .object second⟩, g⟩)
      (sandbox.mergeWrappers ⟨⟨dimension, .object second⟩, g⟩ ⟨⟨dimension, .object first⟩, f⟩) := by
  by_cases hbase : first = second
  · -- the arrays are the same, or differ in their family only
    subst hbase
    by_cases hfamily : f = g
    · rw [hfamily]
    · simp only [mergeWrappers, Wrapper.mk.injEq, hfamily, Ne.symm hfamily, ne_eq,
        not_true_eq_false, and_false, if_false, if_true]
      rfl
  · simp only [mergeWrappers, Wrapper.mk.injEq, ArrayType.mk.injEq, Element.object.injEq, hbase,
      Ne.symm hbase, ne_eq, not_true_eq_false, false_and, and_false, if_false]
    apply (ancestry_swap sandbox first second).bind
    intro ancestry
    rw [Family.join_comm]

theorem mergeWrappers_swap (sandbox : Sandbox) (v w : Wrapper) :
    SameGrant (sandbox.mergeWrappers v w) (sandbox.mergeWrappers w v) := by
  by_cases hne : v = w
  · rw [hne]
  by_cases hdim : v.array.dimension = w.array.dimension
  · obtain ⟨⟨dimension, element⟩, f⟩ := v
    obtain ⟨⟨dimension', element'⟩, g⟩ := w
    obtain rfl : dimension = dimension' := hdim
    cases element with
    | primitive type =>
        rw [mergeWrappers, mergeWrappers, if_neg hne, if_neg (Ne.symm hne)]
        cases element' <;> simp [SameGrant.refl]
    | object first =>
        cases element' with
        | primitive type =>
            rw [mergeWrappers, mergeWrappers, if_neg hne, if_neg (Ne.symm hne)]
            simp [SameGrant.refl]
        | object second => exact mergeWrappers_objects_swap sandbox dimension f g first second
  · rw [mergeWrappers, mergeWrappers, if_neg hne, if_neg (Ne.symm hne), if_pos hdim,
      if_pos (Ne.symm hdim), Bool.or_comm]

theorem mergeHostArrays_swap (sandbox : Sandbox) (v w : ArrayType) :
    SameGrant (sandbox.mergeHostArrays v w) (sandbox.mergeHostArrays w v) := by
  by_cases hdim : v.dimension = w.dimension
  · obtain ⟨dimension, element⟩ := v
    obtain ⟨dimension', element'⟩ := w
    obtain rfl : dimension = dimension' := hdim
    rw [mergeHostArrays, mergeHostArrays, if_neg (not_not.2 rfl), if_neg (not_not.2 rfl)]
    cases element with
    | primitive type => cases element' <;> rfl
    | object first =>
        cases element' with
        | primitive type => rfl
        | object second => exact (mergeHostClasses_swap sandbox first second).map _
  · rw [mergeHostArrays, mergeHostArrays, if_pos hdim, if_pos (Ne.symm hdim), Nat.min_comm]

theorem mergeOperands_swap (sandbox : Sandbox) (lhs rhs : ArrayOperand) :
    SameGrant (sandbox.mergeOperands lhs rhs) (sandbox.mergeOperands rhs lhs) := by
  cases lhs with
  | base x =>
      cases rhs with
      | base y =>
          rw [mergeOperands, mergeOperands, ArrayBase.join_comm]
      | wrapper w => rfl
      | host array => rfl
  | wrapper v =>
      cases rhs with
      | base y => rfl
      | wrapper w => exact mergeWrappers_swap sandbox v w
      | host array =>
          apply (SameGrant.refl _).bind
          intro w
          exact mergeWrappers_swap sandbox v w
  | host array =>
      cases rhs with
      | base y => rfl
      | wrapper w =>
          apply (SameGrant.refl _).bind
          intro v
          exact mergeWrappers_swap sandbox v w
      | host other => exact mergeHostArrays_swap sandbox array other

/-! ## Any two names -/

theorem mergeArrays_swap (sandbox : Sandbox) (a b : Name) :
    SameGrant (sandbox.mergeArrays a b) (sandbox.mergeArrays b a) := by
  by_cases hne : a = b
  · rw [hne]
  apply SameGrant.bind_swap
  intro lhs rhs
  cases lhs with
  | none =>
      cases rhs with
      | none => rfl
      | some rhs => rfl
  | some lhs =>
      cases rhs with
      | none => rfl
      | some rhs =>
          simp only [hne, Ne.symm hne, if_false]
          exact (mergeOperands_swap sandbox lhs rhs).map some

theorem mergePlain_swap (sandbox : Sandbox) (a b : Name) :
    SameGrant (sandbox.mergePlain a b) (sandbox.mergePlain b a) := by
  rw [mergePlain, mergePlain, Bool.or_comm]
  split
  case isTrue => rfl
  case isFalse => exact (mergeClasses_swap sandbox a b).map some

theorem merge_swap (sandbox : Sandbox) (a b : Name) :
    SameGrant (sandbox.merge a b) (sandbox.merge b a) := by
  apply (mergeArrays_swap sandbox a b).bind
  intro answer
  cases answer with
  | some merged => rfl
  | none => exact mergeClasses_swap sandbox a b

theorem commonSuper_swap (writtenA : sandbox.renamer.style = .slashed → '.' ∉ a.toList)
    (writtenB : sandbox.renamer.style = .slashed → '.' ∉ b.toList) :
    SameGrant (sandbox.commonSuper a b) (sandbox.commonSuper b a) := by
  by_cases hne : sandbox.renamer.style.toDotted a = sandbox.renamer.style.toDotted b
  · -- names that are written in the style and read alike are the same
    have hsame : a = b := by
      rw [← NameStyle.ofDotted_toDotted _ writtenA, hne, NameStyle.ofDotted_toDotted _ writtenB]
    rw [hsame]
  · rw [commonSuper, commonSuper, if_neg hne, if_neg (Ne.symm hne)]
    exact (merge_swap sandbox _ _).map _

theorem commonSuper_swap_of_dotted (dotted : sandbox.renamer.style = .dotted) (a b : Name) :
    SameGrant (sandbox.commonSuper a b) (sandbox.commonSuper b a) :=
  commonSuper_swap (by simp [dotted]) (by simp [dotted])

/-- Two names are merged into the same type in either order, by whichever of the three questions, or
are refused in both orders; and where a question declines in one order, it declines in the other. -/
theorem commonSuper_comm (sandbox : Sandbox)
    (writtenA : sandbox.renamer.style = .slashed → '.' ∉ a.toList)
    (writtenB : sandbox.renamer.style = .slashed → '.' ∉ b.toList) :
    (∀ merged, sandbox.commonSuper a b = .ok merged ↔ sandbox.commonSuper b a = .ok merged) ∧
    (∀ answer, sandbox.commonSuperOfArrays a b = .ok answer ↔
      sandbox.commonSuperOfArrays b a = .ok answer) ∧
    ∀ answer, sandbox.commonSuperOfClasses a b = .ok answer ↔
      sandbox.commonSuperOfClasses b a = .ok answer := by
  refine ⟨?_, ?_, ?_⟩
  · exact commonSuper_swap writtenA writtenB
  · exact (mergeArrays_swap sandbox _ _).map _
  · exact (mergePlain_swap sandbox _ _).map _

/-- A sandbox with the types of `crossing` that reads names with slashes. -/
def slashedCrossing : Sandbox :=
  ⟨initial.run crossing, ⟨.slashed, false, ["Circle", "Square"], [], [], []⟩⟩

theorem slashedCrossing_commonSuper_comm :
    ((slashedCrossing.renamer.style = .slashed → '.' ∉ "[LCircle;".toList) ∧
      (slashedCrossing.renamer.style = .slashed → '.' ∉ "w/_Luser/Square".toList)) ∧
    slashedCrossing.commonSuper "[LCircle;" "w/_Luser/Square" = .ok "w/_Li/IObject" ∧
    slashedCrossing.commonSuper "w/_Luser/Square" "[LCircle;" = .ok "w/_Li/IObject" := by
  have writtenA : slashedCrossing.renamer.style = .slashed → '.' ∉ "[LCircle;".toList := by decide
  have writtenB : slashedCrossing.renamer.style = .slashed → '.' ∉ "w/_Luser/Square".toList := by
    decide
  have hmerged : slashedCrossing.commonSuper "[LCircle;" "w/_Luser/Square" =
      .ok "w/_Li/IObject" := by
    decide +kernel
  exact ⟨⟨writtenA, writtenB⟩, hmerged,
    ((commonSuper_comm slashedCrossing writtenA writtenB).1 _).1 hmerged⟩

/-- Of two names that are both refused the first is blamed. -/
example : slashedCrossing.commonSuper "Disc" "Cube" = .error (.rename (.notWhitelisted "Disc")) ∧
    slashedCrossing.commonSuper "Cube" "Disc" = .error (.rename (.notWhitelisted "Cube")) := by
  decide +kernel

end Sandbox

end SandboxTypes
