import SandboxTypes.Proofs.Hierarchy.ArrayTypes
import SandboxTypes.Proofs.Sandbox.Commutativity

/-!
# Merging names of the sandbox

What `commonSuper` answers for two names that live in the sandbox, in dotted form,
one statement for each pair of shapes, in one order: `commonSuper_swap_of_dotted` gives
the other one.  The renamer is asked for none of them.

A class or interface meets an array through a type of the hierarchy: `StandsFor`
names that type.  With it the answer for a class or interface and any other name is
a tightest common ancestor (`commonSuper_plain`).  Two arrays meet by the rules for
their shapes (`commonSuper_bases`, `commonSuper_wrapper_base`, `commonSuper_wrappers`).
-/

namespace SandboxTypes

open FixedType (hostObject iObject shadowObject)

/-! ## Reading names -/

namespace ArrayOperand

theorem ofName?_plain {name : Name} (h : isArrayShaped name = false) : ofName? name = .ok none := by
  simp only [isArrayShaped, Wrapper.isName, Bool.or_eq_false_iff, Option.isSome_eq_false_iff,
    Option.isNone_iff_eq_none] at h
  simp [ofName?, h]

theorem ofName?_base (base : ArrayBase) : ofName? base.name = .ok (some (.base base)) := by
  simp [ofName?]

theorem ofName?_wrapper {wrapper : Wrapper} (h : wrapper.IsNameable) :
    ofName? wrapper.name = .ok (some (.wrapper wrapper)) := by
  have hread : Wrapper.ofName? wrapper.name = some wrapper :=
    Wrapper.ofName?_eq_some_iff.2 ⟨rfl, h⟩
  simp [ofName?, hread, Wrapper.ofBaseName?_of_ofName? hread]

end ArrayOperand

theorem ArrayOperand.anchor_wrapper (wrapper : Wrapper) :
    (ArrayOperand.wrapper wrapper).anchors.1 =
      if wrapper.array.isFlatPrimitive then ArrayBase.array.name
      else sharedRoot wrapper.isUnifying := by
  simp only [ArrayOperand.anchors]
  split <;> rfl

/-- A type of the hierarchy stands for a name of the sandbox where a class or interface meets it. -/
inductive StandsFor (hierarchy : Hierarchy) : Name → Name → Prop where
  | plain {name : Name} (held : hierarchy.contains name) (notArray : isArrayShaped name = false) :
      StandsFor hierarchy name name
  | base (base : ArrayBase) : StandsFor hierarchy base.name base.name
  | wrapper {wrapper : Wrapper} (nameable : wrapper.IsNameable) :
      StandsFor hierarchy (ArrayOperand.wrapper wrapper).anchors.1 wrapper.name

namespace Sandbox

open Hierarchy

variable {sandbox : Sandbox} {a b node upper : Name} {operand lhs rhs : ArrayOperand}

/-! ## The rule that applies -/

theorem commonSuper_self (sandbox : Sandbox) (a : Name) : sandbox.commonSuper a a = .ok a := by
  rw [commonSuper, if_pos rfl]

theorem commonSuper_of_ne (dotted : sandbox.renamer.style = .dotted) (hne : a ≠ b) :
    sandbox.commonSuper a b = sandbox.merge a b := by
  rw [commonSuper, dotted, NameStyle.toDotted_dotted, NameStyle.toDotted_dotted, if_neg hne]
  cases sandbox.merge a b <;> rfl

theorem merge_plain (ha : isArrayShaped a = false) (hb : isArrayShaped b = false) :
    sandbox.merge a b = sandbox.mergeClasses a b := by
  rw [merge, mergeArrays, ArrayOperand.ofName?_plain ha, ArrayOperand.ofName?_plain hb]
  rfl

theorem mergeArrays_array_plain (ha : ArrayOperand.ofName? a = .ok (some operand))
    (hb : isArrayShaped b = false) :
    sandbox.mergeArrays a b = (sandbox.mergeWithClass operand b).map some := by
  rw [mergeArrays, ha, ArrayOperand.ofName?_plain hb]
  rfl

theorem mergeArrays_plain_array (ha : isArrayShaped a = false)
    (hb : ArrayOperand.ofName? b = .ok (some operand)) :
    sandbox.mergeArrays a b = (sandbox.mergeWithClass operand a).map some := by
  rw [mergeArrays, ArrayOperand.ofName?_plain ha, hb]
  rfl

theorem mergeArrays_arrays (hne : a ≠ b) (ha : ArrayOperand.ofName? a = .ok (some lhs))
    (hb : ArrayOperand.ofName? b = .ok (some rhs)) :
    sandbox.mergeArrays a b = (sandbox.mergeOperands lhs rhs).map some := by
  rw [mergeArrays, ha, hb]
  show (if a = b then _ else some <$> sandbox.mergeOperands lhs rhs) = _
  rw [if_neg hne]
  rfl

theorem merge_array_plain (ha : ArrayOperand.ofName? a = .ok (some operand))
    (hb : isArrayShaped b = false) : sandbox.merge a b = sandbox.mergeWithClass operand b := by
  rw [merge, mergeArrays_array_plain ha hb]
  cases sandbox.mergeWithClass operand b <;> rfl

theorem merge_plain_array (ha : isArrayShaped a = false)
    (hb : ArrayOperand.ofName? b = .ok (some operand)) :
    sandbox.merge a b = sandbox.mergeWithClass operand a := by
  rw [merge, mergeArrays_plain_array ha hb]
  cases sandbox.mergeWithClass operand a <;> rfl

theorem merge_arrays (hne : a ≠ b) (ha : ArrayOperand.ofName? a = .ok (some lhs))
    (hb : ArrayOperand.ofName? b = .ok (some rhs)) :
    sandbox.merge a b = sandbox.mergeOperands lhs rhs := by
  rw [merge, mergeArrays_arrays hne ha hb]
  cases sandbox.mergeOperands lhs rhs <;> rfl

/-! ## Two types of the hierarchy -/

theorem resolve_of_contains (h : sandbox.hierarchy.contains a) :
    sandbox.resolve a = .ok ⟨a, .sandbox⟩ := by
  rw [resolve, if_pos h]

theorem ancestry_eq_ok {answer : Ancestry}
    (h : sandbox.hierarchy.commonAncestry a b = .ok answer) :
    sandbox.ancestry a b = .ok answer := by
  rw [ancestry, h]
  rfl

/-- Two types of the hierarchy are merged by the hierarchy alone. -/
theorem mergeClasses_of_contains (ha : sandbox.hierarchy.contains a)
    (hb : sandbox.hierarchy.contains b) : sandbox.mergeClasses a b =
      if a = b then .ok a
      else if a = hostObject.name ∨ b = hostObject.name then .ok hostObject.name
      else (sandbox.ancestry a b).map (Ancestry.uniqueOr iObject.name) := by
  rw [mergeClasses, resolve_of_contains ha, resolve_of_contains hb]
  rfl

/-- An array of either world and a type of the hierarchy are merged by the hierarchy alone. -/
theorem mergeWithClass_of_contains (operand : ArrayOperand)
    (hb : sandbox.hierarchy.contains b) : sandbox.mergeWithClass operand b =
      if b = hostObject.name then .ok hostObject.name
      else (sandbox.ancestry
        (if sandbox.hierarchy.contains operand.anchors.1 then operand.anchors.1
          else operand.anchors.2) b).map (Ancestry.uniqueOr iObject.name) := by
  rw [mergeWithClass, resolve_of_contains hb]
  cases operand with
  | base base => rfl
  | wrapper wrapper => rfl
  | host array => rfl

/-- Two types of the hierarchy have their tightest common ancestor as answer, the host root being
a common ancestor only. -/
theorem mergeClasses_of_tightest (wf : WellFormed sandbox.hierarchy)
    (ha : sandbox.hierarchy.contains a) (hb : sandbox.hierarchy.contains b)
    (h : sandbox.hierarchy.tightestCommonAncestor a b = .ok upper) :
    sandbox.mergeClasses a b = .ok upper := by
  have hanswer : ∀ {answer}, sandbox.hierarchy.tightestCommonAncestor a b = .ok answer →
      answer = upper := fun h' => Except.ok.inj (h'.symm.trans h)
  rw [mergeClasses_of_contains ha hb]
  split
  case isTrue heq =>
    subst heq
    rw [hanswer (tightest_of_reaches wf ha .refl)]
  case isFalse =>
    split
    case isTrue hroot =>
      rcases hroot with rfl | rfl
      · rw [hanswer ((tightest_comm wf ha hb).trans
          (tightest_of_reaches wf hb (wf.reaches_hostObject hb)))]
      · rw [hanswer (tightest_of_reaches wf ha (wf.reaches_hostObject ha))]
    case isFalse =>
      obtain ⟨answer, hfound, rfl⟩ := map_eq_ok_iff.1 h
      rw [ancestry_eq_ok hfound]
      rfl

theorem mergeWithClass_of_tightest (wf : WellFormed sandbox.hierarchy)
    (ha : sandbox.hierarchy.contains operand.anchors.1) (hb : sandbox.hierarchy.contains b)
    (h : sandbox.hierarchy.tightestCommonAncestor operand.anchors.1 b = .ok upper) :
    sandbox.mergeWithClass operand b = .ok upper := by
  rw [mergeWithClass_of_contains operand hb, if_pos ha]
  split
  case isTrue hroot =>
    subst hroot
    have hup := tightest_of_reaches wf ha (wf.reaches_hostObject ha)
    rw [Except.ok.inj (hup.symm.trans h)]
  case isFalse =>
    obtain ⟨answer, hfound, rfl⟩ := map_eq_ok_iff.1 h
    rw [ancestry_eq_ok hfound]
    rfl

end Sandbox

namespace Hierarchy.BuiltWithArrays

variable {hierarchy : Hierarchy} {wrapper : Wrapper} {node name : Name}

theorem contains_sharedRoot (built : hierarchy.BuiltWithArrays) (byInterface : Bool) :
    hierarchy.contains (sharedRoot byInterface) := by
  have wf := built.reachable.wellFormed
  cases byInterface
  · exact wf.contains_root (by decide)
  · exact wf.contains_root (by decide)

/-- Below a root that two shapes share lies every base type that is not known by its interface only,
or whose interface the root is. -/
theorem reaches_sharedRoot_of_base (built : hierarchy.BuiltWithArrays) {base : ArrayBase}
    {byInterface : Bool} (h : base.isInterface → byInterface) :
    Reaches hierarchy.entries base.name (sharedRoot byInterface) := by
  rw [built.reaches_base_iff]
  revert h
  cases base <;> cases byInterface <;> decide

theorem reaches_sharedRoot_of_wrapper (built : hierarchy.BuiltWithArrays) {byInterface : Bool}
    (h : wrapper.isUnifying → byInterface) :
    Reaches hierarchy.entries (ArrayOperand.wrapper wrapper).anchors.1
      (sharedRoot byInterface) := by
  rw [ArrayOperand.anchor_wrapper]
  split
  · exact built.reaches_sharedRoot_of_base fun hinterface => absurd hinterface (by decide)
  · cases hunifying : wrapper.isUnifying <;> cases hflag : byInterface
    · exact .refl
    · exact (built.reachable.wellFormed.reaches_shadowObject_iff).2 (Or.inr (Or.inl rfl))
    · rw [hunifying, hflag] at h
      exact absurd (h rfl) (by simp)
    · exact .refl

theorem contains_standsFor (built : hierarchy.BuiltWithArrays) (h : StandsFor hierarchy node name) :
    hierarchy.contains node := by
  cases h with
  | plain held _ => exact held
  | base base => exact built.contains_base base
  | wrapper nameable =>
      rw [ArrayOperand.anchor_wrapper]
      split
      · exact built.contains_base .array
      · exact built.contains_sharedRoot _

end Hierarchy.BuiltWithArrays

namespace Sandbox

open Hierarchy

variable {sandbox : Sandbox} {a b node upper : Name} {operand : ArrayOperand} {v w : Wrapper}

theorem commonSuper_array_plain (built : sandbox.hierarchy.BuiltWithArrays)
    (dotted : sandbox.renamer.style = .dotted) (ha : ArrayOperand.ofName? a = .ok (some operand))
    (hanchor : sandbox.hierarchy.contains operand.anchors.1) (hb : sandbox.hierarchy.contains b)
    (hplain : isArrayShaped b = false)
    (h : sandbox.hierarchy.tightestCommonAncestor operand.anchors.1 b = .ok upper) :
    sandbox.commonSuper a b = .ok upper := by
  have hne : a ≠ b := by
    rintro rfl
    rw [ArrayOperand.ofName?_plain hplain] at ha
    exact absurd ha (by simp)
  rw [commonSuper_of_ne dotted hne, merge_array_plain ha hplain]
  exact mergeWithClass_of_tightest built.reachable.wellFormed hanchor hb h

/-- A class or interface and any name meet at the tightest type above the class or interface and the
type that stands for the name. -/
theorem commonSuper_plain (built : sandbox.hierarchy.BuiltWithArrays)
    (dotted : sandbox.renamer.style = .dotted) (ha : StandsFor sandbox.hierarchy node a)
    (hb : sandbox.hierarchy.contains b) (hplain : isArrayShaped b = false)
    (h : sandbox.hierarchy.tightestCommonAncestor node b = .ok upper) :
    sandbox.commonSuper a b = .ok upper := by
  have wf := built.reachable.wellFormed
  have hnode := built.contains_standsFor ha
  cases ha with
  | plain held notArray =>
      by_cases hne : a = b
      · subst hne
        rw [← Except.ok.inj ((tightest_of_reaches wf hb .refl).symm.trans h)]
        exact commonSuper_self _ _
      · rw [commonSuper_of_ne dotted hne, merge_plain notArray hplain]
        exact mergeClasses_of_tightest wf held hb h
  | base base =>
      exact commonSuper_array_plain built dotted (ArrayOperand.ofName?_base base) hnode hb hplain h
  | wrapper nameable =>
      exact commonSuper_array_plain built dotted (ArrayOperand.ofName?_wrapper nameable) hnode hb
        hplain h

/-! ## Two arrays -/

theorem commonSuper_bases (dotted : sandbox.renamer.style = .dotted) (x y : ArrayBase) :
    sandbox.commonSuper x.name y.name = .ok (x.join y).name := by
  by_cases hne : x.name = y.name
  · have heq : x = y := by
      rw [← Option.some.injEq, ← ArrayBase.ofName?_name x, ← ArrayBase.ofName?_name y, hne]
    rw [heq, commonSuper_self, ArrayBase.join_self]
  · rw [commonSuper_of_ne dotted hne,
      merge_arrays hne (ArrayOperand.ofName?_base x) (ArrayOperand.ofName?_base y), mergeOperands]

theorem commonSuper_wrapper_base (dotted : sandbox.renamer.style = .dotted) (hw : w.IsNameable)
    (x : ArrayBase) : sandbox.commonSuper w.name x.name = .ok (x.meetWrapper w) := by
  have hreadW := ArrayOperand.ofName?_wrapper hw
  have hreadX := ArrayOperand.ofName?_base x
  have hne : w.name ≠ x.name := by
    intro heq
    rw [heq, hreadX] at hreadW
    exact absurd hreadW (by simp)
  rw [commonSuper_of_ne dotted hne, merge_arrays hne hreadW hreadX, mergeOperands]

theorem commonSuper_wrappers (dotted : sandbox.renamer.style = .dotted) (hv : v.IsNameable)
    (hw : w.IsNameable) : sandbox.commonSuper v.name w.name = sandbox.mergeWrappers v w := by
  have hreadV := ArrayOperand.ofName?_wrapper hv
  have hreadW := ArrayOperand.ofName?_wrapper hw
  by_cases hne : v.name = w.name
  · have heq : v = w := by
      rw [hne, hreadW] at hreadV
      simpa using hreadV.symm
    rw [heq, commonSuper_self, mergeWrappers, if_pos rfl]
  · rw [commonSuper_of_ne dotted hne, merge_arrays hne hreadV hreadW, mergeOperands]

section Objects

variable {dimension : Nat} {first second least : Name} {f g : Family}

theorem mergeWrappers_of_unique (hne : first ≠ second)
    (h : sandbox.hierarchy.commonAncestry first second = .ok (.unique least)) :
    sandbox.mergeWrappers ⟨⟨dimension, .object first⟩, f⟩ ⟨⟨dimension, .object second⟩, g⟩ =
      .ok (Wrapper.name ⟨⟨dimension, .object least⟩, f.join g⟩) := by
  simp [mergeWrappers, hne, ancestry_eq_ok h, bind, Except.bind, pure, Except.pure]

theorem mergeWrappers_of_ambiguous (hne : first ≠ second) {names : List Name}
    (h : sandbox.hierarchy.commonAncestry first second = .ok (.ambiguous names)) :
    sandbox.mergeWrappers ⟨⟨dimension, .object first⟩, f⟩ ⟨⟨dimension, .object second⟩, g⟩ =
      .ok (Wrapper.name ⟨⟨dimension, .object iObject.name⟩, .unifying⟩) := by
  simp [mergeWrappers, hne, ancestry_eq_ok h, bind, Except.bind, pure, Except.pure]

/-- Arrays of one element type that differ in their family only. -/
theorem mergeWrappers_of_family (hne : f ≠ g) :
    sandbox.mergeWrappers ⟨⟨dimension, .object first⟩, f⟩ ⟨⟨dimension, .object first⟩, g⟩ =
      .ok (Wrapper.name ⟨⟨dimension, .object first⟩, .unifying⟩) := by
  simp [mergeWrappers, hne]

end Objects

end Sandbox

end SandboxTypes
