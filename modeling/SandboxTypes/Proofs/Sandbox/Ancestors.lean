import SandboxTypes.Proofs.Sandbox.Operands

/-!
# The answer lies above both types

The rules for arrays are fixed, whatever the hierarchy holds.  They are right all
the same: two types of the hierarchy, arrays or not, are answered with one of
their common ancestors (`commonSuper_isAncestor`).  Parents have to be of the
declared kind for this, since the interface root stands in for several answers,
and the names of arrays have to be left to the array types of the build.
-/

namespace SandboxTypes

open FixedType (hostObject iObject shadowObject)

namespace Hierarchy

/-- Built with array types, to which the names of arrays are left, and with parents of the declared
kind. -/
structure Tidy (hierarchy : Hierarchy) : Prop where
  built : hierarchy.BuiltWithArrays
  kinded : hierarchy.Kinded
  arrays : ∀ name, hierarchy.contains name → isArrayShaped name → name ∈ seededArrayNames

end Hierarchy

/-- The wrapper of one-dimensional arrays of a primitive type. -/
def Primitive.wrapper (type : Primitive) : Wrapper := ⟨⟨1, .primitive type⟩, .precise⟩

theorem Primitive.wrapper_isNameable (type : Primitive) : type.wrapper.IsNameable :=
  ⟨ArrayType.hasDimension_one _, rfl⟩

namespace Hierarchy.Tidy

variable {hierarchy : Hierarchy} {name : Name}

theorem wellFormed (tidy : hierarchy.Tidy) : WellFormed hierarchy := tidy.built.reachable.wellFormed

/-- A type is a class or interface proper, an array base type or a wrapper of primitives. -/
theorem shapes (tidy : hierarchy.Tidy) (hname : hierarchy.contains name) :
    isArrayShaped name = false ∨ (∃ base : ArrayBase, name = base.name) ∨
      ∃ type : Primitive, name = type.wrapper.name := by
  cases hshape : isArrayShaped name with
  | false => exact Or.inl rfl
  | true => exact Or.inr (mem_seededArrayNames.1 (tidy.arrays name hname hshape))

/-- Every type is below the type that stands for it. -/
theorem exists_standsFor (tidy : hierarchy.Tidy) (hname : hierarchy.contains name) :
    ∃ node, StandsFor hierarchy node name ∧ Reaches hierarchy.entries name node := by
  rcases tidy.shapes hname with hplain | ⟨base, rfl⟩ | ⟨type, rfl⟩
  · exact ⟨name, .plain hname hplain, .refl⟩
  · exact ⟨base.name, .base base, .refl⟩
  · exact ⟨ArrayBase.array.name, .wrapper type.wrapper_isNameable,
      .single ((tidy.built.linked_wrapper_iff type).2 rfl)⟩

end Hierarchy.Tidy

namespace Sandbox

open Hierarchy

variable {sandbox : Sandbox} {a b node : Name}

theorem reaches_meetWrapper {hierarchy : Hierarchy} (built : hierarchy.BuiltWithArrays)
    (base : ArrayBase) (wrapper : Wrapper) :
    Reaches hierarchy.entries base.name (base.meetWrapper wrapper) ∧
      Reaches hierarchy.entries (ArrayOperand.wrapper wrapper).anchors.1
        (base.meetWrapper wrapper) := by
  unfold ArrayBase.meetWrapper
  split
  case isTrue hflat =>
    rw [ArrayOperand.anchor_wrapper, if_pos hflat.2, hflat.1]
    exact ⟨.refl, .refl⟩
  case isFalse =>
    exact ⟨built.reaches_sharedRoot_of_base fun h => by simp [h],
      built.reaches_sharedRoot_of_wrapper fun h => by simp [h]⟩

theorem commonSuper_plain_isAncestor (tidy : sandbox.hierarchy.Tidy)
    (dotted : sandbox.renamer.style = .dotted) (ha : sandbox.hierarchy.contains a)
    (hb : sandbox.hierarchy.contains b) (hplain : isArrayShaped b = false) :
    ∃ merged, (sandbox.commonSuper a b = .ok merged ∧ sandbox.commonSuper b a = .ok merged) ∧
      sandbox.hierarchy.BothReach a b merged := by
  obtain ⟨node, hstands, hnode⟩ := tidy.exists_standsFor ha
  obtain ⟨upper, htightest, hboth⟩ := tightest_bothReach tidy.wellFormed tidy.kinded
    (tidy.built.contains_standsFor hstands) hb
  have hmerged := commonSuper_plain tidy.built dotted hstands hb hplain htightest
  exact ⟨upper, ⟨hmerged, (commonSuper_swap_of_dotted dotted a b upper).1 hmerged⟩,
    hnode.trans hboth.1, hboth.2⟩

theorem commonSuper_base_primitive (tidy : sandbox.hierarchy.Tidy)
    (dotted : sandbox.renamer.style = .dotted) (base : ArrayBase) (type : Primitive) :
    ∃ merged, (sandbox.commonSuper base.name type.wrapper.name = .ok merged ∧
      sandbox.commonSuper type.wrapper.name base.name = .ok merged) ∧
      sandbox.hierarchy.BothReach base.name type.wrapper.name merged := by
  have hlink := (tidy.built.linked_wrapper_iff type).2 rfl
  obtain ⟨hbase, hwrapper⟩ := reaches_meetWrapper tidy.built base type.wrapper
  have hmerged := commonSuper_wrapper_base dotted type.wrapper_isNameable base
  exact ⟨base.meetWrapper type.wrapper,
    ⟨(commonSuper_swap_of_dotted dotted _ _ _).1 hmerged, hmerged⟩, hbase, .head hlink hwrapper⟩

theorem commonSuper_primitives (tidy : sandbox.hierarchy.Tidy)
    (dotted : sandbox.renamer.style = .dotted) (x y : Primitive) :
    ∃ merged, sandbox.commonSuper x.wrapper.name y.wrapper.name = .ok merged ∧
      sandbox.hierarchy.BothReach x.wrapper.name y.wrapper.name merged := by
  rw [commonSuper_wrappers dotted x.wrapper_isNameable y.wrapper_isNameable]
  by_cases heq : x.wrapper = y.wrapper
  · exact ⟨x.wrapper.name, by rw [mergeWrappers, if_pos heq], .refl, heq ▸ .refl⟩
  · refine ⟨sharedRoot false, by rw [mergeWrappers, if_neg heq]; rfl, ?_⟩
    have hroot : Reaches sandbox.hierarchy.entries ArrayBase.array.name (sharedRoot false) :=
      tidy.built.reaches_sharedRoot_of_base fun h => absurd h (by decide)
    exact ⟨.head ((tidy.built.linked_wrapper_iff x).2 rfl) hroot,
      .head ((tidy.built.linked_wrapper_iff y).2 rfl) hroot⟩

/-- Two types of the hierarchy are merged, and into one of their common ancestors.  For two array
base types this is their tightest common ancestor. -/
theorem commonSuper_isAncestor (tidy : sandbox.hierarchy.Tidy)
    (dotted : sandbox.renamer.style = .dotted) :
    (∀ a b, sandbox.hierarchy.contains a → sandbox.hierarchy.contains b →
      ∃ merged, sandbox.commonSuper a b = .ok merged ∧
        sandbox.hierarchy.IsAncestor merged a ∧ sandbox.hierarchy.IsAncestor merged b) ∧
    ∀ x y : ArrayBase, sandbox.commonSuper x.name y.name = .ok (x.join y).name ∧
      sandbox.hierarchy.tightestCommonAncestor x.name y.name = .ok (x.join y).name := by
  refine ⟨fun a b ha hb => ?_, fun x y => ⟨commonSuper_bases dotted x y,
    tidy.built.tightest_bases x y⟩⟩
  suffices h : ∃ merged, sandbox.commonSuper a b = .ok merged ∧
      sandbox.hierarchy.BothReach a b merged by
    obtain ⟨merged, hmerged, hboth⟩ := h
    exact ⟨merged, hmerged, (isCommonAncestor_iff tidy.wellFormed ha hb).2 hboth⟩
  -- a class or interface on either side is merged by the graph, two arrays by the fixed rules
  rcases tidy.shapes hb with hplain | harrayB
  · obtain ⟨merged, hmerged, hboth⟩ := commonSuper_plain_isAncestor tidy dotted ha hb hplain
    exact ⟨merged, hmerged.1, hboth⟩
  rcases tidy.shapes ha with hplain | harrayA
  · obtain ⟨merged, hmerged, hboth⟩ := commonSuper_plain_isAncestor tidy dotted hb ha hplain
    exact ⟨merged, hmerged.2, hboth.symm⟩
  rcases harrayA with ⟨x, rfl⟩ | ⟨type, rfl⟩ <;> rcases harrayB with ⟨y, rfl⟩ | ⟨type', rfl⟩
  · exact ⟨_, commonSuper_bases dotted x y, (tidy.built.bothReach_bases_iff x y).1 .refl⟩
  · obtain ⟨merged, hmerged, hboth⟩ := commonSuper_base_primitive tidy dotted x type'
    exact ⟨merged, hmerged.1, hboth⟩
  · obtain ⟨merged, hmerged, hboth⟩ := commonSuper_base_primitive tidy dotted y type
    exact ⟨merged, hmerged.2, hboth.symm⟩
  · exact commonSuper_primitives tidy dotted type type'

/-- A sandbox with array types, and with the two classes of `crossing`. -/
def crossingSandbox : Sandbox where
  hierarchy := ((build { Seed.minimal with arrayTypes := true }).toOption.getD initial).run crossing
  renamer := ⟨.dotted, false, [], [], [], []⟩

theorem crossingSandbox_tidy : crossingSandbox.hierarchy.Tidy where
  built := by
    cases hbuilt : build { Seed.minimal with arrayTypes := true } with
    | error error =>
        have hgranted : (build { Seed.minimal with arrayTypes := true }).toOption.isSome := by
          decide +kernel
        rw [hbuilt] at hgranted
        exact absurd hgranted (by simp [Except.toOption])
    | ok start =>
        refine ⟨_, start, crossing, rfl, hbuilt, ?_⟩
        rw [crossingSandbox, hbuilt]
        rfl
  kinded := by decide +kernel
  arrays name hname := by
    have hall : ∀ name ∈ crossingSandbox.hierarchy.entries.map Entry.name, isArrayShaped name →
        name ∈ seededArrayNames := by
      decide +kernel
    exact hall name (contains_iff.1 hname)

theorem crossingSandbox_commonSuper_isAncestor :
    crossingSandbox.hierarchy.Tidy ∧ crossingSandbox.renamer.style = .dotted ∧
      ∃ merged, crossingSandbox.commonSuper "user.Circle" "user.Square" = .ok merged ∧
        crossingSandbox.hierarchy.IsAncestor merged "user.Circle" ∧
        crossingSandbox.hierarchy.IsAncestor merged "user.Square" := by
  have hcircle : crossingSandbox.hierarchy.contains "user.Circle" := by decide +kernel
  have hsquare : crossingSandbox.hierarchy.contains "user.Square" := by decide +kernel
  have hall := (commonSuper_isAncestor crossingSandbox_tidy rfl).1
  exact ⟨crossingSandbox_tidy, rfl, hall _ _ hcircle hsquare⟩

end Sandbox

end SandboxTypes
