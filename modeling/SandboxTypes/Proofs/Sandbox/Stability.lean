import SandboxTypes.Proofs.Sandbox.Ancestors

/-!
# Merging again changes nothing

Whoever computes stack frames merges answers with the types they came from, until
nothing changes.  An answer is of one shape and its operands may be of others, so
merging again is mostly decided by another rule than the one that gave the answer.

`Absorbs` says that merging with a type gives the answer back, in either order.
There are four ways to come by it, and each rule leads to one of them:

* a class or interface absorbs all that it is above (`absorbs_of_reaches`);
* an array base type absorbs those that the table puts it above (`absorbs_base`);
* the class of all arrays absorbs the wrappers that are its sub classes
  (`absorbs_flat`);
* an object array absorbs object arrays of its dimension with lower elements
  (`absorbs_elements`).
-/

namespace SandboxTypes

open FixedType (hostObject iObject shadowObject)

namespace Hierarchy

/-- The hierarchy holds no type without a name, and nothing below the interface of all arrays but
the array types of the build. -/
structure Settled (hierarchy : Hierarchy) : Prop extends Tidy hierarchy where
  named : hierarchy.contains "" = false
  below_arrays : ∀ name, hierarchy.IsAncestor ArrayBase.iArray.name name → name ∈ seededArrayNames

/-- The names that are merged in a hierarchy: its classes and interfaces, the array base types, the
arrays of primitives, and the arrays of its types. -/
inductive Known (hierarchy : Hierarchy) : Name → Prop where
  | plain {name : Name} (held : hierarchy.contains name) (notArray : isArrayShaped name = false) :
      Known hierarchy name
  | base (base : ArrayBase) : Known hierarchy base.name
  | primitives {name : Name} {dimension : Nat} {type : Primitive} {family : Family}
      (read : Wrapper.ofName? name = some ⟨⟨dimension, .primitive type⟩, family⟩) :
      Known hierarchy name
  | objects {name base : Name} {dimension : Nat} {family : Family}
      (read : Wrapper.ofName? name = some ⟨⟨dimension, .object base⟩, family⟩)
      (held : hierarchy.contains base) : Known hierarchy name

end Hierarchy

theorem isArrayShaped_of_mem_seededArrayNames {name : Name} (h : name ∈ seededArrayNames) :
    isArrayShaped name := by
  revert name
  decide +kernel

theorem isArrayShaped_sharedRoot (byInterface : Bool) :
    isArrayShaped (sharedRoot byInterface) = false := by
  cases byInterface <;> decide

theorem Family.join_join_self (f g : Family) : f.join (f.join g) = f.join g := by
  cases f <;> cases g <;> rfl

theorem ArrayBase.join_join_self (x y : ArrayBase) : (x.join y).join x = x.join y := by
  cases x <;> cases y <;> rfl

theorem Wrapper.isUnifying_of_primitive {dimension : Nat} {type : Primitive} {family : Family}
    (h : Wrapper.IsNameable ⟨⟨dimension, .primitive type⟩, family⟩) :
    Wrapper.isUnifying ⟨⟨dimension, .primitive type⟩, family⟩ = false := by
  have hfamily : family = .precise := h.2
  rw [hfamily]
  rfl

namespace Hierarchy

variable {hierarchy : Hierarchy} {name upper : Name} {w : Wrapper}

/-- The elements of a wrapper are primitive or of a type of the hierarchy. -/
def HoldsElement (hierarchy : Hierarchy) (wrapper : Wrapper) : Prop :=
  ∀ base, wrapper.array.element = .object base → hierarchy.contains base

theorem Known.wrapper (nameable : w.IsNameable) (held : hierarchy.HoldsElement w) :
    hierarchy.Known w.name := by
  have hread : Wrapper.ofName? w.name = some w := Wrapper.ofName?_eq_some_iff.2 ⟨rfl, nameable⟩
  obtain ⟨⟨dimension, element⟩, family⟩ := w
  cases element with
  | primitive type => exact .primitives hread
  | object base => exact .objects hread (held base rfl)

theorem Known.shapes (known : hierarchy.Known name) :
    (hierarchy.contains name ∧ isArrayShaped name = false) ∨
      (∃ base : ArrayBase, name = base.name) ∨
      ∃ wrapper : Wrapper, name = wrapper.name ∧ wrapper.IsNameable ∧
        hierarchy.HoldsElement wrapper := by
  cases known with
  | plain held notArray => exact Or.inl ⟨held, notArray⟩
  | base base => exact Or.inr (Or.inl ⟨base, rfl⟩)
  | primitives read =>
      obtain ⟨hname, hw⟩ := Wrapper.ofName?_eq_some_iff.1 read
      exact Or.inr (Or.inr ⟨_, hname, hw, fun base h => nomatch h⟩)
  | objects read held =>
      obtain ⟨hname, hw⟩ := Wrapper.ofName?_eq_some_iff.1 read
      refine Or.inr (Or.inr ⟨_, hname, hw, fun base h => ?_⟩)
      exact Element.object.inj h ▸ held

theorem Known.exists_standsFor (known : hierarchy.Known name) :
    ∃ node, StandsFor hierarchy node name := by
  rcases known.shapes with ⟨held, notArray⟩ | ⟨base, rfl⟩ | ⟨wrapper, rfl, hw, -⟩
  · exact ⟨_, .plain held notArray⟩
  · exact ⟨_, .base base⟩
  · exact ⟨_, .wrapper hw⟩

namespace BuiltWithArrays

theorem reaches_iArray_of_seeded (built : hierarchy.BuiltWithArrays)
    (h : name ∈ seededArrayNames) : Reaches hierarchy.entries name ArrayBase.iArray.name := by
  have hbase : ∀ base : ArrayBase, Reaches hierarchy.entries base.name ArrayBase.iArray.name := by
    intro base
    rw [built.reaches_base_iff]
    cases base <;> decide
  rcases mem_seededArrayNames.1 h with ⟨base, rfl⟩ | ⟨type, rfl⟩
  · exact hbase base
  · exact .head ((built.linked_wrapper_iff type).2 rfl) (hbase .array)

end BuiltWithArrays

theorem Settled.plain_of_reaches (settled : hierarchy.Settled) (hname : hierarchy.contains name)
    (hplain : isArrayShaped name = false) (hreach : Reaches hierarchy.entries name upper) :
    hierarchy.contains upper ∧ isArrayShaped upper = false := by
  have wf := settled.wellFormed
  have hupper : hierarchy.contains upper :=
    wf.contains_of_reaches hname hreach
  refine ⟨hupper, ?_⟩
  -- an array type above would put the class or interface below the interface of all arrays
  by_contra hshape
  have hseeded := settled.arrays upper hupper (by simpa using hshape)
  have hbelow : hierarchy.IsAncestor ArrayBase.iArray.name name :=
    (isAncestor_iff wf.layered).2
      ⟨hname, hreach.trans (settled.built.reaches_iArray_of_seeded hseeded)⟩
  rw [isArrayShaped_of_mem_seededArrayNames (settled.below_arrays name hbelow)] at hplain
  exact absurd hplain (by simp)

end Hierarchy

namespace Sandbox

open Hierarchy

/-- Merging with a type gives the upper one back, in either order. -/
def Absorbs (sandbox : Sandbox) (upper lower : Name) : Prop :=
  sandbox.commonSuper upper lower = .ok upper ∧ sandbox.commonSuper lower upper = .ok upper

/-- Two names are merged into a known one that absorbs both. -/
def Settles (sandbox : Sandbox) (a b : Name) : Prop :=
  ∃ merged, sandbox.commonSuper a b = .ok merged ∧ sandbox.hierarchy.Known merged ∧
    sandbox.Absorbs merged a ∧ sandbox.Absorbs merged b

variable {sandbox : Sandbox} {a b nodeA nodeB node upper : Name} {x y : ArrayBase} {v w : Wrapper}

theorem absorbs_self (sandbox : Sandbox) (a : Name) : sandbox.Absorbs a a :=
  ⟨commonSuper_self sandbox a, commonSuper_self sandbox a⟩

section Rules

variable (settled : sandbox.hierarchy.Settled) (dotted : sandbox.renamer.style = .dotted)

/-! ## What absorbs what -/

include dotted

theorem absorbs_of_merged {upper lower : Name} (h : sandbox.commonSuper lower upper = .ok upper) :
    sandbox.Absorbs upper lower :=
  ⟨(commonSuper_swap_of_dotted dotted lower upper upper).1 h, h⟩

theorem absorbs_base (h : x.join y = x) : sandbox.Absorbs x.name y.name := by
  apply absorbs_of_merged dotted
  rw [commonSuper_bases dotted, ArrayBase.join_comm, h]

theorem absorbs_flat (hw : w.IsNameable) (hflat : w.array.isFlatPrimitive) :
    sandbox.Absorbs ArrayBase.array.name w.name := by
  have hmeet : ArrayBase.array.meetWrapper w = ArrayBase.array.name := by
    rw [ArrayBase.meetWrapper, if_pos ⟨rfl, hflat⟩]
  apply absorbs_of_merged dotted
  rw [commonSuper_wrapper_base dotted hw, hmeet]

include settled

theorem absorbs_of_reaches (ha : StandsFor sandbox.hierarchy node a)
    (hupper : sandbox.hierarchy.contains upper) (hplain : isArrayShaped upper = false)
    (hreach : Reaches sandbox.hierarchy.entries node upper) : sandbox.Absorbs upper a := by
  have htightest := tightest_of_reaches settled.wellFormed
    (settled.built.contains_standsFor ha) hreach
  exact absorbs_of_merged dotted (commonSuper_plain settled.built dotted ha hupper hplain htightest)

/-- An object array absorbs those of its dimension whose elements are below its own, and which are
precise if it is. -/
theorem absorbs_elements {dimension : Nat} {lower upper : Name} {f g : Family}
    (hlower : Wrapper.IsNameable ⟨⟨dimension, .object lower⟩, f⟩)
    (hupper : Wrapper.IsNameable ⟨⟨dimension, .object upper⟩, g⟩)
    (held : sandbox.hierarchy.contains lower)
    (hreach : Reaches sandbox.hierarchy.entries lower upper) (hfamily : f.join g = g) :
    sandbox.Absorbs (Wrapper.name ⟨⟨dimension, .object upper⟩, g⟩)
      (Wrapper.name ⟨⟨dimension, .object lower⟩, f⟩) := by
  apply absorbs_of_merged dotted
  rw [commonSuper_wrappers dotted hlower hupper]
  by_cases heq : lower = upper
  · subst heq
    cases f <;> cases g <;> simp_all [mergeWrappers, Family.join]
  · rw [mergeWrappers_of_unique heq (commonAncestry_of_reaches settled.wellFormed held hreach),
      hfamily]

/-! ## What two known names settle at -/

omit settled in
theorem Settles.symm (h : sandbox.Settles a b) : sandbox.Settles b a := by
  obtain ⟨merged, hmerged, hknown, hupperA, hupperB⟩ := h
  exact ⟨merged, (commonSuper_swap_of_dotted dotted a b merged).1 hmerged, hknown, hupperB, hupperA⟩

/-- Two names settle at a class or interface above the types that stand for them. -/
theorem settles_of_reaches (ha : StandsFor sandbox.hierarchy nodeA a)
    (hb : StandsFor sandbox.hierarchy nodeB b) (hupper : sandbox.hierarchy.contains upper)
    (hplain : isArrayShaped upper = false)
    (hreachA : Reaches sandbox.hierarchy.entries nodeA upper)
    (hreachB : Reaches sandbox.hierarchy.entries nodeB upper)
    (hmerged : sandbox.commonSuper a b = .ok upper) : sandbox.Settles a b :=
  ⟨upper, hmerged, .plain hupper hplain, absorbs_of_reaches settled dotted ha hupper hplain hreachA,
    absorbs_of_reaches settled dotted hb hupper hplain hreachB⟩

theorem settles_plain (ha : StandsFor sandbox.hierarchy node a)
    (hb : sandbox.hierarchy.contains b) (hplain : isArrayShaped b = false) :
    sandbox.Settles a b := by
  obtain ⟨upper, htightest, hreachA, hreachB⟩ := tightest_bothReach settled.wellFormed
    settled.kinded (settled.built.contains_standsFor ha) hb
  obtain ⟨hupper, hplainUpper⟩ := settled.plain_of_reaches hb hplain hreachB
  have hmerged := commonSuper_plain settled.built dotted ha hb hplain htightest
  exact settles_of_reaches settled dotted ha (.plain hb hplain) hupper hplainUpper hreachA hreachB
    hmerged

omit settled in
theorem settles_bases (x y : ArrayBase) : sandbox.Settles x.name y.name := by
  refine ⟨(x.join y).name, commonSuper_bases dotted x y, .base _,
    absorbs_base dotted (x.join_join_self y), absorbs_base dotted ?_⟩
  rw [ArrayBase.join_comm x y, ArrayBase.join_join_self]

theorem settles_wrapper_base (hw : w.IsNameable) (base : ArrayBase) :
    sandbox.Settles w.name base.name := by
  have hmerged := commonSuper_wrapper_base dotted hw base
  obtain ⟨hreachBase, hreachW⟩ := reaches_meetWrapper settled.built base w
  unfold ArrayBase.meetWrapper at hmerged hreachBase hreachW
  split at hmerged
  case isTrue hflat =>
    obtain ⟨rfl, hflat⟩ := hflat
    exact ⟨_, hmerged, .base _, absorbs_flat dotted hw hflat, absorbs_self _ _⟩
  case isFalse hflat =>
    rw [if_neg hflat] at hreachBase hreachW
    have hupper := settled.built.contains_sharedRoot (base.isInterface || w.isUnifying)
    have hplain := isArrayShaped_sharedRoot (base.isInterface || w.isUnifying)
    exact settles_of_reaches settled dotted (.wrapper hw) (.base base) hupper hplain hreachW
      hreachBase hmerged

/-- Two wrappers whose shapes differ settle at a root. -/
theorem settles_at_root (hv : v.IsNameable) (hw : w.IsNameable) {byInterface : Bool}
    (hflagV : v.isUnifying → byInterface) (hflagW : w.isUnifying → byInterface)
    (hmerged : sandbox.mergeWrappers v w = .ok (sharedRoot byInterface)) :
    sandbox.Settles v.name w.name :=
  settles_of_reaches settled dotted (.wrapper hv) (.wrapper hw)
    (settled.built.contains_sharedRoot byInterface) (isArrayShaped_sharedRoot byInterface)
    (settled.built.reaches_sharedRoot_of_wrapper hflagV)
    (settled.built.reaches_sharedRoot_of_wrapper hflagW)
    ((commonSuper_wrappers dotted hv hw).trans hmerged)

/-- Two object arrays of one dimension settle at an array of a type above both elements. -/
theorem settles_at_elements {dimension : Nat} {first second upper : Name} {f g k : Family}
    (hv : Wrapper.IsNameable ⟨⟨dimension, .object first⟩, f⟩)
    (hw : Wrapper.IsNameable ⟨⟨dimension, .object second⟩, g⟩)
    (heldV : sandbox.hierarchy.contains first) (heldW : sandbox.hierarchy.contains second)
    (hboth : sandbox.hierarchy.BothReach first second upper) (hf : f.join k = k) (hg : g.join k = k)
    (hmerged : sandbox.mergeWrappers ⟨⟨dimension, .object first⟩, f⟩
      ⟨⟨dimension, .object second⟩, g⟩ = .ok (Wrapper.name ⟨⟨dimension, .object upper⟩, k⟩)) :
    sandbox.Settles (Wrapper.name ⟨⟨dimension, .object first⟩, f⟩)
      (Wrapper.name ⟨⟨dimension, .object second⟩, g⟩) := by
  have hupper : sandbox.hierarchy.contains upper :=
    settled.wellFormed.contains_of_reaches heldV hboth.1
  have hnamed : upper ≠ "" := by
    rintro rfl
    rw [settled.named] at hupper
    exact absurd hupper (by simp)
  have hnameable : Wrapper.IsNameable ⟨⟨dimension, .object upper⟩, k⟩ := ⟨hv.1, hnamed⟩
  refine ⟨_, (commonSuper_wrappers dotted hv hw).trans hmerged, ?_,
    absorbs_elements settled dotted hv hnameable heldV hboth.1 hf,
    absorbs_elements settled dotted hw hnameable heldW hboth.2 hg⟩
  exact Known.wrapper hnameable fun base h => Element.object.inj h ▸ hupper

theorem settles_objects {dimension : Nat} {first second : Name} {f g : Family}
    (hv : Wrapper.IsNameable ⟨⟨dimension, .object first⟩, f⟩)
    (hw : Wrapper.IsNameable ⟨⟨dimension, .object second⟩, g⟩)
    (heldV : sandbox.hierarchy.contains first) (heldW : sandbox.hierarchy.contains second) :
    sandbox.Settles (Wrapper.name ⟨⟨dimension, .object first⟩, f⟩)
      (Wrapper.name ⟨⟨dimension, .object second⟩, g⟩) := by
  have hunifying : ∀ family : Family, family.join .unifying = .unifying := by
    intro family
    cases family <;> rfl
  by_cases heq : first = second
  · -- the arrays differ in their family at most
    subst heq
    by_cases hfamily : f = g
    · subst hfamily
      refine ⟨_, commonSuper_self _ _, ?_, absorbs_self _ _, absorbs_self _ _⟩
      exact Known.wrapper hv fun base h => Element.object.inj h ▸ heldV
    · refine settles_at_elements settled dotted hv hw heldV heldW ⟨.refl, .refl⟩ (hunifying f)
        (hunifying g) ?_
      exact mergeWrappers_of_family hfamily
  · obtain ⟨answer, hanswer⟩ := commonAncestry_eq_ok settled.wellFormed heldV heldW
    cases answer with
    | unique least =>
        have hboth := (commonAncestry_eq_unique_iff settled.wellFormed heldV heldW).1 hanswer least
        refine settles_at_elements settled dotted hv hw heldV heldW (hboth.1 .refl)
          (f.join_join_self g) ?_ ?_
        · rw [Family.join_comm f g, Family.join_join_self]
        · exact mergeWrappers_of_unique heq hanswer
    | ambiguous names =>
        -- the interface root stands in, and the array of it is unifying
        have hboth := bothReach_iObject_of_ambiguous settled.wellFormed settled.kinded heldV heldW
          hanswer
        exact settles_at_elements settled dotted hv hw heldV heldW hboth (hunifying f)
          (hunifying g) (mergeWrappers_of_ambiguous heq hanswer)

theorem settles_wrappers (hv : v.IsNameable) (hw : w.IsNameable)
    (heldV : sandbox.hierarchy.HoldsElement v) (heldW : sandbox.hierarchy.HoldsElement w) :
    sandbox.Settles v.name w.name := by
  by_cases heq : v = w
  · subst heq
    exact ⟨_, commonSuper_self _ _, Known.wrapper hv heldV, absorbs_self _ _, absorbs_self _ _⟩
  obtain ⟨⟨dimension, element⟩, f⟩ := v
  obtain ⟨⟨dimension', element'⟩, g⟩ := w
  by_cases hdimension : dimension = dimension'
  · -- only two arrays of objects follow their elements
    subst hdimension
    cases element with
    | primitive type =>
        have hprecise := Wrapper.isUnifying_of_primitive hv
        refine settles_at_root settled dotted hv hw (fun h => absurd h (by simp [hprecise])) id ?_
        cases element' with
        | primitive type' =>
            rw [mergeWrappers, if_neg heq, Wrapper.isUnifying_of_primitive hw]
            simp
        | object second =>
            rw [mergeWrappers, if_neg heq]
            simp
    | object first =>
        cases element' with
        | primitive type' =>
            have hprecise := Wrapper.isUnifying_of_primitive hw
            refine settles_at_root settled dotted hv hw id
              (fun h => absurd h (by simp [hprecise])) ?_
            rw [mergeWrappers, if_neg heq]
            simp
        | object second =>
            exact settles_objects settled dotted hv hw (heldV first rfl) (heldW second rfl)
  · have hmerged : sandbox.mergeWrappers ⟨⟨dimension, element⟩, f⟩ ⟨⟨dimension', element'⟩, g⟩ =
        .ok (sharedRoot (Wrapper.isUnifying ⟨⟨dimension, element⟩, f⟩ ||
          Wrapper.isUnifying ⟨⟨dimension', element'⟩, g⟩)) := by
      rw [mergeWrappers, if_neg heq, if_pos hdimension]
    exact settles_at_root settled dotted hv hw (fun h => by rw [h, Bool.true_or])
      (fun h => by rw [h, Bool.or_true]) hmerged

theorem settles (ha : sandbox.hierarchy.Known a) (hb : sandbox.hierarchy.Known b) :
    sandbox.Settles a b := by
  obtain ⟨nodeA, hstandsA⟩ := ha.exists_standsFor
  obtain ⟨nodeB, hstandsB⟩ := hb.exists_standsFor
  -- a class or interface on either side settles it, otherwise both are arrays
  rcases ha.shapes with ⟨heldA, hplain⟩ | harrayA
  · exact (settles_plain settled dotted hstandsB heldA hplain).symm dotted
  rcases hb.shapes with ⟨heldB, hplain⟩ | harrayB
  · exact settles_plain settled dotted hstandsA heldB hplain
  rcases harrayA with ⟨x, rfl⟩ | ⟨v, rfl, hv, heldV⟩ <;>
    rcases harrayB with ⟨y, rfl⟩ | ⟨w, rfl, hw, heldW⟩
  · exact settles_bases dotted x y
  · exact (settles_wrapper_base settled dotted hw x).symm dotted
  · exact settles_wrapper_base settled dotted hv y
  · exact settles_wrappers settled dotted hv hw heldV heldW

/-! ## Folds -/

theorem foldlM_known {first : Name} (rest : List Name) (hfirst : sandbox.hierarchy.Known first)
    (hrest : ∀ name ∈ rest, sandbox.hierarchy.Known name) :
    ∃ merged, rest.foldlM sandbox.commonSuper first = .ok merged ∧
      sandbox.hierarchy.Known merged := by
  induction rest generalizing first with
  | nil => exact ⟨first, rfl, hfirst⟩
  | cons second rest ih =>
      obtain ⟨merged, hmerged, hknown, -⟩ :=
        settles settled dotted hfirst (hrest second List.mem_cons_self)
      rw [List.foldlM_cons, hmerged]
      exact ih hknown fun name hname => hrest name (List.mem_cons_of_mem _ hname)

end Rules

/-- Two known names are merged into a known one, which stays when it is merged with either of them
again, in either order.  So known names can be merged in any number. -/
theorem commonSuper_stable (settled : sandbox.hierarchy.Settled)
    (dotted : sandbox.renamer.style = .dotted) :
    (∀ a b, sandbox.hierarchy.Known a → sandbox.hierarchy.Known b →
      ∃ merged, sandbox.commonSuper a b = .ok merged ∧ sandbox.hierarchy.Known merged ∧
        sandbox.commonSuper merged a = .ok merged ∧ sandbox.commonSuper a merged = .ok merged ∧
        sandbox.commonSuper merged b = .ok merged ∧ sandbox.commonSuper b merged = .ok merged) ∧
    ∀ (first : Name) (rest : List Name), sandbox.hierarchy.Known first →
      (∀ name ∈ rest, sandbox.hierarchy.Known name) →
      ∃ merged, rest.foldlM sandbox.commonSuper first = .ok merged ∧
        sandbox.hierarchy.Known merged := by
  refine ⟨fun a b ha hb => ?_, fun first rest => foldlM_known settled dotted rest⟩
  obtain ⟨merged, hmerged, hknown, ⟨hma, ham⟩, hmb, hbm⟩ := settles settled dotted ha hb
  exact ⟨merged, hmerged, hknown, hma, ham, hmb, hbm⟩

theorem crossingSandbox_settled : crossingSandbox.hierarchy.Settled where
  toTidy := crossingSandbox_tidy
  named := by decide +kernel
  below_arrays name hbelow := by
    have hall : ∀ name ∈ crossingSandbox.hierarchy.entries.map Entry.name,
        crossingSandbox.hierarchy.IsAncestor ArrayBase.iArray.name name →
          name ∈ seededArrayNames := by
      decide +kernel
    have hname := ((isAncestor_iff crossingSandbox_tidy.wellFormed.layered).1 hbelow).1
    exact hall name (contains_iff.1 hname) hbelow

theorem crossingSandbox_commonSuper_stable :
    crossingSandbox.hierarchy.Settled ∧ crossingSandbox.renamer.style = .dotted ∧
      ∃ merged, crossingSandbox.commonSuper "a.$Luser.Circle" "a.$Luser.Square" = .ok merged ∧
        crossingSandbox.hierarchy.Known merged ∧
        crossingSandbox.commonSuper merged "a.$Luser.Circle" = .ok merged ∧
        crossingSandbox.commonSuper "a.$Luser.Circle" merged = .ok merged ∧
        crossingSandbox.commonSuper merged "a.$Luser.Square" = .ok merged ∧
        crossingSandbox.commonSuper "a.$Luser.Square" merged = .ok merged := by
  have hknown : ∀ base ∈ ["user.Circle", "user.Square"],
      crossingSandbox.hierarchy.Known ("a.$L" ++ base) := by
    intro base hbase
    have hread : ∀ base ∈ ["user.Circle", "user.Square"],
        Wrapper.ofName? ("a.$L" ++ base) = some ⟨⟨1, .object base⟩, .precise⟩ := by
      decide +kernel
    have hheld : ∀ base ∈ ["user.Circle", "user.Square"],
        crossingSandbox.hierarchy.contains base := by
      decide +kernel
    exact .objects (hread base hbase) (hheld base hbase)
  have hall := (commonSuper_stable crossingSandbox_settled rfl).1
  exact ⟨crossingSandbox_settled, rfl,
    hall _ _ (hknown "user.Circle" (by simp)) (hknown "user.Square" (by simp))⟩

/-- The two classes have several tightest ancestors, so arrays of them meet at a unifying array. -/
example : crossingSandbox.commonSuper "a.$Luser.Circle" "a.$Luser.Square" =
    .ok "w._Li.IObject" := by
  decide +kernel

end Sandbox

end SandboxTypes
