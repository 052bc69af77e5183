import SandboxTypes.Proofs.Sandbox.Ancestors

/-!
# Object arrays of the sandbox

Two object arrays of one dimension are merged as their elements are
(`mergeWrappers_objects`).  One law covers three rules: arrays of the same elements
differ in their family only, and nothing is looked up; arrays of other elements go to
the tightest common ancestor; and where there are several, they go to the interface
root and leave the precise family.

That two names of one element type differ in the family rests on wrappers being read
one-to-one: different names are read as different wrappers.
-/

namespace SandboxTypes

open FixedType (iObject)

/-- Only above precise arrays lies a precise array. -/
theorem Family.join_eq_precise_iff {f g : Family} :
    f.join g = .precise ↔ f = .precise ∧ g = .precise := by
  cases f <;> cases g <;> decide

theorem Family.join_of_ne {f g : Family} (hne : f ≠ g) : f.join g = .unifying := by
  revert hne
  cases f <;> cases g <;> decide

/-- The family of the array above object arrays of two families, by the tightest common ancestors of
their elements. -/
def Ancestry.familyAbove (f g : Family) : Ancestry → Family
  | unique _ => f.join g
  | ambiguous _ => .unifying

theorem Ancestry.familyAbove_eq_precise_iff {f g : Family} {answer : Ancestry} :
    answer.familyAbove f g = .precise ↔
      f = .precise ∧ g = .precise ∧ ∃ least, answer = .unique least := by
  cases answer with
  | unique least => simp [familyAbove, Family.join_eq_precise_iff]
  | ambiguous names => simp [familyAbove]

namespace Sandbox

open Hierarchy

variable {sandbox : Sandbox} {a b x y : Name} {v w : Wrapper} {n : Nat} {f g : Family}

/-- Two object arrays of one dimension are merged as their elements are. -/
theorem mergeWrappers_objects
    (hne : Wrapper.mk ⟨n, .object x⟩ f ≠ ⟨⟨n, .object y⟩, g⟩) :
    sandbox.mergeWrappers ⟨⟨n, .object x⟩, f⟩ ⟨⟨n, .object y⟩, g⟩ =
      (sandbox.ancestry x y).map fun answer =>
        Wrapper.name ⟨⟨n, .object (answer.uniqueOr iObject.name)⟩, answer.familyAbove f g⟩ := by
  by_cases hbase : x = y
  · subst hbase
    have hfamily : f ≠ g := fun heq => hne (heq ▸ rfl)
    rw [mergeWrappers_of_family hfamily, ancestry_eq_ok (commonAncestry_self x)]
    simp only [Except.map, Ancestry.uniqueOr, Ancestry.familyAbove, Family.join_of_ne hfamily]
  · cases hanswer : sandbox.hierarchy.commonAncestry x y with
    | error error =>
        simp [mergeWrappers, hbase, ancestry, hanswer, Except.mapError, Except.map, bind,
          Except.bind]
    | ok answer =>
        rw [ancestry_eq_ok hanswer]
        cases answer with
        | unique least =>
            rw [mergeWrappers_of_unique hbase hanswer]
            rfl
        | ambiguous names =>
            rw [mergeWrappers_of_ambiguous hbase hanswer]
            rfl

theorem commonSuperOfArrays_wrappers (dotted : sandbox.renamer.style = .dotted) (hne : a ≠ b)
    (ha : Wrapper.ofName? a = some v) (hb : Wrapper.ofName? b = some w) :
    sandbox.commonSuperOfArrays a b = (sandbox.mergeWrappers v w).map some := by
  obtain ⟨rfl, nameableV⟩ := Wrapper.ofName?_eq_some_iff.1 ha
  obtain ⟨rfl, nameableW⟩ := Wrapper.ofName?_eq_some_iff.1 hb
  rw [commonSuperOfArrays, dotted, NameStyle.around₂_dotted,
    mergeArrays_arrays hne (ArrayOperand.ofName?_wrapper nameableV)
      (ArrayOperand.ofName?_wrapper nameableW), mergeOperands]

/-- Two object arrays of one dimension are answered exactly if their elements have a tightest common
ancestor, with the array of that ancestor.  It is precise if both arrays are and the ancestor is
the only one, and unifying otherwise. -/
theorem commonSuperOfArrays_objectWrappers (dotted : sandbox.renamer.style = .dotted)
    (hne : a ≠ b) (ha : Wrapper.ofName? a = some ⟨⟨n, .object x⟩, f⟩)
    (hb : Wrapper.ofName? b = some ⟨⟨n, .object y⟩, g⟩) :
    ((∃ merged, sandbox.commonSuperOfArrays a b = .ok merged) ↔
      ∃ upper, sandbox.hierarchy.tightestCommonAncestor x y = .ok upper) ∧
    (∀ upper, sandbox.hierarchy.tightestCommonAncestor x y = .ok upper →
      ∃ family : Family, (family = .precise ↔ f = .precise ∧ g = .precise ∧
          ∃ least, sandbox.hierarchy.commonAncestry x y = .ok (.unique least)) ∧
        sandbox.commonSuperOfArrays a b = .ok (some (Wrapper.name ⟨⟨n, .object upper⟩, family⟩))) ∧
    ∀ error, sandbox.hierarchy.tightestCommonAncestor x y = .error error →
      sandbox.commonSuperOfArrays a b = .error (.hierarchy error) := by
  have hwrappers : Wrapper.mk ⟨n, .object x⟩ f ≠ ⟨⟨n, .object y⟩, g⟩ := by
    intro heq
    -- one wrapper has one name
    rw [(Wrapper.ofName?_eq_some_iff.1 ha).1, (Wrapper.ofName?_eq_some_iff.1 hb).1, heq] at hne
    exact hne rfl
  rw [commonSuperOfArrays_wrappers dotted hne ha hb, mergeWrappers_objects hwrappers, ancestry,
    tightestCommonAncestor]
  cases hanswer : sandbox.hierarchy.commonAncestry x y with
  | error error => simp [Except.mapError, Except.map]
  | ok answer =>
      refine ⟨⟨fun _ => ⟨_, rfl⟩, fun _ => ⟨_, rfl⟩⟩, ?_, fun error h => by cases h⟩
      rintro upper h
      obtain rfl := Except.ok.inj h
      refine ⟨answer.familyAbove f g, ?_, rfl⟩
      rw [Ancestry.familyAbove_eq_precise_iff]
      simp

/-- Two precise arrays whose elements have two tightest common ancestors, and two arrays of a type
that is not held. -/
theorem crossingSandbox_commonSuperOfArrays_objectWrappers :
    (crossingSandbox.renamer.style = .dotted ∧
      Wrapper.ofName? "a.$$Luser.Circle" = some ⟨⟨2, .object "user.Circle"⟩, .precise⟩ ∧
      Wrapper.ofName? "a.$$Luser.Square" = some ⟨⟨2, .object "user.Square"⟩, .precise⟩ ∧
      Wrapper.ofName? "a.$$Luser.Gone" = some ⟨⟨2, .object "user.Gone"⟩, .precise⟩ ∧
      Wrapper.ofName? "w.__Luser.Gone" = some ⟨⟨2, .object "user.Gone"⟩, .unifying⟩) ∧
    crossingSandbox.commonSuperOfArrays "a.$$Luser.Circle" "a.$$Luser.Square" =
      .ok (some "w.__Li.IObject") ∧
    crossingSandbox.commonSuperOfArrays "a.$$Luser.Gone" "w.__Luser.Gone" =
      .ok (some "w.__Luser.Gone") := by
  have hcircle : Wrapper.ofName? "a.$$Luser.Circle" =
      some ⟨⟨2, .object "user.Circle"⟩, .precise⟩ := by rfl
  have hsquare : Wrapper.ofName? "a.$$Luser.Square" =
      some ⟨⟨2, .object "user.Square"⟩, .precise⟩ := by rfl
  have hprecise : Wrapper.ofName? "a.$$Luser.Gone" =
      some ⟨⟨2, .object "user.Gone"⟩, .precise⟩ := by rfl
  have hunifying : Wrapper.ofName? "w.__Luser.Gone" =
      some ⟨⟨2, .object "user.Gone"⟩, .unifying⟩ := by rfl
  have hflag : (crossingSandbox.hierarchy.commonAncestry "user.Circle" "user.Square").map
      Ancestry.isAmbiguous = .ok true := by
    decide +kernel
  obtain ⟨names, hcrossing⟩ : ∃ names, crossingSandbox.hierarchy.commonAncestry "user.Circle"
      "user.Square" = .ok (.ambiguous names) := by
    obtain ⟨answer, hanswer, hseveral⟩ := map_eq_ok_iff.1 hflag
    cases answer with
    | unique least => exact absurd hseveral (by simp [Ancestry.isAmbiguous])
    | ambiguous names => exact ⟨names, hanswer⟩
  have hshapes : crossingSandbox.hierarchy.tightestCommonAncestor "user.Circle" "user.Square" =
      .ok iObject.name := by
    rw [tightestCommonAncestor, hcrossing]
    rfl
  have hgone : crossingSandbox.hierarchy.tightestCommonAncestor "user.Gone" "user.Gone" =
      .ok "user.Gone" := by
    rw [tightestCommonAncestor, commonAncestry_self]
    rfl
  obtain ⟨family, hfamily, hmerged⟩ :=
    (commonSuperOfArrays_objectWrappers rfl (by decide) hcircle hsquare).2.1 _ hshapes
  obtain ⟨other, hother, hgoneMerged⟩ :=
    (commonSuperOfArrays_objectWrappers rfl (by decide) hprecise hunifying).2.1 _ hgone
  have hleaves : family = .unifying := by
    cases family with
    | unifying => rfl
    | precise =>
        obtain ⟨-, -, least, hunique⟩ := hfamily.1 rfl
        rw [hcrossing] at hunique
        exact absurd (Except.ok.inj hunique) (by simp)
  have hunified : other = .unifying := by
    cases other with
    | unifying => rfl
    | precise => exact absurd (hother.1 rfl).2.1 (by decide)
  subst hleaves hunified
  exact ⟨⟨rfl, hcircle, hsquare, hprecise, hunifying⟩, hmerged, hgoneMerged⟩

end Sandbox

end SandboxTypes
