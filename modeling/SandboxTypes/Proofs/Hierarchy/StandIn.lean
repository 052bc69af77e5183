import SandboxTypes.Proofs.Hierarchy.Kinds

/-!
# The stand-in for several answers

Where two types have several lowest common ancestors, the tightest one is answered
with the interface root, which is not computed from the two types.  It is above both
of them exactly if it is above one of the several (`isCommonAncestor_iObject_iff`).

It fails to be above both only where both can be thrown: a common ancestor other than
the host root lies below the interface root or below the class of everything that can
be thrown (`bothReach_upper_root`).  A class that is listed as a super-interface leads
to such answers (`alarms`), and parents of the declared kind exclude them.
-/

namespace SandboxTypes

namespace Hierarchy

open FixedType

variable {hierarchy : Hierarchy} {a b : Name} {names : List Name}

/-! ## The several lowest ancestors -/

section Ambiguous

variable (wf : WellFormed hierarchy) (ha : hierarchy.contains a) (hb : hierarchy.contains b)
  (hanswer : hierarchy.commonAncestry a b = .ok (.ambiguous names))

include wf ha hb hanswer

theorem isCommonAncestor_iObject_iff : hierarchy.IsCommonAncestor a b iObject.name ↔
    ∃ low ∈ names, hierarchy.IsAncestor iObject.name low := by
  obtain ⟨-, -, hlowest, hbelow⟩ := commonAncestry_eq_ambiguous wf ha hb hanswer
  rw [isCommonAncestor_iff wf ha hb]
  constructor
  · intro hboth
    obtain ⟨low, hlow, hreach⟩ := hbelow iObject.name hboth
    have hcontains := wf.contains_of_reaches ha ((hlowest low).1 hlow).1.1
    exact ⟨low, hlow, (isAncestor_iff wf.layered).2 ⟨hcontains, hreach⟩⟩
  · rintro ⟨low, hlow, hancestor⟩
    have hboth := ((hlowest low).1 hlow).1
    have hreach := ((isAncestor_iff wf.layered).1 hancestor).2
    exact ⟨hboth.1.trans hreach, hboth.2.trans hreach⟩

/-- The host root is below none of its descendants, so that it is not among several answers. -/
theorem hostObject_not_mem_of_ambiguous : hostObject.name ∉ names := by
  obtain ⟨first, hfirst, second, hsecond, hne⟩ := exists_ne_of_ambiguous wf ha hb hanswer
  obtain ⟨-, -, hlowest, -⟩ := commonAncestry_eq_ambiguous wf ha hb hanswer
  intro hroot
  have heq : ∀ low ∈ names, hostObject.name = low := by
    intro low hlow
    have hboth := ((hlowest low).1 hlow).1
    have hcontains := wf.contains_of_reaches ha hboth.1
    exact ((hlowest hostObject.name).1 hroot).2 low hboth (wf.reaches_hostObject hcontains)
  exact hne ((heq first hfirst).symm.trans (heq second hsecond))

theorem bothReach_upper_root : hierarchy.BothReach a b iObject.name ∨
    hierarchy.BothReach a b hostThrowable.name := by
  obtain ⟨low, hlow, -⟩ := exists_ne_of_ambiguous wf ha hb hanswer
  obtain ⟨-, -, hlowest, -⟩ := commonAncestry_eq_ambiguous wf ha hb hanswer
  have hboth := ((hlowest low).1 hlow).1
  have hne : low ≠ hostObject.name := by
    rintro rfl
    exact hostObject_not_mem_of_ambiguous wf ha hb hanswer hlow
  have hcontains := wf.contains_of_reaches ha hboth.1
  rcases (wf.reaches_upper_root hcontains).resolve_left hne with hreach | hreach
  · exact Or.inl ⟨hboth.1.trans hreach, hboth.2.trans hreach⟩
  · exact Or.inr ⟨hboth.1.trans hreach, hboth.2.trans hreach⟩

end Ambiguous

/-! ## The main statement -/

/-- Two types have a tightest common ancestor for an answer.  It is above both of them if they have
one lowest common ancestor, or if one of the several lowest is below the interface root.  Otherwise
both types can be thrown; where parents have the declared kind, this does not happen. -/
theorem Reachable.tightest_isCommonAncestor_iff (reachable : Reachable hierarchy)
    (ha : hierarchy.contains a) (hb : hierarchy.contains b) :
    ∃ upper, hierarchy.tightestCommonAncestor a b = .ok upper ∧
      (hierarchy.IsCommonAncestor a b upper ↔
        ∀ names, hierarchy.commonAncestry a b = .ok (.ambiguous names) →
          ∃ low ∈ names, hierarchy.IsAncestor iObject.name low) ∧
      (¬ hierarchy.IsCommonAncestor a b upper →
        hierarchy.IsCommonAncestor a b hostThrowable.name) ∧
      (hierarchy.Kinded → hierarchy.IsCommonAncestor a b upper) := by
  have wf := reachable.wellFormed
  obtain ⟨answer, hanswer⟩ := commonAncestry_eq_ok wf ha hb
  have htightest : hierarchy.tightestCommonAncestor a b = .ok (answer.uniqueOr iObject.name) := by
    rw [tightestCommonAncestor, hanswer]
    rfl
  refine ⟨_, htightest, ?_⟩
  cases answer with
  | unique least =>
      have hboth := ((commonAncestry_eq_unique_iff wf ha hb).1 hanswer least).1 .refl
      have hcommon := (isCommonAncestor_iff wf ha hb).2 hboth
      refine ⟨⟨fun _ names hambiguous => ?_, fun _ => hcommon⟩, absurd hcommon, fun _ => hcommon⟩
      rw [hanswer] at hambiguous
      exact absurd hambiguous (by simp)
  | ambiguous names =>
      refine ⟨?_, fun hnot => ?_, fun kinded => ?_⟩
      · rw [Ancestry.uniqueOr, isCommonAncestor_iObject_iff wf ha hb hanswer]
        simp [hanswer]
      · rw [Ancestry.uniqueOr, isCommonAncestor_iff wf ha hb] at hnot
        rw [isCommonAncestor_iff wf ha hb]
        exact (bothReach_upper_root wf ha hb hanswer).resolve_left hnot
      · rw [Ancestry.uniqueOr, isCommonAncestor_iff wf ha hb]
        exact bothReach_iObject_of_ambiguous wf kinded ha hb hanswer

theorem crossing_tightest_isCommonAncestor_iff :
    (initial.run crossing).contains "user.Circle" ∧ (initial.run crossing).contains "user.Square" ∧
      (initial.run crossing).Kinded ∧
      ∃ upper, (initial.run crossing).tightestCommonAncestor "user.Circle" "user.Square" =
          .ok upper ∧
        (initial.run crossing).IsCommonAncestor "user.Circle" "user.Square" upper := by
  have hcircle : (initial.run crossing).contains "user.Circle" := by decide +kernel
  have hsquare : (initial.run crossing).contains "user.Square" := by decide +kernel
  have kinded : (initial.run crossing).Kinded := by decide +kernel
  obtain ⟨upper, htightest, -, -, hkinded⟩ :=
    (Reachable.initial.run crossing).tightest_isCommonAncestor_iff hcircle hsquare
  exact ⟨hcircle, hsquare, kinded, upper, htightest, hkinded kinded⟩

/-- Two classes that can be thrown, with two parents in common.  One of the parents is a class that
is listed as a super-interface. -/
def alarms : List Insertion :=
  [.batch
    [.sandboxClass "user.Fault" hostThrowable.name [],
      .sandboxClass "user.Alarm" hostThrowable.name [],
      .sandboxClass "user.Flood" "user.Fault" ["user.Alarm"],
      .sandboxClass "user.Fire" "user.Fault" ["user.Alarm"]]]

/-- The interface root stands in for two classes, and is above none of the types in question. -/
theorem alarms_tightest_not_isAncestor :
    Reachable (initial.run alarms) ∧ (initial.run alarms).contains "user.Flood" ∧
      (initial.run alarms).contains "user.Fire" ∧
      (initial.run alarms).tightestCommonAncestor "user.Flood" "user.Fire" = .ok iObject.name ∧
      (initial.run alarms).commonAncestry "user.Flood" "user.Fire" =
        .ok (.ambiguous ["user.Alarm", "user.Fault"]) ∧
      ¬ (initial.run alarms).IsAncestor iObject.name "user.Flood" ∧
      ¬ (initial.run alarms).IsAncestor iObject.name "user.Fire" := by
  refine ⟨Reachable.initial.run alarms, ?_⟩
  decide +kernel

end Hierarchy

end SandboxTypes
