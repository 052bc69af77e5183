import SandboxTypes.Proofs.Hierarchy.Invariant

/-!
# The tightest common ancestors

The common ancestors of two types are closed upwards, and the lowest among them
are what `commonAncestry` answers with.  The order theory is short:

* below every common ancestor is a lowest one (`exists_lowest_below`);
* so a common ancestor that is the only lowest one is below all others, and since
  they are closed upwards they are exactly its ancestors (`lowest_eq_singleton_iff`);
* any two types have a common ancestor, the host root at least, so that there
  always is a lowest one (`lowest_ne_nil`), and the stand-in of `tightestAmong` is
  never used.

`commonAncestry_eq_unique_iff` and `commonAncestry_eq_ambiguous` say what the
answer is, in terms of links.  The main statement says it in terms of the queries.
-/

namespace SandboxTypes

namespace Hierarchy

open FixedType

/-- A type is an ancestor of two others. -/
def IsCommonAncestor (hierarchy : Hierarchy) (a b name : Name) : Prop :=
  hierarchy.IsAncestor name a ∧ hierarchy.IsAncestor name b

/-- Two types reach a third one. -/
def BothReach (hierarchy : Hierarchy) (a b name : Name) : Prop :=
  Reaches hierarchy.entries a name ∧ Reaches hierarchy.entries b name

variable {hierarchy : Hierarchy} {a b name least : Name} {visited names : List Name}

theorem isCommonAncestor_iff (wf : WellFormed hierarchy) (ha : hierarchy.contains a)
    (hb : hierarchy.contains b) :
    hierarchy.IsCommonAncestor a b name ↔ hierarchy.BothReach a b name := by
  simp [IsCommonAncestor, BothReach, isAncestor_iff wf.layered, ha, hb]

theorem commonAncestors_eq_ok (wf : WellFormed hierarchy) (ha : hierarchy.contains a)
    (hb : hierarchy.contains b) : ∃ common, hierarchy.commonAncestors a b = .ok common ∧
      ∀ name, name ∈ common ↔ hierarchy.BothReach a b name := by
  obtain ⟨above, habove, hmemAbove⟩ := ancestorsOf_eq_ok wf.layered ha
  obtain ⟨other, hother, hmemOther⟩ := ancestorsOf_eq_ok wf.layered hb
  refine ⟨above.names.filter (· ∈ other), ?_, fun name => ?_⟩
  · rw [commonAncestors, habove, hother]
    rfl
  · rw [List.mem_filter, NameSet.mem_names, decide_eq_true_eq, hmemAbove, hmemOther, BothReach]

/-! ## The lowest common ancestors -/

section Lowest

variable (wf : WellFormed hierarchy)
  (hvisited : ∀ name, name ∈ visited ↔ hierarchy.BothReach a b name)

include wf hvisited

theorem lowest_ne_nil (ha : hierarchy.contains a) (hb : hierarchy.contains b) :
    (hierarchy.lowest visited).names ≠ [] := by
  have hroot : hostObject.name ∈ visited :=
    (hvisited _).2 ⟨wf.reaches_hostObject ha, wf.reaches_hostObject hb⟩
  obtain ⟨low, hlow, -⟩ := exists_lowest_below wf.layered hroot
  exact List.ne_nil_of_mem hlow

theorem lowest_eq_singleton_iff : (hierarchy.lowest visited).names = [least] ↔
    ∀ name, Reaches hierarchy.entries least name ↔ hierarchy.BothReach a b name := by
  rw [NameSet.names_eq_singleton_iff]
  constructor
  · intro h name
    have hleast : hierarchy.BothReach a b least :=
      (hvisited least).1 ((mem_lowest_iff wf.layered).1 ((h least).2 rfl)).1
    constructor
    · intro hreach
      exact ⟨hleast.1.trans hreach, hleast.2.trans hreach⟩
    · intro hboth
      obtain ⟨low, hlow, hreach⟩ := exists_lowest_below wf.layered ((hvisited name).2 hboth)
      exact (h low).1 hlow ▸ hreach
  · intro h name
    rw [mem_lowest_iff wf.layered]
    constructor
    · rintro ⟨hname, hmin⟩
      have hleast : least ∈ visited := (hvisited least).2 ((h least).1 .refl)
      exact hmin least hleast ((h name).2 ((hvisited name).1 hname))
    · rintro rfl
      refine ⟨(hvisited name).2 ((h name).1 .refl), fun other hother hreach => ?_⟩
      exact wf.layered.antisymm ((h other).2 ((hvisited other).1 hother)) hreach

theorem tightestAmong_eq_unique_iff (ha : hierarchy.contains a) (hb : hierarchy.contains b) :
    hierarchy.tightestAmong visited = .unique least ↔
      ∀ name, Reaches hierarchy.entries least name ↔ hierarchy.BothReach a b name := by
  rw [← lowest_eq_singleton_iff wf hvisited, tightestAmong]
  split
  case h_1 hnone => exact absurd hnone (lowest_ne_nil wf hvisited ha hb)
  case h_2 name hone => simp [hone]
  case h_3 names _ hmany => exact ⟨fun h => (nomatch h), fun h => absurd h (hmany least)⟩

end Lowest

theorem names_of_tightestAmong_eq_ambiguous
    (h : hierarchy.tightestAmong visited = .ambiguous names) :
    (hierarchy.lowest visited).names = names ∧ 2 ≤ names.length := by
  unfold tightestAmong at h
  split at h
  case h_1 => exact nomatch h
  case h_2 => exact nomatch h
  case h_3 others hnone hone =>
    obtain rfl := Ancestry.ambiguous.inj h
    refine ⟨rfl, ?_⟩
    match hnames : (hierarchy.lowest visited).names with
    | [] => exact absurd hnames hnone
    | [name] => exact absurd hnames (hone name)
    | _ :: _ :: _ => exact Nat.le_add_left 2 _

/-! ## The answer -/

theorem commonAncestry_of_ne (hne : a ≠ b) {common : List Name}
    (hcommon : hierarchy.commonAncestors a b = .ok common) :
    hierarchy.commonAncestry a b = .ok (hierarchy.tightestAmong common) := by
  rw [commonAncestry, if_neg hne, hcommon]
  rfl

theorem commonAncestry_self (a : Name) : hierarchy.commonAncestry a a = .ok (.unique a) := by
  rw [commonAncestry, if_pos rfl]

theorem commonAncestry_eq_ok (wf : WellFormed hierarchy) (ha : hierarchy.contains a)
    (hb : hierarchy.contains b) : ∃ answer, hierarchy.commonAncestry a b = .ok answer := by
  by_cases hne : a = b
  · subst hne
    exact ⟨_, commonAncestry_self a⟩
  · obtain ⟨common, hcommon, -⟩ := commonAncestors_eq_ok wf ha hb
    exact ⟨_, commonAncestry_of_ne hne hcommon⟩

/-- The answer is a single type exactly if the common ancestors are the ancestors of that type. -/
theorem commonAncestry_eq_unique_iff (wf : WellFormed hierarchy) (ha : hierarchy.contains a)
    (hb : hierarchy.contains b) : hierarchy.commonAncestry a b = .ok (.unique least) ↔
      ∀ name, Reaches hierarchy.entries least name ↔ hierarchy.BothReach a b name := by
  by_cases hne : a = b
  · subst hne
    rw [commonAncestry_self, Except.ok.injEq, Ancestry.unique.injEq]
    constructor
    · rintro rfl name
      exact and_self_iff.symm
    · intro h
      exact wf.layered.antisymm ((h least).1 .refl).1 ((h a).2 ⟨.refl, .refl⟩)
  · obtain ⟨common, hcommon, hmem⟩ := commonAncestors_eq_ok wf ha hb
    rw [commonAncestry_of_ne hne hcommon, Except.ok.injEq,
      tightestAmong_eq_unique_iff wf hmem ha hb]

/-- Several types in the answer are the common ancestors that no other one is below. -/
theorem commonAncestry_eq_ambiguous (wf : WellFormed hierarchy) (ha : hierarchy.contains a)
    (hb : hierarchy.contains b) (h : hierarchy.commonAncestry a b = .ok (.ambiguous names)) :
    names.Pairwise (· < ·) ∧ 2 ≤ names.length ∧
      (∀ name, name ∈ names ↔ hierarchy.BothReach a b name ∧
        ∀ other, hierarchy.BothReach a b other → Reaches hierarchy.entries other name →
          name = other) ∧
      ∀ name, hierarchy.BothReach a b name → ∃ low ∈ names, Reaches hierarchy.entries low name := by
  have hne : a ≠ b := by
    rintro rfl
    exact nomatch Except.ok.inj ((commonAncestry_self a).symm.trans h)
  obtain ⟨common, hcommon, hmem⟩ := commonAncestors_eq_ok wf ha hb
  rw [commonAncestry_of_ne hne hcommon, Except.ok.injEq] at h
  obtain ⟨rfl, htwo⟩ := names_of_tightestAmong_eq_ambiguous h
  refine ⟨(hierarchy.lowest common).increasing, htwo, fun name => ?_, fun name hname => ?_⟩
  · simp only [NameSet.mem_names, mem_lowest_iff wf.layered, hmem]
  · exact exists_lowest_below wf.layered ((hmem name).2 hname)

theorem exists_ne_of_ambiguous (wf : WellFormed hierarchy) (ha : hierarchy.contains a)
    (hb : hierarchy.contains b) (h : hierarchy.commonAncestry a b = .ok (.ambiguous names)) :
    ∃ first ∈ names, ∃ second ∈ names, first ≠ second := by
  obtain ⟨hsorted, htwo, -, -⟩ := commonAncestry_eq_ambiguous wf ha hb h
  match names, htwo with
  | first :: second :: rest, _ =>
      have hlt : first < second := (List.pairwise_cons.1 hsorted).1 second List.mem_cons_self
      refine ⟨first, List.mem_cons_self, second, List.mem_cons_of_mem _ List.mem_cons_self, ?_⟩
      exact fun heq => String.lt_irrefl second (heq ▸ hlt)

theorem commonAncestors_swap (hierarchy : Hierarchy) (a b : Name) :
    SameGrant (hierarchy.commonAncestors a b) (hierarchy.commonAncestors b a) := by
  apply SameGrant.bind_swap
  intro above other
  rw [NameSet.filter_mem_comm]

/-- In whichever order two names are given, the same types are the tightest, and an unknown name is
refused. -/
theorem commonAncestry_swap (hierarchy : Hierarchy) (a b : Name) :
    SameGrant (hierarchy.commonAncestry a b) (hierarchy.commonAncestry b a) := by
  by_cases hne : a = b
  · rw [hne]
  · rw [commonAncestry, commonAncestry, if_neg hne, if_neg (Ne.symm hne)]
    exact (commonAncestors_swap hierarchy a b).map _

theorem commonAncestry_comm (wf : WellFormed hierarchy) (ha : hierarchy.contains a)
    (hb : hierarchy.contains b) : hierarchy.commonAncestry a b = hierarchy.commonAncestry b a := by
  obtain ⟨answer, hanswer⟩ := commonAncestry_eq_ok wf ha hb
  rw [hanswer, (commonAncestry_swap hierarchy a b answer).1 hanswer]

/-! ## The tightest common ancestor -/

theorem tightest_comm (wf : WellFormed hierarchy) (ha : hierarchy.contains a)
    (hb : hierarchy.contains b) :
    hierarchy.tightestCommonAncestor a b = hierarchy.tightestCommonAncestor b a := by
  rw [tightestCommonAncestor, tightestCommonAncestor, commonAncestry_comm wf ha hb]

theorem tightest_of_least (wf : WellFormed hierarchy) (ha : hierarchy.contains a)
    (hb : hierarchy.contains b)
    (hleast : ∀ name, Reaches hierarchy.entries least name ↔ hierarchy.BothReach a b name) :
    hierarchy.tightestCommonAncestor a b = .ok least := by
  rw [tightestCommonAncestor, (commonAncestry_eq_unique_iff wf ha hb).2 hleast]
  rfl

/-- A type and one above it have the upper one as their tightest common ancestor. -/
theorem commonAncestry_of_reaches (wf : WellFormed hierarchy) (ha : hierarchy.contains a)
    (hreach : Reaches hierarchy.entries a b) :
    hierarchy.commonAncestry a b = .ok (.unique b) := by
  have hb : hierarchy.contains b :=
    wf.contains_of_reaches ha hreach
  refine (commonAncestry_eq_unique_iff wf ha hb).2 fun name => ?_
  exact ⟨fun h => ⟨hreach.trans h, h⟩, And.right⟩

theorem tightest_of_reaches (wf : WellFormed hierarchy) (ha : hierarchy.contains a)
    (hreach : Reaches hierarchy.entries a b) : hierarchy.tightestCommonAncestor a b = .ok b := by
  rw [tightestCommonAncestor, commonAncestry_of_reaches wf ha hreach]
  rfl

/-! ## The main statement -/

/-- An answer about two types is right, and nothing but their common ancestors decides it. -/
structure IsTightest (hierarchy : Hierarchy) (a b : Name) (common : List Name)
    (answer : Ancestry) : Prop where
  mem_iff : ∀ name, name ∈ common ↔ hierarchy.IsCommonAncestor a b name
  /-- The common ancestors may be visited in any order, and none leads to the stand-in. -/
  any_order : ∀ visited, (∀ name, name ∈ visited ↔ name ∈ common) →
    (hierarchy.lowest visited).names ≠ [] ∧ hierarchy.tightestAmong visited = answer
  /-- The answer is a single type exactly if that is the least common ancestor. -/
  unique_iff : ∀ least, answer = .unique least ↔
    ∀ name, hierarchy.IsAncestor name least ↔ hierarchy.IsCommonAncestor a b name
  /-- Otherwise the answer lists the common ancestors that are above no other one, and each common
  ancestor is above one of these. -/
  ambiguous : ∀ names, answer = .ambiguous names → names.Pairwise (· < ·) ∧ 2 ≤ names.length ∧
    (∀ name, name ∈ names ↔ hierarchy.IsCommonAncestor a b name ∧
      ∀ other, hierarchy.IsCommonAncestor a b other → hierarchy.IsAncestor name other →
        name = other) ∧
    ∀ name, hierarchy.IsCommonAncestor a b name → ∃ low ∈ names, hierarchy.IsAncestor name low

theorem Reachable.commonAncestry_isTightest (reachable : Reachable hierarchy)
    (ha : hierarchy.contains a) (hb : hierarchy.contains b) (hne : a ≠ b) :
    ∃ common answer, hierarchy.commonAncestors a b = .ok common ∧
      hierarchy.commonAncestry a b = .ok answer ∧ hierarchy.IsTightest a b common answer := by
  have wf := reachable.wellFormed
  obtain ⟨common, hcommon, hmem⟩ := commonAncestors_eq_ok wf ha hb
  have hanswer := commonAncestry_of_ne hne hcommon
  have hcontains : ∀ name, hierarchy.BothReach a b name → hierarchy.contains name :=
    fun name hboth => wf.contains_of_reaches ha hboth.1
  have hroot : hierarchy.BothReach a b hostObject.name :=
    ⟨wf.reaches_hostObject ha, wf.reaches_hostObject hb⟩
  refine ⟨common, hierarchy.tightestAmong common, hcommon, hanswer, ?_, ?_, ?_, ?_⟩
  · -- mem_iff
    intro name
    rw [hmem, isCommonAncestor_iff wf ha hb]
  · -- any_order
    intro visited hvisited
    refine ⟨lowest_ne_nil wf (fun name => (hvisited name).trans (hmem name)) ha hb, ?_⟩
    rw [tightestAmong, tightestAmong, lowest_congr wf.layered hvisited]
  · -- unique_iff
    intro least
    rw [tightestAmong_eq_unique_iff wf hmem ha hb]
    simp only [isAncestor_iff wf.layered, isCommonAncestor_iff wf ha hb]
    constructor
    · intro h name
      rw [and_iff_right (hcontains least ((h least).1 .refl)), h name]
    · intro h name
      rw [← h name, and_iff_right ((h hostObject.name).2 hroot).1]
  · -- ambiguous
    intro names hambiguous
    rw [hambiguous] at hanswer
    obtain ⟨hsorted, htwo, hlowest, hbelow⟩ := commonAncestry_eq_ambiguous wf ha hb hanswer
    simp only [isCommonAncestor_iff wf ha hb, isAncestor_iff wf.layered]
    refine ⟨hsorted, htwo, fun name => ?_, fun name hboth => ?_⟩
    · rw [hlowest]
      refine and_congr_right fun _ => forall₂_congr fun other hother => ?_
      rw [and_iff_right (hcontains other hother)]
    · obtain ⟨low, hlow, hreach⟩ := hbelow name hboth
      exact ⟨low, hlow, hcontains low ((hlowest low).1 hlow).1, hreach⟩

/-- Two classes that implement the same two interfaces, listed before these. -/
def crossing : List Insertion :=
  [.batch
    [.sandboxClass "user.Circle" shadowObject.name ["user.Drawn", "user.Named"],
      .sandboxClass "user.Square" shadowObject.name ["user.Drawn", "user.Named"],
      .sandboxInterface "user.Drawn" [], .sandboxInterface "user.Named" []]]

theorem crossing_isTightest :
    (initial.run crossing).contains "user.Circle" ∧ (initial.run crossing).contains "user.Square" ∧
      ∃ common answer,
        (initial.run crossing).commonAncestors "user.Circle" "user.Square" = .ok common ∧
        (initial.run crossing).commonAncestry "user.Circle" "user.Square" = .ok answer ∧
        (initial.run crossing).IsTightest "user.Circle" "user.Square" common answer := by
  have hcircle : (initial.run crossing).contains "user.Circle" := by decide +kernel
  have hsquare : (initial.run crossing).contains "user.Square" := by decide +kernel
  exact ⟨hcircle, hsquare,
    (Reachable.initial.run crossing).commonAncestry_isTightest hcircle hsquare (by decide)⟩

end Hierarchy

end SandboxTypes
