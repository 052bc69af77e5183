import SandboxTypes.Proofs.Hierarchy.CommonAncestry
import SandboxTypes.Proofs.Hierarchy.InPlace

/-!
# Growth changes no answer

A new type is linked to types that are there, and none of these is linked to it.
So whatever a hierarchy answers about its types, it answers ever after: `IsExtension`
says this query by query.  Above a type nothing changes at all
(`Grows.ancestorsOf_eq`); below it new types may appear, and nothing else.

The main statement is about insertions in place: one that is refused leaves the
hierarchy as it was, and all others extend it.
-/

namespace SandboxTypes

namespace Hierarchy

/-- A hierarchy answers about the types of an older one as that did. -/
structure IsExtension (older newer : Hierarchy) : Prop where
  get? : ∀ name, older.contains name → newer.get? name = older.get? name
  isInterface? : ∀ name, older.contains name → newer.isInterface? name = older.isInterface? name
  ancestorsOf : ∀ name, older.contains name → newer.ancestorsOf name = older.ancestorsOf name
  commonAncestry : ∀ a b, older.contains a → older.contains b →
    newer.commonAncestry a b = older.commonAncestry a b
  tightestCommonAncestor : ∀ a b, older.contains a → older.contains b →
    newer.tightestCommonAncestor a b = older.tightestCommonAncestor a b
  /-- New types may be below an old one. -/
  descendantsOf : ∀ name, older.contains name → ∃ below below',
    older.descendantsOf name = .ok below ∧ newer.descendantsOf name = .ok below' ∧
      ∀ lower, lower ∈ below ↔ lower ∈ below' ∧ older.contains lower

variable {older newer : Hierarchy} {kind : Declaration → Prop} {name a b : Name}

/-! ## Query by query -/

namespace Grows

variable (grown : Grows kind older newer) (wf : WellFormed older)

include grown wf

theorem entry?_eq (hname : older.contains name) : newer.entry? name = older.entry? name := by
  obtain ⟨entry, hentry⟩ := Option.isSome_iff_exists.1 hname
  obtain ⟨hmem, rfl⟩ := (entry?_eq_some_iff wf.layered).1 hentry
  rw [hentry]
  exact (entry?_eq_some_iff (grown.wellFormed wf).layered).2 ⟨grown.suffix.subset hmem, rfl⟩

theorem get?_eq (hname : older.contains name) : newer.get? name = older.get? name := by
  rw [get?, grown.entry?_eq wf hname, get?]

theorem ancestorsOf_eq (hname : older.contains name) :
    newer.ancestorsOf name = older.ancestorsOf name := by
  obtain ⟨above, habove, hmem⟩ := ancestorsOf_eq_ok wf.layered hname
  obtain ⟨above', habove', hmem'⟩ :=
    ancestorsOf_eq_ok (grown.wellFormed wf).layered (grown.contains hname)
  have hsame : above' = above := NameSet.ext fun upper => by
    rw [hmem, hmem', grown.reaches_iff wf hname]
  rw [habove, habove', hsame]

theorem lowest_eq {visited : List Name} (hvisited : ∀ name ∈ visited, older.contains name) :
    newer.lowest visited = older.lowest visited := by
  refine NameSet.ext fun name => ?_
  rw [mem_lowest_iff (grown.wellFormed wf).layered, mem_lowest_iff wf.layered]
  refine and_congr_right fun _ => forall₂_congr fun other hother => ?_
  rw [grown.reaches_iff wf (hvisited other hother)]

theorem commonAncestry_eq (ha : older.contains a) (hb : older.contains b) :
    newer.commonAncestry a b = older.commonAncestry a b := by
  by_cases hne : a = b
  · rw [commonAncestry, if_pos hne, commonAncestry, if_pos hne]
  · obtain ⟨common, hcommon, hmem⟩ := commonAncestors_eq_ok wf ha hb
    have hcommon' : newer.commonAncestors a b = .ok common := by
      rw [← hcommon, commonAncestors, grown.ancestorsOf_eq wf ha, grown.ancestorsOf_eq wf hb,
        commonAncestors]
    have hheld : ∀ name ∈ common, older.contains name := fun name hname =>
      wf.contains_of_reaches ha ((hmem name).1 hname).1
    rw [commonAncestry_of_ne hne hcommon, commonAncestry_of_ne hne hcommon', tightestAmong,
      grown.lowest_eq wf hheld, tightestAmong]

/-- An old type is below another one in the new hierarchy exactly if it was in the old one. -/
theorem descendantsOf_restrict (hname : older.contains name) : ∃ below below',
    older.descendantsOf name = .ok below ∧ newer.descendantsOf name = .ok below' ∧
      ∀ lower, lower ∈ below ↔ lower ∈ below' ∧ older.contains lower := by
  obtain ⟨below, hbelow, hmem⟩ := descendantsOf_eq_ok hname
  obtain ⟨below', hbelow', hmem'⟩ := descendantsOf_eq_ok (grown.contains hname)
  refine ⟨below, below', hbelow, hbelow', fun lower => ?_⟩
  rw [hmem, hmem']
  constructor
  · rintro ⟨hreach, hne⟩
    -- what reaches another type has a link, so it is one of the types
    have hlower : older.contains lower := by
      obtain ⟨_, hlink, -⟩ :=
        (Relation.ReflTransGen.cases_head hreach).resolve_left hne
      exact contains_iff.2 hlink.lower_mem
    exact ⟨⟨(grown.reaches_iff wf hlower).2 hreach, hne⟩, hlower⟩
  · rintro ⟨⟨hreach, hne⟩, hlower⟩
    exact ⟨(grown.reaches_iff wf hlower).1 hreach, hne⟩

theorem isExtension : IsExtension older newer := by
  refine ⟨fun name => grown.get?_eq wf, fun name hname => ?_, fun name => grown.ancestorsOf_eq wf,
    fun a b => grown.commonAncestry_eq wf, fun a b ha hb => ?_,
    fun name => grown.descendantsOf_restrict wf⟩
  · rw [isInterface?, grown.get?_eq wf hname, isInterface?]
  · rw [tightestCommonAncestor, grown.commonAncestry_eq wf ha hb, tightestCommonAncestor]

end Grows

/-! ## The main statement -/

/-- An insertion in place that is refused leaves the hierarchy as it was.  One that is granted
extends it, and so does every run of insertions. -/
theorem Reachable.change_isExtension {hierarchy : Hierarchy} (reachable : Reachable hierarchy) :
    (∀ insertion : Insertion, match insertion.change.run hierarchy with
      | .error error left => hierarchy.perform insertion = .error error ∧ left = hierarchy
      | .ok _ changed =>
        hierarchy.perform insertion = .ok changed ∧ IsExtension hierarchy changed) ∧
    ∀ insertions, IsExtension hierarchy (hierarchy.run insertions) := by
  have wf := reachable.wellFormed
  refine ⟨fun insertion => ?_, fun insertions => (run_grows hierarchy insertions).isExtension wf⟩
  rw [insertion.change_run wf]
  cases hperform : hierarchy.perform insertion with
  | error error => exact ⟨rfl, rfl⟩
  | ok changed => exact ⟨rfl, (perform_grows hperform).isExtension wf⟩

/-- The second round of a batch is refused. -/
def halfKnown : Insertion :=
  .batch [.sandboxClass "user.Kite" "user.Circle" [], .sandboxClass "user.Wing" "user.Bird" []]

/-- A type that is granted. -/
def admitOval : Insertion := .single (.sandboxClass "user.Oval" "user.Circle" [])

theorem crossing_change_isExtension :
    (match halfKnown.change.run (initial.run crossing) with
      | .error error left =>
        (initial.run crossing).perform halfKnown = .error error ∧ left = initial.run crossing
      | .ok _ changed => (initial.run crossing).perform halfKnown = .ok changed ∧
        IsExtension (initial.run crossing) changed) ∧
    (initial.run crossing).perform halfKnown = .error (.unknownParent "user.Wing" "user.Bird") ∧
    (initial.run crossing).perform admitOval = .ok ((initial.run crossing).run [admitOval]) ∧
    ((initial.run crossing).run [admitOval]).size = (initial.run crossing).size + 1 ∧
    IsExtension (initial.run crossing) ((initial.run crossing).run [admitOval]) := by
  have hrefused : (initial.run crossing).perform halfKnown =
      .error (.unknownParent "user.Wing" "user.Bird") := by
    decide +kernel
  have hgranted : (initial.run crossing).perform admitOval =
      .ok ((initial.run crossing).run [admitOval]) := by
    decide +kernel
  have hall := (Reachable.initial.run crossing).change_isExtension
  exact ⟨hall.1 halfKnown, hrefused, hgranted, by decide +kernel, hall.2 _⟩

end Hierarchy

end SandboxTypes
