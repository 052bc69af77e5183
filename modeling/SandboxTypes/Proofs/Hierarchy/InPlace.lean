import SandboxTypes.Hierarchy.InPlace
import SandboxTypes.Proofs.Hierarchy.Invariant

/-!
# A refusal leaves the hierarchy as it was

An insertion in place comes to the same as the insertion that returns a new
hierarchy, and where it is refused the caller still holds the old one
(`Insertion.change_run`).  Single types are checked before they are listed, and a
listed type is linked to each of its parents, since the check has found these
there (`list_link_eq_add`).  A batch may well be refused after some of its rounds;
it is only the copy that has changed by then (`Change.insertRounds_run`).
-/

namespace SandboxTypes

namespace Hierarchy

variable {hierarchy : Hierarchy} {declaration : Declaration} {name : Name}

/-! ## Listing and linking -/

/-- A type with its first links, in front of the types that were there before. -/
def listed (hierarchy : Hierarchy) (declaration : Declaration) (supers : List Name) : Hierarchy :=
  { hierarchy with entries := ⟨declaration, supers⟩ :: hierarchy.entries }

theorem contains_listed {supers : List Name} (h : hierarchy.contains name) :
    (hierarchy.listed declaration supers).contains name :=
  contains_iff.2 (List.mem_cons_of_mem _ (contains_iff.1 h))

theorem link_listed {supers : List Name} {parent : Name}
    (fresh : hierarchy.contains declaration.name = false) (hparent : hierarchy.contains parent) :
    (hierarchy.listed declaration supers).link declaration.name parent =
      hierarchy.listed declaration (if parent ∈ supers then supers else supers ++ [parent]) := by
  have hchild : (hierarchy.listed declaration supers).contains declaration.name :=
    contains_iff.2 List.mem_cons_self
  have holder : hierarchy.entries.map (fun entry =>
      if entry.name = declaration.name then entry.withSuper parent else entry) =
        hierarchy.entries := by
    refine (List.map_congr_left fun entry hentry => if_neg fun hname => ?_).trans (List.map_id _)
    have hcontains : hierarchy.contains entry.name := contains_iff.2 (List.mem_map_of_mem hentry)
    rw [hname, fresh] at hcontains
    exact absurd hcontains (by simp)
  have hname : (Entry.mk declaration supers).name = declaration.name := rfl
  have hnew : (Entry.mk declaration supers).withSuper parent =
      ⟨declaration, if parent ∈ supers then supers else supers ++ [parent]⟩ := by
    unfold Entry.withSuper
    split <;> rfl
  rw [link, hchild, contains_listed hparent, listed, Bool.and_self, if_pos rfl, List.map_cons,
    holder, if_pos hname, hnew]
  rfl

/-- Linking to parents that are there, one after the other, links to each of them once. -/
theorem foldl_link_listed {parents : List Name} (supers : List Name)
    (fresh : hierarchy.contains declaration.name = false)
    (hparents : ∀ parent ∈ parents, hierarchy.contains parent) :
    parents.foldl (fun held parent => held.link declaration.name parent)
        (hierarchy.listed declaration supers) =
      hierarchy.listed declaration (supers ++ (parents.filter (· ∉ supers)).eraseDups) := by
  induction parents generalizing supers with
  | nil => simp
  | cons parent parents ih =>
      have hrest : ∀ other ∈ parents, hierarchy.contains other := fun other hother =>
        hparents other (List.mem_cons_of_mem _ hother)
      rw [List.foldl_cons, link_listed fresh (hparents parent List.mem_cons_self), ih _ hrest]
      by_cases hold : parent ∈ supers
      · simp [hold]
      · have hfilter : parents.filter (· ∉ supers ++ [parent]) =
            (parents.filter (· ∉ supers)).filter fun other => !other == parent := by
          rw [List.filter_filter]
          refine List.filter_congr fun other _ => ?_
          by_cases heq : other = parent <;> simp [heq]
        rw [if_neg hold, hfilter, List.filter_cons_of_pos (by simp [hold]), List.eraseDups_cons,
          List.append_assoc]
        rfl

theorem list_link_eq_add (wf : WellFormed hierarchy)
    (fresh : hierarchy.contains declaration.name = false)
    (faultless : hierarchy.fault? declaration = none) :
    (declaration.parents ++ declaration.impliedParent?.toList).foldl
        (fun held parent => held.link declaration.name parent) (hierarchy.list declaration) =
      hierarchy.add declaration := by
  have hall := filter_contains_parents (wf.contains_root (by decide)) faultless
  have hparents : ∀ parent ∈ declaration.parents ++ declaration.impliedParent?.toList,
      hierarchy.contains parent := List.filter_eq_self.1 hall
  have hfold := foldl_link_listed [] fresh hparents
  simpa [listed, list, add, hall] using hfold

end Hierarchy

namespace Change

open Hierarchy

variable {held : Hierarchy} {declaration host sandbox : Declaration}

/-! ## Single types -/

/-- What a caller holds after an insertion that returns a new hierarchy. -/
def settle {α : Type} (held : Hierarchy) :
    Except HierarchyError (α × Hierarchy) → EStateM.Result HierarchyError Hierarchy α
  | .ok (answer, changed) => .ok answer changed
  | .error error => .error error held

theorem forM_modify_run {names : List Name} {step : Hierarchy → Name → Hierarchy} :
    (names.forM fun name => (modify (step · name) : Change Unit)).run held =
      .ok () (names.foldl step held) := by
  induction names generalizing held with
  | nil => rfl
  | cons name names ih => exact ih

theorem insertIfNew_run (wf : WellFormed held) :
    (insertIfNew declaration).run held = settle held (held.insertIfNew declaration) := by
  rw [insertIfNew, EStateM.run_bind, EStateM.run_get, Hierarchy.insertIfNew]
  dsimp only
  split
  · rfl
  · next hfresh =>
    cases hfault : held.fault? declaration with
    | some error => rfl
    | none =>
        have hadded := list_link_eq_add wf (Bool.eq_false_iff.2 hfresh) hfault
        rw [settle, ← hadded, EStateM.run_bind, EStateM.run_modify]
        dsimp only
        rw [EStateM.run_bind, forM_modify_run]
        rfl

theorem discard_insertIfNew_run (wf : WellFormed held) :
    (discard (insertIfNew declaration) : Change Unit).run held =
      settle held (((held.insertIfNew declaration).map Prod.snd).map ((), ·)) := by
  have hdiscard : (discard (insertIfNew declaration) : Change Unit).run held =
      EStateM.map (fun _ => ()) (insertIfNew declaration) held := rfl
  have hrun : insertIfNew declaration held = settle held (held.insertIfNew declaration) :=
    insertIfNew_run wf
  rw [hdiscard, EStateM.map, hrun]
  cases held.insertIfNew declaration with
  | ok answer => rfl
  | error error => rfl

theorem insert_run (wf : WellFormed held) :
    (insert declaration).run held = settle held ((held.insert declaration).map ((), ·)) := by
  rw [insert, EStateM.run_bind, EStateM.run_get, Hierarchy.insert]
  dsimp only
  split
  · rfl
  · exact discard_insertIfNew_run wf

theorem insertContractClass_run (wf : WellFormed held) :
    (insertContractClass host sandbox).run held =
      settle held ((held.insertContractClass host sandbox).map ((), ·)) := by
  rw [insertContractClass, Hierarchy.insertContractClass]
  split
  · rfl
  · rw [EStateM.run_bind, insert_run wf]
    cases held.insert sandbox with
    | ok changed => rfl
    | error error => rfl

/-! ## Batches -/

/-- A list that is refused is refused after some of its types. -/
theorem insertEach_run (wf : WellFormed held) (batch : List Declaration) :
    ∃ left, (insertEach batch).run held =
      settle left ((held.insertEach batch).map ((), ·)) := by
  induction batch generalizing held with
  | nil => exact ⟨held, rfl⟩
  | cons first batch ih =>
      rw [insertEach, List.forM_eq_forM, List.forM_cons, EStateM.run_bind,
        discard_insertIfNew_run wf, Hierarchy.insertEach, List.foldlM_cons]
      cases hfirst : held.insertIfNew first with
      | error error => exact ⟨held, rfl⟩
      | ok answer => exact ih ((insertIfNew_grows hfirst).1.wellFormed wf)

theorem insertRounds_run_of_stuck {batch : List Declaration}
    (hstuck : batch.filter held.holdsParents = []) :
    (insertRounds batch).run held = .ok batch held := by
  cases batch with
  | nil =>
      rw [insertRounds]
      rfl
  | cons first rest =>
      rw [insertRounds, EStateM.run_bind, EStateM.run_get]
      dsimp only
      rw [if_pos hstuck]
      rfl

theorem insertRounds_run_eq_bind (held : Hierarchy) (batch : List Declaration) :
    (insertRounds batch).run held =
      (insertEach (batch.filter held.holdsParents) >>= fun _ =>
        insertRounds (batch.filter fun declaration => !held.holdsParents declaration)).run
          held := by
  by_cases hstuck : batch.filter held.holdsParents = []
  · rw [hstuck, filter_blocked_of_stuck hstuck]
    rfl
  · cases batch with
    | nil => exact absurd rfl hstuck
    | cons first rest =>
        rw [insertRounds, EStateM.run_bind, EStateM.run_get]
        dsimp only
        rw [if_neg hstuck]

/-- Rounds that are refused have changed the copy by then. -/
theorem insertRounds_run (wf : WellFormed held) (batch : List Declaration) :
    ∃ left, (insertRounds batch).run held = settle left (held.insertRounds batch) := by
  induction held, batch using rounds_induction with
  | halted held batch hstuck =>
      rw [insertRounds_run_of_stuck hstuck, insertRounds_of_stuck hstuck]
      exact ⟨held, rfl⟩
  | refused held batch error hround =>
      obtain ⟨left, hrun⟩ := insertEach_run wf (batch.filter held.holdsParents)
      rw [insertRounds_run_eq_bind, EStateM.run_bind, hrun, insertRounds_eq_bind, hround,
        map_eq_error_iff.1 hround]
      exact ⟨left, rfl⟩
  | granted held batch pending staged hround ih =>
      obtain ⟨left, hrun⟩ := insertEach_run wf (batch.filter held.holdsParents)
      obtain ⟨hstaged, rfl⟩ := round_eq_ok_iff.1 hround
      rw [insertRounds_run_eq_bind, EStateM.run_bind, hrun, insertRounds_eq_bind, hround, hstaged]
      exact ih ((insertEach_grows hstaged).1.wellFormed wf)

theorem insertMany_run (wf : WellFormed held) (batch : List Declaration) :
    (insertMany batch).run held = settle held ((held.insertMany batch).map ((), ·)) := by
  obtain ⟨left, hrun⟩ := insertRounds_run wf batch
  rw [insertMany, EStateM.run_bind, EStateM.run_get, insertMany_eq_bind]
  dsimp only
  rw [hrun]
  cases held.insertRounds batch with
  | error error => rfl
  | ok next =>
      obtain ⟨pending, halted⟩ := next
      cases pending with
      | nil => rfl
      | cons first rest => rfl

end Change

/-- A request that is served in place leaves what it returns else, and one that is refused leaves
the hierarchy that was held. -/
theorem Insertion.change_run {held : Hierarchy} (wf : held.WellFormed) (insertion : Insertion) :
    insertion.change.run held =
      Change.settle held ((held.perform insertion).map ((), ·)) := by
  cases insertion with
  | single declaration => exact Change.insert_run wf
  | ifNew declaration => exact Change.discard_insertIfNew_run wf
  | batch declarations => exact Change.insertMany_run wf declarations
  | contractClass host sandbox => exact Change.insertContractClass_run wf

end SandboxTypes
