import Mathlib.Data.List.Perm.Basic
import SandboxTypes.Proofs.Hierarchy.Order
import SandboxTypes.Proofs.Hierarchy.PassedOver

/-!
# Batches

A batch goes in by rounds, so its types come in an order that no caller has asked
for.  This file compares the rounds with a caller who inserts the same types one by
one, in an order of his own.  For a batch of new types there are two directions.

* The rounds are an order of the batch (`exists_order_of_insertMany`).
* Where the batch has an order, no round comes away empty-handed, since the first
  type of the order is ready; and a round takes types out of the order and leaves an
  order of the rest behind (`insertEach_ready`).  So the rounds come to an end
  (`exists_insertMany_of_inOrder`).

Which types come in does not depend on the order, and neither does anything that is
recorded of them (`agrees_extend`).
-/

namespace SandboxTypes

open FixedType (shadowObject)

namespace Hierarchy

/-- Two hierarchies hold the same types, declared and linked alike, and the same host
declarations. -/
structure Agrees (hierarchy other : Hierarchy) : Prop where
  names : hierarchy.names = other.names
  get? : ∀ name, hierarchy.get? name = other.get? name
  supersOf : ∀ name, hierarchy.supersOf name = other.supersOf name
  hostDeclarations : hierarchy.hostDeclarations = other.hostDeclarations

variable {hierarchy other changed : Hierarchy} {batch order left : List Declaration}

/-! ## By rounds -/

theorem exists_order_of_insertRounds (h : hierarchy.insertRounds batch = .ok (left, changed)) :
    ∃ order, (order ++ left).Perm batch ∧ hierarchy.insertEach order = .ok changed := by
  induction hierarchy, batch using rounds_induction with
  | halted hierarchy batch hstuck =>
      rw [insertRounds_of_stuck hstuck] at h
      obtain ⟨rfl, rfl⟩ := Prod.mk.inj (Except.ok.inj h)
      exact ⟨[], .refl _, rfl⟩
  | refused hierarchy batch error hround =>
      rw [insertRounds_eq_bind, hround] at h
      cases h
  | granted hierarchy batch pending staged hround ih =>
      rw [insertRounds_eq_bind, hround] at h
      obtain ⟨hstaged, rfl⟩ := round_eq_ok_iff.1 hround
      obtain ⟨later, hperm, hlater⟩ := ih h
      refine ⟨batch.filter hierarchy.holdsParents ++ later, ?_, ?_⟩
      · rw [List.append_assoc]
        exact (hperm.append_left _).trans (List.filter_append_perm _ _)
      · unfold insertEach at hstaged hlater ⊢
        rw [List.foldlM_append, hstaged]
        exact hlater

theorem exists_order_of_insertMany (h : hierarchy.insertMany batch = .ok changed) :
    ∃ order, order.Perm batch ∧ hierarchy.insertEach order = .ok changed := by
  obtain ⟨order, hperm, hgranted⟩ := exists_order_of_insertRounds (insertMany_eq_ok_iff.1 h)
  exact ⟨order, by simpa using hperm, hgranted⟩

/-- A batch is of new types with different names however it is listed. -/
theorem new_of_perm {known : List Name} (perm : order.Perm batch)
    (distinct : (batch.map Declaration.name).Nodup)
    (fresh : ∀ declaration ∈ batch, declaration.name ∉ known) :
    (order.map Declaration.name).Nodup ∧ ∀ declaration ∈ order, declaration.name ∉ known :=
  ⟨(perm.map _).nodup_iff.2 distinct, fun declaration hmem =>
    fresh declaration (perm.mem_iff.1 hmem)⟩

/-- The rounds put the types of a batch in front in an order of the batch. -/
theorem exists_extend_of_insertMany (wf : WellFormed hierarchy)
    (distinct : (batch.map Declaration.name).Nodup)
    (fresh : ∀ declaration ∈ batch, declaration.name ∉ hierarchy.nodes)
    (h : hierarchy.insertMany batch = .ok changed) :
    ∃ order, order.Perm batch ∧ changed = hierarchy.extend order ∧
      (∀ declaration ∈ order, declaration.IsSound) ∧ InOrder hierarchy.nodes order := by
  obtain ⟨order, perm, hgranted⟩ := exists_order_of_insertMany h
  obtain ⟨hdistinct, hfresh⟩ := new_of_perm perm distinct fresh
  rw [insertEach_eq_insertInOrder hdistinct hfresh, insertInOrder_eq_ok_iff wf] at hgranted
  obtain ⟨hsound, hordered, rfl⟩ := hgranted
  exact ⟨order, perm, rfl, hsound, hordered⟩

/-- The types that are ready go in, and leave an order of the rest behind. -/
theorem insertEach_ready (wf : WellFormed hierarchy)
    (sound : ∀ declaration ∈ batch, declaration.IsSound) (perm : order.Perm batch)
    (ordered : InOrder hierarchy.nodes order) :
    let ready := batch.filter hierarchy.holdsParents
    hierarchy.insertEach ready = .ok (hierarchy.extend ready) ∧
      InOrder (hierarchy.extend ready).nodes (order.filter (!hierarchy.holdsParents ·)) := by
  intro ready
  have hmem : ∀ {declaration}, declaration ∈ ready ↔
      declaration ∈ order ∧ hierarchy.holdsParents declaration := fun {declaration} => by
    rw [List.mem_filter, perm.mem_iff]
  have hdistinct : (batch.map Declaration.name).Nodup :=
    (perm.map _).nodup_iff.1 ordered.nodup_names
  have hdistinctReady : (ready.map Declaration.name).Nodup :=
    (List.filter_sublist.map _).nodup hdistinct
  have hfresh : ∀ declaration ∈ ready, declaration.name ∉ hierarchy.nodes :=
    fun declaration hready => ordered.name_not_mem (hmem.1 hready).1
  refine ⟨?_, ordered.filter ?_ ?_ ?_⟩
  · rw [insertEach_eq_insertInOrder hdistinctReady hfresh, insertInOrder_eq_ok_iff wf]
    refine ⟨fun declaration hready => sound declaration (List.mem_filter.1 hready).1, ?_, rfl⟩
    exact .of_parents_mem hdistinctReady hfresh fun declaration hready parent hparent =>
      contains_iff.1 (holdsParents_iff.1 (hmem.1 hready).2 parent hparent)
  · -- the order goes on from more names
    rw [nodes_extend]
    exact List.subset_append_right _ _
  · -- what is taken out of the order has gone in
    intro declaration horder hready
    rw [nodes_extend, List.mem_append, List.mem_reverse]
    exact Or.inl (List.mem_map_of_mem (hmem.2 ⟨horder, by simpa using hready⟩))
  · -- what stays has not
    intro declaration horder hblocked hknown
    rw [nodes_extend, List.mem_append, List.mem_reverse] at hknown
    rcases hknown with hready | hknown
    · obtain ⟨other, hother, hname⟩ := List.mem_map.1 hready
      have heq : other = declaration := List.inj_on_of_nodup_map ordered.nodup_names
        (hmem.1 hother).1 horder hname
      rw [heq] at hother
      simp [(hmem.1 hother).2] at hblocked
    · exact ordered.name_not_mem horder hknown

theorem exists_insertMany_of_inOrder (wf : WellFormed hierarchy)
    (sound : ∀ declaration ∈ batch, declaration.IsSound) (perm : order.Perm batch)
    (ordered : InOrder hierarchy.nodes order) :
    ∃ changed, hierarchy.insertMany batch = .ok changed := by
  induction hierarchy, batch using rounds_induction generalizing order with
  | halted hierarchy batch hstuck =>
      cases order with
      | nil =>
          obtain rfl := perm.symm.eq_nil
          exact ⟨hierarchy, insertMany_nil hierarchy⟩
      | cons head tail =>
          -- the first type of the order is ready
          have hholds : hierarchy.holdsParents head :=
            holdsParents_iff.2 fun parent hparent => contains_iff.2 (ordered.2.1 parent hparent)
          have hmem : head ∈ batch.filter hierarchy.holdsParents :=
            List.mem_filter.2 ⟨perm.subset List.mem_cons_self, hholds⟩
          rw [hstuck] at hmem
          exact absurd hmem List.not_mem_nil
  | refused hierarchy batch error hround =>
      have hgranted := (insertEach_ready wf sound perm ordered).1
      rw [map_eq_error_iff.1 hround] at hgranted
      cases hgranted
  | granted hierarchy batch left staged hround ih =>
      obtain ⟨hgranted, hrest⟩ := insertEach_ready wf sound perm ordered
      obtain ⟨hstaged, rfl⟩ := round_eq_ok_iff.1 hround
      have hwf : WellFormed staged := (insertEach_grows hstaged).1.wellFormed wf
      obtain rfl := Except.ok.inj (hgranted.symm.trans hstaged)
      rw [insertMany_eq_bind_round, hround]
      exact ih hwf (fun declaration hmem => sound declaration (List.mem_filter.1 hmem).1)
        (perm.filter _) hrest

/-- A batch of new types is granted exactly if its declarations are sound and have an order. -/
theorem exists_insertMany_iff (wf : WellFormed hierarchy)
    (distinct : (batch.map Declaration.name).Nodup)
    (fresh : ∀ declaration ∈ batch, declaration.name ∉ hierarchy.nodes) :
    (∃ changed, hierarchy.insertMany batch = .ok changed) ↔
      (∀ declaration ∈ batch, declaration.IsSound) ∧
        ∃ order, order.Perm batch ∧ InOrder hierarchy.nodes order := by
  constructor
  · rintro ⟨changed, h⟩
    obtain ⟨order, perm, -, hsound, hordered⟩ := exists_extend_of_insertMany wf distinct fresh h
    exact ⟨fun declaration hmem => hsound declaration (perm.mem_iff.2 hmem), order, perm, hordered⟩
  · rintro ⟨hsound, order, perm, hordered⟩
    exact exists_insertMany_of_inOrder wf hsound perm hordered

/-- A batch that is there with all its parents is passed over. -/
theorem insertMany_of_contains
    (held : ∀ declaration ∈ batch, declaration.name ∈ hierarchy.nodes)
    (ready : ∀ declaration ∈ batch, ∀ parent ∈ declaration.parents, parent ∈ hierarchy.nodes) :
    hierarchy.insertMany batch = .ok hierarchy := by
  have hnone : hierarchy.newOf batch = [] := List.filter_eq_nil_iff.2 fun declaration hmem => by
    simp [contains_iff.2 (held declaration hmem)]
  have hready : ∀ declaration ∈ batch, hierarchy.contains declaration.name →
      hierarchy.holdsParents declaration := fun declaration hmem _ =>
    holdsParents_iff.2 fun parent hparent => contains_iff.2 (ready declaration hmem parent hparent)
  rw [insertMany_eq_newOf_of_ready hready, hnone, insertMany_nil]

/-! ## The order is forgotten -/

theorem Agrees.refl (hierarchy : Hierarchy) : hierarchy.Agrees hierarchy :=
  ⟨rfl, fun _ => rfl, fun _ => rfl, rfl⟩

theorem agrees_of_perm (wf : WellFormed hierarchy) (wf' : WellFormed other)
    (perm : hierarchy.entries.Perm other.entries)
    (same : hierarchy.hostDeclarations = other.hostDeclarations) : hierarchy.Agrees other := by
  have hentry : ∀ name, hierarchy.entry? name = other.entry? name := by
    intro name
    apply Option.ext
    intro entry
    rw [entry?_eq_some_iff wf.layered, entry?_eq_some_iff wf'.layered, perm.mem_iff]
  refine ⟨NameSet.ext fun name => ?_, fun name => ?_, fun name => ?_, same⟩
  · rw [mem_names_iff, mem_names_iff, contains, hentry, contains]
  · rw [get?, hentry, get?]
  · rw [supersOf, hentry, supersOf]

theorem agrees_extend (wf : WellFormed hierarchy) {order' : List Declaration}
    (sound : ∀ declaration ∈ order, declaration.IsSound)
    (ordered : InOrder hierarchy.nodes order) (ordered' : InOrder hierarchy.nodes order')
    (perm : order.Perm order') : (hierarchy.extend order).Agrees (hierarchy.extend order') := by
  have hwf := wellFormed_extend wf sound ordered
  have hwf' := wellFormed_extend wf
    (fun declaration hmem => sound declaration (perm.mem_iff.2 hmem)) ordered'
  refine agrees_of_perm hwf hwf' ?_ rfl
  have hreverse := (List.reverse_perm (order.map Declaration.entry)).trans
    ((perm.map _).trans (List.reverse_perm (order'.map Declaration.entry)).symm)
  exact hreverse.append_right _

section New

variable (wf : WellFormed hierarchy) (distinct : (batch.map Declaration.name).Nodup)
  (fresh : ∀ declaration ∈ batch, declaration.name ∉ hierarchy.nodes)

include wf distinct fresh

/-- Any order of the batch leads to the types that the rounds lead to. -/
theorem agrees_extend_of_insertMany (h : hierarchy.insertMany batch = .ok changed)
    (perm : order.Perm batch) (ordered : InOrder hierarchy.nodes order) :
    changed.Agrees (hierarchy.extend order) := by
  obtain ⟨rounds, hperm, rfl, hsound, hordered⟩ := exists_extend_of_insertMany wf distinct fresh h
  exact agrees_extend wf hsound hordered ordered (hperm.trans perm.symm)

theorem insertMany_again (h : hierarchy.insertMany batch = .ok changed) :
    changed.insertMany batch = .ok changed := by
  obtain ⟨rounds, hperm, rfl, -, hordered⟩ := exists_extend_of_insertMany wf distinct fresh h
  have hnodes : ∀ name, name ∈ (hierarchy.extend rounds).nodes ↔
      name ∈ rounds.map Declaration.name ++ hierarchy.nodes := by
    intro name
    rw [nodes_extend, List.mem_append, List.mem_reverse, List.mem_append]
  refine insertMany_of_contains (fun declaration hmem => ?_) fun declaration hmem parent hparent =>
    (hnodes parent).2 (hordered.parent_mem (hperm.mem_iff.2 hmem) hparent)
  exact (hnodes _).2 (List.mem_append_left _ (List.mem_map_of_mem (hperm.mem_iff.2 hmem)))

theorem exists_insertMany_perm {listed : List Declaration} (perm : listed.Perm batch) :
    (∃ changed, hierarchy.insertMany listed = .ok changed) ↔
      ∃ changed, hierarchy.insertMany batch = .ok changed := by
  obtain ⟨hdistinct, hfresh⟩ := new_of_perm perm distinct fresh
  rw [exists_insertMany_iff wf hdistinct hfresh, exists_insertMany_iff wf distinct fresh]
  have hsame : ∀ order : List Declaration, order.Perm listed ↔ order.Perm batch :=
    fun order => ⟨fun h => h.trans perm, fun h => h.trans perm.symm⟩
  simp only [perm.mem_iff, hsame]

/-- A batch that is listed otherwise is granted or refused as it was, with the same types. -/
theorem agrees_after_perm {listed : List Declaration} (perm : listed.Perm batch) :
    (hierarchy.after (.batch listed)).Agrees (hierarchy.after (.batch batch)) := by
  have hiff := exists_insertMany_perm wf distinct fresh perm
  have hperform : ∀ declarations,
      hierarchy.perform (.batch declarations) = hierarchy.insertMany declarations := fun _ => rfl
  cases hbatch : hierarchy.insertMany batch with
  | error error =>
      cases hlisted : hierarchy.insertMany listed with
      | error error' =>
          rw [after_of_perform_error ((hperform listed).trans hlisted),
            after_of_perform_error ((hperform batch).trans hbatch)]
          exact .refl hierarchy
      | ok changed => simp [hlisted, hbatch] at hiff
  | ok changed =>
      obtain ⟨changed', hlisted⟩ := hiff.2 ⟨changed, hbatch⟩
      rw [after_of_perform_ok ((hperform listed).trans hlisted),
        after_of_perform_ok ((hperform batch).trans hbatch)]
      -- both are the order of the rounds that the batch has gone in by
      obtain ⟨hdistinct, hfresh⟩ := new_of_perm perm distinct fresh
      obtain ⟨rounds, hrounds, rfl, -, hordered⟩ :=
        exists_extend_of_insertMany wf distinct fresh hbatch
      exact agrees_extend_of_insertMany wf hdistinct hfresh hlisted (hrounds.trans perm.symm)
        hordered

end New

/-! ## The main statement -/

/-- A batch of new types with different names is granted exactly if some order of it is granted one
by one.  Every order that is leads to the same types, and so does every other list of the batch;
and the batch, given once more, changes nothing. -/
theorem Reachable.insertMany_any_order (reachable : Reachable hierarchy)
    (distinct : (batch.map Declaration.name).Nodup)
    (fresh : ∀ declaration ∈ batch, hierarchy.contains declaration.name = false) :
    ((∃ changed, hierarchy.insertMany batch = .ok changed) ↔
      ∃ order, order.Perm batch ∧ ∃ inserted, hierarchy.insertInOrder order = .ok inserted) ∧
    (∀ changed, hierarchy.insertMany batch = .ok changed →
      (∀ order, order.Perm batch → ∀ inserted, hierarchy.insertInOrder order = .ok inserted →
        changed.Agrees inserted) ∧
      changed.insertMany batch = .ok changed) ∧
    ∀ listed, listed.Perm batch →
      ((∃ changed, hierarchy.insertMany listed = .ok changed) ↔
        ∃ changed, hierarchy.insertMany batch = .ok changed) ∧
      (hierarchy.after (.batch listed)).Agrees (hierarchy.after (.batch batch)) := by
  have wf := reachable.wellFormed
  have hfresh : ∀ declaration ∈ batch, declaration.name ∉ hierarchy.nodes :=
    fun declaration hmem => contains_eq_false_iff.1 (fresh declaration hmem)
  refine ⟨?_, fun changed h => ⟨fun order perm inserted hinserted => ?_, ?_⟩,
    fun listed perm => ⟨?_, ?_⟩⟩
  · rw [exists_insertMany_iff wf distinct hfresh]
    constructor
    · rintro ⟨hsound, order, perm, hordered⟩
      refine ⟨order, perm, _, (insertInOrder_eq_ok_iff wf).2 ⟨?_, hordered, rfl⟩⟩
      exact fun declaration hmem => hsound declaration (perm.mem_iff.1 hmem)
    · rintro ⟨order, perm, inserted, hinserted⟩
      obtain ⟨hsound, hordered, -⟩ := (insertInOrder_eq_ok_iff wf).1 hinserted
      exact ⟨fun declaration hmem => hsound declaration (perm.mem_iff.2 hmem), order, perm,
        hordered⟩
  · obtain ⟨-, hordered, rfl⟩ := (insertInOrder_eq_ok_iff wf).1 hinserted
    exact agrees_extend_of_insertMany wf distinct hfresh h perm hordered
  · exact insertMany_again wf distinct hfresh h
  · exact exists_insertMany_perm wf distinct hfresh perm
  · exact agrees_after_perm wf distinct hfresh perm

/-- A chain of types, each listed before its parents. -/
def upwards : List Declaration :=
  [.sandboxClass "user.Kite" "user.Circle" ["user.Flying"],
    .sandboxClass "user.Circle" shadowObject.name ["user.Drawn"],
    .sandboxInterface "user.Flying" ["user.Drawn"], .sandboxInterface "user.Drawn" []]

theorem upwards_insertMany_any_order :
    (upwards.map Declaration.name).Nodup ∧
      (∀ declaration ∈ upwards, initial.contains declaration.name = false) ∧
      ∃ changed inserted, initial.insertMany upwards = .ok changed ∧
        initial.insertInOrder upwards.reverse = .ok inserted ∧ changed.Agrees inserted ∧
        changed.insertMany upwards = .ok changed ∧
        (initial.after (.batch upwards.reverse)).Agrees (initial.after (.batch upwards)) := by
  have hdistinct : (upwards.map Declaration.name).Nodup := by decide
  have hfresh : ∀ declaration ∈ upwards, initial.contains declaration.name = false := by decide
  obtain ⟨hiff, hgranted, hlisted⟩ := Reachable.initial.insertMany_any_order hdistinct hfresh
  have hinserted : (initial.insertInOrder upwards.reverse).toOption.isSome := by decide
  cases horder : initial.insertInOrder upwards.reverse with
  | error error => simp [horder, Except.toOption] at hinserted
  | ok inserted =>
      have hperm : upwards.reverse.Perm upwards := List.reverse_perm upwards
      obtain ⟨changed, hchanged⟩ := hiff.2 ⟨_, hperm, inserted, horder⟩
      obtain ⟨hagrees, hagain⟩ := hgranted changed hchanged
      exact ⟨hdistinct, hfresh, changed, inserted, hchanged, rfl,
        hagrees _ hperm inserted horder, hagain, (hlisted _ hperm).2⟩

end Hierarchy

end SandboxTypes
