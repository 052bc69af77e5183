import SandboxTypes.Proofs.Hierarchy.Ancestors
import SandboxTypes.Proofs.Hierarchy.Growth

/-!
# What holds of every hierarchy

`WellFormed` is the invariant that carries the theory of hierarchies.  It holds of
the roots (`wellFormed_initial`), and a declaration that is new and without fault
keeps it (`WellFormed.add`), hence so does every way of inserting.

The links of a hierarchy are a copy of its declarations: `add` leaves out a parent
that is not there without a word, and it is the check before it that makes sure
there is none to leave out.  `WellFormed.linked` is where that shows.
-/

namespace SandboxTypes

namespace Hierarchy

open FixedType

/-- The invariant of hierarchies. -/
structure WellFormed (hierarchy : Hierarchy) : Prop where
  /-- Every type is listed once, above the types that it is linked to. -/
  layered : Layered hierarchy.entries
  /-- The roots are listed last, and stay as they are. -/
  roots : initial.entries <:+ hierarchy.entries
  /-- All types but the interface root are linked as they are declared, to each parent once. -/
  linked : ∀ entry ∈ hierarchy.entries, entry.name ≠ iObject.name →
    entry.supers.Nodup ∧ ∀ parent, parent ∈ entry.supers ↔
      parent ∈ entry.declaration.parents ∨ entry.declaration.impliedParent? = some parent
  /-- Other types than the roots lie below some type, but not directly below the host root. -/
  inner : ∀ entry ∈ hierarchy.entries, entry ∈ initial.entries ∨
    entry.supers ≠ [] ∧ hostObject.name ∉ entry.supers
  /-- Interfaces have no super class. -/
  bare : ∀ entry ∈ hierarchy.entries, entry.declaration.isInterface →
    entry.declaration.superClass? = none

variable {base hierarchy : Hierarchy} {kind : Declaration → Prop} {declaration : Declaration}
  {entry : Entry} {name parent upper : Name}

/-! ## The entries of the four roots -/

def hostObjectEntry : Entry := ⟨⟨hostObject.name, false, none, ∅, .sandbox⟩, []⟩

def iObjectEntry : Entry := ⟨⟨iObject.name, true, none, ∅, .sandbox⟩, [hostObject.name]⟩

def shadowObjectEntry : Entry :=
  ⟨⟨shadowObject.name, false, some hostObject.name, NameSet.ofList [iObject.name], .sandbox⟩,
    [hostObject.name, iObject.name]⟩

def hostThrowableEntry : Entry :=
  ⟨⟨hostThrowable.name, false, some hostObject.name, ∅, .sandbox⟩, [hostObject.name]⟩

theorem mem_initial_iff : entry ∈ initial.entries ↔ entry = hostThrowableEntry ∨
    entry = shadowObjectEntry ∨ entry = iObjectEntry ∨ entry = hostObjectEntry := by
  have hentries : initial.entries =
      [hostThrowableEntry, shadowObjectEntry, iObjectEntry, hostObjectEntry] := rfl
  simp [hentries]

/-! ## Declarations without fault -/

theorem fault?_eq_none_iff : hierarchy.fault? declaration = none ↔
    declaration.origin = .sandbox ∧ declaration.isInterface = declaration.superClass?.isNone ∧
      hostObject.name ∉ declaration.parents ∧
      ∀ parent ∈ declaration.parents, hierarchy.contains parent := by
  unfold fault?
  cases hinterface : declaration.isInterface <;> cases hsuper : declaration.superClass? <;>
    by_cases horigin : declaration.origin = .sandbox <;>
    by_cases hroot : hostObject.name ∈ declaration.parents <;>
    simp [horigin, hroot]

/-- A type that is neither a root nor at fault has a parent, declared or implied. -/
theorem exists_parent_of_faultless (faultless : hierarchy.fault? declaration = none) :
    ∃ parent, parent ∈ declaration.parents ∨ declaration.impliedParent? = some parent := by
  obtain ⟨-, hkind, -, -⟩ := fault?_eq_none_iff.1 faultless
  cases hsuper : declaration.superClass? with
  | some super => exact ⟨super, Or.inl (Declaration.mem_parents.2 (Or.inl hsuper))⟩
  | none =>
      have hinterface : declaration.isInterface = true := by rw [hkind, hsuper]; rfl
      by_cases hbare : ∃ parent, parent ∈ declaration.interfaces
      · obtain ⟨parent, hmem⟩ := hbare
        exact ⟨parent, Or.inl (Declaration.mem_parents.2 (Or.inr hmem))⟩
      · exact ⟨iObject.name, Or.inr (Declaration.impliedParent?_eq_some_iff.2
          ⟨hinterface, fun parent hmem => hbare ⟨parent, hmem⟩, rfl⟩)⟩

theorem eq_iObject_of_impliedParent? (h : declaration.impliedParent? = some parent) :
    parent = iObject.name :=
  (Declaration.impliedParent?_eq_some_iff.1 h).2.2

/-- The check before a type is added has left no parent to be filtered out. -/
theorem filter_contains_parents (hroot : hierarchy.contains iObject.name)
    (faultless : hierarchy.fault? declaration = none) :
    (declaration.parents ++ declaration.impliedParent?.toList).filter hierarchy.contains =
      declaration.parents ++ declaration.impliedParent?.toList := by
  refine List.filter_eq_self.2 fun parent hparent => ?_
  rcases List.mem_append.1 hparent with hdeclared | himplied
  · exact (fault?_eq_none_iff.1 faultless).2.2.2 parent hdeclared
  · exact eq_iObject_of_impliedParent? (Option.mem_toList.1 himplied) ▸ hroot

/-! ## The new entry -/

private theorem nodup_eraseDups (names : List Name) : names.eraseDups.Nodup := by
  cases names with
  | nil => simp
  | cons first rest =>
      rw [List.eraseDups_cons, List.nodup_cons]
      refine ⟨fun hmem => ?_, nodup_eraseDups (rest.filter fun other => !other == first)⟩
      rw [List.mem_eraseDups, List.mem_filter] at hmem
      simp at hmem
termination_by names.length
decreasing_by exact Nat.lt_succ_of_le (List.length_filter_le _ _)

theorem mem_supers_add (hroot : hierarchy.contains iObject.name)
    (faultless : hierarchy.fault? declaration = none) :
    parent ∈ ((declaration.parents ++ declaration.impliedParent?.toList).filter
        hierarchy.contains).eraseDups ↔
      parent ∈ declaration.parents ∨ declaration.impliedParent? = some parent := by
  rw [List.mem_eraseDups, filter_contains_parents hroot faultless, List.mem_append,
    Option.mem_toList]

/-! ## Preservation -/

theorem wellFormed_initial : WellFormed initial where
  layered := by
    refine .cons ?_ ?_ (.cons ?_ ?_ (.cons ?_ ?_ (.cons ?_ ?_ .nil))) <;> decide
  roots := List.suffix_rfl
  linked := by
    intro entry hentry hne
    rcases mem_initial_iff.1 hentry with rfl | rfl | rfl | rfl
    case inr.inr.inl => exact absurd rfl hne
    all_goals
      refine ⟨by decide, fun parent => ?_⟩
      simp [hostThrowableEntry, shadowObjectEntry, hostObjectEntry, Declaration.mem_parents,
        Declaration.impliedParent?, eq_comm]
  inner := fun entry hentry => Or.inl hentry
  bare := by decide

namespace WellFormed

theorem contains_root (wf : WellFormed hierarchy) (h : initial.contains name) :
    hierarchy.contains name := by
  rw [contains_iff] at h ⊢
  obtain ⟨entry, hentry, hname⟩ := List.mem_map.1 h
  exact List.mem_map.2 ⟨entry, wf.roots.subset hentry, hname⟩

theorem contains_of_reaches (wf : WellFormed hierarchy) (hname : hierarchy.contains name)
    (hreach : Reaches hierarchy.entries name upper) : hierarchy.contains upper :=
  contains_iff.2 (wf.layered.reaches_mem hreach (contains_iff.1 hname))

theorem add (wf : WellFormed hierarchy) (fresh : hierarchy.contains declaration.name = false)
    (faultless : hierarchy.fault? declaration = none) : WellFormed (hierarchy.add declaration) := by
  have hroot : hierarchy.contains iObject.name := wf.contains_root (by decide)
  have hsupers := fun parent => @mem_supers_add hierarchy declaration parent hroot faultless
  obtain ⟨-, hkind, hnoRoot, hheld⟩ := fault?_eq_none_iff.1 faultless
  constructor
  · -- layered: the type is new, and its parents are there
    refine .cons (fun hmem => ?_) (fun parent hparent => ?_) wf.layered
    · exact absurd (contains_iff.2 hmem) (Bool.eq_false_iff.1 fresh)
    · rcases (hsupers parent).1 hparent with hdeclared | himplied
      · exact contains_iff.1 (hheld parent hdeclared)
      · exact contains_iff.1 (eq_iObject_of_impliedParent? himplied ▸ hroot)
  · -- roots
    exact wf.roots.trans (List.suffix_cons _ _)
  · -- linked: the check before has left nothing to be filtered out
    intro entry hentry hne
    rcases List.mem_cons.1 hentry with rfl | hentry
    · exact ⟨nodup_eraseDups _, hsupers⟩
    · exact wf.linked entry hentry hne
  · -- inner: some parent is there, and the host root is refused as one
    intro entry hentry
    rcases List.mem_cons.1 hentry with rfl | hentry
    · refine Or.inr ⟨?_, fun hmem => ?_⟩
      · obtain ⟨parent, hparent⟩ := exists_parent_of_faultless faultless
        exact List.ne_nil_of_mem ((hsupers parent).2 hparent)
      · rcases (hsupers _).1 hmem with hdeclared | himplied
        · exact hnoRoot hdeclared
        · exact absurd (eq_iObject_of_impliedParent? himplied) (by decide)
    · exact wf.inner entry hentry
  · -- bare
    intro entry hentry hinterface
    rcases List.mem_cons.1 hentry with rfl | hentry
    · exact Option.isNone_iff_eq_none.1 (hkind.symm.trans hinterface)
    · exact wf.bare entry hentry hinterface

theorem recordHost (wf : WellFormed hierarchy) (declaration : Declaration) :
    WellFormed (hierarchy.recordHost declaration) :=
  ⟨wf.layered, wf.roots, wf.linked, wf.inner, wf.bare⟩

end WellFormed

theorem Grows.wellFormed (grown : Grows kind base hierarchy) (wf : WellFormed base) :
    WellFormed hierarchy := by
  induction grown with
  | refl => exact wf
  | added _ _ fresh faultless ih => exact ih.add fresh faultless
  | recorded _ ih => exact ih.recordHost _

theorem Reachable.wellFormed (reachable : Reachable hierarchy) : WellFormed hierarchy :=
  reachable.grows.wellFormed wellFormed_initial

/-- What is above a type stays the same, whatever is inserted later. -/
theorem Grows.reaches_iff (grown : Grows kind base hierarchy) (wf : WellFormed base)
    (hname : base.contains name) :
    Reaches hierarchy.entries name upper ↔ Reaches base.entries name upper := by
  induction grown with
  | refl => exact Iff.rfl
  | @added hierarchy declaration grown allowed fresh faultless ih =>
      have hne : name ≠ declaration.name := by
        rintro rfl
        rw [grown.contains hname] at fresh
        exact absurd fresh (by simp)
      have layered := ((grown.wellFormed wf).add fresh faultless).layered
      exact (reaches_cons_of_ne layered hne).trans ih
  | recorded _ ih => exact ih

/-- A type other than the interface root is linked as its declaration says. -/
theorem WellFormed.linked_of_get? (wf : WellFormed hierarchy)
    (found : hierarchy.get? name = some declaration) (hne : name ≠ iObject.name) :
    Linked hierarchy.entries name parent ↔
      parent ∈ declaration.parents ∨ declaration.impliedParent? = some parent := by
  obtain ⟨entry, hentry, rfl, rfl⟩ := (get?_eq_some_iff wf.layered).1 found
  rw [wf.layered.linked_iff hentry, (wf.linked entry hentry hne).2 parent]

/-! ## Towards the roots -/

namespace WellFormed

theorem iObjectEntry_mem (wf : WellFormed hierarchy) : iObjectEntry ∈ hierarchy.entries :=
  wf.roots.subset (by decide)

/-- The roots are linked in every hierarchy as they are from the start. -/
theorem linked_root_iff (wf : WellFormed hierarchy) (hentry : entry ∈ initial.entries) :
    Linked hierarchy.entries entry.name parent ↔ parent ∈ entry.supers :=
  wf.layered.linked_iff (wf.roots.subset hentry)

theorem linked_iObject (wf : WellFormed hierarchy) :
    Linked hierarchy.entries iObject.name parent ↔ parent = hostObject.name :=
  (wf.layered.linked_iff wf.iObjectEntry_mem).trans List.mem_singleton

theorem linked_shadowObject (wf : WellFormed hierarchy) :
    Linked hierarchy.entries shadowObject.name parent ↔
      parent = hostObject.name ∨ parent = iObject.name := by
  have hentry : shadowObjectEntry ∈ initial.entries := by decide
  refine (wf.linked_root_iff hentry).trans ?_
  rw [shadowObjectEntry, List.mem_cons, List.mem_singleton]

theorem linked_hostThrowable (wf : WellFormed hierarchy) :
    Linked hierarchy.entries hostThrowable.name parent ↔ parent = hostObject.name := by
  have hentry : hostThrowableEntry ∈ initial.entries := by decide
  exact (wf.linked_root_iff hentry).trans List.mem_singleton

theorem not_linked_hostObject (wf : WellFormed hierarchy) :
    ¬ Linked hierarchy.entries hostObject.name parent := by
  have hentry : hostObjectEntry ∈ initial.entries := by decide
  intro h
  exact List.not_mem_nil ((wf.linked_root_iff hentry).1 h)

theorem reaches_hostObject_iff (wf : WellFormed hierarchy) :
    Reaches hierarchy.entries hostObject.name name ↔ name = hostObject.name :=
  Relation.reflTransGen_iff_eq fun _ => wf.not_linked_hostObject

theorem reaches_iObject_iff (wf : WellFormed hierarchy) :
    Reaches hierarchy.entries iObject.name name ↔ name = iObject.name ∨ name = hostObject.name := by
  have hparents : ∀ parent, Linked hierarchy.entries iObject.name parent ↔
      parent ∈ [hostObject.name] := by simp [wf.linked_iObject]
  rw [reaches_iff_of_linked hparents]
  simp [wf.reaches_hostObject_iff]

theorem reaches_shadowObject_iff (wf : WellFormed hierarchy) :
    Reaches hierarchy.entries shadowObject.name name ↔
      name = shadowObject.name ∨ name = iObject.name ∨ name = hostObject.name := by
  have hparents : ∀ parent, Linked hierarchy.entries shadowObject.name parent ↔
      parent ∈ [iObject.name, hostObject.name] := by simp [wf.linked_shadowObject, or_comm]
  rw [reaches_iff_of_linked hparents]
  simp [wf.reaches_hostObject_iff, wf.reaches_iObject_iff]

/-- Every type other than the host root lies below the interface root or below the class of
everything that can be thrown. -/
theorem reaches_upper_root (wf : WellFormed hierarchy) (hname : hierarchy.contains name) :
    name = hostObject.name ∨ Reaches hierarchy.entries name iObject.name ∨
      Reaches hierarchy.entries name hostThrowable.name := by
  refine wf.layered.supers_induction (motive := fun name => name = hostObject.name ∨
    Reaches hierarchy.entries name iObject.name ∨
      Reaches hierarchy.entries name hostThrowable.name) ?_ name (contains_iff.1 hname)
  intro entry hentry ih
  rcases wf.inner entry hentry with hroot | ⟨hsome, hinner⟩
  · rcases mem_initial_iff.1 hroot with rfl | rfl | rfl | rfl
    · exact Or.inr (Or.inr .refl)
    · exact Or.inr (Or.inl (.single (wf.linked_shadowObject.2 (Or.inr rfl))))
    · exact Or.inr (Or.inl .refl)
    · exact Or.inl rfl
  · obtain ⟨super, hsuper⟩ := List.exists_mem_of_ne_nil _ hsome
    have hlink : Linked hierarchy.entries entry.name super := ⟨entry, hentry, rfl, hsuper⟩
    rcases ih super hsuper with rfl | hreach | hreach
    · exact absurd hsuper hinner
    · exact Or.inr (Or.inl (.head hlink hreach))
    · exact Or.inr (Or.inr (.head hlink hreach))

theorem reaches_hostObject (wf : WellFormed hierarchy) (hname : hierarchy.contains name) :
    Reaches hierarchy.entries name hostObject.name := by
  rcases wf.reaches_upper_root hname with rfl | hreach | hreach
  · exact .refl
  · exact hreach.tail (wf.linked_iObject.2 rfl)
  · exact hreach.tail (wf.linked_hostThrowable.2 rfl)

/-- The three upper roots are directly below the host root, and no other type is. -/
theorem linked_hostObject_iff (wf : WellFormed hierarchy) :
    Linked hierarchy.entries name hostObject.name ↔
      name ∈ [iObject.name, shadowObject.name, hostThrowable.name] := by
  constructor
  · rintro ⟨entry, hentry, rfl, hsuper⟩
    rcases wf.inner entry hentry with hroot | ⟨-, hinner⟩
    · rcases mem_initial_iff.1 hroot with rfl | rfl | rfl | rfl
      · exact List.mem_cons_of_mem _ (List.mem_cons_of_mem _ List.mem_cons_self)
      · exact List.mem_cons_of_mem _ List.mem_cons_self
      · exact List.mem_cons_self
      · exact absurd hsuper List.not_mem_nil
    · exact absurd hsuper hinner
  · simp only [List.mem_cons, List.not_mem_nil, or_false]
    rintro (rfl | rfl | rfl)
    · exact wf.linked_iObject.2 rfl
    · exact wf.linked_shadowObject.2 (Or.inl rfl)
    · exact wf.linked_hostThrowable.2 rfl

end WellFormed

/-! ## The main statement -/

/-- The types and links of a hierarchy are those that were declared, and have a top. -/
structure IsDeclared (hierarchy : Hierarchy) : Prop where
  /-- No two types have the same name. -/
  nodup : (hierarchy.entries.map Entry.name).Nodup
  /-- A name finds the one type that has it. -/
  indexed : ∀ name entry,
    hierarchy.entry? name = some entry ↔ entry ∈ hierarchy.entries ∧ entry.name = name
  /-- A link leads to a type of the hierarchy. -/
  closed : ∀ entry ∈ hierarchy.entries, ∀ parent ∈ entry.supers, hierarchy.contains parent
  /-- A type is linked to each declared parent, and an interface without super-interfaces to the
  interface root, to none of them twice, and to nothing else. -/
  linked : ∀ entry ∈ hierarchy.entries, entry.name ≠ iObject.name →
    entry.supers.Nodup ∧ ∀ parent, parent ∈ entry.supers ↔
      parent ∈ entry.declaration.parents ∨
        entry.declaration.isInterface ∧ (∀ other, other ∉ entry.declaration.interfaces) ∧
          parent = iObject.name
  /-- The interface root is linked to the host root. -/
  linked_root : ∃ entry, hierarchy.entry? iObject.name = some entry ∧
    entry.supers = [hostObject.name]
  /-- No type is above itself. -/
  acyclic : ∀ name,
    ¬ Relation.TransGen (fun lower upper => upper ∈ hierarchy.supersOf lower) name name
  /-- The three upper roots are directly below the host root, and no other type is. -/
  upper_roots : ∀ name, hostObject.name ∈ hierarchy.supersOf name ↔
    name ∈ [iObject.name, shadowObject.name, hostThrowable.name]
  /-- Every other type than the host root has one of two roots among its ancestors. -/
  rooted : ∀ name, hierarchy.contains name → name ≠ hostObject.name →
    hierarchy.IsAncestor iObject.name name ∨ hierarchy.IsAncestor hostThrowable.name name
  /-- The host root is an ancestor of every type. -/
  topped : ∀ name, hierarchy.contains name → hierarchy.IsAncestor hostObject.name name

theorem Reachable.isDeclared (reachable : Reachable hierarchy) : hierarchy.IsDeclared := by
  have wf := reachable.wellFormed
  have hancestor : ∀ {name upper}, hierarchy.contains name →
      Reaches hierarchy.entries name upper → hierarchy.IsAncestor upper name :=
    fun hname hreach => (isAncestor_iff wf.layered).2 ⟨hname, hreach⟩
  refine ⟨wf.layered.nodup, fun name entry => entry?_eq_some_iff wf.layered, ?_, ?_, ?_, ?_, ?_, ?_,
    ?_⟩
  · -- closed
    intro entry hentry parent hparent
    exact contains_iff.2 (wf.layered.upper_mem ⟨entry, hentry, rfl, hparent⟩)
  · -- linked
    intro entry hentry hne
    simp only [← Declaration.impliedParent?_eq_some_iff]
    exact wf.linked entry hentry hne
  · -- linked_root
    exact ⟨iObjectEntry, (entry?_eq_some_iff wf.layered).2 ⟨wf.iObjectEntry_mem, rfl⟩, rfl⟩
  · -- acyclic: links lead down the list
    rw [supersOf_eq_linked wf.layered]
    exact wf.layered.irrefl
  · -- upper_roots
    intro name
    rw [mem_supersOf_iff wf.layered, wf.linked_hostObject_iff]
  · -- rooted
    intro name hname hne
    rcases (wf.reaches_upper_root hname).resolve_left hne with hreach | hreach
    · exact Or.inl (hancestor hname hreach)
    · exact Or.inr (hancestor hname hreach)
  · -- topped
    intro name hname
    exact hancestor hname (wf.reaches_hostObject hname)

/-- A class that is listed before its parents. -/
def shapeBatch : Insertion :=
  .batch [.sandboxClass "user.Shape" "user.Figure" ["user.Drawn"],
    .sandboxClass "user.Figure" shadowObject.name [], .sandboxInterface "user.Drawn" []]

theorem initial_run_isDeclared :
    Reachable (initial.run [shapeBatch]) ∧
    initial.perform shapeBatch = .ok (initial.run [shapeBatch]) ∧
    (initial.run [shapeBatch]).size = initial.size + 3 ∧
    (initial.run [shapeBatch]).IsDeclared := by
  have reachable : Reachable (initial.run [shapeBatch]) := Reachable.initial.run _
  have hgranted : initial.perform shapeBatch = .ok (initial.run [shapeBatch]) := by decide +kernel
  exact ⟨reachable, hgranted, by decide +kernel, reachable.isDeclared⟩

end Hierarchy

end SandboxTypes
