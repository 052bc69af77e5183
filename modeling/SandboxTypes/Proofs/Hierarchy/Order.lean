import SandboxTypes.Proofs.Contract.Counterpart
import SandboxTypes.Proofs.Hierarchy.Invariant

/-!
# Types that come in one by one

A caller who inserts types one by one chooses an order, and each insertion must be
granted (`insertInOrder`).  Two things decide about that: whether each declaration is
sound, which no hierarchy has a say in (`Declaration.IsSound`), and whether the types
come in order, each of them new and after its parents (`InOrder`).

`insertInOrder_eq_ok_iff` says so, and it says what comes out: `extend` of the
list, whose entries can be told from the declarations alone.  So the order of the list is
the order of the new entries, and nothing else depends on it.
-/

namespace SandboxTypes

open FixedType (hostObject iObject)

/-! ## Declarations in order -/

namespace InOrder

variable {known larger : List Name} {declarations : List Declaration}

theorem nodup_names (ordered : InOrder known declarations) :
    (declarations.map Declaration.name).Nodup := by
  induction declarations generalizing known with
  | nil => exact List.nodup_nil
  | cons first rest ih =>
      obtain ⟨-, -, hrest⟩ := ordered
      refine List.nodup_cons.2 ⟨fun hmem => ?_, ih hrest⟩
      obtain ⟨other, hother, hname⟩ := List.mem_map.1 hmem
      exact hrest.name_not_mem hother (hname ▸ List.mem_cons_self)

/-- No later type has the name of the one that comes in. -/
theorem fresh_of_cons {first : Declaration} {rest : List Declaration}
    (distinct : ((first :: rest).map Declaration.name).Nodup)
    (fresh : ∀ declaration ∈ first :: rest, declaration.name ∉ known) :
    ∀ declaration ∈ rest, declaration.name ∉ first.name :: known := by
  intro declaration hmem hknown
  rcases List.mem_cons.1 hknown with heq | hknown
  · exact (List.nodup_cons.1 distinct).1 (heq ▸ List.mem_map_of_mem hmem)
  · exact fresh declaration (List.mem_cons_of_mem _ hmem) hknown

/-- New types whose parents are known from the start can come in any order. -/
theorem of_parents_mem (distinct : (declarations.map Declaration.name).Nodup)
    (fresh : ∀ declaration ∈ declarations, declaration.name ∉ known)
    (ready : ∀ declaration ∈ declarations, ∀ parent ∈ declaration.parents, parent ∈ known) :
    InOrder known declarations := by
  induction declarations generalizing known with
  | nil => trivial
  | cons first rest ih =>
      have hready : ∀ declaration ∈ rest, ∀ parent ∈ declaration.parents,
          parent ∈ first.name :: known := fun declaration hmem parent hparent =>
        List.mem_cons_of_mem _ (ready declaration (List.mem_cons_of_mem _ hmem) parent hparent)
      exact ⟨fresh first List.mem_cons_self, ready first List.mem_cons_self,
        ih (List.nodup_cons.1 distinct).2 (fresh_of_cons distinct fresh) hready⟩

/-- Types that have become known can be taken out of an order. -/
theorem filter {p : Declaration → Bool} (ordered : InOrder known declarations)
    (more : known ⊆ larger)
    (dropped : ∀ declaration ∈ declarations, p declaration = false → declaration.name ∈ larger)
    (kept : ∀ declaration ∈ declarations, p declaration = true → declaration.name ∉ larger) :
    InOrder larger (declarations.filter p) := by
  induction declarations generalizing known larger with
  | nil => trivial
  | cons first rest ih =>
      obtain ⟨-, hparents, hrest⟩ := ordered
      have hdropped := fun declaration hmem =>
        dropped declaration (List.mem_cons_of_mem first hmem)
      have hkept := fun declaration hmem => kept declaration (List.mem_cons_of_mem first hmem)
      cases hp : p first with
      | true =>
          rw [List.filter_cons_of_pos hp]
          refine ⟨kept first List.mem_cons_self hp, fun parent hparent =>
            more (hparents parent hparent), ih hrest (List.cons_subset_cons _ more) ?_ ?_⟩
          · intro declaration hmem hnot
            exact List.mem_cons_of_mem _ (hdropped declaration hmem hnot)
          · intro declaration hmem hpos hlarger
            rcases List.mem_cons.1 hlarger with heq | hlarger
            · exact hrest.name_not_mem hmem (heq ▸ List.mem_cons_self)
            · exact hkept declaration hmem hpos hlarger
      | false =>
          rw [List.filter_cons_of_neg (by simp [hp])]
          have hfirst := dropped first List.mem_cons_self hp
          exact ih hrest (List.cons_subset.2 ⟨hfirst, more⟩) hdropped hkept

end InOrder

/-! ## What does not depend on the hierarchy -/

namespace Declaration

/-- Nothing is wrong with a declaration but, perhaps, that a parent is not there. -/
structure IsSound (declaration : Declaration) : Prop where
  origin : declaration.origin = .sandbox
  kind : declaration.isInterface = declaration.superClass?.isNone
  rootless : hostObject.name ∉ declaration.parents

/-- The entry of a type whose parents are all there. -/
def entry (declaration : Declaration) : Entry :=
  ⟨declaration, (declaration.parents ++ declaration.impliedParent?.toList).eraseDups⟩

end Declaration

namespace Hierarchy

/-- Inserts the types of a list in its order, each of them as a new type. -/
def insertInOrder (hierarchy : Hierarchy) (order : List Declaration) :
    Except HierarchyError Hierarchy :=
  order.foldlM insert hierarchy

/-- Puts the types of a list in front of those that are there, the last one first. -/
def extend (hierarchy : Hierarchy) (order : List Declaration) : Hierarchy :=
  { hierarchy with entries := (order.map Declaration.entry).reverse ++ hierarchy.entries }

variable {hierarchy changed : Hierarchy} {declaration : Declaration} {order : List Declaration}

/-! ## One by one -/

theorem contains_eq_false_iff {name : Name} :
    hierarchy.contains name = false ↔ name ∉ hierarchy.nodes := by
  rw [← Bool.not_eq_true, contains_iff, nodes]

theorem fault?_eq_none_iff_isSound : hierarchy.fault? declaration = none ↔
    declaration.IsSound ∧ ∀ parent ∈ declaration.parents, parent ∈ hierarchy.nodes := by
  simp only [fault?_eq_none_iff, contains_iff, nodes]
  constructor
  · rintro ⟨horigin, hkind, hroot, hparents⟩
    exact ⟨⟨horigin, hkind, hroot⟩, hparents⟩
  · rintro ⟨⟨horigin, hkind, hroot⟩, hparents⟩
    exact ⟨horigin, hkind, hroot, hparents⟩

theorem insert_eq_ok_iff : hierarchy.insert declaration = .ok changed ↔
    declaration.name ∉ hierarchy.nodes ∧ hierarchy.fault? declaration = none ∧
      hierarchy.add declaration = changed := by
  rw [nodes, ← contains_iff]
  unfold insert insertIfNew
  cases hcontains : hierarchy.contains declaration.name <;>
    cases hfault : hierarchy.fault? declaration <;> simp [Except.map]

theorem add_eq_extend (wf : WellFormed hierarchy)
    (faultless : hierarchy.fault? declaration = none) :
    hierarchy.add declaration = hierarchy.extend [declaration] := by
  rw [add, filter_contains_parents (wf.contains_root (by decide)) faultless]
  rfl

theorem extend_cons (hierarchy : Hierarchy) (declaration : Declaration)
    (order : List Declaration) :
    hierarchy.extend (declaration :: order) = (hierarchy.extend [declaration]).extend order := by
  simp [extend]

theorem nodes_extend (hierarchy : Hierarchy) (order : List Declaration) :
    (hierarchy.extend order).nodes = (order.map Declaration.name).reverse ++ hierarchy.nodes := by
  have hnames : Entry.name ∘ Declaration.entry = Declaration.name := rfl
  simp [nodes, extend, hnames]

/-- A list is inserted one by one exactly if its declarations are sound and come in order. -/
theorem insertInOrder_eq_ok_iff (wf : WellFormed hierarchy) :
    hierarchy.insertInOrder order = .ok changed ↔
      (∀ declaration ∈ order, declaration.IsSound) ∧ InOrder hierarchy.nodes order ∧
        hierarchy.extend order = changed := by
  unfold insertInOrder
  induction order generalizing hierarchy with
  | nil => simp [InOrder, extend, pure, Except.pure]
  | cons first rest ih =>
      rw [List.foldlM_cons, bind_eq_ok_iff, List.forall_mem_cons, extend_cons]
      constructor
      · rintro ⟨middle, hfirst, hrest⟩
        obtain ⟨hfresh, hfault, rfl⟩ := insert_eq_ok_iff.1 hfirst
        have hwf := wf.add (contains_eq_false_iff.2 hfresh) hfault
        obtain ⟨hsound, hordered, hchanged⟩ := (ih hwf).1 hrest
        obtain ⟨hfirstSound, hparents⟩ := fault?_eq_none_iff_isSound.1 hfault
        rw [add_eq_extend wf hfault] at hchanged
        exact ⟨⟨hfirstSound, hsound⟩, ⟨hfresh, hparents, hordered⟩, hchanged⟩
      · rintro ⟨⟨hfirstSound, hsound⟩, ⟨hfresh, hparents, hordered⟩, hchanged⟩
        have hfault := fault?_eq_none_iff_isSound.2 ⟨hfirstSound, hparents⟩
        have hwf := wf.add (contains_eq_false_iff.2 hfresh) hfault
        refine ⟨_, insert_eq_ok_iff.2 ⟨hfresh, hfault, rfl⟩, (ih hwf).2 ⟨hsound, hordered, ?_⟩⟩
        rw [add_eq_extend wf hfault]
        exact hchanged

/-- Where all types of a list are new, none is skipped. -/
theorem insertEach_eq_insertInOrder (distinct : (order.map Declaration.name).Nodup)
    (fresh : ∀ declaration ∈ order, declaration.name ∉ hierarchy.nodes) :
    hierarchy.insertEach order = hierarchy.insertInOrder order := by
  unfold insertEach insertInOrder
  induction order generalizing hierarchy with
  | nil => rfl
  | cons first rest ih =>
      have hnew : hierarchy.contains first.name = false :=
        contains_eq_false_iff.2 (fresh first List.mem_cons_self)
      have hstep : (hierarchy.insertIfNew first).map Prod.snd = hierarchy.insert first := by
        rw [insert, hnew]
        rfl
      rw [List.foldlM_cons, List.foldlM_cons, hstep]
      cases hinsert : hierarchy.insert first with
      | error error => rfl
      | ok middle =>
          obtain ⟨-, -, rfl⟩ := insert_eq_ok_iff.1 hinsert
          exact ih (List.nodup_cons.1 distinct).2 (InOrder.fresh_of_cons distinct fresh)

theorem wellFormed_extend (wf : WellFormed hierarchy)
    (sound : ∀ declaration ∈ order, declaration.IsSound)
    (ordered : InOrder hierarchy.nodes order) : WellFormed (hierarchy.extend order) := by
  have hgranted := (insertInOrder_eq_ok_iff wf).2 ⟨sound, ordered, rfl⟩
  rw [← insertEach_eq_insertInOrder ordered.nodup_names fun _ => ordered.name_not_mem] at hgranted
  exact (insertEach_grows hgranted).1.wellFormed wf

end Hierarchy

end SandboxTypes
