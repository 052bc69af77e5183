import SandboxTypes.Proofs.Hierarchy.CommonAncestry

/-!
# Hierarchies whose parents have the declared kind

Nothing stops a caller from declaring an interface as a super class, or a class as
a super-interface.  `Kinded` says that nobody did.  Then the classes above a type
form a chain (`classes_comparable`), all interfaces lie below the interface root
(`reaches_iObject_of_interface`), and two types that have several lowest common
ancestors have an interface among these.  So the interface root, which stands in
for several answers, is above both types (`tightest_bothReach`).
-/

namespace SandboxTypes

namespace Hierarchy

open FixedType

/-- Declared super classes are classes, and declared super-interfaces are interfaces. -/
def Kinded (hierarchy : Hierarchy) : Prop :=
  ∀ entry ∈ hierarchy.entries,
    (∀ super ∈ entry.declaration.superClass?, hierarchy.isInterface? super = some false) ∧
      ∀ super ∈ entry.declaration.interfaces.names, hierarchy.isInterface? super = some true

instance (hierarchy : Hierarchy) : Decidable hierarchy.Kinded :=
  inferInstanceAs (Decidable (∀ entry ∈ hierarchy.entries, _))

variable {hierarchy : Hierarchy} {entry : Entry} {a b name lower upper x y : Name}

/-! ## Kinds along links -/

theorem isInterface?_entry (wf : WellFormed hierarchy) (hentry : entry ∈ hierarchy.entries) :
    hierarchy.isInterface? entry.name = some entry.declaration.isInterface := by
  have hfound := (entry?_eq_some_iff wf.layered).2 ⟨hentry, rfl⟩
  rw [isInterface?, get?, hfound]
  rfl

theorem isInterface?_iObject (wf : WellFormed hierarchy) :
    hierarchy.isInterface? iObject.name = some true :=
  isInterface?_entry wf wf.iObjectEntry_mem

theorem isInterface?_of_contains (hname : hierarchy.contains name) :
    hierarchy.isInterface? name = some true ∨ hierarchy.isInterface? name = some false := by
  obtain ⟨entry, hentry⟩ := Option.isSome_iff_exists.1 hname
  cases hkind : entry.declaration.isInterface <;> simp [isInterface?, get?, hentry, hkind]

/-- The types directly above an interface other than the interface root are interfaces. -/
theorem interface_of_linked_interface (wf : WellFormed hierarchy) (kinded : hierarchy.Kinded)
    (hlink : Linked hierarchy.entries lower upper) (hne : lower ≠ iObject.name)
    (hlower : hierarchy.isInterface? lower = some true) :
    hierarchy.isInterface? upper = some true := by
  obtain ⟨entry, hentry, rfl, hsuper⟩ := hlink
  have hinterface : entry.declaration.isInterface = true := by
    simpa [isInterface?_entry wf hentry] using hlower
  rcases ((wf.linked entry hentry hne).2 upper).1 hsuper with hdeclared | himplied
  · rcases Declaration.mem_parents.1 hdeclared with hclass | hmem
    · rw [wf.bare entry hentry hinterface] at hclass
      exact absurd hclass (by simp)
    · exact (kinded entry hentry).2 upper hmem
  · rw [eq_iObject_of_impliedParent? himplied]
    exact isInterface?_iObject wf

/-- A class directly above a type is the declared super class of the type, or the host root. -/
theorem superClass_of_linked_class (wf : WellFormed hierarchy) (kinded : hierarchy.Kinded)
    (hentry : entry ∈ hierarchy.entries) (hsuper : upper ∈ entry.supers)
    (hupper : hierarchy.isInterface? upper = some false) :
    entry.declaration.superClass? = some upper ∨ upper = hostObject.name := by
  by_cases hne : entry.name = iObject.name
  · have hlink : Linked hierarchy.entries iObject.name upper := ⟨entry, hentry, hne, hsuper⟩
    exact Or.inr (wf.linked_iObject.1 hlink)
  · rcases ((wf.linked entry hentry hne).2 upper).1 hsuper with hdeclared | himplied
    · rcases Declaration.mem_parents.1 hdeclared with hclass | hmem
      · exact Or.inl hclass
      · rw [(kinded entry hentry).2 upper hmem] at hupper
        exact absurd hupper (by simp)
    · rw [eq_iObject_of_impliedParent? himplied, isInterface?_iObject wf] at hupper
      exact absurd hupper (by simp)

theorem reaches_iObject_of_interface (wf : WellFormed hierarchy) (kinded : hierarchy.Kinded)
    (hname : hierarchy.contains name) (hinterface : hierarchy.isInterface? name = some true) :
    Reaches hierarchy.entries name iObject.name := by
  revert hinterface
  refine wf.layered.supers_induction (motive := fun name =>
    hierarchy.isInterface? name = some true → Reaches hierarchy.entries name iObject.name)
    ?_ name (contains_iff.1 hname)
  intro entry hentry ih hinterface
  by_cases hne : entry.name = iObject.name
  · exact hne ▸ .refl
  · have hsome : entry.supers ≠ [] := by
      rcases wf.inner entry hentry with hroot | ⟨hsome, -⟩
      · have honly : ∀ root ∈ initial.entries, root.declaration.isInterface →
            root.name = iObject.name := by decide
        rw [isInterface?_entry wf hentry] at hinterface
        exact absurd (honly entry hroot (Option.some.inj hinterface)) hne
      · exact hsome
    obtain ⟨super, hsuper⟩ := List.exists_mem_of_ne_nil _ hsome
    have hlink : Linked hierarchy.entries entry.name super := ⟨entry, hentry, rfl, hsuper⟩
    have hsuperInterface := interface_of_linked_interface wf kinded hlink hne hinterface
    exact .head hlink (ih super hsuper hsuperInterface)

theorem eq_hostObject_of_interface_reaches_class (wf : WellFormed hierarchy)
    (kinded : hierarchy.Kinded) (hreach : Reaches hierarchy.entries lower upper)
    (hlower : hierarchy.isInterface? lower = some true)
    (hupper : hierarchy.isInterface? upper = some false) : upper = hostObject.name := by
  induction hreach using Relation.ReflTransGen.head_induction_on with
  | refl =>
      rw [hlower] at hupper
      exact absurd hupper (by simp)
  | @head lower middle hlink hreach ih =>
      by_cases hne : lower = iObject.name
      · subst hne
        obtain rfl := wf.linked_iObject.1 hlink
        rcases Relation.ReflTransGen.cases_head hreach with heq | ⟨_, habove, -⟩
        · exact heq.symm
        · exact absurd habove wf.not_linked_hostObject
      · exact ih (interface_of_linked_interface wf kinded hlink hne hlower)

/-! ## The classes above a type -/

/-- A class strictly above a type, other than the host root, is above the super class of the
type. -/
theorem exists_superClass_below (wf : WellFormed hierarchy) (kinded : hierarchy.Kinded)
    (hentry : entry ∈ hierarchy.entries) (hreach : Reaches hierarchy.entries entry.name x)
    (hne : entry.name ≠ x) (hroot : x ≠ hostObject.name)
    (hx : hierarchy.isInterface? x = some false) :
    ∃ super ∈ entry.supers, entry.declaration.superClass? = some super ∧
      Reaches hierarchy.entries super x := by
  obtain ⟨super, hlink, habove⟩ := (Relation.ReflTransGen.cases_head hreach).resolve_left hne
  have hsuper : super ∈ entry.supers := (wf.layered.linked_iff hentry).1 hlink
  have hsuperClass : hierarchy.isInterface? super = some false := by
    refine (isInterface?_of_contains ?_).resolve_left fun hinterface => hroot ?_
    · exact contains_iff.2 (wf.layered.upper_mem hlink)
    · exact eq_hostObject_of_interface_reaches_class wf kinded habove hinterface hx
  rcases superClass_of_linked_class wf kinded hentry hsuper hsuperClass with hclass | rfl
  · exact ⟨super, hsuper, hclass, habove⟩
  · rcases Relation.ReflTransGen.cases_head habove with heq | ⟨_, hlink', -⟩
    · exact absurd heq.symm hroot
    · exact absurd hlink' wf.not_linked_hostObject

theorem classes_comparable (wf : WellFormed hierarchy) (kinded : hierarchy.Kinded)
    (hname : hierarchy.contains name) (hnameX : Reaches hierarchy.entries name x)
    (hnameY : Reaches hierarchy.entries name y) (hx : hierarchy.isInterface? x = some false)
    (hy : hierarchy.isInterface? y = some false) :
    Reaches hierarchy.entries x y ∨ Reaches hierarchy.entries y x := by
  have hcontains : ∀ {z}, Reaches hierarchy.entries name z → hierarchy.contains z :=
    fun hreach => wf.contains_of_reaches hname hreach
  by_cases hrootX : x = hostObject.name
  · exact Or.inr (hrootX ▸ wf.reaches_hostObject (hcontains hnameY))
  by_cases hrootY : y = hostObject.name
  · exact Or.inl (hrootY ▸ wf.reaches_hostObject (hcontains hnameX))
  -- otherwise both are above the one super class of the type
  clear hcontains
  revert hnameX hnameY
  refine wf.layered.supers_induction (motive := fun name => Reaches hierarchy.entries name x →
    Reaches hierarchy.entries name y →
      Reaches hierarchy.entries x y ∨ Reaches hierarchy.entries y x)
    ?_ name (contains_iff.1 hname)
  intro entry hentry ih hentryX hentryY
  by_cases hselfX : entry.name = x
  · exact Or.inl (hselfX ▸ hentryY)
  by_cases hselfY : entry.name = y
  · exact Or.inr (hselfY ▸ hentryX)
  obtain ⟨super, hsuper, hclass, hsuperX⟩ :=
    exists_superClass_below wf kinded hentry hentryX hselfX hrootX hx
  obtain ⟨other, -, hclass', hotherY⟩ :=
    exists_superClass_below wf kinded hentry hentryY hselfY hrootY hy
  obtain rfl : super = other := Option.some.inj (hclass.symm.trans hclass')
  exact ih super hsuper hsuperX hotherY

/-! ## Several answers -/

theorem bothReach_iObject_of_ambiguous (wf : WellFormed hierarchy) (kinded : hierarchy.Kinded)
    (ha : hierarchy.contains a) (hb : hierarchy.contains b) {names : List Name}
    (h : hierarchy.commonAncestry a b = .ok (.ambiguous names)) :
    hierarchy.BothReach a b iObject.name := by
  obtain ⟨first, hmemFirst, second, hmemSecond, hne⟩ := exists_ne_of_ambiguous wf ha hb h
  obtain ⟨-, -, hlowest, -⟩ := commonAncestry_eq_ambiguous wf ha hb h
  have hfirst := (hlowest first).1 hmemFirst
  have hsecond := (hlowest second).1 hmemSecond
  have hcontains : ∀ {name}, hierarchy.BothReach a b name → hierarchy.contains name :=
    fun hboth => wf.contains_of_reaches ha hboth.1
  have hinterface : ∀ {name}, hierarchy.BothReach a b name →
      hierarchy.isInterface? name = some true → hierarchy.BothReach a b iObject.name := by
    intro name hboth hkind
    have hreach := reaches_iObject_of_interface wf kinded (hcontains hboth) hkind
    exact ⟨hboth.1.trans hreach, hboth.2.trans hreach⟩
  -- an interface among the lowest two is below the interface root, and two classes are comparable
  rcases isInterface?_of_contains (hcontains hfirst.1) with hkind | hkind
  · exact hinterface hfirst.1 hkind
  rcases isInterface?_of_contains (hcontains hsecond.1) with hkind' | hkind'
  · exact hinterface hsecond.1 hkind'
  rcases classes_comparable wf kinded ha hfirst.1.1 hsecond.1.1 hkind hkind' with hup | hup
  · exact absurd (hsecond.2 first hfirst.1 hup).symm hne
  · exact absurd (hfirst.2 second hsecond.1 hup) hne

/-- The tightest common ancestor is answered, and is above both types, also where the interface root
stands in for several. -/
theorem tightest_bothReach (wf : WellFormed hierarchy) (kinded : hierarchy.Kinded)
    (ha : hierarchy.contains a) (hb : hierarchy.contains b) :
    ∃ upper, hierarchy.tightestCommonAncestor a b = .ok upper ∧ hierarchy.BothReach a b upper := by
  obtain ⟨answer, hanswer⟩ := commonAncestry_eq_ok wf ha hb
  refine ⟨answer.uniqueOr iObject.name, by rw [tightestCommonAncestor, hanswer]; rfl, ?_⟩
  cases answer with
  | unique least => exact ((commonAncestry_eq_unique_iff wf ha hb).1 hanswer least).1 .refl
  | ambiguous names => exact bothReach_iObject_of_ambiguous wf kinded ha hb hanswer

end Hierarchy

end SandboxTypes
