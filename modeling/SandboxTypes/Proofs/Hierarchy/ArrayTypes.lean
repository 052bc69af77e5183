import SandboxTypes.Proofs.Hierarchy.Kinds
import SandboxTypes.Wrapper.Reading

/-!
# The array types of a hierarchy

A build with array types seeds twelve types whose names are read as arrays: the
four array base types and the wrappers of one-dimensional arrays of primitives.
No type of the library has one of these names, so the seeded declarations are the
ones found under them, whatever is inserted later (`BuiltWithArrays.get?_base`,
`BuiltWithArrays.get?_wrapper`).  The types above the base types are then fixed
(`reaches_base_iff`), and the table `ArrayBase.join` agrees with them.
-/

namespace SandboxTypes

open FixedType (hostObject iObject shadowObject)

namespace Hierarchy

/-- The hierarchies that callers can come to hold after a build with array types. -/
def BuiltWithArrays (hierarchy : Hierarchy) : Prop :=
  ∃ (seed : Seed) (start : Hierarchy) (insertions : List Insertion),
    seed.arrayTypes = true ∧ build seed = .ok start ∧ hierarchy = start.run insertions

end Hierarchy

def seededArrayNames : List Name := arrayDeclarations.map Declaration.name

theorem mem_seededArrayNames {name : Name} : name ∈ seededArrayNames ↔
    (∃ base : ArrayBase, name = base.name) ∨
      ∃ type : Primitive, name = Zone.array.qualify type.wrapperName := by
  simp only [seededArrayNames, arrayDeclarations, List.map_append, List.map_map, List.mem_append,
    List.mem_map, Function.comp_apply, ArrayBase.declaration_name]
  constructor
  · rintro (⟨base, -, rfl⟩ | ⟨type, -, rfl⟩)
    · exact Or.inl ⟨base, rfl⟩
    · exact Or.inr ⟨type, rfl⟩
  · rintro (⟨base, rfl⟩ | ⟨type, rfl⟩)
    · exact Or.inl ⟨base, base.mem_all, rfl⟩
    · exact Or.inr ⟨type, type.mem_all, rfl⟩

/-- The types above an array base type, the lower ones first. -/
def ArrayBase.above : ArrayBase → List Name
  | objectArray => [objectArray.name, array.name, iObjectArray.name, shadowObject.name, iArray.name,
      iObject.name, hostObject.name]
  | array => [array.name, shadowObject.name, iArray.name, iObject.name, hostObject.name]
  | iObjectArray => [iObjectArray.name, iArray.name, iObject.name, hostObject.name]
  | iArray => [iArray.name, iObject.name, hostObject.name]

namespace Hierarchy

variable {hierarchy : Hierarchy} {declaration : Declaration} {name parent : Name}

/-! ## The seeded declarations -/

private theorem array_covers_of_mem :
    ∀ declaration ∈ arrayDeclarations, Zone.array.covers declaration.name := by
  decide

private theorem arrayDeclarations_inj : ∀ first ∈ arrayDeclarations,
    ∀ second ∈ arrayDeclarations, first.name = second.name → first = second := by
  decide +kernel

theorem not_array_covers_of_library {types : List HostType} {library : Hierarchy}
    (h : initial.insertMany (types.map HostLibrary.sandboxDeclaration) = .ok library)
    (hname : library.contains name) : Zone.array.covers name = false := by
  obtain ⟨entry, hentry, rfl⟩ := List.mem_map.1 (contains_iff.1 hname)
  rcases (insertMany_grows h).1.mem_entries hentry with hroot | hmem
  · have hroots : ∀ entry ∈ initial.entries, Zone.array.covers entry.name = false := by decide
    exact hroots entry hroot
  · obtain ⟨type, -, htype⟩ := List.mem_map.1 hmem
    have hne : Zone.array ≠ .api ∧ Zone.array ≠ .shadow := by decide
    rw [Entry.name, ← htype, HostLibrary.sandboxDeclaration, HostLibrary.sandboxName]
    split
    · simp [Zone.covers, Zone.unqualify?_qualify_of_ne hne.1]
    · simp [Zone.covers, Zone.unqualify?_qualify_of_ne hne.2]

namespace BuiltWithArrays

theorem reachable (built : hierarchy.BuiltWithArrays) : Reachable hierarchy := by
  obtain ⟨seed, start, insertions, -, hstart, rfl⟩ := built
  exact (Reachable.built hstart).run insertions

theorem get?_seeded (built : hierarchy.BuiltWithArrays) (hmem : declaration ∈ arrayDeclarations) :
    hierarchy.get? declaration.name = some declaration := by
  have wf := built.reachable.wellFormed
  obtain ⟨seed, start, insertions, hseed, hstart, rfl⟩ := built
  obtain ⟨library, arrays, hlibrary, harrays, hrest⟩ := build_stages hstart
  rw [Seed.arrayDeclarations, if_pos hseed] at harrays
  obtain ⟨hgrown, hall⟩ := insertMany_grows harrays
  obtain ⟨entry, hentry, hname⟩ := List.mem_map.1 (contains_iff.1 (hall declaration hmem))
  have hdeclared : entry.declaration = declaration := by
    rcases hgrown.mem_entries hentry with hold | hnew
    · -- the library was there before, and has no such name
      have hcovers := array_covers_of_mem declaration hmem
      rw [← hname, not_array_covers_of_library hlibrary
        (contains_iff.2 (List.mem_map_of_mem hold))] at hcovers
      exact absurd hcovers (by simp)
    · exact arrayDeclarations_inj _ hnew _ hmem hname
  have hkept : entry ∈ (start.run insertions).entries :=
    (hrest.trans (run_grows start insertions)).suffix.subset hentry
  exact (get?_eq_some_iff wf.layered).2 ⟨entry, hkept, hname, hdeclared⟩

theorem get?_base (built : hierarchy.BuiltWithArrays) (base : ArrayBase) :
    hierarchy.get? base.name = some base.declaration := by
  rw [← base.declaration_name]
  exact built.get?_seeded (List.mem_append_left _ (List.mem_map_of_mem base.mem_all))

theorem get?_wrapper (built : hierarchy.BuiltWithArrays) (type : Primitive) :
    hierarchy.get? (Zone.array.qualify type.wrapperName) = some type.wrapperDeclaration :=
  built.get?_seeded (List.mem_append_right _ (List.mem_map_of_mem type.mem_all))

end BuiltWithArrays

/-! ## The types above them -/

theorem contains_of_get? (h : hierarchy.get? name = some declaration) :
    hierarchy.contains name := by
  obtain ⟨entry, hentry, -⟩ := Option.map_eq_some_iff.1 h
  rw [contains, hentry]
  rfl

namespace BuiltWithArrays

theorem contains_base (built : hierarchy.BuiltWithArrays) (base : ArrayBase) :
    hierarchy.contains base.name :=
  contains_of_get? (built.get?_base base)

theorem linked_base_iff (built : hierarchy.BuiltWithArrays) (base : ArrayBase) :
    Linked hierarchy.entries base.name parent ↔ parent ∈ base.declaration.parents := by
  have hne : base.name ≠ iObject.name := by cases base <;> decide
  have himplied : base.declaration.impliedParent? = none := by cases base <;> rfl
  rw [built.reachable.wellFormed.linked_of_get? (built.get?_base base) hne, himplied]
  simp

theorem linked_wrapper_iff (built : hierarchy.BuiltWithArrays) (type : Primitive) :
    Linked hierarchy.entries (Zone.array.qualify type.wrapperName) parent ↔
      parent = ArrayBase.array.name := by
  have hne : Zone.array.qualify type.wrapperName ≠ iObject.name := by cases type <;> decide
  have himplied : type.wrapperDeclaration.impliedParent? = none := rfl
  have hparents : type.wrapperDeclaration.parents = [ArrayBase.array.name] := rfl
  rw [built.reachable.wellFormed.linked_of_get? (built.get?_wrapper type) hne, himplied, hparents]
  simp

theorem reaches_base_iff (built : hierarchy.BuiltWithArrays) (base : ArrayBase) :
    Reaches hierarchy.entries base.name name ↔ name ∈ base.above := by
  have wf := built.reachable.wellFormed
  have hstep : ∀ base : ArrayBase, Reaches hierarchy.entries base.name name ↔
      name = base.name ∨ ∃ parent ∈ base.declaration.parents,
        Reaches hierarchy.entries parent name :=
    fun base => reaches_iff_of_linked fun _ => built.linked_base_iff base
  have hone : ∀ {base : ArrayBase} {parent}, base.declaration.parents = [parent] →
      (Reaches hierarchy.entries base.name name ↔
        name = base.name ∨ Reaches hierarchy.entries parent name) := by
    intro base parent hparents
    simp [hstep, hparents]
  have htwo : ∀ {base : ArrayBase} {first second}, base.declaration.parents = [first, second] →
      (Reaches hierarchy.entries base.name name ↔ name = base.name ∨
        Reaches hierarchy.entries first name ∨ Reaches hierarchy.entries second name) := by
    intro base first second hparents
    simp [hstep, hparents]
  -- from the upper base types to the lower ones
  have hiArray : Reaches hierarchy.entries ArrayBase.iArray.name name ↔
      name ∈ ArrayBase.iArray.above := by
    have hparents : ArrayBase.iArray.declaration.parents = [iObject.name] := rfl
    rw [hone hparents, wf.reaches_iObject_iff]
    simp [ArrayBase.above]
  have hiObjectArray : Reaches hierarchy.entries ArrayBase.iObjectArray.name name ↔
      name ∈ ArrayBase.iObjectArray.above := by
    have hparents : ArrayBase.iObjectArray.declaration.parents = [ArrayBase.iArray.name] := rfl
    rw [hone hparents, hiArray]
    simp [ArrayBase.above]
  have harray : Reaches hierarchy.entries ArrayBase.array.name name ↔
      name ∈ ArrayBase.array.above := by
    have hparents : ArrayBase.array.declaration.parents =
        [shadowObject.name, ArrayBase.iArray.name] := rfl
    rw [htwo hparents, hiArray, wf.reaches_shadowObject_iff]
    -- both sides list the same alternatives, in different orders
    simp only [ArrayBase.above, List.mem_cons, List.not_mem_nil, or_false]
    grind
  have hobjectArray : Reaches hierarchy.entries ArrayBase.objectArray.name name ↔
      name ∈ ArrayBase.objectArray.above := by
    have hparents : ArrayBase.objectArray.declaration.parents =
        [ArrayBase.array.name, ArrayBase.iObjectArray.name] := rfl
    rw [htwo hparents, harray, hiObjectArray]
    simp only [ArrayBase.above, List.mem_cons, List.not_mem_nil, or_false]
    grind
  cases base with
  | array => exact harray
  | iArray => exact hiArray
  | objectArray => exact hobjectArray
  | iObjectArray => exact hiObjectArray

/-- The table of the array base types gives the tightest type above two of them. -/
theorem bothReach_bases_iff (built : hierarchy.BuiltWithArrays) (x y : ArrayBase) :
    Reaches hierarchy.entries (x.join y).name name ↔ hierarchy.BothReach x.name y.name name := by
  have htable : (x.join y).above = x.above.filter (· ∈ y.above) := by
    cases x <;> cases y <;> decide
  rw [BothReach, built.reaches_base_iff, built.reaches_base_iff, built.reaches_base_iff, htable,
    List.mem_filter, decide_eq_true_eq]

theorem tightest_bases (built : hierarchy.BuiltWithArrays) (x y : ArrayBase) :
    hierarchy.tightestCommonAncestor x.name y.name = .ok (x.join y).name :=
  tightest_of_least built.reachable.wellFormed (built.contains_base x) (built.contains_base y)
    fun _ => built.bothReach_bases_iff x y

end BuiltWithArrays

end Hierarchy

end SandboxTypes
