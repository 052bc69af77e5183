import Mathlib.Data.List.Nodup
import Mathlib.Data.List.Perm.Subperm
import SandboxTypes.Proofs.Hierarchy.ArrayTypes
import SandboxTypes.Proofs.Hierarchy.Extension

/-!
# What exactly a hierarchy holds

A hierarchy that has admitted declarations of a list may have skipped some of
them, since a name that is there already is passed over.  If it has as many new
types as the list has declarations, it has skipped none, and every declaration of the list
is found under its name (`HoldsExactly.get?_eq`).  So the count alone tells that the
list names no type twice.

The count is computed once, for the build of the whole library
(`exists_build_full`); an insertion that is granted adds one to it
(`HoldsExactly.insertContractClass`).
-/

namespace SandboxTypes

namespace Hierarchy

variable {base hierarchy : Hierarchy} {kind : Declaration → Prop} {batch : List Declaration}
  {declaration host : Declaration} {name : Name}

/-- The types of a hierarchy are the roots and the declared ones, and each declaration is there. -/
structure HoldsExactly (hierarchy : Hierarchy) (declarations : List Declaration) : Prop where
  grown : Grows (· ∈ declarations) initial hierarchy
  size : hierarchy.size = initial.size + declarations.length

theorem Grows.exists_new (grown : Grows kind base hierarchy) : ∃ new,
    hierarchy.entries = new ++ base.entries ∧ ∀ entry ∈ new, kind entry.declaration := by
  induction grown with
  | refl => exact ⟨[], rfl, fun entry hentry => absurd hentry List.not_mem_nil⟩
  | @added hierarchy declaration _ allowed _ _ ih =>
      obtain ⟨new, hentries, hnew⟩ := ih
      refine ⟨_ :: new, congrArg (_ :: ·) hentries, fun entry hentry => ?_⟩
      rcases List.mem_cons.1 hentry with rfl | hentry
      · exact allowed
      · exact hnew entry hentry
  | recorded _ ih => exact ih

namespace HoldsExactly

variable (holds : hierarchy.HoldsExactly batch)

include holds

theorem wellFormed : WellFormed hierarchy := holds.grown.wellFormed wellFormed_initial

/-- The new types are the declared ones: there are as many, and none is listed twice. -/
theorem get?_eq (hmem : declaration ∈ batch) :
    hierarchy.get? declaration.name = some declaration := by
  have wf := holds.wellFormed
  obtain ⟨new, hentries, hnew⟩ := holds.grown.exists_new
  have hnodup : (new.map Entry.declaration).Nodup := by
    have hnames := wf.layered.nodup
    rw [hentries, List.map_append] at hnames
    have hname : new.map Entry.name = (new.map Entry.declaration).map Declaration.name := by
      rw [List.map_map]
      rfl
    exact (hname ▸ (List.nodup_append.1 hnames).1).of_map
  have hsubset : new.map Entry.declaration ⊆ batch := by
    intro other hother
    obtain ⟨entry, hentry, rfl⟩ := List.mem_map.1 hother
    exact hnew entry hentry
  have hlength : batch.length ≤ (new.map Entry.declaration).length := by
    have hsize := holds.size
    rw [Hierarchy.size, hentries, List.length_append, Hierarchy.size] at hsize
    rw [List.length_map]
    omega
  have hperm := (List.subperm_of_subset hnodup hsubset).perm_of_length_le hlength
  obtain ⟨entry, hentry, rfl⟩ := List.mem_map.1 (hperm.mem_iff.2 hmem)
  exact (get?_eq_some_iff wf.layered).2
    ⟨entry, hentries ▸ List.mem_append_left _ hentry, rfl, rfl⟩

theorem contains_of_mem (hmem : declaration ∈ batch) : hierarchy.contains declaration.name :=
  contains_of_get? (holds.get?_eq hmem)

theorem root_or_declared (hname : hierarchy.contains name) :
    initial.contains name ∨ ∃ declaration ∈ batch, declaration.name = name := by
  obtain ⟨entry, hentry, rfl⟩ := List.mem_map.1 (contains_iff.1 hname)
  rcases holds.grown.mem_entries hentry with hroot | hmem
  · exact Or.inl (contains_iff.2 (List.mem_map_of_mem hroot))
  · exact Or.inr ⟨entry.declaration, hmem, rfl⟩

theorem perm {other : List Declaration} (hperm : batch.Perm other) :
    hierarchy.HoldsExactly other :=
  ⟨holds.grown.mono fun _ => hperm.mem_iff.1, hperm.length_eq ▸ holds.size⟩

theorem insertContractClass (hhost : host.origin = .host)
    (fresh : hierarchy.contains declaration.name = false)
    (faultless : hierarchy.fault? declaration = none) :
    ∃ changed, hierarchy.insertContractClass host declaration = .ok changed ∧
      changed.HoldsExactly (declaration :: batch) := by
  have hinserted : hierarchy.insert declaration = .ok (hierarchy.add declaration) := by
    simp [insert, insertIfNew, fresh, faultless, Except.map]
  refine ⟨(hierarchy.add declaration).recordHost host, ?_, ?_, ?_⟩
  · simp [Hierarchy.insertContractClass, hhost, hinserted, Except.map]
  · exact .recorded (.added (holds.grown.mono fun _ => List.mem_cons_of_mem _)
      List.mem_cons_self fresh faultless)
  · have hsize : ((hierarchy.add declaration).recordHost host).size = hierarchy.size + 1 := rfl
    rw [hsize, holds.size, List.length_cons]
    omega

end HoldsExactly

/-! ## The whole library -/

/-- All that a build of the whole library seeds. -/
def seededDeclarations : List Declaration :=
  HostLibrary.all.map HostLibrary.sandboxDeclaration ++ arrayDeclarations

theorem build_full_grows (h : build .full = .ok hierarchy) :
    Grows (· ∈ seededDeclarations) initial hierarchy := by
  obtain ⟨library, hlibrary, h⟩ := bind_eq_ok_iff.1 h
  obtain ⟨arrays, harrays, h⟩ := bind_eq_ok_iff.1 h
  obtain ⟨extended, hextended, h⟩ := bind_eq_ok_iff.1 h
  -- nothing is left to insert after the array types
  have hextra : arrays = extended := by simpa [Seed.full] using hextended
  have hclasses : extended = hierarchy := by
    simpa [Seed.full, insertContractClasses, pure, Except.pure] using h
  subst hextra hclasses
  have htypes : Seed.full.hostTypes = HostLibrary.all := by
    simp [Seed.hostTypes, Seed.full, HostLibrary.all]
  rw [htypes] at hlibrary
  exact ((insertMany_grows hlibrary).1.mono fun _ => List.mem_append_left _).trans
    ((insertMany_grows harrays).1.mono fun _ => List.mem_append_right _)

theorem exists_build_full :
    ∃ hierarchy, build .full = .ok hierarchy ∧ hierarchy.HoldsExactly seededDeclarations := by
  have hsize : (build .full).map size = .ok (initial.size + seededDeclarations.length) := by
    decide +kernel
  obtain ⟨hierarchy, hbuilt, hsize⟩ := map_eq_ok_iff.1 hsize
  exact ⟨hierarchy, hbuilt, build_full_grows hbuilt, hsize⟩

end Hierarchy

end SandboxTypes
