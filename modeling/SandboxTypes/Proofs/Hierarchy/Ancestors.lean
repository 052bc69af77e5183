import SandboxTypes.Hierarchy.Ancestry
import SandboxTypes.Proofs.Hierarchy.Links
import SandboxTypes.Proofs.Walk

/-!
# What the ancestor queries answer

For a hierarchy whose entries are layered, `ancestorsOf` answers what the links
reach (`isAncestor_iff`), `descendantsOf` what reaches a type against them
(`descendantsOf_eq_ok`), and `lowest` keeps of a list of types those that no other
one of them is below (`mem_lowest_iff`).  The walks of `lowest` go on one from the
other, so what each of them sees depends on the order of the list; what all of them
see does not (`lowest_congr`).
-/

namespace SandboxTypes

namespace Hierarchy

/-- One type is among the ancestors that the hierarchy answers for another. -/
def IsAncestor (hierarchy : Hierarchy) (upper lower : Name) : Prop :=
  ∃ above, hierarchy.ancestorsOf lower = .ok above ∧ upper ∈ above

instance (hierarchy : Hierarchy) (upper lower : Name) :
    Decidable (hierarchy.IsAncestor upper lower) :=
  match h : hierarchy.ancestorsOf lower with
  | .ok above => decidable_of_iff (upper ∈ above) (by simp [IsAncestor, h])
  | .error _ => isFalse (by simp [IsAncestor, h])

variable {hierarchy : Hierarchy} {entry : Entry} {name lower upper : Name}

/-! ## Entries -/

theorem entry?_eq_some_iff (layered : Layered hierarchy.entries) :
    hierarchy.entry? name = some entry ↔ entry ∈ hierarchy.entries ∧ entry.name = name := by
  constructor
  · intro h
    exact ⟨mem_of_find_entry h, name_of_find_entry h⟩
  · rintro ⟨hmem, rfl⟩
    have hsome : (hierarchy.entry? entry.name).isSome :=
      contains_iff.2 (List.mem_map_of_mem hmem)
    obtain ⟨found, hfound⟩ := Option.isSome_iff_exists.1 hsome
    have heq : found = entry := List.inj_on_of_nodup_map layered.nodup
      (mem_of_find_entry hfound) hmem (name_of_find_entry hfound)
    rw [hfound, heq]

theorem get?_eq_some_iff {declaration : Declaration} (layered : Layered hierarchy.entries) :
    hierarchy.get? name = some declaration ↔
      ∃ entry ∈ hierarchy.entries, entry.name = name ∧ entry.declaration = declaration := by
  rw [get?, Option.map_eq_some_iff]
  simp only [entry?_eq_some_iff layered, and_assoc]

theorem mem_supersOf_iff (layered : Layered hierarchy.entries) :
    upper ∈ hierarchy.supersOf lower ↔ Linked hierarchy.entries lower upper := by
  constructor
  · intro h
    cases hfound : hierarchy.entry? lower with
    | none => simp [supersOf, hfound] at h
    | some entry =>
        exact ⟨entry, mem_of_find_entry hfound, name_of_find_entry hfound, by
          simpa [supersOf, hfound] using h⟩
  · rintro ⟨entry, hmem, hname, hsuper⟩
    have hfound := (entry?_eq_some_iff layered).2 ⟨hmem, hname⟩
    simpa [supersOf, hfound] using hsuper

theorem supersOf_mem_nodes (layered : Layered hierarchy.entries) :
    ∀ node ∈ hierarchy.nodes, ∀ super ∈ hierarchy.supersOf node, super ∈ hierarchy.nodes :=
  fun _ _ _ hsuper => layered.upper_mem ((mem_supersOf_iff layered).1 hsuper)

theorem supersOf_eq_linked (layered : Layered hierarchy.entries) :
    (fun lower upper => upper ∈ hierarchy.supersOf lower) = Linked hierarchy.entries := by
  funext lower upper
  exact propext (mem_supersOf_iff layered)

theorem leadsTo_iff (layered : Layered hierarchy.entries) :
    LeadsTo hierarchy.supersOf lower upper ↔ Reaches hierarchy.entries lower upper := by
  rw [LeadsTo, supersOf_eq_linked layered]

/-! ## Ancestors -/

theorem ancestorsOf_eq_ok (layered : Layered hierarchy.entries)
    (hlower : hierarchy.contains lower) :
    ∃ above, hierarchy.ancestorsOf lower = .ok above ∧
      ∀ upper, upper ∈ above ↔ Reaches hierarchy.entries lower upper := by
  refine ⟨_, by rw [ancestorsOf, if_pos hlower], fun upper => ?_⟩
  have hstack : ∀ name ∈ [lower], name ∈ hierarchy.nodes := by
    intro name hname
    rw [List.mem_singleton.1 hname]
    exact contains_iff.1 hlower
  rw [NameSet.mem_ofList, mem_walk_iff (supersOf_mem_nodes layered) hstack frontier_nil]
  simp [leadsTo_iff layered]

theorem isAncestor_iff (layered : Layered hierarchy.entries) :
    hierarchy.IsAncestor upper lower ↔
      hierarchy.contains lower ∧ Reaches hierarchy.entries lower upper := by
  by_cases hlower : hierarchy.contains lower
  · obtain ⟨above, habove, hmem⟩ := ancestorsOf_eq_ok layered hlower
    simp [IsAncestor, habove, hmem, hlower]
  · simp [IsAncestor, ancestorsOf, hlower]

/-! ## Descendants -/

theorem mem_subsOf_iff : lower ∈ hierarchy.subsOf upper ↔ Linked hierarchy.entries lower upper := by
  simp only [subsOf, List.mem_map, List.mem_filter, decide_eq_true_eq]
  constructor
  · rintro ⟨entry, ⟨hentry, hsuper⟩, hname⟩
    exact ⟨entry, hentry, hname, hsuper⟩
  · rintro ⟨entry, hentry, hname, hsuper⟩
    exact ⟨entry, ⟨hentry, hsuper⟩, hname⟩

theorem leadsTo_subsOf_iff :
    LeadsTo hierarchy.subsOf upper lower ↔ Reaches hierarchy.entries lower upper := by
  have hswap : (fun upper lower => lower ∈ hierarchy.subsOf upper) =
      Function.swap (Linked hierarchy.entries) := by
    funext upper lower
    exact propext mem_subsOf_iff
  rw [LeadsTo, hswap]
  exact Relation.reflTransGen_swap

theorem descendantsOf_eq_ok (hupper : hierarchy.contains upper) :
    ∃ below, hierarchy.descendantsOf upper = .ok below ∧
      ∀ lower, lower ∈ below ↔ Reaches hierarchy.entries lower upper ∧ lower ≠ upper := by
  refine ⟨_, by rw [descendantsOf, if_pos hupper], fun lower => ?_⟩
  have hnext : ∀ node ∈ hierarchy.nodes, ∀ sub ∈ hierarchy.subsOf node, sub ∈ hierarchy.nodes :=
    fun _ _ _ hsub => (mem_subsOf_iff.1 hsub).lower_mem
  have hstack : ∀ name ∈ [upper], name ∈ hierarchy.nodes := by
    intro name hname
    rw [List.mem_singleton.1 hname]
    exact contains_iff.1 hupper
  rw [NameSet.mem_ofList, List.mem_filter, mem_walk_iff hnext hstack frontier_nil]
  simp [leadsTo_subsOf_iff]

/-! ## The lowest of some types -/

theorem mem_lowest_iff (layered : Layered hierarchy.entries) {visited : List Name} :
    name ∈ hierarchy.lowest visited ↔ name ∈ visited ∧
      ∀ other ∈ visited, Reaches hierarchy.entries other name → name = other := by
  have hstarts : ∀ start ∈ visited.flatMap hierarchy.supersOf, start ∈ hierarchy.nodes := by
    intro start hstart
    obtain ⟨other, -, hsuper⟩ := List.mem_flatMap.1 hstart
    exact layered.upper_mem ((mem_supersOf_iff layered).1 hsuper)
  have habove : name ∈ walkEach hierarchy.nodes hierarchy.supersOf
        (visited.flatMap hierarchy.supersOf) ↔
      ∃ other ∈ visited, Relation.TransGen (Linked hierarchy.entries) other name := by
    rw [mem_walkEach_iff (supersOf_mem_nodes layered) hstarts]
    simp only [List.mem_flatMap, mem_supersOf_iff layered, leadsTo_iff layered]
    constructor
    · rintro ⟨start, ⟨other, hother, hlink⟩, hreach⟩
      exact ⟨other, hother, .head' hlink hreach⟩
    · rintro ⟨other, hother, hbelow⟩
      obtain ⟨start, hlink, hreach⟩ := Relation.TransGen.head'_iff.1 hbelow
      exact ⟨start, ⟨other, hother, hlink⟩, hreach⟩
  rw [lowest, NameSet.mem_ofList, List.mem_filter, decide_eq_true_eq, habove]
  refine and_congr_right fun _ => ⟨fun hmin other hother hreach => ?_, fun hmin hbelow => ?_⟩
  · by_contra hne
    exact hmin ⟨other, hother, hreach.transGen hne⟩
  · obtain ⟨other, hother, hlt⟩ := hbelow
    exact layered.irrefl other (hmin other hother hlt.to_reflTransGen ▸ hlt)

theorem exists_lowest_below (layered : Layered hierarchy.entries) {visited : List Name}
    (hname : name ∈ visited) :
    ∃ low ∈ hierarchy.lowest visited, Reaches hierarchy.entries low name := by
  induction name using layered.wellFounded.induction with
  | _ name ih =>
      by_cases hlow : name ∈ hierarchy.lowest visited
      · exact ⟨name, hlow, .refl⟩
      · -- another visited type is strictly below, and has a lowest one below it
        have hbelow : ∃ other ∈ visited, Reaches hierarchy.entries other name ∧ name ≠ other := by
          simpa [mem_lowest_iff layered, hname] using hlow
        obtain ⟨other, hother, hreach, hne⟩ := hbelow
        obtain ⟨low, hmem, hlowReach⟩ := ih other (hreach.transGen hne) hother
        exact ⟨low, hmem, hlowReach.trans hreach⟩

theorem lowest_congr (layered : Layered hierarchy.entries) {visited others : List Name}
    (h : ∀ name, name ∈ visited ↔ name ∈ others) :
    hierarchy.lowest visited = hierarchy.lowest others :=
  NameSet.ext fun name => by simp only [mem_lowest_iff layered, h]

end Hierarchy

end SandboxTypes
