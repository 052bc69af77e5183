import SandboxTypes.Proofs.Contract.Counterpart
import SandboxTypes.Proofs.Hierarchy.Content

/-!
# The subtype relation of a contract in its sandbox

The types of a contract are admitted one after the other (`foldlM_insertRenamed`).
The hierarchy then links types to roots that no host declaration names, and
nothing comes of it: one sandbox type is above another exactly if the host types are
related so by their declarations (`reaches_counterpart_iff`).

One direction is an induction on the steps of the host.  The other one is an
induction on the links, which lead from a counterpart to a counterpart or to one
of two roots, and from these roots to no counterpart.
-/

namespace SandboxTypes

open Hierarchy
open FixedType (hostObject iObject)

namespace Contract

variable {contract : Contract} {hierarchy : Hierarchy} {done rest : List Declaration}
  {declaration : Declaration} {name upper x y : Name}

/-! ## The types of the contract go in -/

/-- What is declared in the sandbox when some types of the contract are admitted. -/
def sandboxDeclarations (contract : Contract) (done : List Declaration) : List Declaration :=
  done.map contract.counterpartDeclaration ++ seededDeclarations

theorem counterpartDeclaration_mem (hmem : declaration ∈ done) :
    contract.counterpartDeclaration declaration ∈ contract.sandboxDeclarations done :=
  List.mem_append_left _ (List.mem_map_of_mem hmem)

theorem sandboxDeclaration_mem {type : HostType} (hmem : type ∈ HostLibrary.all) :
    HostLibrary.sandboxDeclaration type ∈ contract.sandboxDeclarations done :=
  List.mem_append_right _ (List.mem_append_left _ (List.mem_map_of_mem hmem))

theorem not_user_covers_seeded :
    ∀ declaration ∈ seededDeclarations, Zone.user.covers declaration.name = false := by
  intro declaration hmem
  rcases List.mem_append.1 hmem with hlibrary | harray
  · obtain ⟨type, -, rfl⟩ := List.mem_map.1 hlibrary
    obtain ⟨zone, hzone, hname⟩ := HostLibrary.exists_zone_sandboxName type.name
    have hne : ∀ zone ∈ [Zone.shadow, Zone.api], Zone.user ≠ zone := by decide
    rw [HostLibrary.sandboxDeclaration, hname, Zone.covers,
      Zone.unqualify?_qualify_of_ne (hne zone hzone)]
    rfl
  · have harrays : ∀ declaration ∈ arrayDeclarations,
        Zone.user.covers declaration.name = false := by decide
    exact harrays declaration harray

section Insertion

variable (holds : hierarchy.HoldsExactly (contract.sandboxDeclarations done))

include holds

theorem contains_counterpart (hname : name ∈ done.map Declaration.name ++ HostLibrary.names) :
    hierarchy.contains (contract.counterpart name) := by
  rcases List.mem_append.1 hname with hdone | hlibrary
  · obtain ⟨declaration, hmem, rfl⟩ := List.mem_map.1 hdone
    exact holds.contains_of_mem (counterpartDeclaration_mem hmem)
  · rw [counterpart_of_library hlibrary]
    rcases List.mem_cons.1 hlibrary with rfl | htype
    · exact holds.wellFormed.contains_root (by decide)
    · obtain ⟨type, hmem, rfl⟩ := List.mem_map.1 htype
      exact holds.contains_of_mem (sandboxDeclaration_mem hmem)

theorem not_contains_counterpart (hmem : declaration ∈ contract.declarations)
    (fresh : declaration.name ∉ done.map Declaration.name) :
    hierarchy.contains (contract.counterpart declaration.name) = false := by
  have huser := counterpart_of_mem hmem
  rw [Bool.eq_false_iff]
  intro hcontains
  rcases holds.root_or_declared hcontains with hroot | ⟨other, hother, hname⟩
  · have hroots : ∀ name ∈ initial.nodes, Zone.user.covers name = false := by decide
    exact Zone.qualify_ne (hroots _ (contains_iff.1 hroot)) _ huser.symm
  rcases List.mem_append.1 hother with hdone | hseeded
  · obtain ⟨earlier, hearlier, rfl⟩ := List.mem_map.1 hdone
    exact fresh (counterpart_injective hname ▸ List.mem_map_of_mem hearlier)
  · exact Zone.qualify_ne (not_user_covers_seeded other hseeded) _ (hname.trans huser).symm

theorem insertRenamed_ok (hmem : declaration ∈ contract.declarations)
    (fresh : declaration.name ∉ done.map Declaration.name)
    (hparents : ∀ parent ∈ declaration.parents,
      parent ∈ done.map Declaration.name ++ HostLibrary.names) :
    ∃ changed, hierarchy.insertRenamed contract.renamer declaration = .ok changed ∧
      changed.HoldsExactly (contract.sandboxDeclarations (declaration :: done)) := by
  have faultless : hierarchy.fault? (contract.counterpartDeclaration declaration) = none := by
    refine fault?_eq_none_iff.2 ⟨rfl, ?_, fun hroot => ?_, fun upper hupper => ?_⟩
    · -- the kind is that of the host type
      rw [counterpartDeclaration, contract.kind declaration hmem, Option.isNone_map]
    · obtain ⟨parent, -, hparent⟩ := mem_parents_counterpartDeclaration.1 hroot
      exact (contract.counterpart_ne_root parent).2 hparent
    · obtain ⟨parent, hparent, rfl⟩ := mem_parents_counterpartDeclaration.1 hupper
      exact contains_counterpart holds (hparents parent hparent)
  obtain ⟨changed, hchanged, hholds⟩ := holds.insertContractClass (contract.host declaration hmem)
    (not_contains_counterpart holds hmem fresh) faultless
  refine ⟨changed, ?_, hholds⟩
  rw [insertRenamed, sandboxDeclaration_eq hmem]
  exact congrArg (Except.mapError AdmissionError.hierarchy) hchanged

/-- The types that are left go in as well, the next one at each step. -/
theorem foldlM_insertRenamed (hrest : ∀ declaration ∈ rest, declaration ∈ contract.declarations)
    (ordered : InOrder (done.map Declaration.name ++ HostLibrary.names) rest) :
    ∃ changed, rest.foldlM (·.insertRenamed contract.renamer ·) hierarchy = .ok changed ∧
      changed.HoldsExactly (contract.sandboxDeclarations (rest ++ done)) := by
  induction rest generalizing hierarchy done with
  | nil => exact ⟨hierarchy, rfl, holds⟩
  | cons declaration rest ih =>
      obtain ⟨hnew, hparents, hlater⟩ := ordered
      obtain ⟨middle, hmiddle, hheld⟩ := insertRenamed_ok holds (hrest _ List.mem_cons_self)
        (fun hdone => hnew (List.mem_append_left _ hdone)) hparents
      obtain ⟨changed, hchanged, hall⟩ :=
        ih hheld (fun other hother => hrest other (List.mem_cons_of_mem _ hother)) hlater
      refine ⟨changed, ?_, hall.perm ?_⟩
      · rw [List.foldlM_cons, hmiddle]
        exact hchanged
      · exact (List.perm_middle.map _).append_right _

end Insertion

/-! ## Links between counterparts -/

section Links

variable (holds : hierarchy.HoldsExactly (contract.sandboxDeclarations contract.declarations))

include holds

theorem linked_own_iff (hmem : declaration ∈ contract.declarations) :
    Linked hierarchy.entries (contract.counterpart declaration.name) upper ↔
      (∃ parent ∈ declaration.parents, contract.counterpart parent = upper) ∨
        (contract.counterpartDeclaration declaration).impliedParent? = some upper := by
  have hfound := holds.get?_eq (counterpartDeclaration_mem hmem)
  have hne := (contract.counterpart_ne_root declaration.name).1
  rw [← mem_parents_counterpartDeclaration]
  exact holds.wellFormed.linked_of_get? hfound hne

theorem linked_library_iff {type : HostType} (hmem : type ∈ HostLibrary.all) :
    Linked hierarchy.entries (contract.counterpart type.name) upper ↔
      (∃ parent ∈ type.parents, contract.counterpart parent = upper) ∨
        (HostLibrary.sandboxDeclaration type).impliedParent? = some upper := by
  have hfound := holds.get?_eq (sandboxDeclaration_mem hmem)
  have hne := (contract.counterpart_ne_root type.name).1
  have hparents : upper ∈ (HostLibrary.sandboxDeclaration type).parents ↔
      ∃ parent ∈ type.parents, contract.counterpart parent = upper := by
    rw [HostLibrary.mem_parents_sandboxDeclaration]
    refine exists_congr fun parent => and_congr_right fun hparent => ?_
    rw [counterpart_of_library (HostLibrary.parents_mem_names type hmem parent hparent)]
  rw [counterpart_of_library (List.mem_cons_of_mem _ (List.mem_map_of_mem hmem))] at hne ⊢
  rw [← hparents]
  exact holds.wellFormed.linked_of_get? hfound hne

theorem linked_of_directlyBelow (h : contract.DirectlyBelow x y) :
    Linked hierarchy.entries (contract.counterpart x) (contract.counterpart y) := by
  cases h with
  | own hmem hparent => exact (linked_own_iff holds hmem).2 (Or.inl ⟨y, hparent, rfl⟩)
  | library hmem hparent => exact (linked_library_iff holds hmem).2 (Or.inl ⟨y, hparent, rfl⟩)

/-- A link leads from a counterpart to one of two roots, or as a declared parent does. -/
theorem directlyBelow_of_linked (hx : x ∈ contract.hostNames)
    (h : Linked hierarchy.entries (contract.counterpart x) upper) :
    upper = iObject.name ∨ upper = hostObject.name ∨
      ∃ y, contract.DirectlyBelow x y ∧ contract.counterpart y = upper := by
  rcases List.mem_append.1 hx with hown | hlibrary
  · obtain ⟨declaration, hmem, rfl⟩ := List.mem_map.1 hown
    rcases (linked_own_iff holds hmem).1 h with ⟨y, hparent, hy⟩ | himplied
    · exact Or.inr (Or.inr ⟨y, .own hmem hparent, hy⟩)
    · exact Or.inl (eq_iObject_of_impliedParent? himplied)
  rcases List.mem_cons.1 hlibrary with rfl | htype
  · -- the class of all objects is a root of the hierarchy
    rw [counterpart_of_library hlibrary] at h
    rcases holds.wellFormed.linked_shadowObject.1 h with hroot | hroot
    · exact Or.inr (Or.inl hroot)
    · exact Or.inl hroot
  · obtain ⟨type, hmem, rfl⟩ := List.mem_map.1 htype
    rcases (linked_library_iff holds hmem).1 h with ⟨y, hparent, hy⟩ | himplied
    · exact Or.inr (Or.inr ⟨y, .library hmem hparent, hy⟩)
    · exact Or.inl (eq_iObject_of_impliedParent? himplied)

theorem below_of_reaches (hx : x ∈ contract.hostNames)
    (h : Reaches hierarchy.entries (contract.counterpart x) (contract.counterpart y)) :
    contract.Below x y := by
  have wf := holds.wellFormed
  generalize hlower : contract.counterpart x = lower at h
  induction h using Relation.ReflTransGen.head_induction_on generalizing x with
  | refl =>
      obtain rfl := counterpart_injective hlower
      exact .refl
  | head hlink hreach ih =>
      subst hlower
      have hroots := contract.counterpart_ne_root y
      rcases directlyBelow_of_linked holds hx hlink with rfl | rfl | ⟨middle, hbelow, rfl⟩
      · -- above the interface root there is no counterpart
        rcases wf.reaches_iObject_iff.1 hreach with h | h
        · exact absurd h hroots.1
        · exact absurd h hroots.2
      · exact absurd (wf.reaches_hostObject_iff.1 hreach) hroots.2
      · exact .head hbelow (ih (mem_hostNames_of_directlyBelow hbelow) rfl)

theorem reaches_of_below (h : contract.Below x y) :
    Reaches hierarchy.entries (contract.counterpart x) (contract.counterpart y) :=
  h.lift contract.counterpart fun _ _ => linked_of_directlyBelow holds

theorem reaches_counterpart_iff (hx : x ∈ contract.hostNames) :
    Reaches hierarchy.entries (contract.counterpart x) (contract.counterpart y) ↔
      contract.Below x y :=
  ⟨below_of_reaches holds hx, reaches_of_below holds⟩

end Links

/-! ## The main statement -/

/-- Every contract is admitted, and then one type is among the ancestors of another in the sandbox
exactly if it is above that by the declarations of the host. -/
theorem exists_sandbox_ancestorsOf_iff (contract : Contract) :
    ∃ sandbox, contract.sandbox? = .ok sandbox ∧
      ∀ x ∈ contract.hostNames, ∀ y ∈ contract.hostNames, ∃ x' y' above,
        sandbox.renamer.toSandboxOrReject x none = .ok x' ∧
        sandbox.renamer.toSandboxOrReject y none = .ok y' ∧
        sandbox.hierarchy.ancestorsOf x' = .ok above ∧
        (y' ∈ above ↔ contract.Below x y) := by
  obtain ⟨library, hlibrary, hseeded⟩ := exists_build_full
  have hstart : library.HoldsExactly (contract.sandboxDeclarations []) := hseeded
  obtain ⟨hierarchy, hhierarchy, hheld⟩ :=
    foldlM_insertRenamed hstart (fun _ => id) contract.ordered
  rw [List.append_nil] at hheld
  refine ⟨⟨hierarchy, contract.renamer⟩, ?_, fun x hx y hy => ?_⟩
  · rw [sandbox?, ofConfig_renamerConfig, hlibrary]
    exact congrArg (Except.map (Sandbox.mk · contract.renamer)) hhierarchy
  · have hcontains : hierarchy.contains (contract.counterpart x) := contains_counterpart hheld hx
    obtain ⟨above, habove, hmem⟩ := ancestorsOf_eq_ok hheld.wellFormed.layered hcontains
    refine ⟨_, _, above, toSandboxOrReject_eq hx, toSandboxOrReject_eq hy, habove, ?_⟩
    rw [hmem, reaches_counterpart_iff hheld hx]

/-- A class of figures. -/
def figure : Declaration := ⟨"draw.Figure", false, some HostLibrary.object, ∅, .host⟩

/-- A class of figures that can be drawn and have an order. -/
def circle : Declaration where
  name := "draw.Circle"
  isInterface := false
  superClass? := some figure.name
  interfaces := NameSet.ofList ["draw.Drawn", HostLibrary.comparable]
  origin := .host

/-- The contract of two figures and an interface. -/
def drawing : Contract where
  declarations := [⟨"draw.Drawn", true, none, ∅, .host⟩, figure, circle]
  host := by decide
  plain := by decide
  kind := by decide
  ordered := by decide +kernel

theorem drawing_exists_sandbox_ancestorsOf : ∃ sandbox, drawing.sandbox? = .ok sandbox ∧
    ∃ x' y' above, sandbox.renamer.toSandboxOrReject circle.name none = .ok x' ∧
      sandbox.renamer.toSandboxOrReject HostLibrary.object none = .ok y' ∧
      sandbox.hierarchy.ancestorsOf x' = .ok above ∧ y' ∈ above := by
  obtain ⟨sandbox, hsandbox, hall⟩ := drawing.exists_sandbox_ancestorsOf_iff
  obtain ⟨x', y', above, hx, hy, habove, hiff⟩ :=
    hall circle.name (by decide) HostLibrary.object (by decide)
  have hcircle : circle ∈ drawing.declarations := by decide
  have hfigure : figure ∈ drawing.declarations := by decide
  have hlower : drawing.DirectlyBelow circle.name figure.name := .own hcircle (by decide)
  have hupper : drawing.DirectlyBelow figure.name HostLibrary.object := .own hfigure (by decide)
  have hbelow : drawing.Below circle.name HostLibrary.object :=
    .head hlower (.single hupper)
  exact ⟨sandbox, hsandbox, x', y', above, hx, hy, habove, hiff.2 hbelow⟩

end Contract

end SandboxTypes
