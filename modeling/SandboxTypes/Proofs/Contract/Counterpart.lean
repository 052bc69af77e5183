import SandboxTypes.Contract
import SandboxTypes.Proofs.Answer

/-!
# Counterparts of host types

The zone of a library type is chosen twice: by the build of the hierarchy
(`HostLibrary.sandboxName`) and by the renamer.  For a contract the two agree, and
`Contract.counterpart` is what both come to.  No two host types have the same
counterpart (`counterpart_injective`).  The renamer gives every type that the contract
may use its counterpart (`toSandboxOrReject_eq`), and describes the types of the
contract by the counterparts of their parents (`sandboxDeclaration_eq`).
-/

namespace SandboxTypes

open FixedType (hostObject iObject)

/-! ## The names of the library -/

namespace HostLibrary

theorem parents_mem_names : ∀ type ∈ all, ∀ parent ∈ type.parents, parent ∈ names := by
  decide +kernel

/-- No type faces the host and has a counterpart in the shadow zone as well. -/
theorem not_mem_apiTypes : ∀ name ∈ object :: (shadowTypes ++ shadowExceptions).map HostType.name,
    name ∉ apiTypes.map HostType.name := by
  decide +kernel

theorem mem_names_iff {name : Name} : name ∈ names ↔
    name ∈ object :: (shadowTypes ++ shadowExceptions).map HostType.name ∨
      name ∈ apiTypes.map HostType.name := by
  rw [names, all, List.map_append, List.mem_cons, List.mem_append, List.mem_cons, or_assoc]

theorem opensDescriptor_of_mem_names : ∀ name ∈ names, ArrayType.opensDescriptor name = false := by
  decide +kernel

theorem exists_zone_sandboxName (name : Name) :
    ∃ zone ∈ [Zone.shadow, Zone.api], sandboxName name = zone.qualify name := by
  unfold sandboxName
  split
  · exact ⟨.api, by decide, rfl⟩
  · exact ⟨.shadow, by decide, rfl⟩

theorem mem_parents_sandboxDeclaration {type : HostType} {upper : Name} :
    upper ∈ (sandboxDeclaration type).parents ↔
      ∃ parent ∈ type.parents, sandboxName parent = upper := by
  simp [Declaration.mem_parents, sandboxDeclaration, HostType.parents, or_and_right, exists_or]

end HostLibrary

/-! ## Declarations in order -/

namespace InOrder

variable {known : List Name} {declarations : List Declaration} {declaration : Declaration}
  {parent : Name}

theorem name_not_mem (ordered : InOrder known declarations) (hmem : declaration ∈ declarations) :
    declaration.name ∉ known := by
  induction declarations generalizing known with
  | nil => exact absurd hmem List.not_mem_nil
  | cons first rest ih =>
      obtain ⟨hnew, -, hrest⟩ := ordered
      rcases List.mem_cons.1 hmem with rfl | hmem
      · exact hnew
      · exact fun hknown => ih hrest hmem (List.mem_cons_of_mem _ hknown)

theorem parent_mem (ordered : InOrder known declarations) (hmem : declaration ∈ declarations)
    (hparent : parent ∈ declaration.parents) :
    parent ∈ declarations.map Declaration.name ++ known := by
  induction declarations generalizing known with
  | nil => exact absurd hmem List.not_mem_nil
  | cons first rest ih =>
      obtain ⟨-, hparents, hrest⟩ := ordered
      rcases List.mem_cons.1 hmem with rfl | hmem
      · exact List.mem_append_right _ (hparents parent hparent)
      · exact List.perm_middle.mem_iff.1 (ih hrest hmem)

end InOrder

namespace Contract

variable {contract : Contract} {declaration : Declaration} {name upper x y : Name}

/-! ## Counterparts -/

/-- The sandbox name of a type that the contract may use. -/
def counterpart (contract : Contract) (name : Name) : Name :=
  if name ∈ contract.names then Zone.user.qualify name else HostLibrary.sandboxName name

/-- A type of the contract, described in sandbox names. -/
def counterpartDeclaration (contract : Contract) (host : Declaration) : Declaration where
  name := contract.counterpart host.name
  isInterface := host.isInterface
  superClass? := host.superClass?.map contract.counterpart
  interfaces := NameSet.ofList (host.interfaces.names.map contract.counterpart)
  origin := .sandbox

theorem not_mem_names (hlibrary : name ∈ HostLibrary.names) : name ∉ contract.names := by
  intro hown
  obtain ⟨declaration, hmem, rfl⟩ := List.mem_map.1 hown
  exact contract.ordered.name_not_mem hmem hlibrary

theorem counterpart_of_library (hlibrary : name ∈ HostLibrary.names) :
    contract.counterpart name = HostLibrary.sandboxName name :=
  if_neg (not_mem_names hlibrary)

theorem counterpart_of_mem (hmem : declaration ∈ contract.declarations) :
    contract.counterpart declaration.name = Zone.user.qualify declaration.name :=
  if_pos (List.mem_map_of_mem hmem)

theorem exists_zone_counterpart (contract : Contract) (name : Name) :
    ∃ zone ∈ [Zone.user, Zone.shadow, Zone.api], contract.counterpart name = zone.qualify name := by
  unfold counterpart
  split
  · exact ⟨.user, by decide, rfl⟩
  · obtain ⟨zone, hzone, hname⟩ := HostLibrary.exists_zone_sandboxName name
    exact ⟨zone, List.mem_cons_of_mem _ hzone, hname⟩

theorem counterpart_injective (h : contract.counterpart x = contract.counterpart y) : x = y := by
  obtain ⟨zone, -, hx⟩ := contract.exists_zone_counterpart x
  obtain ⟨other, -, hy⟩ := contract.exists_zone_counterpart y
  rw [hx, hy] at h
  obtain rfl := Zone.eq_of_qualify_eq h
  exact zone.qualify_injective h

/-- No counterpart is one of the roots that are linked to without a declaration. -/
theorem counterpart_ne_root (contract : Contract) (name : Name) :
    contract.counterpart name ≠ iObject.name ∧ contract.counterpart name ≠ hostObject.name := by
  obtain ⟨zone, hzone, hname⟩ := contract.exists_zone_counterpart name
  have hroots : ∀ zone ∈ [Zone.user, Zone.shadow, Zone.api],
      zone.covers iObject.name = false ∧ zone.covers hostObject.name = false := by decide
  obtain ⟨hiObject, hhostObject⟩ := hroots zone hzone
  rw [hname]
  exact ⟨Zone.qualify_ne hiObject name, Zone.qualify_ne hhostObject name⟩

theorem mem_parents_counterpartDeclaration :
    upper ∈ (contract.counterpartDeclaration declaration).parents ↔
      ∃ parent ∈ declaration.parents, contract.counterpart parent = upper := by
  simp [Declaration.mem_parents, counterpartDeclaration, NameSet.mem_names, or_and_right,
    exists_or]

theorem parent_mem_hostNames (hmem : declaration ∈ contract.declarations)
    (hparent : name ∈ declaration.parents) : name ∈ contract.hostNames :=
  contract.ordered.parent_mem hmem hparent

theorem mem_hostNames_of_directlyBelow (h : contract.DirectlyBelow x y) :
    y ∈ contract.hostNames := by
  cases h with
  | own hmem hparent => exact parent_mem_hostNames hmem hparent
  | library hmem hparent =>
      exact List.mem_append_right _ (HostLibrary.parents_mem_names _ hmem _ hparent)

/-! ## What the renamer makes of the contract -/

/-- The renamer that the contract is admitted with. -/
def renamer (contract : Contract) : Renamer where
  style := .dotted
  debug := false
  contractClasses := contract.names
  exceptions := HostLibrary.shadowExceptions.map HostType.name
  shadowTypes := HostLibrary.shadowTypes.map HostType.name
  apiTypes := HostLibrary.apiTypes.map HostType.name

theorem ofConfig_renamerConfig (contract : Contract) :
    Renamer.ofConfig contract.renamerConfig = .ok contract.renamer := by
  have hlisted : ∀ (mark : Name) (names : List Name),
      (names.map (·, World.host)).mapM (Renamer.listedName .dotted mark) = .ok names := by
    intro mark names
    have hread : ∀ listed ∈ names.map (·, World.host),
        Renamer.listedName .dotted mark listed = .ok listed.1 := by
      intro listed hlisted
      obtain ⟨name, -, rfl⟩ := List.mem_map.1 hlisted
      rfl
    rw [mapM_eq_ok hread, List.map_map]
    exact congrArg Except.ok (List.map_id _)
  have hstyle : contract.renamerConfig.style = .dotted := rfl
  have hclasses : contract.renamerConfig.contractClasses = contract.names.map (·, .host) := rfl
  have hexceptions : contract.renamerConfig.exceptions =
      (HostLibrary.shadowExceptions.map HostType.name).map (·, .host) := rfl
  rw [Renamer.ofConfig, hstyle, hclasses, hexceptions, hlisted, hlisted]
  rfl

/-- The renamer and the build of the hierarchy choose the same zone for a type of the library. -/
theorem sandboxClassName_eq (hname : name ∈ contract.hostNames) :
    contract.renamer.sandboxClassName name = .ok (contract.counterpart name) := by
  have hclasses : contract.renamer.contractClasses = contract.names := rfl
  have hshadow : (name = hostObject.name ∨ name ∈ contract.renamer.exceptions ∨
      name ∈ contract.renamer.shadowTypes) ↔ name ∈ HostLibrary.object ::
        (HostLibrary.shadowTypes ++ HostLibrary.shadowExceptions).map HostType.name := by
    rw [List.map_append, List.mem_cons, List.mem_append, or_comm (a := name ∈ _)]
    rfl
  have hapi : contract.renamer.apiTypes = HostLibrary.apiTypes.map HostType.name := rfl
  rw [Renamer.sandboxClassName, hclasses, hapi, counterpart, HostLibrary.sandboxName]
  by_cases hown : name ∈ contract.names
  · rw [if_pos hown, if_pos hown]
    rfl
  rw [if_neg hown, if_neg hown]
  rcases HostLibrary.mem_names_iff.1 ((List.mem_append.1 hname).resolve_left hown) with h | h
  · rw [if_pos (hshadow.2 h), if_neg (HostLibrary.not_mem_apiTypes name h)]
  · have hnot := fun h' => HostLibrary.not_mem_apiTypes name (hshadow.1 h') h
    rw [if_neg hnot, if_pos h, if_pos h]

theorem toSandboxOrReject_eq (hname : name ∈ contract.hostNames) :
    contract.renamer.toSandboxOrReject name none = .ok (contract.counterpart name) := by
  have hplain : ArrayType.opensDescriptor name = false := by
    rcases List.mem_append.1 hname with hown | hlibrary
    · obtain ⟨declaration, hmem, rfl⟩ := List.mem_map.1 hown
      exact contract.plain declaration hmem
    · exact HostLibrary.opensDescriptor_of_mem_names name hlibrary
  have hrenamed : contract.renamer.sandboxName name none = .ok (contract.counterpart name) := by
    rw [Renamer.sandboxName, hplain]
    exact sandboxClassName_eq hname
  have hstyle : contract.renamer.style = .dotted := rfl
  rw [Renamer.toSandboxOrReject, Renamer.toSandbox, NameStyle.around, hstyle,
    NameStyle.toDotted_dotted, hrenamed]
  rfl

theorem sandboxDeclaration_eq (hmem : declaration ∈ contract.declarations) :
    contract.renamer.sandboxDeclaration declaration =
      .ok (contract.counterpartDeclaration declaration) := by
  have hname : declaration.name ∈ contract.hostNames :=
    List.mem_append_left _ (List.mem_map_of_mem hmem)
  have hinterfaces : ∀ interface ∈ declaration.interfaces.names,
      contract.renamer.toSandboxOrReject interface none = .ok (contract.counterpart interface) :=
    fun interface hinterface => toSandboxOrReject_eq
      (parent_mem_hostNames hmem (Declaration.mem_parents.2 (Or.inr hinterface)))
  rw [Renamer.sandboxDeclaration, mapM_eq_ok hinterfaces, toSandboxOrReject_eq hname,
    counterpartDeclaration]
  cases hsuper : declaration.superClass? with
  | none => rfl
  | some super =>
      have hrenamed := toSandboxOrReject_eq
        (parent_mem_hostNames hmem (Declaration.mem_parents.2 (Or.inl hsuper)))
      rw [Option.mapM_some, hrenamed]
      rfl

end Contract

end SandboxTypes
