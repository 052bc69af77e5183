import SandboxTypes.Hierarchy

/-!
# Admitting types

A type enters the hierarchy below types that are there.  Each way of inserting
returns the new hierarchy or the first thing that is wrong; a hierarchy is a
value, so an insertion that fails leaves nothing behind.
-/

namespace SandboxTypes

namespace Declaration

/-- An interface without super-interfaces extends the interface root. -/
def impliedParent? (declaration : Declaration) : Option Name :=
  if declaration.isInterface && declaration.interfaces.isEmpty then some FixedType.iObject.name
  else none

theorem impliedParent?_eq_some_iff {declaration : Declaration} {parent : Name} :
    declaration.impliedParent? = some parent ↔
      declaration.isInterface ∧ (∀ other, other ∉ declaration.interfaces) ∧
        parent = FixedType.iObject.name := by
  have hempty : declaration.interfaces.isEmpty ↔ ∀ other, other ∉ declaration.interfaces := by
    rw [NameSet.isEmpty, List.isEmpty_iff, List.eq_nil_iff_forall_not_mem]
    rfl
  rw [← hempty, ← and_assoc, ← Bool.and_eq_true, impliedParent?]
  split
  case isTrue hbare => simp only [hbare, true_and, Option.some.injEq, eq_comm]
  case isFalse hnot => simp [hnot]

end Declaration

namespace Hierarchy

/-- Checks if all declared parents of a type are there. -/
def holdsParents (hierarchy : Hierarchy) (declaration : Declaration) : Bool :=
  declaration.parents.all hierarchy.contains

/-- The first thing that is wrong with a declaration of a new type. -/
def fault? (hierarchy : Hierarchy) (declaration : Declaration) : Option HierarchyError :=
  if declaration.origin ≠ .sandbox then
    some (.notSandbox declaration.name)
  else if declaration.isInterface && declaration.superClass?.isSome then
    some (.unexpectedSuperClass declaration.name)
  else if !declaration.isInterface && declaration.superClass?.isNone then
    some (.missingSuperClass declaration.name)
  else if FixedType.hostObject.name ∈ declaration.parents then
    some (.extendsHostRoot declaration.name)
  else
    (declaration.parents.find? (!hierarchy.contains ·)).map
      (HierarchyError.unknownParent declaration.name)

/-- Adds a type, and links it once to each of its parents that is there. -/
def add (hierarchy : Hierarchy) (declaration : Declaration) : Hierarchy :=
  let parents := declaration.parents ++ declaration.impliedParent?.toList
  { hierarchy with
    entries := ⟨declaration, (parents.filter hierarchy.contains).eraseDups⟩ :: hierarchy.entries }

/-- Inserts a type unless one of its name is there, and tells if it did. -/
def insertIfNew (hierarchy : Hierarchy) (declaration : Declaration) :
    Except HierarchyError (Bool × Hierarchy) :=
  if hierarchy.contains declaration.name then
    .ok (false, hierarchy)
  else
    match hierarchy.fault? declaration with
    | some error => .error error
    | none => .ok (true, hierarchy.add declaration)

/-- Inserts a type whose name is not there. -/
def insert (hierarchy : Hierarchy) (declaration : Declaration) :
    Except HierarchyError Hierarchy :=
  if hierarchy.contains declaration.name then
    .error (.duplicate declaration.name)
  else
    (hierarchy.insertIfNew declaration).map Prod.snd

/-- Inserts a contract class by its sandbox declaration, and records its host declaration. -/
def insertContractClass (hierarchy : Hierarchy) (host sandbox : Declaration) :
    Except HierarchyError Hierarchy :=
  if host.origin ≠ .host then
    .error (.notHost host.name)
  else
    (hierarchy.insert sandbox).map (·.recordHost host)

/-- Inserts contract classes one by one, each by its host and its sandbox declaration. -/
def insertContractClasses (hierarchy : Hierarchy) (classes : List (Declaration × Declaration)) :
    Except HierarchyError Hierarchy :=
  classes.foldlM (fun staged pair => staged.insertContractClass pair.1 pair.2) hierarchy

/-! ### Batches -/

/-- Inserts the types of a list in its order, skipping those that are there. -/
def insertEach (hierarchy : Hierarchy) (batch : List Declaration) :
    Except HierarchyError Hierarchy :=
  batch.foldlM (fun staged declaration => (staged.insertIfNew declaration).map Prod.snd)
    hierarchy

/-- One round of a batch: inserts the declarations whose parents are there at its start, and tells
what is left. -/
def round (hierarchy : Hierarchy) (batch : List Declaration) :
    Except HierarchyError (List Declaration × Hierarchy) :=
  (hierarchy.insertEach (batch.filter hierarchy.holdsParents)).map fun staged =>
    (batch.filter fun declaration => !hierarchy.holdsParents declaration, staged)

theorem length_filter_not_lt {α : Type} (p : α → Bool) {xs : List α} (h : xs.filter p ≠ []) :
    (xs.filter fun x => !p x).length < xs.length := by
  obtain ⟨x, hx⟩ := List.exists_mem_of_ne_nil _ h
  have ⟨hmem, hp⟩ := List.mem_filter.1 hx
  exact List.length_filter_lt_length_iff_exists.2 ⟨x, hmem, by simp [hp]⟩

/-- A round in which some declaration is ready leaves less of the batch. -/
theorem length_lt_of_round {hierarchy staged : Hierarchy} {batch left : List Declaration}
    (ready : batch.filter hierarchy.holdsParents ≠ [])
    (h : hierarchy.round batch = .ok (left, staged)) : left.length < batch.length := by
  rw [round] at h
  cases hgranted : hierarchy.insertEach (batch.filter hierarchy.holdsParents) with
  | error error => simp [hgranted, Except.map] at h
  | ok found =>
    rw [hgranted] at h
    obtain ⟨rfl, -⟩ := Prod.mk.inj (Except.ok.inj h)
    exact length_filter_not_lt _ ready

/-- Inserts a batch by rounds for as long as some declaration is ready, and tells what is left of
it. -/
def insertRounds (hierarchy : Hierarchy) (batch : List Declaration) :
    Except HierarchyError (List Declaration × Hierarchy) :=
  match batch with
  | [] => .ok ([], hierarchy)
  | first :: rest =>
    if (first :: rest).filter hierarchy.holdsParents = [] then
      .ok (first :: rest, hierarchy)
    else
      match _granted : hierarchy.round (first :: rest) with
      | .error error => .error error
      | .ok (left, staged) => staged.insertRounds left
termination_by batch.length
decreasing_by exact length_lt_of_round ‹_› _granted

/-- What is wrong with a declaration whose parents are not all there. -/
def blockedFault (hierarchy : Hierarchy) (declaration : Declaration) : HierarchyError :=
  (hierarchy.fault? declaration).getD
    (.unknownParent declaration.name
      ((declaration.parents.find? (!hierarchy.contains ·)).getD ""))

/-- Decides about a batch when no declaration is ready any more, by what is left of it.  The first
declaration left tells what is wrong. -/
def verdict (halted : Hierarchy) : List Declaration → Except HierarchyError Hierarchy
  | [] => .ok halted
  | first :: _ => .error (halted.blockedFault first)

/-- Inserts a batch in any order in which parents come first, skipping types that are there. -/
def insertMany (hierarchy : Hierarchy) (batch : List Declaration) :
    Except HierarchyError Hierarchy := do
  let (left, halted) ← hierarchy.insertRounds batch
  halted.verdict left

end Hierarchy

end SandboxTypes
