import Mathlib.Order.Bounds.Basic
import SandboxTypes.Hierarchy.Descent
import SandboxTypes.Hierarchy.Subtype
import SandboxTypes.Proofs.Hierarchy.CommonAncestry

/-!
# Ancestors and descendants by the declarations

The hierarchy holds one relation three times: in the declarations, in the links upward
and in the links read downward.  The ancestors of a type come from a walk along the
links, its descendants from the tree of a recursive search against them.

* `linked_iff_directlyBelow`: the links say what the declarations say.  So the
  ancestors of a type are the least set that holds the type and what the declarations
  place directly above each member (`isLeast_below`).
* `walk_eq_treeEdges`: a walk with a stack and a recursive search meet the same names,
  in the same order.  So the tree edges lead to what a walk sees, its start apart
  (`descendantsOf_eq_descent`).
-/

namespace SandboxTypes

variable {nodes stack others seen ignored : List Name} {next : Name → List Name} {name : Name}
  {pending : List (Name × Name)}

/-! ## Search trees -/

/-- A walk does not enter what is seen, so that names of that kind may be left off the stack. -/
theorem walk_filter (hseen : ∀ name ∈ ignored, name ∈ seen) :
    walk nodes next (stack.filter (· ∉ ignored)) seen = walk nodes next stack seen := by
  induction stack, seen using walk.induct nodes next with
  | case1 seen => rfl
  | case2 seen top stack hvisit ih =>
      have htop : top ∉ ignored := fun hmem => hvisit.2 (hseen top hmem)
      have hpushed : ((next top).filter (· ∉ top :: seen)).filter (· ∉ ignored) =
          (next top).filter (· ∉ top :: seen) := by
        refine List.filter_eq_self.2 fun after hafter => ?_
        have hfresh : after ∉ top :: seen := of_decide_eq_true (List.mem_filter.1 hafter).2
        exact decide_eq_true fun hmem => hfresh (List.mem_cons_of_mem _ (hseen after hmem))
      have hrest := ih fun name hmem => List.mem_cons_of_mem _ (hseen name hmem)
      rw [List.filter_append, hpushed] at hrest
      calc walk nodes next ((top :: stack).filter (· ∉ ignored)) seen
          = walk nodes next (top :: stack.filter (· ∉ ignored)) seen :=
            congrArg (walk nodes next · seen) (List.filter_cons_of_pos (decide_eq_true htop))
        _ = walk nodes next ((next top).filter (· ∉ top :: seen) ++ stack.filter (· ∉ ignored))
              (top :: seen) := by rw [walk, if_pos hvisit]
        _ = walk nodes next ((next top).filter (· ∉ top :: seen) ++ stack) (top :: seen) := hrest
        _ = walk nodes next (top :: stack) seen := by rw [walk, if_pos hvisit]
  | case3 seen top stack hskip ih =>
      have hstack : walk nodes next (top :: stack) seen = walk nodes next stack seen := by
        rw [walk, if_neg hskip]
      rw [hstack, ← ih hseen, List.filter_cons]
      split
      case isTrue => rw [walk, if_neg hskip]
      case isFalse => rfl

theorem walk_congr (h : stack.filter (· ∉ seen) = others.filter (· ∉ seen)) :
    walk nodes next stack seen = walk nodes next others seen := by
  have hself : ∀ name ∈ seen, name ∈ seen := fun _ hmem => hmem
  rw [← walk_filter hself, h, walk_filter hself]

/-- A walk and a recursive search meet the same names in the same order. -/
theorem walk_eq_treeEdges : walk nodes next (pending.map Prod.snd) seen =
    ((treeEdges nodes next pending seen).map Prod.snd).reverse ++ seen := by
  induction pending, seen using treeEdges.induct nodes next with
  | case1 seen =>
      rw [treeEdges, List.map_nil, walk]
      rfl
  | case2 seen name after pending hvisit ih =>
      calc walk nodes next (after :: pending.map Prod.snd) seen
          = walk nodes next ((next after).filter (· ∉ after :: seen) ++ pending.map Prod.snd)
              (after :: seen) := by rw [walk, if_pos hvisit]
        _ = walk nodes next (((next after).map (after, ·) ++ pending).map Prod.snd)
              (after :: seen) := walk_congr (by simp [List.filter_filter])
        _ = ((treeEdges nodes next ((name, after) :: pending) seen).map Prod.snd).reverse ++
              seen := by
            rw [ih, treeEdges, if_pos hvisit]
            simp
  | case3 seen name after pending hskip ih =>
      rw [List.map_cons, walk, if_neg hskip, ih, treeEdges, if_neg hskip]

/-- The edges of a search tree lead to names that were not seen before. -/
theorem not_mem_of_mem_treeEdges {edge : Name × Name}
    (h : edge ∈ treeEdges nodes next pending seen) : edge.2 ∉ seen := by
  induction pending, seen using treeEdges.induct nodes next with
  | case1 seen =>
      rw [treeEdges] at h
      exact absurd h List.not_mem_nil
  | case2 seen name after pending hvisit ih =>
      rw [treeEdges, if_pos hvisit] at h
      rcases List.mem_cons.1 h with rfl | hrest
      · exact hvisit.2
      · exact fun hseen => ih hrest (List.mem_cons_of_mem _ hseen)
  | case3 seen name after pending hskip ih =>
      rw [treeEdges, if_neg hskip] at h
      exact ih h

namespace Hierarchy

open FixedType

variable {hierarchy : Hierarchy} {lower upper : Name} {types : Set Name}

theorem descendantsOf_eq_descent (hname : hierarchy.contains name) :
    hierarchy.descendantsOf name =
      .ok (NameSet.ofList ((hierarchy.descent name).map Prod.snd)) := by
  have hvisit : name ∈ hierarchy.nodes ∧ name ∉ ([] : List Name) :=
    ⟨contains_iff.1 hname, List.not_mem_nil⟩
  have hpending : (hierarchy.subsOf name).filter (· ∉ [name]) ++ [] =
      (((hierarchy.subsOf name).map (name, ·)).map Prod.snd).filter (· ∉ [name]) := by simp
  have hwalk : walk hierarchy.nodes hierarchy.subsOf [name] [] =
      ((hierarchy.descent name).map Prod.snd).reverse ++ [name] := by
    rw [walk, if_pos hvisit, hpending, walk_filter fun _ hmem => hmem, walk_eq_treeEdges, descent]
  have hfresh : name ∉ (hierarchy.descent name).map Prod.snd := by
    intro hmem
    obtain ⟨edge, hedge, heq⟩ := List.mem_map.1 hmem
    exact not_mem_of_mem_treeEdges hedge (heq ▸ List.mem_singleton_self name)
  rw [descendantsOf, if_pos hname, hwalk]
  refine congrArg Except.ok (NameSet.ext fun lower => ?_)
  rw [NameSet.mem_ofList, NameSet.mem_ofList, List.mem_filter, List.mem_append, List.mem_reverse,
    List.mem_singleton, decide_eq_true_eq]
  constructor
  · rintro ⟨hmem | rfl, hne⟩
    · exact hmem
    · exact absurd rfl hne
  · intro hmem
    exact ⟨Or.inl hmem, fun heq => hfresh (heq ▸ hmem)⟩

/-! ## Links and declarations -/

namespace WellFormed

variable (wf : WellFormed hierarchy)

include wf

theorem get?_name {entry : Entry} (hentry : entry ∈ hierarchy.entries) :
    hierarchy.get? entry.name = some entry.declaration :=
  (get?_eq_some_iff wf.layered).2 ⟨entry, hentry, rfl, rfl⟩

theorem get?_iObject : hierarchy.get? iObject.name = some iObjectEntry.declaration :=
  wf.get?_name wf.iObjectEntry_mem

theorem linked_iff_directlyBelow :
    Linked hierarchy.entries lower upper ↔ hierarchy.DirectlyBelow lower upper := by
  constructor
  · rintro ⟨entry, hentry, rfl, hsuper⟩
    by_cases hroot : entry.name = iObject.name
    · have hlink : Linked hierarchy.entries entry.name upper := ⟨entry, hentry, rfl, hsuper⟩
      rw [hroot] at hlink ⊢
      obtain rfl := wf.linked_iObject.1 hlink
      exact .root wf.get?_iObject
    · rcases ((wf.linked entry hentry hroot).2 upper).1 hsuper with hparent | himplied
      · exact .declared (wf.get?_name hentry) hparent
      · obtain ⟨hinterface, hbare, rfl⟩ := Declaration.impliedParent?_eq_some_iff.1 himplied
        exact .implied (wf.get?_name hentry) hroot hinterface hbare
  · intro h
    cases h with
    | declared found mem =>
        -- the interface root has no declared parents
        have hne : lower ≠ iObject.name := by
          rintro rfl
          rw [wf.get?_iObject] at found
          obtain rfl := Option.some.inj found
          exact List.not_mem_nil mem
        exact (wf.linked_of_get? found hne).2 (Or.inl mem)
    | implied found other isInterface bare =>
        have himplied := Declaration.impliedParent?_eq_some_iff.2 ⟨isInterface, bare, rfl⟩
        exact (wf.linked_of_get? found other).2 (Or.inr himplied)
    | root _ => exact wf.linked_iObject.2 rfl

theorem reaches_iff_below :
    Reaches hierarchy.entries lower upper ↔ hierarchy.Below lower upper := by
  have hsame : Linked hierarchy.entries = hierarchy.DirectlyBelow :=
    funext₂ fun _ _ => propext wf.linked_iff_directlyBelow
  rw [Reaches, hsame]

end WellFormed

/-! ## The least closed set -/

/-- A set of types holds with each type what the declarations place directly above it. -/
def IsClosedUpward (hierarchy : Hierarchy) (types : Set Name) : Prop :=
  ∀ lower ∈ types, ∀ upper, hierarchy.DirectlyBelow lower upper → upper ∈ types

theorem IsClosedUpward.mem_of_below (closed : hierarchy.IsClosedUpward types)
    (hlower : lower ∈ types) (h : hierarchy.Below lower upper) : upper ∈ types := by
  induction h with
  | refl => exact hlower
  | tail _ last ih => exact closed _ ih _ last

theorem isLeast_below (hierarchy : Hierarchy) (name : Name) :
    IsLeast {types : Set Name | name ∈ types ∧ hierarchy.IsClosedUpward types}
      {upper | hierarchy.Below name upper} := by
  constructor
  · exact ⟨Relation.ReflTransGen.refl, fun _ hbelow _ last => hbelow.tail last⟩
  · rintro types ⟨hname, closed⟩ upper hbelow
    exact closed.mem_of_below hname hbelow

/-- The ancestors of a type are the least set of types that holds it and is closed under the
declarations, and the types that have it among their ancestors are its descendants.  Both queries
fail for what is not in the hierarchy, and for nothing else. -/
theorem Reachable.ancestorsOf_isLeast (reachable : Reachable hierarchy) (name : Name) :
    (hierarchy.contains name → ∃ above below,
      hierarchy.ancestorsOf name = .ok above ∧
      IsLeast {types : Set Name | name ∈ types ∧ hierarchy.IsClosedUpward types}
        {upper | upper ∈ above} ∧
      hierarchy.descendantsOf name = .ok below ∧
      below = NameSet.ofList ((hierarchy.descent name).map Prod.snd) ∧
      ∀ lower, lower ∈ below ↔ lower ≠ name ∧ hierarchy.IsAncestor name lower) ∧
    (∀ error, hierarchy.ancestorsOf name = .error error ↔
      hierarchy.contains name = false ∧ error = .unknownType name) ∧
    (∀ error, hierarchy.descendantsOf name = .error error ↔
      hierarchy.contains name = false ∧ error = .unknownType name) := by
  have wf := reachable.wellFormed
  refine ⟨fun hname => ?_, fun error => ?_, fun error => ?_⟩
  · obtain ⟨above, habove, hmem⟩ := ancestorsOf_eq_ok wf.layered hname
    obtain ⟨below, hbelow, hreach⟩ := descendantsOf_eq_ok hname
    refine ⟨above, below, habove, ?_, hbelow, ?_, fun lower => ?_⟩
    · have hset : {upper | upper ∈ above} = {upper | hierarchy.Below name upper} :=
        Set.ext fun upper => (hmem upper).trans wf.reaches_iff_below
      rw [hset]
      exact isLeast_below hierarchy name
    · exact Except.ok.inj (hbelow.symm.trans (descendantsOf_eq_descent hname))
    · rw [hreach, isAncestor_iff wf.layered, and_comm]
      refine and_congr_right fun hne => (and_iff_right_of_imp fun h => ?_).symm
      -- a type that has another one above it is linked, so it is there
      rcases Relation.ReflTransGen.cases_head h with heq | ⟨parent, hlink, -⟩
      · exact absurd heq hne
      · exact contains_iff.2 hlink.lower_mem
  · unfold ancestorsOf
    cases hierarchy.contains name <;> simp [eq_comm]
  · unfold descendantsOf
    cases hierarchy.contains name <;> simp [eq_comm]

theorem crossing_ancestorsOf_isLeast :
    (initial.run crossing).contains "user.Drawn" ∧
      (∃ above below, (initial.run crossing).ancestorsOf "user.Drawn" = .ok above ∧
        IsLeast {types : Set Name | "user.Drawn" ∈ types ∧
          (initial.run crossing).IsClosedUpward types} {upper | upper ∈ above} ∧
        (initial.run crossing).descendantsOf "user.Drawn" = .ok below ∧
        ∀ lower, lower ∈ below ↔
          lower ≠ "user.Drawn" ∧ (initial.run crossing).IsAncestor "user.Drawn" lower) ∧
      (initial.run crossing).descendantsOf "user.Coin" = .error (.unknownType "user.Coin") := by
  have reachable := Reachable.initial.run crossing
  have hdrawn : (initial.run crossing).contains "user.Drawn" := by decide +kernel
  have hcoin : (initial.run crossing).contains "user.Coin" = false := by decide +kernel
  obtain ⟨above, below, habove, hleast, hbelow, -, hmem⟩ :=
    (reachable.ancestorsOf_isLeast "user.Drawn").1 hdrawn
  exact ⟨hdrawn, ⟨above, below, habove, hleast, hbelow, hmem⟩,
    ((reachable.ancestorsOf_isLeast "user.Coin").2.2 _).2 ⟨hcoin, rfl⟩⟩

end Hierarchy

end SandboxTypes
