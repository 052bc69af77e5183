import Mathlib.Data.List.Nodup
import Mathlib.Logic.Relation
import SandboxTypes.Hierarchy

/-!
# The links of a hierarchy

The entries of a hierarchy link types to the types directly above them.  This
file is about the links alone: no declaration is looked at.

`Layered` is the order in which types are listed.  Every type is listed once, and
is linked to types that are listed after it.  Then

* `Layered.position_lt`: a link leads further down the list, so that no type is
  above itself (`Layered.irrefl`);
* `Layered.supers_induction`: what passes from the types directly above a type to
  the type holds of all types;
* `reaches_cons_of_ne`: nothing that is listed sees a type that is put in front.
-/

namespace SandboxTypes

namespace Hierarchy

/-- An entry of the list links one type to a type directly above it. -/
def Linked (entries : List Entry) (lower upper : Name) : Prop :=
  ∃ entry ∈ entries, entry.name = lower ∧ upper ∈ entry.supers

/-- The links lead from one type to another in any number of steps. -/
abbrev Reaches (entries : List Entry) : Name → Name → Prop :=
  Relation.ReflTransGen (Linked entries)

/-- Every type is listed once, and is linked to types that are listed after it. -/
inductive Layered : List Entry → Prop where
  | nil : Layered []
  | cons {entry : Entry} {older : List Entry}
      (fresh : entry.name ∉ older.map Entry.name)
      (grounded : ∀ super ∈ entry.supers, super ∈ older.map Entry.name)
      (rest : Layered older) : Layered (entry :: older)

/-- The place of a type in the list, counted from the newest. -/
def position (entries : List Entry) (name : Name) : Nat := (entries.map Entry.name).idxOf name

variable {entries older : List Entry} {entry : Entry} {name lower upper : Name}

/-! ## Links of a list -/

theorem linked_cons : Linked (entry :: older) lower upper ↔
    (entry.name = lower ∧ upper ∈ entry.supers) ∨ Linked older lower upper := by
  simp [Linked]

theorem Linked.lower_mem (h : Linked entries lower upper) : lower ∈ entries.map Entry.name := by
  obtain ⟨entry, hmem, rfl, -⟩ := h
  exact List.mem_map_of_mem hmem

theorem Layered.upper_mem (layered : Layered entries) (h : Linked entries lower upper) :
    upper ∈ entries.map Entry.name := by
  induction layered with
  | nil => exact absurd h.lower_mem List.not_mem_nil
  | cons fresh grounded rest ih =>
      rw [List.map_cons]
      rcases linked_cons.1 h with ⟨-, hsuper⟩ | hrest
      · exact List.mem_cons_of_mem _ (grounded upper hsuper)
      · exact List.mem_cons_of_mem _ (ih hrest)

theorem Layered.reaches_mem (layered : Layered entries) (h : Reaches entries lower upper)
    (hlower : lower ∈ entries.map Entry.name) : upper ∈ entries.map Entry.name := by
  induction h with
  | refl => exact hlower
  | tail _ hlink _ => exact layered.upper_mem hlink

theorem Layered.nodup (layered : Layered entries) : (entries.map Entry.name).Nodup := by
  induction layered with
  | nil => exact List.nodup_nil
  | cons fresh _ _ ih => exact List.nodup_cons.2 ⟨fresh, ih⟩

theorem Layered.linked_iff (layered : Layered entries) (hentry : entry ∈ entries) :
    Linked entries entry.name upper ↔ upper ∈ entry.supers := by
  constructor
  · rintro ⟨other, hother, hname, hsuper⟩
    have heq : other = entry := List.inj_on_of_nodup_map layered.nodup hother hentry hname
    exact heq ▸ hsuper
  · intro h
    exact ⟨entry, hentry, rfl, h⟩

/-- What a type reaches is the type itself and what the types directly above it reach. -/
theorem reaches_iff_of_linked {parents : List Name}
    (h : ∀ parent, Linked entries lower parent ↔ parent ∈ parents) :
    Reaches entries lower upper ↔
      upper = lower ∨ ∃ parent ∈ parents, Reaches entries parent upper := by
  rw [Reaches, Relation.ReflTransGen.cases_head_iff, eq_comm]
  simp only [h]

/-! ## Links lead down the list -/

theorem Layered.position_lt (layered : Layered entries) (h : Linked entries lower upper) :
    position entries lower < position entries upper := by
  induction layered with
  | nil => exact absurd h.lower_mem List.not_mem_nil
  | @cons entry older fresh grounded rest ih =>
      have hupper : upper ∈ older.map Entry.name := by
        rcases linked_cons.1 h with ⟨-, hsuper⟩ | hrest
        · exact grounded upper hsuper
        · exact rest.upper_mem hrest
      have hne : entry.name ≠ upper := fun heq => fresh (heq ▸ hupper)
      rw [position, position, List.map_cons, List.idxOf_cons_ne _ hne]
      rcases linked_cons.1 h with ⟨rfl, -⟩ | hrest
      · rw [List.idxOf_cons_self]
        exact Nat.succ_pos _
      · have hne' : entry.name ≠ lower := fun heq => fresh (heq ▸ hrest.lower_mem)
        rw [List.idxOf_cons_ne _ hne']
        exact Nat.succ_lt_succ (ih hrest)

theorem Layered.position_lt_of_transGen (layered : Layered entries)
    (h : Relation.TransGen (Linked entries) lower upper) :
    position entries lower < position entries upper := by
  induction h with
  | single hlink => exact layered.position_lt hlink
  | tail _ hlink ih => exact Nat.lt_trans ih (layered.position_lt hlink)

theorem Layered.irrefl (layered : Layered entries) (name : Name) :
    ¬ Relation.TransGen (Linked entries) name name :=
  fun h => Nat.lt_irrefl _ (layered.position_lt_of_transGen h)

theorem Layered.antisymm (layered : Layered entries) (hab : Reaches entries lower upper)
    (hba : Reaches entries upper lower) : lower = upper := by
  rcases Relation.reflTransGen_iff_eq_or_transGen.1 hab with heq | hlt
  · exact heq.symm
  · exact absurd (hlt.trans_left hba) (layered.irrefl lower)

theorem Reaches.transGen (h : Reaches entries lower upper) (hne : upper ≠ lower) :
    Relation.TransGen (Linked entries) lower upper :=
  (Relation.reflTransGen_iff_eq_or_transGen.1 h).resolve_left hne

theorem Layered.wellFounded (layered : Layered entries) :
    WellFounded (Relation.TransGen (Linked entries)) :=
  Subrelation.wf (fun h => layered.position_lt_of_transGen h)
    (InvImage.wf (position entries) Nat.lt_wfRel.wf)

/-- What holds of a type once it holds of all types directly above holds of every listed type. -/
theorem Layered.supers_induction {motive : Name → Prop} (layered : Layered entries)
    (step : ∀ entry ∈ entries, (∀ super ∈ entry.supers, motive super) → motive entry.name) :
    ∀ name ∈ entries.map Entry.name, motive name := by
  induction layered with
  | nil =>
      intro name hname
      exact absurd hname List.not_mem_nil
  | @cons entry older _ grounded _ ih =>
      have holder : ∀ name ∈ older.map Entry.name, motive name :=
        ih fun other hother => step other (List.mem_cons_of_mem _ hother)
      intro name hname
      rcases List.mem_cons.1 hname with rfl | hname
      · exact step entry List.mem_cons_self fun super hsuper => holder super (grounded super hsuper)
      · exact holder name hname

/-! ## A type in front of the list -/

theorem Reaches.cons (h : Reaches older lower upper) : Reaches (entry :: older) lower upper :=
  Relation.ReflTransGen.mono (fun _ _ hlink => linked_cons.2 (Or.inr hlink)) _ _ h

theorem reaches_cons_of_ne (layered : Layered (entry :: older)) (hne : lower ≠ entry.name) :
    Reaches (entry :: older) lower upper ↔ Reaches older lower upper := by
  cases layered with
  | cons fresh grounded rest =>
      refine ⟨fun h => ?_, Reaches.cons⟩
      induction h using Relation.ReflTransGen.head_induction_on with
      | refl => exact .refl
      | head hlink _ ih =>
          rcases linked_cons.1 hlink with ⟨heq, -⟩ | hrest
          · exact absurd heq.symm hne
          · refine .head hrest (ih fun heq => fresh ?_)
            rw [← heq]
            exact rest.upper_mem hrest

end Hierarchy

end SandboxTypes
