import SandboxTypes.Name

/-!
# Sets of names

A set of names is kept as its list of members in increasing order, each once.
The order is that of code points.  Two sets with the same members are equal
(`NameSet.ext`), and a set is read out in the one order there is.
-/

namespace SandboxTypes

/-- A finite set of names, listed in increasing order. -/
structure NameSet where
  names : List Name
  increasing : names.Pairwise (· < ·)
  deriving DecidableEq

namespace NameSet

instance : Membership Name NameSet := ⟨fun set name => name ∈ set.names⟩

instance (name : Name) (set : NameSet) : Decidable (name ∈ set) :=
  inferInstanceAs (Decidable (name ∈ set.names))

theorem mem_names {name : Name} {set : NameSet} : name ∈ set.names ↔ name ∈ set := Iff.rfl

/-- Puts a name at its place in an increasing list, unless it is there. -/
def place (name : Name) : List Name → List Name
  | [] => [name]
  | other :: rest =>
    if name < other then name :: other :: rest
    else if name = other then other :: rest
    else other :: place name rest

theorem mem_place {name x : Name} {names : List Name} :
    x ∈ place name names ↔ x = name ∨ x ∈ names := by
  induction names with
  | nil => simp [place]
  | cons other rest ih =>
    by_cases hlt : name < other
    · simp [place, hlt]
    · by_cases heq : name = other
      · subst heq
        simp [place]
      · simp [place, hlt, heq, ih, or_left_comm]

theorem increasing_place {name : Name} {names : List Name} (h : names.Pairwise (· < ·)) :
    (place name names).Pairwise (· < ·) := by
  induction names with
  | nil => simp [place]
  | cons other rest ih =>
    have ⟨hfirst, hrest⟩ := List.pairwise_cons.1 h
    by_cases hlt : name < other
    · rw [place, if_pos hlt]
      refine List.pairwise_cons.2 ⟨fun x hx => ?_, h⟩
      rcases List.mem_cons.1 hx with rfl | hx
      · exact hlt
      · exact String.lt_trans hlt (hfirst x hx)
    · by_cases heq : name = other
      · rw [place, if_neg hlt, if_pos heq]
        exact h
      · rw [place, if_neg hlt, if_neg heq]
        refine List.pairwise_cons.2 ⟨fun x hx => ?_, ih hrest⟩
        rcases mem_place.1 hx with rfl | hx
        · exact String.not_le.1 fun hle => heq (String.le_antisymm hle (String.not_lt.1 hlt))
        · exact hfirst x hx

/-- The set without members. -/
def empty : NameSet := ⟨[], .nil⟩

instance : EmptyCollection NameSet := ⟨empty⟩

instance : Inhabited NameSet := ⟨empty⟩

/-- Adds a member. -/
def insert (name : Name) (set : NameSet) : NameSet :=
  ⟨place name set.names, increasing_place set.increasing⟩

/-- The set of the names on a list. -/
def ofList (names : List Name) : NameSet := names.foldr insert ∅

/-- Checks if the set has no members. -/
def isEmpty (set : NameSet) : Bool := set.names.isEmpty

@[simp] theorem not_mem_empty (name : Name) : name ∉ (∅ : NameSet) := List.not_mem_nil

@[simp] theorem mem_insert {name x : Name} {set : NameSet} :
    x ∈ set.insert name ↔ x = name ∨ x ∈ set := mem_place

@[simp] theorem mem_ofList {x : Name} {names : List Name} : x ∈ ofList names ↔ x ∈ names := by
  induction names with
  | nil => simp [ofList]
  | cons name names ih => simpa [ofList] using or_congr_right ih

/-- An increasing list is determined by its members. -/
private theorem increasing_ext {as bs : List Name} (ha : as.Pairwise (· < ·))
    (hb : bs.Pairwise (· < ·)) (h : ∀ x, x ∈ as ↔ x ∈ bs) : as = bs := by
  induction as generalizing bs with
  | nil =>
    cases bs with
    | nil => rfl
    | cons b bs => exact absurd ((h b).2 List.mem_cons_self) List.not_mem_nil
  | cons a as ih =>
    cases bs with
    | nil => exact absurd ((h a).1 List.mem_cons_self) List.not_mem_nil
    | cons b bs =>
      have ⟨ha₁, ha₂⟩ := List.pairwise_cons.1 ha
      have ⟨hb₁, hb₂⟩ := List.pairwise_cons.1 hb
      have hab : a = b := by
        rcases List.mem_cons.1 ((h a).1 List.mem_cons_self) with hab | hab
        · exact hab
        · rcases List.mem_cons.1 ((h b).2 List.mem_cons_self) with hba | hba
          · exact hba.symm
          · exact absurd (String.lt_trans (ha₁ b hba) (hb₁ a hab)) (String.lt_irrefl a)
      subst hab
      congr 1
      refine ih ha₂ hb₂ fun x => ⟨fun hx => ?_, fun hx => ?_⟩
      · rcases List.mem_cons.1 ((h x).1 (List.mem_cons_of_mem _ hx)) with rfl | hx'
        · exact absurd (ha₁ x hx) (String.lt_irrefl x)
        · exact hx'
      · rcases List.mem_cons.1 ((h x).2 (List.mem_cons_of_mem _ hx)) with rfl | hx'
        · exact absurd (hb₁ x hx) (String.lt_irrefl x)
        · exact hx'

theorem ext {s t : NameSet} (h : ∀ x, x ∈ s ↔ x ∈ t) : s = t := by
  cases s with
  | mk as ha =>
    cases t with
    | mk bs hb =>
      have : as = bs := increasing_ext ha hb h
      subst this
      rfl

/-- The names that two sets share are listed alike, from whichever set they are taken. -/
theorem filter_mem_comm (s t : NameSet) : s.names.filter (· ∈ t) = t.names.filter (· ∈ s) := by
  refine increasing_ext (s.increasing.filter _) (t.increasing.filter _) fun x => ?_
  simp only [List.mem_filter, mem_names, decide_eq_true_eq, and_comm]

theorem names_eq_singleton_iff {set : NameSet} {name : Name} :
    set.names = [name] ↔ ∀ x, x ∈ set ↔ x = name := by
  constructor
  · intro h x
    rw [← mem_names, h, List.mem_singleton]
  · intro h
    have heq : set = ofList [name] := ext fun x => by rw [h, mem_ofList, List.mem_singleton]
    rw [heq]
    rfl

end NameSet

end SandboxTypes
