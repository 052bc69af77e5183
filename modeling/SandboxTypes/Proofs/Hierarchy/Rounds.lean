import SandboxTypes.Proofs.Hierarchy.Invariant

/-!
# Batches that come to a halt

A batch goes in by rounds.  A round in which some declaration is ready takes it out of
the batch (`length_lt_of_round`), so that a batch needs no more rounds than it has
declarations, whatever is declared (`insertWithin_of_length_le`).

A batch may come to a halt before: its types wait for each other, or for a type that
nobody declares.  Then the first declaration left tells what is wrong with it, and if
this is a parent that is not there, no other way of inserting brings the parent in.
For every declaration that is left in a halt lacks a parent, so that the names in the
hierarchy are all the names that the batch can bring in (`Halts.contains_of_grows`).
-/

namespace SandboxTypes

open FixedType (shadowObject)

namespace Hierarchy

variable {hierarchy halted other : Hierarchy} {declaration : Declaration}
  {batch left : List Declaration} {name parent : Name} {error : HierarchyError}

theorem contains_add_iff : (hierarchy.add declaration).contains name ↔
    name = declaration.name ∨ hierarchy.contains name := by
  rw [contains_iff, contains_iff]
  exact List.mem_cons

/-! ## Faults -/

/-- A fault that is an unknown parent names a declared parent that is not there. -/
theorem of_fault?_eq_unknownParent
    (h : hierarchy.fault? declaration = some (.unknownParent name parent)) :
    declaration.name = name ∧ parent ∈ declaration.parents ∧ hierarchy.contains parent = false := by
  unfold fault? at h
  split_ifs at h
  case neg =>
    obtain ⟨missing, hmissing, herror⟩ := Option.map_eq_some_iff.1 h
    obtain ⟨rfl, rfl⟩ := HierarchyError.unknownParent.inj herror
    exact ⟨rfl, List.mem_of_find?_eq_some hmissing, by simpa using List.find?_some hmissing⟩
  -- every other fault is told as what it is
  all_goals exact absurd h (by simp)

theorem holdsParents_of_faultless (faultless : hierarchy.fault? declaration = none) :
    hierarchy.holdsParents declaration :=
  holdsParents_iff.2 (fault?_eq_none_iff.1 faultless).2.2.2

/-- A declaration that lacks a parent is at fault, so the cause of a halt is always its fault. -/
theorem blockedFault_of_blocked (blocked : hierarchy.holdsParents declaration = false) :
    hierarchy.fault? declaration = some (hierarchy.blockedFault declaration) := by
  cases hfault : hierarchy.fault? declaration with
  | some error => rw [blockedFault, hfault, Option.getD_some]
  | none =>
      have hholds := holdsParents_of_faultless hfault
      rw [blocked] at hholds
      exact absurd hholds (by simp)

theorem fault?_of_insertIfNew_eq_error (h : hierarchy.insertIfNew declaration = .error error) :
    hierarchy.fault? declaration = some error := by
  unfold insertIfNew at h
  split at h
  case isTrue => exact absurd h (by simp)
  case isFalse =>
    cases hfault : hierarchy.fault? declaration with
    | none => simp [hfault] at h
    | some fault => simpa [hfault] using h

/-- A list is refused for the fault of one of its types, which it has when some of the others are
in. -/
theorem exists_fault_of_insertEach_eq_error (h : hierarchy.insertEach batch = .error error) :
    ∃ declaration ∈ batch, ∃ middle, Grows (· ∈ batch) hierarchy middle ∧
      middle.fault? declaration = some error := by
  unfold insertEach at h
  induction batch generalizing hierarchy with
  | nil => exact absurd h nofun
  | cons first batch ih =>
      rw [List.foldlM_cons] at h
      rcases bind_eq_error_iff.1 h with hfirst | ⟨next, hfirst, hrest⟩
      · have hfault := fault?_of_insertIfNew_eq_error (map_eq_error_iff.1 hfirst)
        exact ⟨first, List.mem_cons_self, hierarchy, .refl, hfault⟩
      · obtain ⟨⟨inserted, result⟩, hinserted, rfl⟩ := map_eq_ok_iff.1 hfirst
        obtain ⟨declaration, hmem, middle, hgrown, hfault⟩ := ih hrest
        have hstep : Grows (· ∈ first :: batch) hierarchy result :=
          (insertIfNew_grows hinserted).1.mono fun _ heq => heq ▸ List.mem_cons_self
        exact ⟨declaration, List.mem_cons_of_mem _ hmem, middle,
          hstep.trans (hgrown.mono fun _ => List.mem_cons_of_mem _), hfault⟩

/-- Types whose parents are there are not refused for a parent. -/
theorem insertEach_ne_unknownParent
    (ready : ∀ declaration ∈ batch, hierarchy.holdsParents declaration) :
    hierarchy.insertEach batch ≠ .error (.unknownParent name parent) := by
  intro h
  obtain ⟨declaration, hmem, middle, hgrown, hfault⟩ := exists_fault_of_insertEach_eq_error h
  obtain ⟨-, hparent, hmissing⟩ := of_fault?_eq_unknownParent hfault
  -- parents that are there stay there
  have hholds := hgrown.holdsParents (ready declaration hmem)
  rw [holdsParents_iff.1 hholds parent hparent] at hmissing
  exact absurd hmissing (by simp)

/-! ## Rounds -/

/-- Inserts a batch in a limited number of rounds, and has no answer where more are needed. -/
def insertWithin : Nat → Hierarchy → List Declaration → Option (Except HierarchyError Hierarchy)
  | _, hierarchy, [] => some (.ok hierarchy)
  | 0, _, _ :: _ => none
  | limit + 1, hierarchy, first :: rest =>
    if (first :: rest).filter hierarchy.holdsParents = [] then
      some (.error (hierarchy.blockedFault first))
    else
      match hierarchy.round (first :: rest) with
      | .error error => some (.error error)
      | .ok (left, staged) => insertWithin limit staged left

theorem insertMany_of_stuck (hstuck : batch.filter hierarchy.holdsParents = []) :
    hierarchy.insertMany batch = hierarchy.verdict batch := by
  rw [insertMany_eq_bind, insertRounds_of_stuck hstuck]
  rfl

theorem insertMany_eq_bind_round (hierarchy : Hierarchy) (batch : List Declaration) :
    hierarchy.insertMany batch =
      hierarchy.round batch >>= fun next => next.2.insertMany next.1 := by
  rw [insertMany_eq_bind, insertRounds_eq_bind]
  cases hierarchy.round batch with
  | error error => rfl
  | ok next => rfl

/-- A batch comes to its end within as many rounds as it has declarations. -/
theorem insertWithin_of_length_le {limit : Nat} (h : batch.length ≤ limit) :
    insertWithin limit hierarchy batch = some (hierarchy.insertMany batch) := by
  induction limit generalizing hierarchy batch with
  | zero =>
      obtain rfl := List.eq_nil_of_length_eq_zero (Nat.le_zero.1 h)
      rw [insertWithin, insertMany_nil]
  | succ limit ih =>
      cases batch with
      | nil => rw [insertWithin, insertMany_nil]
      | cons first rest =>
          rw [insertWithin]
          split
          case isTrue hstuck => rw [insertMany_of_stuck hstuck, verdict]
          case isFalse hready =>
            rw [insertMany_eq_bind_round]
            cases hround : hierarchy.round (first :: rest) with
            | error error => rfl
            | ok next =>
                have hless := length_lt_of_round hready hround
                exact ih (by omega)

/-- Rounds are refused in a round of some declarations of the batch. -/
theorem exists_round_of_insertRounds_eq_error (h : hierarchy.insertRounds batch = .error error) :
    ∃ staged : Hierarchy, ∃ pending, pending ⊆ batch ∧ staged.round pending = .error error := by
  induction hierarchy, batch using rounds_induction with
  | halted hierarchy batch hstuck =>
      rw [insertRounds_of_stuck hstuck] at h
      cases h
  | refused hierarchy batch cause hround =>
      rw [insertRounds_eq_bind, hround] at h
      obtain rfl := Except.error.inj h
      exact ⟨hierarchy, batch, List.Subset.refl _, hround⟩
  | granted hierarchy batch left staged hround ih =>
      rw [insertRounds_eq_bind, hround] at h
      obtain ⟨later, pending, hsubset, hlater⟩ := ih h
      obtain ⟨-, rfl⟩ := round_eq_ok_iff.1 hround
      exact ⟨later, pending, fun _ hmem => (List.mem_filter.1 (hsubset hmem)).1, hlater⟩

/-- No round is refused for an unknown parent, since it takes what has its parents. -/
theorem insertRounds_ne_unknownParent :
    hierarchy.insertRounds batch ≠ .error (.unknownParent name parent) := by
  intro h
  obtain ⟨staged, pending, -, hround⟩ := exists_round_of_insertRounds_eq_error h
  have hready : ∀ declaration ∈ pending.filter staged.holdsParents,
      staged.holdsParents declaration := fun _ hmem => (List.mem_filter.1 hmem).2
  exact insertEach_ne_unknownParent hready (map_eq_error_iff.1 hround)

/-- A batch is refused in a round, or for the first declaration left in a halt. -/
theorem insertMany_eq_error_iff : hierarchy.insertMany batch = .error error ↔
    hierarchy.insertRounds batch = .error error ∨
      ∃ first rest, ∃ halted : Hierarchy,
        hierarchy.insertRounds batch = .ok (first :: rest, halted) ∧
          halted.blockedFault first = error := by
  rw [insertMany_eq_bind, bind_eq_error_iff]
  refine or_congr_right ⟨?_, ?_⟩
  · rintro ⟨⟨left, halted⟩, hrounds, hverdict⟩
    cases left with
    | nil => cases hverdict
    | cons first rest => exact ⟨first, rest, halted, hrounds, Except.error.inj hverdict⟩
  · rintro ⟨first, rest, halted, hrounds, rfl⟩
    exact ⟨_, hrounds, rfl⟩

/-! ## In a halt -/

theorem Halts.mem_left_iff (halts : Halts hierarchy batch left halted) : declaration ∈ left ↔
    declaration ∈ batch ∧ halted.holdsParents declaration = false := by
  rw [halts.left_eq, List.mem_filter, Bool.not_eq_true']

/-- What any other way of inserting types of the batch brings in is there in the halt. -/
theorem Halts.contains_of_grows (halts : Halts hierarchy batch left halted)
    (grown : Grows (· ∈ batch) hierarchy other) (h : other.contains name) :
    halted.contains name := by
  induction grown generalizing name with
  | refl => exact halts.grown.contains h
  | @added middle declaration grown allowed fresh faultless ih =>
      rcases contains_add_iff.1 h with rfl | h
      · refine (halts.settled declaration allowed).resolve_left fun hleft => ?_
        -- what was there for the type to come in is there in the halt, so it lacks nothing
        have hheld := holdsParents_iff.1 (holdsParents_of_faultless faultless)
        have hholds : halted.holdsParents declaration :=
          holdsParents_iff.2 fun parent hparent => ih (hheld parent hparent)
        rw [(halts.mem_left_iff.1 hleft).2] at hholds
        exact absurd hholds (by simp)
      · exact ih h
  | recorded grown ih => exact ih h

/-! ## The main statement -/

/-- Every batch is granted or refused within as many rounds as it has declarations.  If it is
refused for an unknown parent, a declaration of the batch names that parent, which is not there and
does not come in however types of the batch are inserted.  In a halt the declaration that is blamed
is at fault by itself. -/
theorem insertMany_diagnosis (hierarchy : Hierarchy) (batch : List Declaration) :
    (∀ limit, batch.length ≤ limit →
      insertWithin limit hierarchy batch = some (hierarchy.insertMany batch)) ∧
    (∀ name parent, hierarchy.insertMany batch = .error (.unknownParent name parent) →
      (∃ declaration ∈ batch, declaration.name = name ∧ parent ∈ declaration.parents) ∧
      hierarchy.contains parent = false ∧
      ∀ order, order ⊆ batch → ∀ other, hierarchy.insertEach order = .ok other →
        other.contains parent = false) ∧
    ∀ (staged : Hierarchy) (first : Declaration) (rest : List Declaration),
      (first :: rest).filter staged.holdsParents = [] →
      ∃ error, staged.fault? first = some error ∧
        staged.insertMany (first :: rest) = .error error := by
  refine ⟨fun limit hlimit => insertWithin_of_length_le hlimit, fun name parent h => ?_,
    fun staged first rest halted => ?_⟩
  · rcases insertMany_eq_error_iff.1 h with hrounds | ⟨first, rest, halted, hrounds, hfault⟩
    · exact absurd hrounds insertRounds_ne_unknownParent
    have halts := insertRounds_halts hrounds
    obtain ⟨hmem, hblocked⟩ := halts.mem_left_iff.1 List.mem_cons_self
    have hfirst := blockedFault_of_blocked hblocked
    rw [hfault] at hfirst
    obtain ⟨hname, hparent, hmissing⟩ := of_fault?_eq_unknownParent hfirst
    -- what is missing in the halt is missing in whatever comes out of types of the batch
    have hnever : ∀ {other}, Grows (· ∈ batch) hierarchy other → other.contains parent = false := by
      intro other grown
      by_contra hcontains
      have hheld := halts.contains_of_grows grown (by simpa using hcontains)
      rw [hmissing] at hheld
      exact absurd hheld (by simp)
    refine ⟨⟨first, hmem, hname, hparent⟩, hnever .refl, fun order hsubset other hother => ?_⟩
    exact hnever ((insertEach_grows hother).1.mono fun declaration hmem => hsubset hmem)
  · have hblocked : staged.holdsParents first = false := by
      simpa using List.filter_eq_nil_iff.1 halted first List.mem_cons_self
    exact ⟨_, blockedFault_of_blocked hblocked, insertMany_of_stuck halted⟩

/-- A hen and an egg that come from each other, a phoenix that comes from itself, and a nest. -/
def brood : List Declaration :=
  [.sandboxClass "user.Hen" "user.Egg" [], .sandboxClass "user.Egg" "user.Hen" [],
    .sandboxClass "user.Phoenix" "user.Phoenix" [], .sandboxClass "user.Nest" shadowObject.name []]

theorem brood_insertMany_diagnosis :
    insertWithin 4 initial brood = some (.error (.unknownParent "user.Hen" "user.Egg")) ∧
    initial.insertMany brood = .error (.unknownParent "user.Hen" "user.Egg") ∧
    (∃ declaration ∈ brood, declaration.name = "user.Hen" ∧ "user.Egg" ∈ declaration.parents) ∧
    (∃ other, initial.insertEach (brood.drop 3) = .ok other ∧ other.contains "user.Nest" ∧
      other.contains "user.Egg" = false) ∧
    (brood.take 3).filter initial.holdsParents = [] ∧
    ∃ error, initial.fault? (.sandboxClass "user.Hen" "user.Egg" []) = some error ∧
      initial.insertMany (brood.take 3) = .error error := by
  obtain ⟨hrounds, hdiagnosis, hhalted⟩ := insertMany_diagnosis initial brood
  have hwithin : insertWithin 4 initial brood =
      some (.error (.unknownParent "user.Hen" "user.Egg")) := by rfl
  have hrefused : initial.insertMany brood = .error (.unknownParent "user.Hen" "user.Egg") :=
    Option.some.inj ((hrounds 4 (by decide)).symm.trans hwithin)
  have hhalt : (brood.take 3).filter initial.holdsParents = [] := by rfl
  obtain ⟨hlisted, -, hnever⟩ := hdiagnosis _ _ hrefused
  have hsubset : brood.drop 3 ⊆ brood := List.drop_subset 3 brood
  have hnest : initial.insertEach (brood.drop 3) =
      .ok (initial.add (.sandboxClass "user.Nest" shadowObject.name [])) := by rfl
  exact ⟨hwithin, hrefused, hlisted, ⟨_, hnest, by decide, hnever _ hsubset _ hnest⟩, hhalt,
    hhalted initial _ _ hhalt⟩

end Hierarchy

end SandboxTypes
