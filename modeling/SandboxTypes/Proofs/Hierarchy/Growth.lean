import SandboxTypes.Hierarchy.History
import SandboxTypes.Proofs.Answer

/-!
# How a hierarchy grows

Whatever is inserted, and in whichever way, a hierarchy changes by two steps
only: it admits a declaration that is new and without fault, and it records a
host declaration.  `Grows` says so, and it keeps count of the declarations that
may be admitted.  Each way of inserting is an instance (`insertIfNew_grows`,
`insertMany_grows`, …), and every hierarchy that callers can come to hold has
grown from the roots (`Reachable.grows`).  A property of all reachable hierarchies
is therefore proved for the two steps, by induction on `Grows`.

A batch goes in by rounds, and what holds of these is proved by `rounds_induction`.
They come to a halt when no declaration is ready, and `insertRounds_halts` tells what
is left then.
-/

namespace SandboxTypes

namespace Hierarchy

/-- One hierarchy comes out of another by admitting declarations of a kind, each of them new and
without fault, and by recording host declarations. -/
inductive Grows (kind : Declaration → Prop) (base : Hierarchy) : Hierarchy → Prop where
  | refl : Grows kind base base
  | added {hierarchy : Hierarchy} {declaration : Declaration}
      (grown : Grows kind base hierarchy) (allowed : kind declaration)
      (fresh : hierarchy.contains declaration.name = false)
      (faultless : hierarchy.fault? declaration = none) :
      Grows kind base (hierarchy.add declaration)
  | recorded {hierarchy : Hierarchy} {declaration : Declaration}
      (grown : Grows kind base hierarchy) : Grows kind base (hierarchy.recordHost declaration)

variable {base middle hierarchy staged changed : Hierarchy} {kind other : Declaration → Prop}
  {declaration : Declaration} {batch left : List Declaration} {entry : Entry} {name : Name}

namespace Grows

theorem trans (first : Grows kind base middle) (second : Grows kind middle hierarchy) :
    Grows kind base hierarchy := by
  induction second with
  | refl => exact first
  | added _ allowed fresh faultless ih => exact .added ih allowed fresh faultless
  | recorded _ ih => exact .recorded ih

theorem mono (grown : Grows kind base hierarchy) (h : ∀ d, kind d → other d) :
    Grows other base hierarchy := by
  induction grown with
  | refl => exact .refl
  | added _ allowed fresh faultless ih => exact .added ih (h _ allowed) fresh faultless
  | recorded _ ih => exact .recorded ih

/-- New types are put in front of those that are there. -/
theorem suffix (grown : Grows kind base hierarchy) : base.entries <:+ hierarchy.entries := by
  induction grown with
  | refl => exact List.suffix_rfl
  | added _ _ _ _ ih => exact ih.trans (List.suffix_cons _ _)
  | recorded _ ih => exact ih

theorem contains (grown : Grows kind base hierarchy) (h : base.contains name) :
    hierarchy.contains name := by
  rw [contains_iff] at h ⊢
  obtain ⟨entry, hentry, hname⟩ := List.mem_map.1 h
  exact List.mem_map.2 ⟨entry, grown.suffix.subset hentry, hname⟩

theorem mem_entries (grown : Grows kind base hierarchy) (h : entry ∈ hierarchy.entries) :
    entry ∈ base.entries ∨ kind entry.declaration := by
  induction grown with
  | refl => exact Or.inl h
  | added _ allowed _ _ ih =>
      rcases List.mem_cons.1 h with rfl | h
      · exact Or.inr allowed
      · exact ih h
  | recorded _ ih => exact ih h

end Grows

/-! ## The ways of inserting -/

theorem contains_add (hierarchy : Hierarchy) (declaration : Declaration) :
    (hierarchy.add declaration).contains declaration.name :=
  contains_iff.2 (List.mem_map.2 ⟨_, List.mem_cons_self, rfl⟩)

theorem insertIfNew_grows {inserted : Bool}
    (h : hierarchy.insertIfNew declaration = .ok (inserted, changed)) :
    Grows (· = declaration) hierarchy changed ∧ changed.contains declaration.name := by
  unfold insertIfNew at h
  split at h
  case isTrue hcontains =>
    obtain ⟨-, rfl⟩ := Prod.mk.inj (Except.ok.inj h)
    exact ⟨.refl, hcontains⟩
  case isFalse hfresh =>
    cases hfault : hierarchy.fault? declaration with
    | some error => simp [hfault] at h
    | none =>
        rw [hfault] at h
        obtain ⟨-, rfl⟩ := Prod.mk.inj (Except.ok.inj h)
        exact ⟨.added .refl rfl (Bool.eq_false_iff.2 hfresh) hfault, contains_add _ _⟩

theorem insert_grows (h : hierarchy.insert declaration = .ok changed) :
    Grows (· = declaration) hierarchy changed ∧ changed.contains declaration.name := by
  unfold insert at h
  split at h
  · exact absurd h (by simp)
  · obtain ⟨⟨inserted, result⟩, hinserted, rfl⟩ := map_eq_ok_iff.1 h
    exact insertIfNew_grows hinserted

theorem insertContractClass_grows {host : Declaration}
    (h : hierarchy.insertContractClass host declaration = .ok changed) :
    Grows (· = declaration) hierarchy changed := by
  unfold insertContractClass at h
  split at h
  · exact absurd h (by simp)
  · obtain ⟨grown, hgrown, rfl⟩ := map_eq_ok_iff.1 h
    exact .recorded (insert_grows hgrown).1

theorem insertContractClasses_grows {classes : List (Declaration × Declaration)}
    (h : hierarchy.insertContractClasses classes = .ok changed) :
    Grows (fun _ => True) hierarchy changed := by
  unfold insertContractClasses at h
  induction classes generalizing hierarchy with
  | nil =>
      obtain rfl := Except.ok.inj h
      exact .refl
  | cons pair classes ih =>
      obtain ⟨middle, hfirst, hrest⟩ := bind_eq_ok_iff.1 h
      exact ((insertContractClass_grows hfirst).mono fun _ _ => trivial).trans (ih hrest)

theorem insertEach_grows (h : hierarchy.insertEach batch = .ok changed) :
    Grows (· ∈ batch) hierarchy changed ∧
      ∀ declaration ∈ batch, changed.contains declaration.name := by
  unfold insertEach at h
  induction batch generalizing hierarchy with
  | nil =>
      obtain rfl := Except.ok.inj h
      exact ⟨.refl, fun declaration hmem => absurd hmem List.not_mem_nil⟩
  | cons first batch ih =>
      obtain ⟨middle, hfirst, hrest⟩ := bind_eq_ok_iff.1 h
      obtain ⟨⟨inserted, result⟩, hinserted, rfl⟩ := map_eq_ok_iff.1 hfirst
      obtain ⟨hstep, hcontains⟩ := insertIfNew_grows hinserted
      obtain ⟨hgrown, hall⟩ := ih hrest
      refine ⟨(hstep.mono ?_).trans (hgrown.mono fun _ => List.mem_cons_of_mem _), ?_⟩
      · rintro _ rfl
        exact List.mem_cons_self
      · intro declaration hmem
        rcases List.mem_cons.1 hmem with rfl | hmem
        · exact hgrown.contains hcontains
        · exact hall declaration hmem

/-! ## Batches -/

theorem holdsParents_iff : hierarchy.holdsParents declaration ↔
    ∀ parent ∈ declaration.parents, hierarchy.contains parent :=
  List.all_eq_true

theorem Grows.holdsParents (grown : Grows kind base hierarchy)
    (h : base.holdsParents declaration) : hierarchy.holdsParents declaration := by
  rw [holdsParents_iff] at h ⊢
  intro parent hparent
  exact grown.contains (h parent hparent)

theorem round_eq_ok_iff : hierarchy.round batch = .ok (left, staged) ↔
    hierarchy.insertEach (batch.filter hierarchy.holdsParents) = .ok staged ∧
      (batch.filter fun declaration => !hierarchy.holdsParents declaration) = left := by
  rw [round, map_eq_ok_iff]
  constructor
  · rintro ⟨found, hfound, heq⟩
    obtain ⟨rfl, rfl⟩ := Prod.mk.inj heq
    exact ⟨hfound, rfl⟩
  · rintro ⟨hstaged, rfl⟩
    exact ⟨staged, hstaged, rfl⟩

/-- Where no declaration is ready, all of the batch is left. -/
theorem filter_blocked_of_stuck (hstuck : batch.filter hierarchy.holdsParents = []) :
    (batch.filter fun declaration => !hierarchy.holdsParents declaration) = batch :=
  List.filter_eq_self.2 fun declaration hmem => by
    simpa using List.filter_eq_nil_iff.1 hstuck declaration hmem

theorem insertRounds_of_stuck (hstuck : batch.filter hierarchy.holdsParents = []) :
    hierarchy.insertRounds batch = .ok (batch, hierarchy) := by
  cases batch with
  | nil => rw [insertRounds]
  | cons first rest => rw [insertRounds, if_pos hstuck]

/-- The rounds of a batch are one round, and then the rounds of what it leaves. -/
theorem insertRounds_eq_bind (hierarchy : Hierarchy) (batch : List Declaration) :
    hierarchy.insertRounds batch =
      hierarchy.round batch >>= fun next => next.2.insertRounds next.1 := by
  by_cases hstuck : batch.filter hierarchy.holdsParents = []
  · have hround : hierarchy.round batch = .ok (batch, hierarchy) :=
      round_eq_ok_iff.2 ⟨by rw [hstuck]; rfl, filter_blocked_of_stuck hstuck⟩
    rw [hround]
    rfl
  · cases batch with
    | nil => exact absurd rfl hstuck
    | cons first rest =>
        rw [insertRounds, if_neg hstuck]
        split
        case h_1 error hround =>
          rw [hround]
          rfl
        case h_2 left staged hround =>
          rw [hround]
          rfl

/-- Induction over the rounds of a batch: it comes to a halt, or a round is refused, or a round is
granted and leaves a batch for later rounds. -/
@[elab_as_elim]
theorem rounds_induction {motive : Hierarchy → List Declaration → Prop}
    (halted : ∀ hierarchy batch, batch.filter hierarchy.holdsParents = [] → motive hierarchy batch)
    (refused : ∀ hierarchy batch error, hierarchy.round batch = .error error →
      motive hierarchy batch)
    (granted : ∀ hierarchy batch left staged, hierarchy.round batch = .ok (left, staged) →
      motive staged left → motive hierarchy batch)
    (hierarchy : Hierarchy) (batch : List Declaration) : motive hierarchy batch := by
  induction hierarchy, batch using insertRounds.induct with
  | case1 hierarchy => exact halted hierarchy [] rfl
  | case2 hierarchy first rest hstuck => exact halted hierarchy _ hstuck
  | case3 hierarchy first rest hready error hround => exact refused hierarchy _ error hround
  | case4 hierarchy first rest hready left staged hround ih =>
      exact granted hierarchy _ left staged hround ih

/-- Where the rounds of a batch come to a halt: what is left of the batch lacks a parent, and all
other types of the batch are there. -/
structure Halts (hierarchy : Hierarchy) (batch left : List Declaration) (halted : Hierarchy) :
    Prop where
  grown : Grows (· ∈ batch) hierarchy halted
  left_eq : left = batch.filter fun declaration => !halted.holdsParents declaration
  settled : ∀ declaration ∈ batch, declaration ∈ left ∨ halted.contains declaration.name

theorem insertRounds_halts (h : hierarchy.insertRounds batch = .ok (left, changed)) :
    Halts hierarchy batch left changed := by
  induction hierarchy, batch using rounds_induction with
  | halted hierarchy batch hstuck =>
      rw [insertRounds_of_stuck hstuck] at h
      obtain ⟨rfl, rfl⟩ := Prod.mk.inj (Except.ok.inj h)
      exact ⟨.refl, (filter_blocked_of_stuck hstuck).symm, fun _ hmem => Or.inl hmem⟩
  | refused hierarchy batch error hround =>
      rw [insertRounds_eq_bind, hround] at h
      cases h
  | granted hierarchy batch pending staged hround ih =>
      rw [insertRounds_eq_bind, hround] at h
      have later := ih h
      obtain ⟨hstaged, rfl⟩ := round_eq_ok_iff.1 hround
      obtain ⟨hgrown, hready⟩ := insertEach_grows hstaged
      refine ⟨?_, ?_, fun declaration hmem => ?_⟩
      · exact (hgrown.mono fun _ hmem => (List.mem_filter.1 hmem).1).trans
          (later.grown.mono fun _ hmem => (List.mem_filter.1 hmem).1)
      · -- parents that were there at the start of the round are still there
        rw [later.left_eq, List.filter_filter]
        refine List.filter_congr fun declaration _ => ?_
        cases hholds : hierarchy.holdsParents declaration with
        | false => simp
        | true => simp [later.grown.holdsParents (hgrown.holdsParents hholds)]
      · -- the round has admitted what was ready, and the rounds after it the rest
        by_cases hholds : hierarchy.holdsParents declaration
        · have hheld := hready declaration (List.mem_filter.2 ⟨hmem, hholds⟩)
          exact Or.inr (later.grown.contains hheld)
        · exact later.settled declaration (List.mem_filter.2 ⟨hmem, by simp [hholds]⟩)

theorem verdict_eq_ok_iff : hierarchy.verdict left = .ok changed ↔
    left = [] ∧ hierarchy = changed := by
  cases left <;> simp [verdict]

theorem insertMany_eq_bind (hierarchy : Hierarchy) (batch : List Declaration) :
    hierarchy.insertMany batch =
      hierarchy.insertRounds batch >>= fun next => next.2.verdict next.1 :=
  rfl

@[simp] theorem insertMany_nil (hierarchy : Hierarchy) :
    hierarchy.insertMany [] = .ok hierarchy := by
  rw [insertMany_eq_bind, insertRounds]
  rfl

theorem insertMany_eq_ok_iff : hierarchy.insertMany batch = .ok changed ↔
    hierarchy.insertRounds batch = .ok ([], changed) := by
  rw [insertMany_eq_bind, bind_eq_ok_iff]
  constructor
  · rintro ⟨⟨left, halted⟩, hrounds, hverdict⟩
    obtain ⟨rfl, rfl⟩ := verdict_eq_ok_iff.1 hverdict
    exact hrounds
  · intro hrounds
    exact ⟨_, hrounds, rfl⟩

/-- A batch that is granted admits declarations of the batch only, and all its types are there. -/
theorem insertMany_grows (h : hierarchy.insertMany batch = .ok changed) :
    Grows (· ∈ batch) hierarchy changed ∧
      ∀ declaration ∈ batch, changed.contains declaration.name := by
  have halts := insertRounds_halts (insertMany_eq_ok_iff.1 h)
  exact ⟨halts.grown, fun declaration hmem =>
    (halts.settled declaration hmem).resolve_left List.not_mem_nil⟩

/-! ## Built and reachable hierarchies -/

/-- A build grows the library, the array types and the further types one upon the other. -/
theorem build_stages {seed : Seed} (h : build seed = .ok hierarchy) :
    ∃ library arrays,
      initial.insertMany (seed.hostTypes.map HostLibrary.sandboxDeclaration) = .ok library ∧
      library.insertMany seed.arrayDeclarations = .ok arrays ∧
      Grows (fun _ => True) arrays hierarchy := by
  obtain ⟨library, hlibrary, h⟩ := bind_eq_ok_iff.1 h
  obtain ⟨arrays, harrays, h⟩ := bind_eq_ok_iff.1 h
  obtain ⟨extended, hextended, h⟩ := bind_eq_ok_iff.1 h
  exact ⟨library, arrays, hlibrary, harrays,
    ((insertMany_grows hextended).1.mono fun _ _ => trivial).trans (insertContractClasses_grows h)⟩

theorem build_grows {seed : Seed} (h : build seed = .ok hierarchy) :
    Grows (fun _ => True) initial hierarchy := by
  obtain ⟨library, arrays, hlibrary, harrays, hrest⟩ := build_stages h
  exact ((insertMany_grows hlibrary).1.mono fun _ _ => trivial).trans
    (((insertMany_grows harrays).1.mono fun _ _ => trivial).trans hrest)

theorem perform_grows {insertion : Insertion} (h : hierarchy.perform insertion = .ok changed) :
    Grows (fun _ => True) hierarchy changed := by
  cases insertion with
  | single declaration => exact (insert_grows h).1.mono fun _ _ => trivial
  | ifNew declaration =>
      obtain ⟨⟨inserted, result⟩, hinserted, rfl⟩ := map_eq_ok_iff.1 h
      exact (insertIfNew_grows hinserted).1.mono fun _ _ => trivial
  | batch declarations => exact (insertMany_grows h).1.mono fun _ _ => trivial
  | contractClass host sandbox => exact (insertContractClass_grows h).mono fun _ _ => trivial

theorem after_grows (hierarchy : Hierarchy) (insertion : Insertion) :
    Grows (fun _ => True) hierarchy (hierarchy.after insertion) := by
  cases h : hierarchy.perform insertion with
  | ok changed => exact after_of_perform_ok h ▸ perform_grows h
  | error error => exact (after_of_perform_error h).symm ▸ .refl

theorem run_grows (hierarchy : Hierarchy) (insertions : List Insertion) :
    Grows (fun _ => True) hierarchy (hierarchy.run insertions) := by
  induction insertions generalizing hierarchy with
  | nil => exact .refl
  | cons insertion insertions ih => exact (after_grows hierarchy insertion).trans (ih _)

theorem Reachable.grows (reachable : Reachable hierarchy) :
    Grows (fun _ => True) Hierarchy.initial hierarchy := by
  induction reachable with
  | initial => exact .refl
  | built h => exact build_grows h
  | after _ insertion ih => exact ih.trans (after_grows _ insertion)

end Hierarchy

end SandboxTypes
