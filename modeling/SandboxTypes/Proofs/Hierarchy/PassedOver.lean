import SandboxTypes.Proofs.Hierarchy.CommonAncestry
import SandboxTypes.Proofs.Hierarchy.Rounds

/-!
# Declarations that are passed over

A type that is there is not inserted again.  For a single type this is decided before
anything else.  In a batch each declaration first waits for its parents, and only when
its round has come is its name looked up.  So the declaration of a type that is there
has no effect in its round, but it may never get there: it can be left over when nothing
is ready any more, and then the batch is refused for it.

How far the rounds go does not depend on the declarations of types that are there
(`insertRounds_filter`), but what they leave of the batch does, and so does the verdict
about it.
-/

namespace SandboxTypes

open FixedType (shadowObject)

/-- The name that an error is about. -/
def HierarchyError.subject : HierarchyError → Name
  | duplicate name | extendsHostRoot name | missingSuperClass name | unexpectedSuperClass name
  | notSandbox name | notHost name | unknownType name | unknownParent name _ => name

namespace Hierarchy

/-- The declarations of a batch whose types are not there yet. -/
def newOf (hierarchy : Hierarchy) (batch : List Declaration) : List Declaration :=
  batch.filter fun declaration => !hierarchy.contains declaration.name

variable {hierarchy changed : Hierarchy} {declaration : Declaration} {batch : List Declaration}
  {p : Declaration → Bool}

/-! ## Types that are there -/

theorem insertIfNew_of_contains (present : hierarchy.contains declaration.name) :
    hierarchy.insertIfNew declaration = .ok (false, hierarchy) :=
  if_pos present

/-- A list is inserted as the list without the declarations of types that are there. -/
theorem insertEach_filter
    (present : ∀ declaration ∈ batch, p declaration = false →
      hierarchy.contains declaration.name) :
    hierarchy.insertEach (batch.filter p) = hierarchy.insertEach batch := by
  unfold insertEach
  induction batch generalizing hierarchy with
  | nil => rfl
  | cons first batch ih =>
      have hrest : ∀ declaration ∈ batch, p declaration = false →
          hierarchy.contains declaration.name := fun declaration hmem =>
        present declaration (List.mem_cons_of_mem _ hmem)
      rw [List.foldlM_cons]
      cases hp : p first with
      | false =>
          have hskipped := insertIfNew_of_contains (present first List.mem_cons_self hp)
          rw [List.filter_cons_of_neg (by simp [hp]), hskipped]
          exact ih hrest
      | true =>
          rw [List.filter_cons_of_pos hp, List.foldlM_cons]
          cases hfirst : hierarchy.insertIfNew first with
          | error error => rfl
          | ok answer =>
              refine ih fun declaration hmem hnot => ?_
              exact (insertIfNew_grows hfirst).1.contains (hrest declaration hmem hnot)

/-- Declarations of types that are there make no difference to the types that a round brings in. -/
theorem round_filter
    (present : ∀ declaration ∈ batch, p declaration = false →
      hierarchy.contains declaration.name) :
    hierarchy.round (batch.filter p) =
      (hierarchy.round batch).map fun next => (next.1.filter p, next.2) := by
  have hready : hierarchy.insertEach ((batch.filter p).filter hierarchy.holdsParents) =
      hierarchy.insertEach (batch.filter hierarchy.holdsParents) := by
    rw [List.filter_comm]
    exact insertEach_filter fun other hother => present other (List.mem_filter.1 hother).1
  rw [round, hready, List.filter_comm, round]
  cases hierarchy.insertEach (batch.filter hierarchy.holdsParents) with
  | error error => rfl
  | ok staged => rfl

theorem insertRounds_filter
    (present : ∀ declaration ∈ batch, p declaration = false →
      hierarchy.contains declaration.name) :
    hierarchy.insertRounds (batch.filter p) =
      (hierarchy.insertRounds batch).map fun next => (next.1.filter p, next.2) := by
  induction hierarchy, batch using rounds_induction with
  | halted hierarchy batch hstuck =>
      have hnone : (batch.filter p).filter hierarchy.holdsParents = [] := by
        rw [List.filter_comm, hstuck, List.filter_nil]
      rw [insertRounds_of_stuck hstuck, insertRounds_of_stuck hnone]
      rfl
  | refused hierarchy batch error hround =>
      rw [insertRounds_eq_bind, insertRounds_eq_bind, round_filter present, hround]
      rfl
  | granted hierarchy batch left staged hround ih =>
      rw [insertRounds_eq_bind, insertRounds_eq_bind, round_filter present, hround]
      obtain ⟨hstaged, rfl⟩ := round_eq_ok_iff.1 hround
      refine ih fun other hother hnot => ?_
      exact (insertEach_grows hstaged).1.contains (present other (List.mem_filter.1 hother).1 hnot)

theorem mem_newOf_iff : declaration ∈ hierarchy.newOf batch ↔
    declaration ∈ batch ∧ hierarchy.contains declaration.name = false := by
  simp [newOf]

/-- Without the declarations of types that are there, the batch comes to the same halt, and the
verdict is about what is left without these. -/
theorem insertMany_newOf_eq_bind (hierarchy : Hierarchy) (batch : List Declaration) :
    hierarchy.insertMany (hierarchy.newOf batch) =
      hierarchy.insertRounds batch >>= fun next =>
        next.2.verdict (hierarchy.newOf next.1) := by
  rw [insertMany_eq_bind, newOf, insertRounds_filter fun _ _ hnot => by simpa using hnot]
  cases hierarchy.insertRounds batch with
  | error error => rfl
  | ok next => rfl

/-- The answer is the same without the declarations of types that are there, unless one of these is
the first that is left. -/
theorem insertMany_eq_newOf_of_left
    (fresh : ∀ first rest halted, hierarchy.insertRounds batch = .ok (first :: rest, halted) →
      hierarchy.contains first.name = false) :
    hierarchy.insertMany batch = hierarchy.insertMany (hierarchy.newOf batch) := by
  rw [insertMany_eq_bind, insertMany_newOf_eq_bind]
  cases hrounds : hierarchy.insertRounds batch with
  | error error => rfl
  | ok next =>
      obtain ⟨left, halted⟩ := next
      cases left with
      | nil => rfl
      | cons first rest =>
          have hnew : hierarchy.newOf (first :: rest) = first :: hierarchy.newOf rest :=
            List.filter_cons_of_pos (by simp [fresh first rest halted hrounds])
          show halted.verdict (first :: rest) = halted.verdict (hierarchy.newOf (first :: rest))
          rw [hnew, verdict, verdict]

/-! ## Who is blamed -/

/-- What is wrong with a declaration is told under its name. -/
theorem subject_of_fault? {error : HierarchyError}
    (h : hierarchy.fault? declaration = some error) : error.subject = declaration.name := by
  unfold fault? at h
  split_ifs at h
  case neg =>
    obtain ⟨missing, -, rfl⟩ := Option.map_eq_some_iff.1 h
    rfl
  all_goals
    obtain rfl := Option.some.inj h
    rfl

theorem subject_blockedFault (hierarchy : Hierarchy) (declaration : Declaration) :
    (hierarchy.blockedFault declaration).subject = declaration.name := by
  rw [blockedFault]
  cases hfault : hierarchy.fault? declaration with
  | none => rfl
  | some error => exact subject_of_fault? hfault

/-- A batch is refused under the name of one of its declarations. -/
theorem exists_subject_of_insertMany_eq_error {error : HierarchyError}
    (h : hierarchy.insertMany batch = .error error) :
    ∃ declaration ∈ batch, declaration.name = error.subject := by
  rcases insertMany_eq_error_iff.1 h with hrounds | ⟨first, rest, halted, hrounds, rfl⟩
  · obtain ⟨staged, pending, hsubset, hround⟩ := exists_round_of_insertRounds_eq_error hrounds
    obtain ⟨declaration, hmem, middle, -, hfault⟩ :=
      exists_fault_of_insertEach_eq_error (map_eq_error_iff.1 hround)
    exact ⟨declaration, hsubset (List.mem_filter.1 hmem).1, (subject_of_fault? hfault).symm⟩
  · have hmem := ((insertRounds_halts hrounds).mem_left_iff.1 List.mem_cons_self).1
    exact ⟨first, hmem, (subject_blockedFault halted first).symm⟩

/-! ## Single declarations -/

/-- A batch of one new type is that type inserted by itself. -/
theorem insertMany_singleton_of_new (fresh : hierarchy.contains declaration.name = false) :
    hierarchy.insertMany [declaration] =
      (hierarchy.insertIfNew declaration).map Prod.snd := by
  cases hholds : hierarchy.holdsParents declaration with
  | false =>
      have hstuck : [declaration].filter hierarchy.holdsParents = [] := by simp [hholds]
      have hrefused : hierarchy.insertIfNew declaration =
          .error (hierarchy.blockedFault declaration) := by
        rw [insertIfNew, fresh, blockedFault_of_blocked hholds]
        rfl
      rw [insertMany_of_stuck hstuck, hrefused]
      rfl
  | true =>
      have hready : [declaration].filter hierarchy.holdsParents = [declaration] := by simp [hholds]
      have hnone : ([declaration].filter fun other => !hierarchy.holdsParents other) = [] := by
        simp [hholds]
      have hround : hierarchy.insertEach [declaration] =
          (hierarchy.insertIfNew declaration).map Prod.snd := by
        rw [insertEach, List.foldlM_cons]
        cases (hierarchy.insertIfNew declaration).map Prod.snd <;> rfl
      rw [insertMany_eq_bind_round, round, hready, hround, hnone]
      cases (hierarchy.insertIfNew declaration).map Prod.snd with
      | error error => rfl
      | ok changed => exact insertMany_nil changed

/-! ## The main statement -/

theorem insertMany_eq_ok_iff_newOf : hierarchy.insertMany batch = .ok changed ↔
    hierarchy.insertMany (hierarchy.newOf batch) = .ok changed ∧
      ∀ declaration ∈ batch, hierarchy.contains declaration.name →
        changed.holdsParents declaration := by
  rw [insertMany_eq_ok_iff, insertMany_newOf_eq_bind, bind_eq_ok_iff]
  constructor
  · intro hrounds
    refine ⟨⟨_, hrounds, rfl⟩, fun other hother _ => ?_⟩
    by_contra hlacks
    have hleft := (insertRounds_halts hrounds).mem_left_iff.2 ⟨hother, by simpa using hlacks⟩
    exact absurd hleft List.not_mem_nil
  · rintro ⟨⟨⟨left, halted⟩, hrounds, hverdict⟩, hheld⟩
    obtain ⟨hnone, rfl⟩ := verdict_eq_ok_iff.1 hverdict
    have hempty : left = [] := by
      refine List.eq_nil_iff_forall_not_mem.2 fun other hleft => ?_
      obtain ⟨hother, hlacks⟩ := (insertRounds_halts hrounds).mem_left_iff.1 hleft
      cases hcontains : hierarchy.contains other.name with
      | false =>
          have hnew := mem_newOf_iff.2 ⟨hleft, hcontains⟩
          rw [hnone] at hnew
          exact absurd hnew List.not_mem_nil
      | true =>
          rw [hheld other hother hcontains] at hlacks
          exact absurd hlacks (by simp)
    rw [hrounds, hempty]

theorem insertMany_eq_newOf_iff :
    hierarchy.insertMany batch = hierarchy.insertMany (hierarchy.newOf batch) ↔
      ∀ error, hierarchy.insertMany batch = .error error →
        hierarchy.contains error.subject = false := by
  constructor
  · intro hsame error h
    obtain ⟨declaration, hmem, hname⟩ := exists_subject_of_insertMany_eq_error (hsame ▸ h)
    exact hname ▸ (mem_newOf_iff.1 hmem).2
  · intro h
    refine insertMany_eq_newOf_of_left fun first rest halted hrounds => ?_
    have hrefused := insertMany_eq_error_iff.2 (Or.inr ⟨first, rest, halted, hrounds, rfl⟩)
    exact subject_blockedFault halted first ▸ h _ hrefused

theorem insertMany_eq_newOf_of_ready
    (ready : ∀ declaration ∈ batch, hierarchy.contains declaration.name →
      hierarchy.holdsParents declaration) :
    hierarchy.insertMany batch = hierarchy.insertMany (hierarchy.newOf batch) := by
  refine insertMany_eq_newOf_of_left fun first rest halted hrounds => ?_
  have halts := insertRounds_halts hrounds
  obtain ⟨hmem, hlacks⟩ := halts.mem_left_iff.1 List.mem_cons_self
  by_contra hcontains
  -- parents that are there from the start are there in the halt
  have hholds := ready first hmem (by simpa using hcontains)
  rw [halts.grown.holdsParents hholds] at hlacks
  exact absurd hlacks (by simp)

/-- A batch is granted as it is without the declarations of types that are there, provided that
each of these has its parents in the end.  The answer is the same, the cause of a refusal included,
unless the batch is refused for one of these; where their parents are there from the start, that
does not happen.  A batch of a single declaration is treated as that declaration by itself, unless
its type is there and a parent is not. -/
theorem insertMany_newOf (hierarchy : Hierarchy) (batch : List Declaration) :
    (∀ changed, hierarchy.insertMany batch = .ok changed ↔
      hierarchy.insertMany (hierarchy.newOf batch) = .ok changed ∧
        ∀ declaration ∈ batch, hierarchy.contains declaration.name →
          changed.holdsParents declaration) ∧
    (hierarchy.insertMany batch = hierarchy.insertMany (hierarchy.newOf batch) ↔
      ∀ error, hierarchy.insertMany batch = .error error →
        hierarchy.contains error.subject = false) ∧
    ((∀ declaration ∈ batch, hierarchy.contains declaration.name →
        hierarchy.holdsParents declaration) →
      hierarchy.insertMany batch = hierarchy.insertMany (hierarchy.newOf batch)) ∧
    ∀ declaration, hierarchy.insertMany [declaration] =
        (hierarchy.insertIfNew declaration).map Prod.snd ↔
      (hierarchy.contains declaration.name → hierarchy.holdsParents declaration) := by
  refine ⟨fun changed => insertMany_eq_ok_iff_newOf, insertMany_eq_newOf_iff,
    insertMany_eq_newOf_of_ready, fun declaration => ?_⟩
  cases hcontains : hierarchy.contains declaration.name with
  | false => simp [insertMany_singleton_of_new hcontains]
  | true =>
      have hskipped : (hierarchy.insertIfNew declaration).map Prod.snd = .ok hierarchy := by
        rw [insertIfNew_of_contains hcontains]
        rfl
      have hnone : hierarchy.newOf [declaration] = [] := by simp [newOf, hcontains]
      rw [hskipped, insertMany_eq_ok_iff_newOf, hnone]
      simp [hcontains]

/-- A circle that is there is declared once more, below a figure that is new. -/
def redrawn : List Declaration :=
  [.sandboxClass "user.Circle" "user.Figure" [],
    .sandboxClass "user.Figure" shadowObject.name ["user.Drawn"]]

theorem redrawn_insertMany_newOf :
    (initial.run crossing).newOf redrawn = redrawn.drop 1 ∧
    (∃ changed, (initial.run crossing).insertMany (redrawn.drop 1) = .ok changed ∧
      (initial.run crossing).insertMany redrawn = .ok changed) ∧
    (initial.run crossing).insertMany [.sandboxClass "user.Circle" "user.Square" []] =
      .ok (initial.run crossing) := by
  have hnew : (initial.run crossing).newOf redrawn = redrawn.drop 1 := by decide +kernel
  have hgranted : ∃ changed, (initial.run crossing).insertMany (redrawn.drop 1) = .ok changed ∧
      ∀ declaration ∈ redrawn, (initial.run crossing).contains declaration.name →
        changed.holdsParents declaration := by
    refine ⟨(initial.run crossing).add (.sandboxClass "user.Figure" shadowObject.name
      ["user.Drawn"]), ?_, ?_⟩ <;> decide +kernel
  obtain ⟨changed, hchanged, hheld⟩ := hgranted
  have hbatch := ((initial.run crossing).insertMany_newOf redrawn).1 changed
  rw [hnew] at hbatch
  have hsingle := ((initial.run crossing).insertMany_newOf []).2.2.2
    (.sandboxClass "user.Circle" "user.Square" [])
  have hready : (initial.run crossing).contains "user.Circle" →
      (initial.run crossing).holdsParents (.sandboxClass "user.Circle" "user.Square" []) := by
    decide +kernel
  have hskipped : ((initial.run crossing).insertIfNew
      (.sandboxClass "user.Circle" "user.Square" [])).map Prod.snd =
        .ok (initial.run crossing) := by
    decide +kernel
  exact ⟨hnew, ⟨changed, hchanged, hbatch.2 ⟨hchanged, hheld⟩⟩, (hsingle.2 hready).trans hskipped⟩

/-- Without the figure the batch is refused for the circle, which is skipped by itself. -/
theorem redrawn_insertMany_ne :
    Reachable (initial.run crossing) ∧ (initial.run crossing).contains "user.Circle" ∧
    (initial.run crossing).insertIfNew (.sandboxClass "user.Circle" "user.Figure" []) =
      .ok (false, initial.run crossing) ∧
    (initial.run crossing).newOf (redrawn.take 1) = [] ∧
    (initial.run crossing).insertMany [] = .ok (initial.run crossing) ∧
    (initial.run crossing).insertMany (redrawn.take 1) =
      .error (.unknownParent "user.Circle" "user.Figure") := by
  refine ⟨Reachable.initial.run crossing, ?_⟩
  decide +kernel

end Hierarchy

end SandboxTypes
