import Mathlib.Logic.Relation
import SandboxTypes.Walk

/-!
# What a walk sees

A walk sees what it has seen before, and what can be reached from the names of
its stack (`mem_walk_iff`).

It is sound whatever the stack and the seen names are (`walk_sound`).  That it misses
nothing rests on an invariant: all that comes next after a name that is seen is
seen as well, or is on the stack (`Frontier`).  At the end the stack is empty, and
the seen names are closed (`walk_complete`).

Walks that go on one from the other see together what can be reached from any of
the starts, in whichever order these are taken (`mem_walkEach_iff`).
-/

namespace SandboxTypes

/-- A name can be reached from another along `next`. -/
abbrev LeadsTo (next : Name → List Name) : Name → Name → Prop :=
  Relation.ReflTransGen fun name after => after ∈ next name

/-- All that comes next after a seen name is seen as well, or is on the stack. -/
def Frontier (next : Name → List Name) (stack seen : List Name) : Prop :=
  ∀ name ∈ seen, ∀ after ∈ next name, after ∈ seen ∨ after ∈ stack

variable {nodes stack seen starts : List Name} {next : Name → List Name} {name start after : Name}

/-! ## One walk -/

theorem walk_sound (h : name ∈ walk nodes next stack seen) :
    name ∈ seen ∨ ∃ start ∈ stack, LeadsTo next start name := by
  induction stack, seen using walk.induct nodes next with
  | case1 seen =>
      rw [walk] at h
      exact Or.inl h
  | case2 seen top stack hvisit ih =>
      rw [walk, if_pos hvisit] at h
      rcases ih h with hseen | ⟨start, hstart, hlead⟩
      · rcases List.mem_cons.1 hseen with rfl | hseen
        · exact Or.inr ⟨name, List.mem_cons_self, .refl⟩
        · exact Or.inl hseen
      · rcases List.mem_append.1 hstart with hpushed | hstart
        · have hafter : start ∈ next top := (List.mem_filter.1 hpushed).1
          exact Or.inr ⟨top, List.mem_cons_self, .head hafter hlead⟩
        · exact Or.inr ⟨start, List.mem_cons_of_mem _ hstart, hlead⟩
  | case3 seen top stack hskip ih =>
      rw [walk, if_neg hskip] at h
      rcases ih h with hseen | ⟨start, hstart, hlead⟩
      · exact Or.inl hseen
      · exact Or.inr ⟨start, List.mem_cons_of_mem _ hstart, hlead⟩

theorem frontier_nil : Frontier next stack [] :=
  fun _ hname => absurd hname List.not_mem_nil

/-- A visit moves the top name to the seen ones, and what comes next after it to the stack. -/
theorem Frontier.visit (frontier : Frontier next (name :: stack) seen) :
    Frontier next ((next name).filter (· ∉ name :: seen) ++ stack) (name :: seen) := by
  intro other hother after hafter
  by_cases hseen : after ∈ name :: seen
  · exact Or.inl hseen
  refine Or.inr (List.mem_append.2 ?_)
  rcases List.mem_cons.1 hother with rfl | hother
  · exact Or.inl (List.mem_filter.2 ⟨hafter, decide_eq_true hseen⟩)
  · rcases frontier other hother after hafter with hold | hstack
    · exact absurd (List.mem_cons_of_mem _ hold) hseen
    · refine Or.inr ((List.mem_cons.1 hstack).resolve_left fun heq => hseen ?_)
      exact heq ▸ List.mem_cons_self

theorem Frontier.skip (frontier : Frontier next (name :: stack) seen) (hseen : name ∈ seen) :
    Frontier next stack seen := by
  intro other hother after hafter
  rcases frontier other hother after hafter with hold | hstack
  · exact Or.inl hold
  · rcases List.mem_cons.1 hstack with rfl | hstack
    · exact Or.inl hseen
    · exact Or.inr hstack

theorem Frontier.of_closed (closed : Frontier next [] seen) : Frontier next stack seen := by
  intro other hother after hafter
  exact Or.inl ((closed other hother after hafter).resolve_right List.not_mem_nil)

theorem Frontier.leadsTo_mem (closed : Frontier next [] seen) (hstart : start ∈ seen)
    (hlead : LeadsTo next start name) : name ∈ seen := by
  induction hlead with
  | refl => exact hstart
  | tail _ hafter ih => exact (closed _ ih _ hafter).resolve_right List.not_mem_nil

section Complete

variable (hnext : ∀ node ∈ nodes, ∀ after ∈ next node, after ∈ nodes)

include hnext

theorem walk_complete (hstack : ∀ name ∈ stack, name ∈ nodes)
    (frontier : Frontier next stack seen) :
    (∀ name, name ∈ seen ∨ name ∈ stack → name ∈ walk nodes next stack seen) ∧
      Frontier next [] (walk nodes next stack seen) := by
  induction stack, seen using walk.induct nodes next with
  | case1 seen =>
      rw [walk]
      exact ⟨fun name h => h.resolve_right List.not_mem_nil, frontier⟩
  | case2 seen top stack hvisit ih =>
      rw [walk, if_pos hvisit]
      have hpushed : ∀ name ∈ (next top).filter (· ∉ top :: seen) ++ stack, name ∈ nodes := by
        intro name hname
        rcases List.mem_append.1 hname with hafter | hname
        · exact hnext top hvisit.1 name (List.mem_filter.1 hafter).1
        · exact hstack name (List.mem_cons_of_mem _ hname)
      obtain ⟨hkept, hclosed⟩ := ih hpushed frontier.visit
      refine ⟨fun name h => hkept name ?_, hclosed⟩
      rcases h with hseen | hname
      · exact Or.inl (List.mem_cons_of_mem _ hseen)
      · rcases List.mem_cons.1 hname with rfl | hname
        · exact Or.inl List.mem_cons_self
        · exact Or.inr (List.mem_append_right _ hname)
  | case3 seen top stack hskip ih =>
      rw [walk, if_neg hskip]
      -- the top name is a node, so it is skipped because it is seen already
      have htop : top ∈ seen := Decidable.byContradiction fun hfresh =>
        hskip ⟨hstack top List.mem_cons_self, hfresh⟩
      obtain ⟨hkept, hclosed⟩ :=
        ih (fun name hname => hstack name (List.mem_cons_of_mem _ hname)) (frontier.skip htop)
      refine ⟨fun name h => hkept name ?_, hclosed⟩
      rcases h with hseen | hname
      · exact Or.inl hseen
      · rcases List.mem_cons.1 hname with rfl | hname
        · exact Or.inl htop
        · exact Or.inr hname

/-- From names that are closed, a walk goes on to all that can be reached from its stack. -/
theorem mem_walk_iff (hstack : ∀ name ∈ stack, name ∈ nodes) (closed : Frontier next [] seen) :
    name ∈ walk nodes next stack seen ↔
      name ∈ seen ∨ ∃ start ∈ stack, LeadsTo next start name := by
  obtain ⟨hkept, hclosed⟩ := walk_complete hnext hstack closed.of_closed
  constructor
  · exact walk_sound
  · rintro (hseen | ⟨start, hstart, hlead⟩)
    · exact hkept name (Or.inl hseen)
    · exact hclosed.leadsTo_mem (hkept start (Or.inr hstart)) hlead

/-! ## One walk after the other -/

theorem mem_foldl_walk_iff (hstarts : ∀ name ∈ starts, name ∈ nodes)
    (closed : Frontier next [] seen) :
    name ∈ starts.foldl (fun seen start => walk nodes next [start] seen) seen ↔
      name ∈ seen ∨ ∃ start ∈ starts, LeadsTo next start name := by
  induction starts generalizing seen with
  | nil => simp
  | cons first starts ih =>
      have hfirst : ∀ name ∈ [first], name ∈ nodes := by
        intro name hname
        rw [List.mem_singleton.1 hname]
        exact hstarts first List.mem_cons_self
      have hclosed := (walk_complete hnext hfirst closed.of_closed).2
      have hrest : ∀ name ∈ starts, name ∈ nodes := fun name hname =>
        hstarts name (List.mem_cons_of_mem _ hname)
      rw [List.foldl_cons, ih hrest hclosed, mem_walk_iff hnext hfirst closed]
      simp [or_assoc]

theorem mem_walkEach_iff (hstarts : ∀ name ∈ starts, name ∈ nodes) :
    name ∈ walkEach nodes next starts ↔ ∃ start ∈ starts, LeadsTo next start name := by
  rw [walkEach, mem_foldl_walk_iff hnext hstarts frontier_nil]
  simp

end Complete

end SandboxTypes
