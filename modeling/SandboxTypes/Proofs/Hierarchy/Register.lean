import Mathlib.Data.List.Dedup
import SandboxTypes.Proofs.Hierarchy.Batch
import SandboxTypes.Proofs.Hierarchy.InPlace

/-!
# The register of host declarations

A contract class enters a hierarchy under its sandbox name, and its host declaration
enters the register under the host name.  That the sandbox name is new is checked, that
the host name is new is not.  So the register is compared with all host declarations that
have been admitted in the course of time, which a `Chronicle` keeps: of each host name
the register has the latest one (`Registers.latest`), and no other.

`Registers` is the invariant.  It is kept where a host declaration is recorded
(`Registers.recordHost`), and no other step of any insertion looks at the register
(`hostDeclarations_of_perform`).
-/

namespace SandboxTypes

open FixedType (hostObject shadowObject)

/-- The host declaration that a request gives. -/
def Insertion.host? : Insertion → Option Declaration
  | contractClass host _ => some host
  | single _ | ifNew _ | batch _ => none

namespace Hierarchy

/-- What a caller holds after some requests that were served in place, with the host declarations
of the contract classes that have been admitted so far, the latest first.  A request that is
refused admits none, and whatever it has left is held from then on. -/
inductive Chronicle : Hierarchy → List Declaration → Prop where
  | initial : Chronicle initial []
  | built {seed : Seed} {hierarchy : Hierarchy} (h : build seed = .ok hierarchy) :
      Chronicle hierarchy (seed.contractClasses.map Prod.fst).reverse
  | granted {held changed : Hierarchy} {hosts : List Declaration} {insertion : Insertion}
      (before : Chronicle held hosts) (h : insertion.change.run held = .ok () changed) :
      Chronicle changed (insertion.host?.toList ++ hosts)
  | refused {held left : Hierarchy} {hosts : List Declaration} {insertion : Insertion}
      {error : HierarchyError} (before : Chronicle held hosts)
      (h : insertion.change.run held = .error error left) : Chronicle left hosts

/-- The register has the latest of some host declarations, listed with the latest first, under each
host name. -/
structure Registers (hierarchy : Hierarchy) (hosts : List Declaration) : Prop where
  nodup : (hierarchy.hostDeclarations.map Declaration.name).Nodup
  latest : ∀ name, hierarchy.hostDeclaration? name = hosts.find? (·.name = name)

variable {hierarchy held changed left : Hierarchy} {declaration host sandbox : Declaration}
  {hosts batch : List Declaration} {insertion : Insertion} {name : Name}

/-! ## Requests in place -/

theorem change_eq_ok_iff (wf : WellFormed held) :
    insertion.change.run held = .ok () changed ↔ held.perform insertion = .ok changed := by
  rw [insertion.change_run wf]
  cases held.perform insertion with
  | error error => simp [Except.map, Change.settle]
  | ok result => simp [Except.map, Change.settle]

theorem change_eq_error_iff (wf : WellFormed held) {error : HierarchyError} :
    insertion.change.run held = .error error left ↔
      held.perform insertion = .error error ∧ left = held := by
  rw [insertion.change_run wf]
  cases held.perform insertion with
  | error cause => simp [Except.map, Change.settle, eq_comm]
  | ok result => simp [Except.map, Change.settle]

/-- A chronicle can be told of every hierarchy that callers can come to hold, and of no other. -/
theorem reachable_iff_chronicle : Reachable hierarchy ↔ ∃ hosts, Chronicle hierarchy hosts := by
  constructor
  · intro reachable
    induction reachable with
    | initial => exact ⟨_, .initial⟩
    | built h => exact ⟨_, .built h⟩
    | @after held reachable insertion ih =>
        obtain ⟨hosts, before⟩ := ih
        have wf := reachable.wellFormed
        cases hperform : held.perform insertion with
        | ok changed =>
            rw [after_of_perform_ok hperform]
            exact ⟨_, .granted before ((change_eq_ok_iff wf).2 hperform)⟩
        | error error =>
            rw [after_of_perform_error hperform]
            exact ⟨_, .refused before ((change_eq_error_iff wf).2 ⟨hperform, rfl⟩)⟩
  · rintro ⟨hosts, chronicle⟩
    induction chronicle with
    | initial => exact .initial
    | built h => exact .built h
    | @granted held changed hosts insertion _ h ih =>
        rw [change_eq_ok_iff ih.wellFormed] at h
        exact after_of_perform_ok h ▸ ih.after insertion
    | refused _ h ih =>
        rw [change_eq_error_iff ih.wellFormed] at h
        exact h.2 ▸ ih

theorem Chronicle.wellFormed (chronicle : Chronicle held hosts) : WellFormed held :=
  (reachable_iff_chronicle.2 ⟨hosts, chronicle⟩).wellFormed

/-! ## What touches the register -/

theorem hostDeclarations_of_insertIfNew {inserted : Bool}
    (h : hierarchy.insertIfNew declaration = .ok (inserted, changed)) :
    changed.hostDeclarations = hierarchy.hostDeclarations := by
  unfold insertIfNew at h
  split at h
  case isTrue =>
    obtain ⟨-, rfl⟩ := Prod.mk.inj (Except.ok.inj h)
    rfl
  case isFalse =>
    cases hfault : hierarchy.fault? declaration with
    | some error => simp [hfault] at h
    | none =>
        rw [hfault] at h
        obtain ⟨-, rfl⟩ := Prod.mk.inj (Except.ok.inj h)
        rfl

theorem hostDeclarations_of_insertEach (h : hierarchy.insertEach batch = .ok changed) :
    changed.hostDeclarations = hierarchy.hostDeclarations := by
  unfold insertEach at h
  induction batch generalizing hierarchy with
  | nil =>
      obtain rfl := Except.ok.inj h
      rfl
  | cons first batch ih =>
      obtain ⟨middle, hfirst, hrest⟩ := bind_eq_ok_iff.1 h
      obtain ⟨⟨inserted, result⟩, hinserted, rfl⟩ := map_eq_ok_iff.1 hfirst
      rw [ih hrest, hostDeclarations_of_insertIfNew hinserted]

theorem hostDeclarations_of_insertMany (h : hierarchy.insertMany batch = .ok changed) :
    changed.hostDeclarations = hierarchy.hostDeclarations := by
  obtain ⟨order, -, hgranted⟩ := exists_order_of_insertMany h
  exact hostDeclarations_of_insertEach hgranted

theorem hostDeclarations_of_insertContractClass
    (h : hierarchy.insertContractClass host sandbox = .ok changed) :
    changed.hostDeclarations = (hierarchy.recordHost host).hostDeclarations := by
  unfold insertContractClass at h
  split at h
  case isTrue => exact absurd h (by simp)
  case isFalse =>
    obtain ⟨inserted, hinserted, rfl⟩ := map_eq_ok_iff.1 h
    obtain ⟨-, -, rfl⟩ := insert_eq_ok_iff.1 hinserted
    rfl

/-- A request that is granted records the host declaration it gives, and touches the register no
further. -/
theorem hostDeclarations_of_perform (h : held.perform insertion = .ok changed) :
    changed.hostDeclarations = (insertion.host?.elim held held.recordHost).hostDeclarations := by
  cases insertion with
  | single declaration =>
      obtain ⟨-, -, rfl⟩ := insert_eq_ok_iff.1 h
      rfl
  | ifNew declaration =>
      obtain ⟨⟨inserted, result⟩, hinserted, rfl⟩ := map_eq_ok_iff.1 h
      exact hostDeclarations_of_insertIfNew hinserted
  | batch declarations => exact hostDeclarations_of_insertMany h
  | contractClass host sandbox => exact hostDeclarations_of_insertContractClass h

theorem hostDeclaration?_congr {other : Hierarchy}
    (h : hierarchy.hostDeclarations = other.hostDeclarations) (name : Name) :
    hierarchy.hostDeclaration? name = other.hostDeclaration? name := by
  rw [hostDeclaration?, h, hostDeclaration?]

theorem hostDeclaration?_recordHost (hierarchy : Hierarchy) (host : Declaration) (name : Name) :
    (hierarchy.recordHost host).hostDeclaration? name =
      if host.name = name then some host else hierarchy.hostDeclaration? name := by
  rw [hostDeclaration?, recordHost]
  split
  case isTrue hname => rw [List.find?_cons_of_pos (by simp [hname])]
  case isFalse hname =>
    rw [List.find?_cons_of_neg (by simp [hname]), List.find?_filter, hostDeclaration?]
    -- the declarations that are dropped have another name than the one that is looked up
    refine congrArg (hierarchy.hostDeclarations.find? ·) (funext fun other => ?_)
    by_cases hother : other.name = name
    · simp [hother, Ne.symm hname]
    · simp [hother]

/-! ## The latest of each name -/

theorem mem_names_iff_find? {declarations : List Declaration} :
    name ∈ declarations.map Declaration.name ↔
      (declarations.find? (·.name = name)).isSome := by
  simp [List.find?_isSome]

theorem find?_eq_some_of_mem {declarations : List Declaration}
    (distinct : (declarations.map Declaration.name).Nodup) (hmem : declaration ∈ declarations) :
    declarations.find? (·.name = declaration.name) = some declaration := by
  have hfound := mem_names_iff_find?.1 (List.mem_map_of_mem hmem)
  obtain ⟨other, hother⟩ := Option.isSome_iff_exists.1 hfound
  have hname : other.name = declaration.name := by simpa using List.find?_some hother
  rw [hother, List.inj_on_of_nodup_map distinct (List.mem_of_find?_eq_some hother) hmem hname]

namespace Registers

theorem congr {other : Hierarchy} (registers : Registers hierarchy hosts)
    (h : other.hostDeclarations = hierarchy.hostDeclarations) : Registers other hosts where
  nodup := h ▸ registers.nodup
  latest name := (hostDeclaration?_congr h name).trans (registers.latest name)

theorem recordHost (registers : Registers hierarchy hosts) (host : Declaration) :
    Registers (hierarchy.recordHost host) (host :: hosts) where
  nodup := by
    rw [Hierarchy.recordHost, List.map_cons, List.nodup_cons]
    refine ⟨fun hmem => ?_, (List.filter_sublist.map _).nodup registers.nodup⟩
    obtain ⟨other, hother, hname⟩ := List.mem_map.1 hmem
    simp [hname] at hother
  latest name := by
    rw [hostDeclaration?_recordHost, registers.latest]
    by_cases hname : host.name = name
    · rw [if_pos hname, List.find?_cons_of_pos (by simp [hname])]
    · rw [if_neg hname, List.find?_cons_of_neg (by simp [hname])]

theorem insertContractClasses {classes : List (Declaration × Declaration)}
    (registers : Registers hierarchy hosts)
    (h : hierarchy.insertContractClasses classes = .ok changed) :
    Registers changed ((classes.map Prod.fst).reverse ++ hosts) := by
  unfold Hierarchy.insertContractClasses at h
  induction classes generalizing hierarchy hosts with
  | nil =>
      obtain rfl := Except.ok.inj h
      exact registers
  | cons pair classes ih =>
      obtain ⟨middle, hfirst, hrest⟩ := bind_eq_ok_iff.1 h
      have hmiddle := (registers.recordHost pair.1).congr
        (hostDeclarations_of_insertContractClass hfirst)
      simpa using ih hmiddle hrest

theorem build {seed : Seed} (h : build seed = .ok hierarchy) :
    Registers hierarchy (seed.contractClasses.map Prod.fst).reverse := by
  obtain ⟨library, hlibrary, h⟩ := bind_eq_ok_iff.1 h
  obtain ⟨arrays, harrays, h⟩ := bind_eq_ok_iff.1 h
  obtain ⟨extended, hextended, h⟩ := bind_eq_ok_iff.1 h
  have hnone : extended.hostDeclarations = Hierarchy.initial.hostDeclarations := by
    rw [hostDeclarations_of_insertMany hextended, hostDeclarations_of_insertMany harrays,
      hostDeclarations_of_insertMany hlibrary]
  have hinitial : Registers Hierarchy.initial [] := ⟨List.nodup_nil, fun _ => rfl⟩
  simpa using (hinitial.congr hnone).insertContractClasses h

theorem perform (registers : Registers held hosts) (h : held.perform insertion = .ok changed) :
    Registers changed (insertion.host?.toList ++ hosts) := by
  have hchanged := hostDeclarations_of_perform h
  cases hhost : insertion.host? with
  | none =>
      rw [hhost] at hchanged
      exact registers.congr hchanged
  | some host =>
      rw [hhost] at hchanged
      exact (registers.recordHost host).congr hchanged

/-- Each host name is listed once. -/
theorem hostSize_eq (registers : Registers hierarchy hosts) :
    hierarchy.hostSize = (hosts.map Declaration.name).dedup.length := by
  have hmem : ∀ name, name ∈ hierarchy.hostDeclarations.map Declaration.name ↔
      name ∈ (hosts.map Declaration.name).dedup := by
    intro name
    have hlatest := registers.latest name
    rw [hostDeclaration?] at hlatest
    rw [List.mem_dedup, mem_names_iff_find?, mem_names_iff_find?, hlatest]
  have hperm := (List.perm_ext_iff_of_nodup registers.nodup (List.nodup_dedup _)).2 hmem
  rw [← hperm.length_eq, List.length_map, hostSize]

/-- Nothing is lost exactly if the host declarations have different names. -/
theorem keeps_all_iff (registers : Registers hierarchy hosts) :
    ((∀ host ∈ hosts, hierarchy.hostDeclaration? host.name = some host) ∧
      hierarchy.hostSize = hosts.length) ↔ (hosts.map Declaration.name).Nodup := by
  have hlength : (hosts.map Declaration.name).length = hosts.length := List.length_map _
  rw [registers.hostSize_eq]
  constructor
  · rintro ⟨-, hsize⟩
    have hsame := (List.dedup_sublist (hosts.map Declaration.name)).eq_of_length
      (hsize.trans hlength.symm)
    exact List.dedup_eq_self.1 hsame
  · intro distinct
    refine ⟨fun host hmem => ?_, ?_⟩
    · rw [registers.latest, find?_eq_some_of_mem distinct hmem]
    · rw [List.dedup_eq_self.2 distinct, hlength]

end Registers

theorem Chronicle.registers (chronicle : Chronicle held hosts) : Registers held hosts := by
  induction chronicle with
  | initial => exact ⟨List.nodup_nil, fun _ => rfl⟩
  | built h => exact .build h
  | granted before h ih => exact ih.perform ((change_eq_ok_iff before.wellFormed).1 h)
  | refused before h ih =>
      obtain ⟨-, rfl⟩ := (change_eq_error_iff before.wellFormed).1 h
      exact ih

/-! ## The main statement -/

/-- The host declaration under a name after a request that is granted: the one it gives, or else the
one that was there. -/
theorem hostDeclaration?_of_perform (h : held.perform insertion = .ok changed) (name : Name) :
    changed.hostDeclaration? name =
      (insertion.host?.filter fun host => host.name = name).or (held.hostDeclaration? name) := by
  rw [hostDeclaration?_congr (hostDeclarations_of_perform h)]
  cases insertion.host? with
  | none => rfl
  | some host =>
      rw [Option.elim_some, hostDeclaration?_recordHost]
      by_cases hname : host.name = name
      · simp [Option.filter, hname]
      · simp [Option.filter, hname]

/-- A contract class that is admitted is found under its host name.  Later requests leave its host
declaration as it is, granted or refused, until a contract class of the same host name is admitted.
So the register has the latest host declaration of each name, and as many as there are different
names; it has lost none exactly if all host names are different. -/
theorem Chronicle.keeps_latest (chronicle : Chronicle held hosts) :
    (∀ host sandbox changed, (Insertion.contractClass host sandbox).change.run held =
      .ok () changed → changed.hostDeclaration? host.name = some host) ∧
    (∀ (insertion : Insertion) name, match insertion.change.run held with
      | .error _ left => left.hostDeclaration? name = held.hostDeclaration? name
      | .ok _ changed => changed.hostDeclaration? name =
          (insertion.host?.filter fun host => host.name = name).or
            (held.hostDeclaration? name)) ∧
    (∀ name, held.hostDeclaration? name = hosts.find? (·.name = name)) ∧
    held.hostSize = (hosts.map Declaration.name).dedup.length ∧
    (((∀ host ∈ hosts, held.hostDeclaration? host.name = some host) ∧
      held.hostSize = hosts.length) ↔ (hosts.map Declaration.name).Nodup) := by
  have wf := chronicle.wellFormed
  have registers := chronicle.registers
  refine ⟨fun host sandbox changed h => ?_, fun insertion name => ?_, registers.latest,
    registers.hostSize_eq, registers.keeps_all_iff⟩
  · rw [hostDeclaration?_of_perform ((change_eq_ok_iff wf).1 h)]
    simp [Insertion.host?]
  · cases h : insertion.change.run held with
    | error error left =>
        obtain ⟨-, rfl⟩ := (change_eq_error_iff wf).1 h
        rfl
    | ok answer changed => exact hostDeclaration?_of_perform ((change_eq_ok_iff wf).1 h) name

/-- A request that is granted is told in the chronicle, without its run in place. -/
theorem Chronicle.of_perform (before : Chronicle held hosts)
    (h : held.perform insertion = .ok changed) :
    Chronicle changed (insertion.host?.toList ++ hosts) :=
  .granted before ((change_eq_ok_iff before.wellFormed).2 h)

/-- A contract class, as the host has it. -/
def tokenClass : Declaration := ⟨"com.example.Token", false, some hostObject.name, ∅, .host⟩

/-- An interface of the same host name. -/
def tokenInterface : Declaration := ⟨"com.example.Token", true, none, ∅, .host⟩

def coinClass : Declaration := ⟨"com.example.Coin", false, some tokenClass.name, ∅, .host⟩

def tokenSandboxClass : Declaration :=
  .sandboxClass "user.com.example.Token" shadowObject.name []

/-- A seed with one contract class. -/
def marketSeed : Seed :=
  { Seed.minimal with contractClasses := [(tokenClass, tokenSandboxClass)] }

def admitCoin : Insertion :=
  .contractClass coinClass (.sandboxClass "user.com.example.Coin" tokenSandboxClass.name [])

/-- A class of the seed and one that comes later are both kept. -/
theorem market_keeps_latest : ∃ start held, build marketSeed = .ok start ∧
    start.perform admitCoin = .ok held ∧ Chronicle held [coinClass, tokenClass] ∧
    held.hostDeclaration? "com.example.Coin" = some coinClass ∧
    held.hostDeclaration? "com.example.Token" = some tokenClass ∧ held.hostSize = 2 := by
  have hgranted : (build marketSeed >>= (·.perform admitCoin)).toOption.isSome := by
    decide +kernel
  cases hrun : build marketSeed >>= (·.perform admitCoin) with
  | error error =>
      rw [hrun] at hgranted
      exact absurd hgranted (by simp [Except.toOption])
  | ok held =>
      obtain ⟨start, hstart, hperform⟩ := bind_eq_ok_iff.1 hrun
      have chronicle : Chronicle held [coinClass, tokenClass] :=
        (Chronicle.built hstart).of_perform hperform
      obtain ⟨hkept, hsize⟩ := chronicle.keeps_latest.2.2.2.2.2 (by decide)
      exact ⟨start, held, hstart, hperform, chronicle, hkept coinClass (by decide),
        hkept tokenClass (by decide), hsize⟩

/-- The class is admitted in release mode, and the interface in debug mode, where it keeps its
name. -/
def admitTokens : List Insertion :=
  [.contractClass tokenClass tokenSandboxClass,
    .contractClass tokenInterface (.sandboxInterface "com.example.Token" [])]

/-- Two contract types of one host name are both admitted, and the register has the later one. -/
theorem admitTokens_not_keeps_all :
    Chronicle (initial.run admitTokens) [tokenInterface, tokenClass] ∧
    (initial.run (admitTokens.take 1)).hostDeclaration? "com.example.Token" = some tokenClass ∧
    (initial.run admitTokens).hostDeclaration? "com.example.Token" = some tokenInterface ∧
    (initial.run admitTokens).hostClassNames = ∅ ∧
    (initial.run admitTokens).size = initial.size + 2 ∧
    (initial.run admitTokens).hostSize = 1 := by
  have hclass : initial.perform (.contractClass tokenClass tokenSandboxClass) =
      .ok (initial.run (admitTokens.take 1)) := by
    decide +kernel
  have hinterface : (initial.run (admitTokens.take 1)).perform
      (.contractClass tokenInterface (.sandboxInterface "com.example.Token" [])) =
        .ok (initial.run admitTokens) := by
    decide +kernel
  refine ⟨(Chronicle.initial.of_perform hclass).of_perform hinterface, ?_⟩
  decide +kernel

end Hierarchy

end SandboxTypes
