import SandboxTypes.Proofs.Renamer.RoundTrip
import SandboxTypes.Proofs.Sandbox.Operands

/-!
# Merging names of the host

Which world a name is meant in is told by its text.  A name that the hierarchy holds
is a sandbox name.  So is one with the mark of a zone whose names have host names
(`looksRenamed`), held or not, although host packages may be called `s` or `user`.
Only the others are left to the host (`LeftToHost`), and only these does the renamer
turn into sandbox names before they are merged (`mergeClasses_of_leftToHost`).

Contract classes are therefore merged as the hierarchy says they should be unless one
of their names has such a mark; then it is reported as an unknown type.
-/

namespace SandboxTypes

open FixedType (hostObject iObject shadowObject hostThrowable)

/-! ## Names that are read as renamed -/

/-- The zones whose names have host names. -/
def hostZones : List Zone := [.user, .shadow, .api, .exception]

/-- Checks if a name starts as the sandbox names of host types do. -/
def looksRenamed (name : Name) : Bool := hostZones.any (·.covers name)

theorem looksRenamed_iff {name : Name} :
    looksRenamed name ↔ ∃ zone ∈ hostZones, ∃ host, name = zone.qualify host := by
  simp [looksRenamed, Zone.covers, Option.isSome_iff_exists, Zone.unqualify?_eq_some_iff]

theorem arrayReadings_of_plain {name : Name} (plain : isArrayShaped name = false) :
    ArrayType.opensDescriptor name = false ∧ Wrapper.ofName? name = none ∧
      ArrayBase.ofName? name = none := by
  simpa [isArrayShaped, Wrapper.isName, and_assoc] using plain

namespace Renamer

variable {renamer : Renamer} {name host : Name}

theorem hostClassName_eq_ok_iff (release : renamer.debug = false) :
    renamer.hostClassName name = .ok host ↔
      ∃ zone ∈ renamer.classZones, name = zone.qualify host := by
  constructor
  · intro h
    rw [hostClassName, keepsName_of_release release] at h
    cases hfound : renamer.classZones.findSome? (·.unqualify? name) with
    | none =>
        rw [hfound] at h
        cases hinternal : Zone.internal.covers name <;> simp [hinternal] at h
    | some found =>
        rw [hfound] at h
        obtain rfl : found = host := Except.ok.inj h
        obtain ⟨zone, hzone, hname⟩ := List.exists_of_findSome?_eq_some hfound
        exact ⟨zone, hzone, Zone.unqualify?_eq_some_iff.1 hname⟩
  · rintro ⟨zone, hzone, rfl⟩
    exact hostClassName_qualify (keepsName_of_release release _) hzone

/-- A name that is no array has the host name that follows its mark. -/
theorem hostName_eq_ok_iff (release : renamer.debug = false) (plain : isArrayShaped name = false) :
    renamer.hostName name = .ok host ↔ ∃ zone ∈ hostZones, name = zone.qualify host := by
  have hzones : hostZones = renamer.classZones ++ [.exception] := by
    simp [hostZones, classZones, release]
  rw [hzones]
  constructor
  · intro h
    obtain ⟨-, hwrapper, hbase⟩ := arrayReadings_of_plain plain
    rw [hostName, keepsName_of_release release, hbase, hwrapper] at h
    cases hcarried : Zone.exception.unqualify? name with
    | some carried =>
        rw [hcarried] at h
        obtain rfl : carried = host := Except.ok.inj h
        exact ⟨.exception, by simp, Zone.unqualify?_eq_some_iff.1 hcarried⟩
    | none =>
        rw [hcarried] at h
        by_cases hmalformed : Zone.array.covers name ∨ Zone.unifying.covers name
        · simp [hmalformed] at h
        · obtain ⟨zone, hzone, hname⟩ : ∃ zone ∈ renamer.classZones, name = zone.qualify host := by
            rw [← hostClassName_eq_ok_iff release]
            simpa [hmalformed] using h
          exact ⟨zone, List.mem_append_left _ hzone, hname⟩
  · rintro ⟨zone, hzone, rfl⟩
    rcases List.mem_append.1 hzone with hclass | hcarrier
    · exact hostName_qualify (keepsName_of_release release _) hclass
    · rw [List.mem_singleton.1 hcarrier]
      exact hostName_carrier release host

theorem exists_hostName_iff (release : renamer.debug = false) (plain : isArrayShaped name = false) :
    (∃ host, renamer.hostName name = .ok host) ↔ looksRenamed name := by
  simp only [hostName_eq_ok_iff release plain, looksRenamed_iff]
  constructor
  · rintro ⟨host, zone, hzone, rfl⟩
    exact ⟨zone, hzone, host, rfl⟩
  · rintro ⟨zone, hzone, host, rfl⟩
    exact ⟨host, zone, hzone, rfl⟩

theorem toHost_of_dotted (dotted : renamer.style = .dotted) (name : Name) :
    renamer.toHost name = renamer.hostName name := by
  rw [toHost, dotted, NameStyle.around_dotted]

end Renamer

namespace Sandbox

open Hierarchy

variable {sandbox : Sandbox} {a b name answer : Name}

/-! ## The world of a name -/

/-- A name is no array, and is left to the host: the hierarchy does not hold it, and it does not
look like a sandbox name. -/
structure LeftToHost (sandbox : Sandbox) (name : Name) : Prop where
  notArray : isArrayShaped name = false
  fresh : sandbox.hierarchy.contains name = false
  unmarked : looksRenamed name = false

theorem rename_of_class (hclass : ArrayType.opensDescriptor name = false)
    (h : sandbox.renamer.sandboxClassName name = .ok answer) :
    sandbox.rename name = .ok answer := by
  rw [rename, Renamer.sandboxName, if_neg (Bool.eq_false_iff.1 hclass), h]
  rfl

theorem resolve_of_leftToHost (release : sandbox.renamer.debug = false)
    (left : sandbox.LeftToHost name) :
    sandbox.resolve name = (sandbox.rename name).map (Resolved.mk · .host) := by
  rw [resolve, if_neg (by simp [left.fresh])]
  cases hread : sandbox.renamer.hostName name with
  | error error => rfl
  | ok host =>
      have hmarked := (Renamer.exists_hostName_iff release left.notArray).1 ⟨host, hread⟩
      rw [left.unmarked] at hmarked
      exact absurd hmarked (by simp)

theorem resolve_of_looksRenamed (release : sandbox.renamer.debug = false)
    (plain : isArrayShaped name = false) (fresh : sandbox.hierarchy.contains name = false)
    (marked : looksRenamed name) :
    sandbox.resolve name = .error (.hierarchy (.unknownType name)) := by
  obtain ⟨host, hread⟩ := (Renamer.exists_hostName_iff release plain).2 marked
  rw [resolve, if_neg (by simp [fresh]), hread]

/-- Two names are merged as host names if both are left to the host, and if one is the class of all
objects. -/
theorem mergeClasses_of_leftToHost (release : sandbox.renamer.debug = false)
    (left : a = hostObject.name ∨ b = hostObject.name ∨
      sandbox.LeftToHost a ∧ sandbox.LeftToHost b) :
    sandbox.mergeClasses a b = sandbox.mergeHostClasses a b := by
  unfold mergeClasses mergeHostClasses
  split
  case isTrue => rfl
  case isFalse =>
    split
    case isTrue => rfl
    case isFalse hroot =>
      obtain ⟨ha, hb⟩ : sandbox.LeftToHost a ∧ sandbox.LeftToHost b :=
        (or_assoc.2 left).resolve_left hroot
      rw [resolve_of_leftToHost release ha, resolve_of_leftToHost release hb]
      cases sandbox.rename a with
      | error error => rfl
      | ok renamedA =>
          cases sandbox.rename b with
          | error error => rfl
          | ok renamedB => rfl

/-! ## The host form of an answer -/

/-- What stands on the host for the tightest common ancestors in the sandbox. -/
inductive StandsOnHost (renamer : Renamer) : Ancestry → Name → Prop where
  | several (names : List Name) : StandsOnHost renamer (.ambiguous names) hostObject.name
  | root {name : Name} (top : name ∈ [iObject.name, shadowObject.name, hostObject.name]) :
      StandsOnHost renamer (.unique name) hostObject.name
  | throwable : StandsOnHost renamer (.unique hostThrowable.name) hostThrowable.name
  | renamed {name host : Name} (back : renamer.toHost name = .ok host) :
      StandsOnHost renamer (.unique name) host

theorem eq_hostObject_of_hostName (release : sandbox.renamer.debug = false)
    (top : name ∈ [iObject.name, shadowObject.name, hostObject.name])
    (h : sandbox.renamer.hostName name = .ok answer) : answer = hostObject.name := by
  have hplain : ∀ top ∈ [iObject.name, shadowObject.name, hostObject.name],
      isArrayShaped top = false := by decide
  have hrest : ∀ top ∈ [iObject.name, shadowObject.name, hostObject.name], ∀ zone ∈ hostZones,
      ∀ rest ∈ zone.unqualify? top, rest = hostObject.name := by decide
  obtain ⟨zone, hzone, hname⟩ := (Renamer.hostName_eq_ok_iff release (hplain name top)).1 h
  exact hrest name top zone hzone answer (Zone.unqualify?_eq_some_iff.2 hname)

theorem hostName_hostThrowable (release : sandbox.renamer.debug = false) (host : Name) :
    sandbox.renamer.hostName hostThrowable.name ≠ .ok host := by
  have hplain : isArrayShaped hostThrowable.name = false := by decide
  intro h
  have hmarked := (Renamer.exists_hostName_iff release hplain).1 ⟨host, h⟩
  exact absurd hmarked (by decide)

theorem hostForm_eq_ok_iff (dotted : sandbox.renamer.style = .dotted)
    (release : sandbox.renamer.debug = false) {ancestry : Ancestry} :
    sandbox.hostForm ancestry = .ok answer ↔ StandsOnHost sandbox.renamer ancestry answer := by
  have hback : ∀ name, sandbox.renamer.toHost name = sandbox.renamer.hostName name :=
    Renamer.toHost_of_dotted dotted
  constructor
  · intro h
    cases ancestry with
    | ambiguous names =>
        obtain rfl : hostObject.name = answer := Except.ok.inj h
        exact .several names
    | unique name =>
        rw [hostForm] at h
        split at h
        case isTrue htop =>
          obtain rfl : hostObject.name = answer := Except.ok.inj h
          exact .root htop
        case isFalse htop =>
          split at h
          case isTrue hthrown =>
            obtain rfl : name = answer := Except.ok.inj h
            exact hthrown ▸ .throwable
          case isFalse hthrown =>
            refine .renamed ?_
            rw [hback]
            cases hread : sandbox.renamer.hostName name with
            | error error => simp [hread, Except.mapError] at h
            | ok host => simpa [hread, Except.mapError] using h
  · intro h
    cases h with
    | several names => rfl
    | root top => rw [hostForm, if_pos top]
    | throwable => rfl
    | @renamed name answer back =>
        -- the two roots that are tried before the renamer agree with it
        rw [hback] at back
        rw [hostForm]
        split
        case isTrue htop => rw [eq_hostObject_of_hostName release htop back]
        case isFalse htop =>
          split
          case isTrue hthrown => exact absurd back (hthrown ▸ hostName_hostThrowable release answer)
          case isFalse hthrown =>
            rw [back]
            rfl

/-! ## Contract classes -/

/-- The host name of a contract class.  The hierarchy holds the class by its sandbox name, and no
type by the host name. -/
structure IsContractClass (sandbox : Sandbox) (name : Name) : Prop where
  listed : name ∈ sandbox.renamer.contractClasses
  held : sandbox.hierarchy.contains (Zone.user.qualify name)
  fresh : sandbox.hierarchy.contains name = false
  notArray : isArrayShaped name = false
  notRoot : name ≠ hostObject.name

instance (sandbox : Sandbox) (name : Name) : Decidable (sandbox.IsContractClass name) :=
  decidable_of_iff (name ∈ sandbox.renamer.contractClasses ∧
      sandbox.hierarchy.contains (Zone.user.qualify name) ∧
      sandbox.hierarchy.contains name = false ∧ isArrayShaped name = false ∧
      name ≠ hostObject.name)
    ⟨fun ⟨listed, held, fresh, notArray, notRoot⟩ => ⟨listed, held, fresh, notArray, notRoot⟩,
      fun h => ⟨h.listed, h.held, h.fresh, h.notArray, h.notRoot⟩⟩

namespace IsContractClass

theorem leftToHost (contract : sandbox.IsContractClass name)
    (unmarked : looksRenamed name = false) : sandbox.LeftToHost name :=
  ⟨contract.notArray, contract.fresh, unmarked⟩

theorem neither_hostObject (ha : sandbox.IsContractClass a) (hb : sandbox.IsContractClass b) :
    ¬ (a = hostObject.name ∨ b = hostObject.name) := by
  intro h
  exact h.elim ha.notRoot hb.notRoot

theorem rename_eq (contract : sandbox.IsContractClass name)
    (release : sandbox.renamer.debug = false) :
    sandbox.rename name = .ok (Zone.user.qualify name) := by
  refine rename_of_class (arrayReadings_of_plain contract.notArray).1 ?_
  rw [Renamer.sandboxClassName, if_pos contract.listed, release]
  rfl

end IsContractClass

section ContractClasses

variable (release : sandbox.renamer.debug = false) (hne : a ≠ b)
  (ha : sandbox.IsContractClass a) (hb : sandbox.IsContractClass b)

include release hne ha hb

/-- Contract classes are merged by the host form of their common ancestry. -/
theorem mergeHostClasses_contractClasses {ancestry : Ancestry}
    (h : sandbox.hierarchy.commonAncestry (Zone.user.qualify a) (Zone.user.qualify b) =
      .ok ancestry) : sandbox.mergeHostClasses a b = sandbox.hostForm ancestry := by
  have hroot := ha.neither_hostObject hb
  rw [mergeHostClasses, if_neg hne, if_neg hroot, ha.rename_eq release, hb.rename_eq release]
  show (sandbox.ancestry _ _ >>= _) = _
  rw [ancestry_eq_ok h]
  rfl

/-- The first name that looks renamed is taken for a sandbox name, and is not found. -/
theorem mergeClasses_of_looksRenamed (marked : looksRenamed a ∨ looksRenamed b) :
    sandbox.mergeClasses a b =
      .error (.hierarchy (.unknownType (if looksRenamed a then a else b))) := by
  have hroot := ha.neither_hostObject hb
  rw [mergeClasses, if_neg hne, if_neg hroot]
  cases hfirst : looksRenamed a with
  | true =>
      rw [resolve_of_looksRenamed release ha.notArray ha.fresh hfirst]
      rfl
  | false =>
      have hsecond : looksRenamed b := marked.resolve_left (by simp [hfirst])
      rw [resolve_of_leftToHost release (ha.leftToHost hfirst), ha.rename_eq release,
        resolve_of_looksRenamed release hb.notArray hb.fresh hsecond]
      rfl

end ContractClasses

/-- Two contract classes have tightest common ancestors in the sandbox, and are merged into what
stands for these on the host, unless one of their names looks renamed. -/
theorem commonSuper_contractClasses (reachable : Reachable sandbox.hierarchy)
    (dotted : sandbox.renamer.style = .dotted) (release : sandbox.renamer.debug = false)
    (hne : a ≠ b) (ha : sandbox.IsContractClass a) (hb : sandbox.IsContractClass b) :
    ∃ ancestry, sandbox.hierarchy.commonAncestry (Zone.user.qualify a) (Zone.user.qualify b) =
        .ok ancestry ∧
      (looksRenamed a = false → looksRenamed b = false → ∀ answer,
        sandbox.commonSuper a b = .ok answer ↔ StandsOnHost sandbox.renamer ancestry answer) ∧
      (looksRenamed a ∨ looksRenamed b → sandbox.commonSuper a b =
        .error (.hierarchy (.unknownType (if looksRenamed a then a else b)))) := by
  obtain ⟨ancestry, hancestry⟩ := commonAncestry_eq_ok reachable.wellFormed ha.held hb.held
  rw [commonSuper_of_ne dotted hne, merge_plain ha.notArray hb.notArray]
  refine ⟨ancestry, hancestry, fun hfirst hsecond answer => ?_, fun marked => ?_⟩
  · have hleft := And.intro (ha.leftToHost hfirst) (hb.leftToHost hsecond)
    rw [mergeClasses_of_leftToHost release (Or.inr (Or.inr hleft)),
      mergeHostClasses_contractClasses release hne ha hb hancestry]
    exact hostForm_eq_ok_iff dotted release
  · exact mergeClasses_of_looksRenamed release hne ha hb marked

/-- A sandbox with contract classes in packages that are called as zones are. -/
def sketchSandbox : Sandbox where
  hierarchy := initial.run
    [.contractClass ⟨"i.Drawn", true, none, ∅, .host⟩ (.sandboxInterface "user.i.Drawn" []),
      .contractClass ⟨"a.Circle", false, some hostObject.name, NameSet.ofList ["i.Drawn"], .host⟩
        (.sandboxClass "user.a.Circle" shadowObject.name ["user.i.Drawn"])]
  renamer := ⟨.dotted, false, ["i.Drawn", "a.Circle"], [], [], []⟩

theorem sketchSandbox_commonSuper_contractClasses :
    (sketchSandbox.IsContractClass "a.Circle" ∧ sketchSandbox.IsContractClass "i.Drawn" ∧
      looksRenamed "a.Circle" = false ∧ looksRenamed "i.Drawn" = false) ∧
    sketchSandbox.commonSuper "a.Circle" "i.Drawn" = .ok "i.Drawn" := by
  have hcircle : sketchSandbox.IsContractClass "a.Circle" := by decide +kernel
  have hdrawn : sketchSandbox.IsContractClass "i.Drawn" := by decide +kernel
  have hmarks : looksRenamed "a.Circle" = false ∧ looksRenamed "i.Drawn" = false := by decide
  have reachable : Reachable sketchSandbox.hierarchy := Reachable.initial.run _
  obtain ⟨ancestry, hancestry, hmerged, -⟩ :=
    commonSuper_contractClasses reachable rfl rfl (by decide) hcircle hdrawn
  have hunique : sketchSandbox.hierarchy.commonAncestry "user.a.Circle" "user.i.Drawn" =
      .ok (.unique "user.i.Drawn") := by decide +kernel
  obtain rfl : ancestry = .unique "user.i.Drawn" := Except.ok.inj (hancestry.symm.trans hunique)
  exact ⟨⟨hcircle, hdrawn, hmarks⟩, (hmerged hmarks.1 hmarks.2 "i.Drawn").2 (.renamed rfl)⟩

/-- A sandbox with contract classes in a package that is called as the shadow zone is. -/
def coinSandbox : Sandbox where
  hierarchy := initial.run
    [.contractClass ⟨"s.Token", false, some hostObject.name, ∅, .host⟩
        (.sandboxClass "user.s.Token" shadowObject.name []),
      .contractClass ⟨"s.Coin", false, some hostObject.name, ∅, .host⟩
        (.sandboxClass "user.s.Coin" shadowObject.name [])]
  renamer := ⟨.dotted, false, ["s.Token", "s.Coin"], [], [], []⟩

/-- The sandbox names have the class of all objects as their tightest common ancestor, and the host
names are not merged. -/
theorem coinSandbox_commonSuper_unknown :
    Reachable coinSandbox.hierarchy ∧ coinSandbox.renamer.style = .dotted ∧
      coinSandbox.renamer.debug = false ∧
    coinSandbox.IsContractClass "s.Token" ∧ coinSandbox.IsContractClass "s.Coin" ∧
      coinSandbox.hierarchy.commonAncestry "user.s.Token" "user.s.Coin" =
        .ok (.unique shadowObject.name) ∧
      coinSandbox.commonSuper "s.Token" "s.Coin" =
        .error (.hierarchy (.unknownType "s.Token")) := by
  refine ⟨Reachable.initial.run _, rfl, rfl, ?_⟩
  decide +kernel

end Sandbox

end SandboxTypes
