import SandboxTypes.Proofs.Answer
import SandboxTypes.Proofs.Renamer.ArrayNames
import SandboxTypes.Renamer

/-!
# There and back again

Outside debug mode a class gets the mark of one of three zones
(`sandboxClassName_eq_ok`), and taking the mark off gives the class back
(`hostClassName_qualify`).  An array is renamed in its elements, so that it comes
back if they do (`ArrayType.renameBase_inverse`).  The way back tries the
readings one after the other; the zones keep them apart:

* `hostName_qualify`: the sandbox name of a class is no carrier of an exception,
  no array base type and no wrapper;
* `hostName_wrapper`: the name of a wrapper is read as that wrapper.

Hence `hostName_sandboxName` for dotted names.  A style is applied around that, and
is in nobody's way: renaming puts no slash into a name
(`slash_not_mem_sandboxName`), so that a written answer is read again as it was
(`NameStyle.exists_dotted_of_around`).
-/

namespace SandboxTypes

/-! ## Names without slashes -/

theorem slash_not_mem_qualify (zone : Zone) {name : Name} (h : '/' ∉ name.toList) :
    '/' ∉ (zone.qualify name).toList := by
  have hmark : '/' ∉ zone.mark.toList := by cases zone <;> decide
  rw [Zone.qualify, String.toList_append, List.mem_append]
  exact fun hmem => hmem.elim hmark h

theorem Wrapper.slash_not_mem_name {wrapper : Wrapper}
    (h : ∀ base, wrapper.array.element = .object base → '/' ∉ base.toList) :
    '/' ∉ wrapper.name.toList := by
  obtain ⟨⟨dimension, element⟩, family⟩ := wrapper
  have hcounted : ∀ (family : Family) {cs : List Char}, '/' ∉ cs →
      '/' ∉ (counted family dimension cs).toList := by
    intro family cs hcs
    have hmarker : '/' ≠ marker family := by cases family <;> decide
    refine slash_not_mem_qualify _ ?_
    simp [hmarker, hcs]
  cases element with
  | primitive type =>
      have htag : '/' ∉ [type.tag] := by cases type <;> decide
      have hname : '/' ∉ type.wrapperName.toList := by cases type <;> decide
      simp only [name]
      split
      · exact slash_not_mem_qualify _ hname
      · exact hcounted .precise htag
  | object base =>
      have hbase : '/' ∉ base.toList := h base rfl
      exact hcounted family (by simp [hbase])

theorem ArrayType.slash_not_mem_base {array : ArrayType} {base : Name}
    (h : '/' ∉ array.descriptor.toList) (helement : array.element = .object base) :
    '/' ∉ base.toList := by
  intro hmem
  refine h ?_
  simp [descriptor, helement, Element.descriptor, hmem]

namespace NameStyle

variable {ε : Type} {style : NameStyle} {f : Name → Except ε Name} {name answer : Name}

theorem slash_not_mem_toDotted (name : Name) : '/' ∉ (toDotted slashed name).toList := by
  rw [toDotted, toList_swap, List.mem_map]
  rintro ⟨c, -, hc⟩
  split at hc
  · exact absurd hc (by decide)
  · contradiction

/-- An answer in a style is read again as the dotted answer, where that has no slash which was not
there before. -/
theorem exists_dotted_of_around
    (clean : ∀ dotted, '/' ∉ (style.toDotted name).toList → f (style.toDotted name) = .ok dotted →
      '/' ∉ dotted.toList)
    (h : style.around f name = .ok answer) :
    ∃ dotted, f (style.toDotted name) = .ok dotted ∧ style.toDotted answer = dotted := by
  obtain ⟨dotted, hdotted, rfl⟩ := map_eq_ok_iff.1 h
  refine ⟨dotted, hdotted, ?_⟩
  cases style with
  | dotted => rfl
  | slashed => exact toDotted_ofDotted slashed (clean dotted (slash_not_mem_toDotted name) hdotted)

/-- A name that is written in the style is answered where its dotted form is. -/
theorem around_eq_ok (written : style = slashed → '.' ∉ name.toList)
    (h : f (style.toDotted answer) = .ok (style.toDotted name)) :
    style.around f answer = .ok name := by
  rw [around, h, Except.map, ofDotted_toDotted style written]

theorem opensDescriptor_toDotted (style : NameStyle) (name : Name) :
    ArrayType.opensDescriptor (style.toDotted name) = ArrayType.opensDescriptor name := by
  cases style with
  | dotted => rfl
  | slashed =>
      rw [ArrayType.opensDescriptor, ArrayType.opensDescriptor, toDotted, toList_swap]
      cases name.toList with
      | nil => rfl
      | cons c cs =>
          by_cases hc : c = '/'
          · simp [hc]
          · simp [hc]

end NameStyle

/-! ## Elements that are renamed and renamed back -/

namespace ArrayType

variable {ε δ : Type} {f : Name → Except ε Name} {g : Name → Except δ Name}
  {array renamed : ArrayType} {base : Name}

/-- One array is the other one with the class of its elements renamed, where they have a class. -/
inductive RenamedBy {ε : Type} (f : Name → Except ε Name) : ArrayType → ArrayType → Prop where
  | primitive (dimension : Nat) (type : Primitive) :
      RenamedBy f ⟨dimension, .primitive type⟩ ⟨dimension, .primitive type⟩
  | object (dimension : Nat) {original base : Name} (renamed : f original = .ok base) :
      RenamedBy f ⟨dimension, .object original⟩ ⟨dimension, .object base⟩

theorem renameBase_eq_ok_iff : array.renameBase f = .ok renamed ↔ RenamedBy f array renamed := by
  constructor
  · intro h
    obtain ⟨dimension, element⟩ := array
    obtain ⟨element', helement, rfl⟩ := map_eq_ok_iff.1 h
    cases element with
    | primitive type =>
        obtain rfl : .primitive type = element' := Except.ok.inj helement
        exact .primitive dimension type
    | object original =>
        obtain ⟨base, hbase, rfl⟩ := map_eq_ok_iff.1 helement
        exact .object dimension hbase
  · intro h
    cases h with
    | primitive dimension type => rfl
    | object dimension hbase => simp [renameBase, hbase, Except.map]

/-- The class of renamed elements is what the class of the elements is renamed to. -/
theorem exists_base_of_renameBase (h : array.renameBase f = .ok renamed)
    (hbase : renamed.element = .object base) :
    ∃ original, array.element = .object original ∧ f original = .ok base := by
  cases renameBase_eq_ok_iff.1 h with
  | primitive dimension type => exact absurd hbase (by simp)
  | @object dimension original _ hrenamed =>
      exact ⟨original, rfl, Element.object.inj hbase ▸ hrenamed⟩

theorem renameBase_inverse (h : array.renameBase f = .ok renamed)
    (inverse : ∀ original base, f original = .ok base → g base = .ok original) :
    renamed.renameBase g = .ok array := by
  refine renameBase_eq_ok_iff.2 ?_
  cases renameBase_eq_ok_iff.1 h with
  | primitive dimension type => exact .primitive dimension type
  | object dimension hbase => exact .object dimension (inverse _ _ hbase)

theorem ofHostName_eq_ok_iff {text : Name} : ofHostName text = .ok array ↔
    ofDescriptor? text = some array := by
  rw [ofHostName]
  cases ofDescriptor? text with
  | none => simp
  | some found => simp

end ArrayType

namespace Renamer

variable {renamer : Renamer} {name answer : Name} {zone : Zone}

/-! ## Classes -/

theorem keepsName_of_release (release : renamer.debug = false) (name : Name) :
    renamer.keepsName name = false := by
  rw [keepsName, release, Bool.false_and]

/-- A class that is let in keeps its name, or gets the mark of a zone. -/
theorem sandboxClassName_cases (h : renamer.sandboxClassName name = .ok answer) :
    (renamer.keepsName name = true ∧ answer = name) ∨
      (renamer.keepsName name = false ∧
        ∃ zone ∈ renamer.classZones, answer = zone.qualify name) := by
  unfold sandboxClassName at h
  split at h
  case isTrue hcontract =>
    cases hdebug : renamer.debug with
    | true =>
        rw [hdebug] at h
        exact Or.inl ⟨by simp [keepsName, hdebug, hcontract], (Except.ok.inj h).symm⟩
    | false =>
        rw [hdebug] at h
        refine Or.inr ⟨keepsName_of_release hdebug name, .user, ?_, (Except.ok.inj h).symm⟩
        simp [classZones, hdebug]
  case isFalse hforeign =>
    refine Or.inr ⟨by simp [keepsName, hforeign], ?_⟩
    have hzones : .shadow ∈ renamer.classZones ∧ .api ∈ renamer.classZones := by
      cases hdebug : renamer.debug <;> simp [classZones, hdebug]
    split at h
    · exact ⟨.shadow, hzones.1, (Except.ok.inj h).symm⟩
    split at h
    · exact ⟨.api, hzones.2, (Except.ok.inj h).symm⟩
    · exact absurd h (by simp)

theorem sandboxClassName_eq_ok (release : renamer.debug = false)
    (h : renamer.sandboxClassName name = .ok answer) :
    ∃ zone ∈ renamer.classZones, answer = zone.qualify name := by
  rcases sandboxClassName_cases h with ⟨hkept, -⟩ | ⟨-, hzone⟩
  · rw [keepsName_of_release release] at hkept
    exact absurd hkept (by simp)
  · exact hzone

theorem ne_of_mem_classZones (h : zone ∈ renamer.classZones) :
    zone ≠ .array ∧ zone ≠ .unifying ∧ zone ≠ .exception := by
  unfold classZones at h
  split at h <;> revert zone <;> decide

theorem findSome?_unqualify?_qualify {zones : List Zone} (h : zone ∈ zones) (name : Name) :
    zones.findSome? (·.unqualify? (zone.qualify name)) = some name := by
  induction zones with
  | nil => exact absurd h List.not_mem_nil
  | cons first zones ih =>
      by_cases hfirst : first = zone
      · rw [hfirst, List.findSome?_cons, Zone.unqualify?_qualify]
      · rw [List.findSome?_cons, Zone.unqualify?_qualify_of_ne hfirst]
        exact ih ((List.mem_cons.1 h).resolve_left (Ne.symm hfirst))

theorem hostClassName_qualify (unkept : renamer.keepsName (zone.qualify name) = false)
    (h : zone ∈ renamer.classZones) : renamer.hostClassName (zone.qualify name) = .ok name := by
  rw [hostClassName, unkept, findSome?_unqualify?_qualify h]
  rfl

theorem hostClassName_sandboxClassName (release : renamer.debug = false)
    (h : renamer.sandboxClassName name = .ok answer) : renamer.hostClassName answer = .ok name := by
  obtain ⟨zone, hzone, rfl⟩ := sandboxClassName_eq_ok release h
  exact hostClassName_qualify (keepsName_of_release release _) hzone

/-! ## The order of the readings -/

/-- The sandbox name of a class has no other reading, unless another class keeps that name. -/
theorem hostName_qualify (unkept : renamer.keepsName (zone.qualify name) = false)
    (h : zone ∈ renamer.classZones) : renamer.hostName (zone.qualify name) = .ok name := by
  obtain ⟨harray, hunifying, hexception⟩ := ne_of_mem_classZones h
  rw [hostName, unkept, Zone.unqualify?_qualify_of_ne (Ne.symm hexception),
    ArrayBase.ofName?_qualify_of_ne harray, Wrapper.ofName?_qualify_of_ne harray hunifying,
    Zone.covers, Zone.covers, Zone.unqualify?_qualify_of_ne (Ne.symm harray),
    Zone.unqualify?_qualify_of_ne (Ne.symm hunifying)]
  exact hostClassName_qualify unkept h

theorem hostName_carrier (release : renamer.debug = false) (name : Name) :
    renamer.hostName (Zone.exception.qualify name) = .ok name := by
  rw [hostName, keepsName_of_release release, Zone.unqualify?_qualify]
  rfl

theorem hostName_wrapper (unkept : renamer.keepsName name = false) {wrapper : Wrapper}
    (h : Wrapper.ofName? name = some wrapper) : renamer.hostName name =
      (wrapper.array.renameBase renamer.hostClassName).map ArrayType.descriptor := by
  have hexception : Zone.exception.unqualify? name = none := by
    obtain ⟨rfl, hnameable⟩ := Wrapper.ofName?_eq_some_iff.1 h
    rw [Wrapper.name_eq_qualify hnameable]
    refine Zone.unqualify?_qualify_of_ne ?_ _
    cases wrapper.family <;> decide
  rw [hostName, unkept, hexception, Wrapper.ofBaseName?_of_ofName? h, h]
  rfl

/-! ## Dotted names -/

section Dotted

variable {family? : Option Family}

/-- A name is renamed as a class, or it is the descriptor of an array that is renamed in its
elements. -/
theorem sandboxName_cases (h : renamer.sandboxName name family? = .ok answer) :
    (ArrayType.opensDescriptor name = false ∧ renamer.sandboxClassName name = .ok answer) ∨
      (ArrayType.opensDescriptor name = true ∧ ∃ array renamed family,
        ArrayType.ofDescriptor? name = some array ∧
          array.renameBase renamer.sandboxClassName = .ok renamed ∧
            answer = Wrapper.name ⟨renamed, family⟩) := by
  unfold sandboxName at h
  split at h
  case isTrue hopens =>
    obtain ⟨array, harray, h⟩ := bind_eq_ok_iff.1 h
    obtain ⟨renamed, hrenamed, h⟩ := bind_eq_ok_iff.1 h
    obtain ⟨family, -, hanswer⟩ := ArrayType.wrapperName_eq_ok_iff.1 h
    exact Or.inr ⟨hopens, array, renamed, family, ArrayType.ofHostName_eq_ok_iff.1 harray, hrenamed,
      hanswer⟩
  case isFalse hopens => exact Or.inl ⟨Bool.eq_false_iff.2 hopens, h⟩

/-- A class that can stand in a descriptor can do so after it is renamed. -/
theorem isWritable_sandboxClassName (hname : (Element.object name).IsWritable)
    (h : renamer.sandboxClassName name = .ok answer) : (Element.object answer).IsWritable := by
  rcases sandboxClassName_cases h with ⟨-, rfl⟩ | ⟨-, zone, -, rfl⟩
  · exact hname
  · have hmark : zone.mark ≠ "" ∧ ';' ∉ zone.mark.toList := by cases zone <;> decide
    refine ⟨fun hempty => hmark.1 (String.append_eq_empty_iff.1 hempty).1, ?_⟩
    rw [Zone.qualify, String.toList_append, List.mem_append]
    exact fun hmem => hmem.elim hmark.2 hname.2

theorem isWritable_renamed {array renamed : ArrayType} (harray : array.IsWritable)
    (h : array.renameBase renamer.sandboxClassName = .ok renamed) : renamed.IsWritable := by
  cases ArrayType.renameBase_eq_ok_iff.1 h with
  | primitive dimension type => exact harray
  | object dimension hclass => exact ⟨harray.1, isWritable_sandboxClassName harray.2 hclass⟩

/-- The wrapper of an array with renamed elements is read as what it is. -/
theorem ofName?_renamed {array renamed : ArrayType} (harray : array.IsWritable)
    (h : array.renameBase renamer.sandboxClassName = .ok renamed) (family : Family) :
    Wrapper.ofName? (Wrapper.name ⟨renamed, family⟩) =
      some ⟨renamed, renamed.grantedFamily family⟩ := by
  have hrenamed := isWritable_renamed harray h
  refine ArrayType.ofName?_name hrenamed.1 (fun hempty => ?_) family
  cases helement : renamed.element with
  | primitive type => simp [helement, Element.base?] at hempty
  | object base =>
      have hbase : (Element.object base).IsWritable := helement ▸ hrenamed.2
      rw [helement, Element.base?, Option.some.injEq] at hempty
      exact hbase.1 hempty

theorem hostName_sandboxName (release : renamer.debug = false)
    (h : renamer.sandboxName name family? = .ok answer) : renamer.hostName answer = .ok name := by
  rcases sandboxName_cases h with ⟨-, hclass⟩ | ⟨-, array, renamed, family, hread, hrenamed, rfl⟩
  · obtain ⟨zone, hzone, rfl⟩ := sandboxClassName_eq_ok release hclass
    exact hostName_qualify (keepsName_of_release release _) hzone
  · obtain ⟨rfl, harray⟩ := ArrayType.ofDescriptor?_eq_some_iff.1 hread
    have hback : renamed.renameBase renamer.hostClassName = .ok array :=
      ArrayType.renameBase_inverse hrenamed fun _ _ => hostClassName_sandboxClassName release
    rw [hostName_wrapper (keepsName_of_release release _) (ofName?_renamed harray hrenamed family),
      hback]
    rfl

theorem isArrayShaped_sandboxName (release : renamer.debug = false)
    (h : renamer.sandboxName name family? = .ok answer) :
    isArrayShaped answer = ArrayType.opensDescriptor name := by
  rcases sandboxName_cases h with ⟨hopens, hclass⟩ |
    ⟨hopens, array, renamed, family, hread, hrenamed, rfl⟩
  · obtain ⟨zone, hzone, rfl⟩ := sandboxClassName_eq_ok release hclass
    obtain ⟨harray, hunifying, -⟩ := ne_of_mem_classZones hzone
    rw [hopens, isArrayShaped_qualify harray hunifying]
  · have harray := (ArrayType.ofDescriptor?_eq_some_iff.1 hread).2
    rw [hopens, isArrayShaped_of_ofName? (ofName?_renamed harray hrenamed family)]

theorem slash_not_mem_sandboxClassName (hname : '/' ∉ name.toList)
    (h : renamer.sandboxClassName name = .ok answer) : '/' ∉ answer.toList := by
  rcases sandboxClassName_cases h with ⟨-, rfl⟩ | ⟨-, zone, -, rfl⟩
  · exact hname
  · exact slash_not_mem_qualify zone hname

theorem slash_not_mem_sandboxName (hname : '/' ∉ name.toList)
    (h : renamer.sandboxName name family? = .ok answer) : '/' ∉ answer.toList := by
  rcases sandboxName_cases h with ⟨-, hclass⟩ | ⟨-, array, renamed, family, hread, hrenamed, rfl⟩
  · exact slash_not_mem_sandboxClassName hname hclass
  · obtain ⟨rfl, -⟩ := ArrayType.ofDescriptor?_eq_some_iff.1 hread
    refine Wrapper.slash_not_mem_name fun base hbase => ?_
    obtain ⟨original, helement, hclass⟩ := ArrayType.exists_base_of_renameBase hrenamed hbase
    exact slash_not_mem_sandboxClassName (ArrayType.slash_not_mem_base hname helement) hclass

theorem exceptionWrapperName_eq_ok (h : renamer.exceptionWrapperName name = .ok answer) :
    answer = Zone.exception.qualify name := by
  unfold exceptionWrapperName at h
  split at h
  · exact (Except.ok.inj h).symm
  · exact absurd h (by simp)

end Dotted

/-! ## In the renamer's style -/

/-- What a renamer takes from the configuration that it is made of. -/
theorem ofConfig_eq_ok {config : RenamerConfig} (accepted : ofConfig config = .ok renamer) :
    renamer.style = config.style ∧ renamer.debug = config.debug ∧
      config.contractClasses.mapM (listedName config.style (userMark config.debug)) =
        .ok renamer.contractClasses ∧
      config.exceptions.mapM (listedName config.style Zone.shadow.mark) = .ok renamer.exceptions ∧
      renamer.shadowTypes = config.shadowTypes.map config.style.toDotted ∧
      renamer.apiTypes = config.apiTypes.map config.style.toDotted := by
  obtain ⟨contractClasses, hcontract, h⟩ := bind_eq_ok_iff.1 accepted
  obtain ⟨exceptions, hexceptions, h⟩ := bind_eq_ok_iff.1 h
  obtain rfl := Except.ok.inj h
  exact ⟨rfl, rfl, hcontract, hexceptions, rfl, rfl⟩

/-- Outside debug mode the host name of every class and array that is let into the sandbox can be
read off its sandbox name, which has the form of an array exactly for an array.  The carrier of an
exception tells the exception. -/
theorem toHost_toSandbox {config : RenamerConfig} (accepted : ofConfig config = .ok renamer)
    (release : config.debug = false) (written : config.style = .slashed → '.' ∉ name.toList) :
    (∀ family? answer, renamer.toSandbox name family? = .ok answer →
      renamer.toHost answer = .ok name ∧
        renamer.isArrayName answer = ArrayType.opensDescriptor name) ∧
    ∀ answer, renamer.toExceptionWrapper name = .ok answer → renamer.toHost answer = .ok name := by
  obtain ⟨hstyle, hdebug, -⟩ := ofConfig_eq_ok accepted
  rw [← hstyle] at written
  rw [← hdebug] at release
  refine ⟨fun family? answer h => ?_, fun answer h => ?_⟩
  · obtain ⟨dotted, hdotted, hread⟩ := NameStyle.exists_dotted_of_around
      (fun _ hname => slash_not_mem_sandboxName hname) h
    refine ⟨NameStyle.around_eq_ok written ?_, ?_⟩
    · rw [hread]
      exact hostName_sandboxName release hdotted
    · rw [isArrayName, hread, isArrayShaped_sandboxName release hdotted,
        NameStyle.opensDescriptor_toDotted]
  · obtain ⟨dotted, hdotted, hread⟩ := NameStyle.exists_dotted_of_around
      (fun _ hname hanswer => exceptionWrapperName_eq_ok hanswer ▸ slash_not_mem_qualify _ hname) h
    refine NameStyle.around_eq_ok written ?_
    rw [hread, exceptionWrapperName_eq_ok hdotted]
    exact hostName_carrier release _

/-- A configuration in the slashed style.  Its classes are named as the parts of sandbox names
are. -/
def crookedConfig : RenamerConfig where
  style := .slashed
  debug := false
  contractClasses := [("a/$L", .host), ("user/e/_[", .sandbox)]
  exceptions := [("s/w/Fault", .sandbox)]
  shadowTypes := ["a/IntArray"]
  apiTypes := []

def crookedRenamer : Renamer :=
  ⟨.slashed, false, ["a.$L", "e._["], ["w.Fault"], ["a.IntArray"], []⟩

theorem crookedConfig_toHost_toSandbox :
    (ofConfig crookedConfig = .ok crookedRenamer ∧ crookedConfig.debug = false ∧
      (crookedConfig.style = .slashed → '.' ∉ "[[Le/_[;".toList) ∧
      (crookedConfig.style = .slashed → '.' ∉ "w/Fault".toList)) ∧
    (crookedRenamer.toSandbox "[[Le/_[;" (some .unifying) = .ok "w/__Luser/e/_[" ∧
      crookedRenamer.toHost "w/__Luser/e/_[" = .ok "[[Le/_[;" ∧
        crookedRenamer.isArrayName "w/__Luser/e/_[" = ArrayType.opensDescriptor "[[Le/_[;") ∧
    crookedRenamer.toExceptionWrapper "w/Fault" = .ok "e/w/Fault" ∧
      crookedRenamer.toHost "e/w/Fault" = .ok "w/Fault" := by
  have haccepted : ofConfig crookedConfig = .ok crookedRenamer := by rfl
  have hrelease : crookedConfig.debug = false := rfl
  have harray : crookedConfig.style = .slashed → '.' ∉ "[[Le/_[;".toList := by decide
  have hfault : crookedConfig.style = .slashed → '.' ∉ "w/Fault".toList := by decide
  have hsandbox : crookedRenamer.toSandbox "[[Le/_[;" (some .unifying) =
      .ok "w/__Luser/e/_[" := by rfl
  have hcarrier : crookedRenamer.toExceptionWrapper "w/Fault" = .ok "e/w/Fault" := by rfl
  exact ⟨⟨haccepted, hrelease, harray, hfault⟩,
    ⟨hsandbox, (toHost_toSandbox haccepted hrelease harray).1 _ _ hsandbox⟩,
    hcarrier, (toHost_toSandbox haccepted hrelease hfault).2 _ hcarrier⟩

end Renamer

end SandboxTypes
