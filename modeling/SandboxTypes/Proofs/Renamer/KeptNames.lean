import SandboxTypes.Proofs.Renamer.RoundTrip

/-!
# Classes that keep their names

In debug mode the classes of a contract keep their names, and so share one namespace
with the sandbox names of everything else.  Nothing stops a contract from having a class
that is named as another type is renamed, such as `s.java.lang.String` or `a.IntArray`.
Then two host types have one sandbox name, and the class that keeps the name is the one
that is read off it.

This is the only way in which a name does not come back.  `IsTaken` says when it
happens to a class, and `IsTakenName` when it happens to a name, which may be that of an
array: its wrapper may be taken, or the class of its elements.

## Strategy

* What a sandbox name is read as is a host type with that sandbox name, be it the one
  that was renamed or the one that keeps the name (`hostClassName_readAs`,
  `exists_hostName`).
* So names that share no sandbox name all come back, and conversely.
-/

namespace SandboxTypes

namespace NameStyle

/-- A name can have been written in the style: with slashes as separators it holds no dots. -/
def Writes (style : NameStyle) (name : Name) : Prop := style = slashed → '.' ∉ name.toList

instance (style : NameStyle) (name : Name) : Decidable (style.Writes name) :=
  inferInstanceAs (Decidable (_ → _))

theorem writes_ofDotted (style : NameStyle) (name : Name) : style.Writes (style.ofDotted name) := by
  rintro rfl hmem
  rw [ofDotted, toList_swap, List.mem_map] at hmem
  obtain ⟨c, -, hc⟩ := hmem
  split at hc
  · exact absurd hc (by decide)
  · contradiction

theorem eq_of_toDotted_eq {style : NameStyle} {a b : Name} (ha : style.Writes a)
    (hb : style.Writes b) (h : style.toDotted a = style.toDotted b) : a = b := by
  rw [← ofDotted_toDotted style ha, h, ofDotted_toDotted style hb]

end NameStyle

theorem ArrayType.slash_not_mem_descriptor {dimension : Nat} {base : Name}
    (h : '/' ∉ base.toList) :
    '/' ∉ (ArrayType.descriptor ⟨dimension, .object base⟩).toList := by
  simp [descriptor, Element.descriptor, h]

namespace Renamer

variable {renamer : Renamer} {host sandbox name answer : Name} {family? : Option Family}

/-! ## Classes -/

theorem keepsName_iff :
    renamer.keepsName name ↔ renamer.debug = true ∧ name ∈ renamer.contractClasses := by
  simp [keepsName]

/-- The sandbox name of a host class is the name that another class keeps. -/
def IsTaken (renamer : Renamer) (host sandbox : Name) : Prop :=
  renamer.keepsName sandbox ∧ sandbox ≠ host

instance (renamer : Renamer) (host sandbox : Name) : Decidable (renamer.IsTaken host sandbox) :=
  inferInstanceAs (Decidable (_ ∧ _))

/-- The class that the sandbox name of a host class is read as. -/
def readAs (renamer : Renamer) (host sandbox : Name) : Name :=
  if renamer.keepsName sandbox then sandbox else host

theorem readAs_eq_iff : renamer.readAs host sandbox = host ↔ ¬ renamer.IsTaken host sandbox := by
  unfold readAs IsTaken
  split
  case isTrue hkept => simp [hkept]
  case isFalse hunkept => simp [hunkept]

theorem sandboxClassName_of_keepsName (h : renamer.keepsName name) :
    renamer.sandboxClassName name = .ok name := by
  have hlisted := keepsName_iff.1 h
  rw [sandboxClassName, if_pos hlisted.2, if_pos hlisted.1]

/-- A sandbox name is read as a class that has it. -/
theorem hostClassName_readAs (h : renamer.sandboxClassName host = .ok sandbox) :
    renamer.hostClassName sandbox = .ok (renamer.readAs host sandbox) ∧
      renamer.sandboxClassName (renamer.readAs host sandbox) = .ok sandbox := by
  unfold readAs
  split
  case isTrue hkept =>
    exact ⟨by rw [hostClassName, if_pos hkept], sandboxClassName_of_keepsName hkept⟩
  case isFalse hunkept =>
    refine ⟨?_, h⟩
    rcases sandboxClassName_cases h with ⟨hkept, rfl⟩ | ⟨-, zone, hzone, rfl⟩
    · exact absurd hkept hunkept
    · exact hostClassName_qualify (Bool.eq_false_iff.2 hunkept) hzone

/-- What holds of a class and of its sandbox name holds of the class that is read. -/
theorem readAs_of {motive : Name → Prop} (hhost : motive host) (hsandbox : motive sandbox) :
    motive (renamer.readAs host sandbox) := by
  unfold readAs
  split
  · exact hsandbox
  · exact hhost

/-! ## Arrays -/

section Arrays

variable {array renamed : ArrayType}

/-- The sandbox name of the class of the elements is the name that another class keeps. -/
def IsTakenElement (renamer : Renamer) (array : ArrayType) : Prop :=
  ∃ host sandbox, array.element = .object host ∧ renamer.sandboxClassName host = .ok sandbox ∧
    renamer.IsTaken host sandbox

/-- The descriptor of an array is renamed in the class of its elements. -/
theorem sandboxName_descriptor (harray : array.IsWritable) :
    renamer.sandboxName array.descriptor family? =
      array.renameBase renamer.sandboxClassName >>= (·.wrapperName family?) := by
  have hread : ArrayType.ofHostName array.descriptor = .ok array :=
    ArrayType.ofHostName_eq_ok_iff.2 (ArrayType.ofDescriptor?_eq_some_iff.2 ⟨rfl, harray⟩)
  rw [sandboxName, if_pos (ArrayType.opensDescriptor_descriptor harray.1), hread]
  rfl

/-- The elements of an array of the sandbox are read as a class that has their sandbox name. -/
theorem exists_array_readAs (harray : array.IsWritable)
    (h : array.renameBase renamer.sandboxClassName = .ok renamed) :
    ∃ back : ArrayType, renamed.renameBase renamer.hostClassName = .ok back ∧
      back.renameBase renamer.sandboxClassName = .ok renamed ∧ back.IsWritable ∧
        (back = array ↔ ¬ renamer.IsTakenElement array) ∧
          ('/' ∉ array.descriptor.toList → '/' ∉ back.descriptor.toList) := by
  cases ArrayType.renameBase_eq_ok_iff.1 h with
  | primitive dimension type =>
      refine ⟨⟨dimension, .primitive type⟩, rfl, rfl, harray, ?_, id⟩
      simp [IsTakenElement]
  | @object dimension host sandbox hsandbox =>
      obtain ⟨hback, hagain⟩ := hostClassName_readAs hsandbox
      refine ⟨⟨dimension, .object (renamer.readAs host sandbox)⟩,
        ArrayType.renameBase_eq_ok_iff.2 (.object dimension hback),
        ArrayType.renameBase_eq_ok_iff.2 (.object dimension hagain), ⟨harray.1, ?_⟩, ?_,
        fun habsent => ArrayType.slash_not_mem_descriptor ?_⟩
      · exact readAs_of (motive := fun name => (Element.object name).IsWritable) harray.2
          (isWritable_sandboxClassName harray.2 hsandbox)
      · simp [IsTakenElement, hsandbox, readAs_eq_iff]
      · have hhost : '/' ∉ host.toList := ArrayType.slash_not_mem_base habsent rfl
        exact readAs_of (motive := fun name => '/' ∉ name.toList) hhost
          (slash_not_mem_sandboxClassName hhost hsandbox)

end Arrays

/-! ## Dotted names -/

/-- The sandbox name of a host name is the name that another class keeps, or it is the wrapper of an
array and that of the class of the elements is. -/
def IsTakenName (renamer : Renamer) (name answer : Name) : Prop :=
  renamer.IsTaken name answer ∨
    ∃ array, ArrayType.ofDescriptor? name = some array ∧ renamer.IsTakenElement array

theorem opensDescriptor_of_ofDescriptor? {array : ArrayType}
    (h : ArrayType.ofDescriptor? name = some array) : ArrayType.opensDescriptor name := by
  obtain ⟨rfl, harray⟩ := ArrayType.ofDescriptor?_eq_some_iff.1 h
  exact ArrayType.opensDescriptor_descriptor harray.1

/-- A host name is renamed as a class, or its sandbox name is that of a wrapper. -/
theorem class_or_wrapper_of_sandboxName (h : renamer.sandboxName name family? = .ok answer) :
    (ArrayType.opensDescriptor name = false ∧ renamer.sandboxClassName name = .ok answer) ∨
      ∃ wrapper : Wrapper, wrapper.IsNameable ∧ answer = wrapper.name := by
  rcases sandboxName_cases h with hclass | ⟨-, array, renamed, family, hread, hrenamed, rfl⟩
  · exact Or.inl hclass
  · have harray := (ArrayType.ofDescriptor?_eq_some_iff.1 hread).2
    obtain ⟨hname, hnameable⟩ :=
      Wrapper.ofName?_eq_some_iff.1 (ofName?_renamed harray hrenamed family)
    exact Or.inr ⟨_, hnameable, hname⟩

theorem opensDescriptor_sandboxName (h : renamer.sandboxName name family? = .ok answer) :
    ArrayType.opensDescriptor answer = false := by
  rcases class_or_wrapper_of_sandboxName h with ⟨hopens, hclass⟩ | ⟨wrapper, hnameable, rfl⟩
  · rcases sandboxClassName_cases hclass with ⟨-, rfl⟩ | ⟨-, zone, -, rfl⟩
    · exact hopens
    · exact opensDescriptor_qualify zone name
  · rw [Wrapper.name_eq_qualify hnameable]
    exact opensDescriptor_qualify _ _

/-- A sandbox name is read as a host name that has it. -/
structure IsReadAs (renamer : Renamer) (name answer : Name) (family? : Option Family)
    (host : Name) : Prop where
  read : renamer.hostName answer = .ok host
  renamed : renamer.sandboxName host family? = .ok answer
  same_iff : host = name ↔ ¬ renamer.IsTakenName name answer
  slash_not_mem : '/' ∉ name.toList → '/' ∉ host.toList

theorem isReadAs_kept (h : renamer.sandboxName name family? = .ok answer)
    (hkept : renamer.keepsName answer) : renamer.IsReadAs name answer family? answer where
  read := by rw [hostName, if_pos hkept]
  renamed := by
    rw [sandboxName, if_neg (Bool.eq_false_iff.1 (opensDescriptor_sandboxName h))]
    exact sandboxClassName_of_keepsName hkept
  same_iff := by
    constructor
    · rintro rfl
      rintro (⟨-, hne⟩ | ⟨array, hread, -⟩)
      · exact hne rfl
      · have hopens := opensDescriptor_of_ofDescriptor? hread
        rw [opensDescriptor_sandboxName h] at hopens
        exact absurd hopens (by simp)
    · intro hfree
      exact Decidable.byContradiction fun hne => hfree (Or.inl ⟨hkept, hne⟩)
  slash_not_mem hname := slash_not_mem_sandboxName hname h

theorem isReadAs_class (h : renamer.sandboxName name family? = .ok answer)
    (unkept : renamer.keepsName answer = false) (hopens : ArrayType.opensDescriptor name = false)
    (hclass : renamer.sandboxClassName name = .ok answer) :
    renamer.IsReadAs name answer family? name where
  read := by
    rcases sandboxClassName_cases hclass with ⟨hkept, rfl⟩ | ⟨-, zone, hzone, rfl⟩
    · rw [unkept] at hkept
      exact absurd hkept (by simp)
    · exact hostName_qualify unkept hzone
  renamed := h
  same_iff := by
    refine iff_of_true rfl ?_
    rintro (⟨hkept, -⟩ | ⟨array, hread, -⟩)
    · exact absurd hkept (by simp [unkept])
    · rw [opensDescriptor_of_ofDescriptor? hread] at hopens
      exact absurd hopens (by simp)
  slash_not_mem := id

theorem exists_isReadAs_array {array : ArrayType} (harray : array.IsWritable)
    (h : renamer.sandboxName array.descriptor family? = .ok answer)
    (unkept : renamer.keepsName answer = false) :
    ∃ host, renamer.IsReadAs array.descriptor answer family? host := by
  rw [sandboxName_descriptor harray] at h
  obtain ⟨renamed, hrenamed, hwrapper⟩ := bind_eq_ok_iff.1 h
  obtain ⟨back, hback, hagain, hwritable, hsame, habsent⟩ := exists_array_readAs harray hrenamed
  obtain ⟨family, -, rfl⟩ := ArrayType.wrapperName_eq_ok_iff.1 hwrapper
  have hread := ArrayType.ofDescriptor?_eq_some_iff.2 ⟨rfl, harray⟩
  refine ⟨back.descriptor, ?_, ?_, ?_, habsent⟩
  · rw [hostName_wrapper unkept (ofName?_renamed harray hrenamed family), hback]
    rfl
  · rw [sandboxName_descriptor hwritable, hagain]
    exact hwrapper
  · calc back.descriptor = array.descriptor
        ↔ back = array := ⟨ArrayType.descriptor_injective hwritable harray, congrArg _⟩
      _ ↔ ¬ renamer.IsTakenElement array := hsame
      _ ↔ ¬ renamer.IsTakenName array.descriptor (Wrapper.name ⟨renamed, family⟩) := by
        simp [IsTakenName, IsTaken, unkept, hread]

theorem exists_isReadAs (h : renamer.sandboxName name family? = .ok answer) :
    ∃ host, renamer.IsReadAs name answer family? host := by
  cases hkept : renamer.keepsName answer with
  | true => exact ⟨answer, isReadAs_kept h hkept⟩
  | false =>
      rcases sandboxName_cases h with ⟨hopens, hclass⟩ | ⟨-, array, _, _, hread, -⟩
      · exact ⟨name, isReadAs_class h hkept hopens hclass⟩
      · obtain ⟨rfl, harray⟩ := ArrayType.ofDescriptor?_eq_some_iff.1 hread
        exact exists_isReadAs_array harray h hkept

/-! ## Who takes a name -/

theorem IsTaken.exists_zone (taken : renamer.IsTaken host sandbox)
    (h : renamer.sandboxClassName host = .ok sandbox) :
    sandbox ∈ renamer.contractClasses ∧ ∃ zone ∈ [Zone.shadow, .api], zone.covers sandbox := by
  obtain ⟨hkept, hne⟩ := taken
  have hlisted := keepsName_iff.1 hkept
  have hzones : renamer.classZones = [.shadow, .api] := by simp [classZones, hlisted.1]
  refine ⟨hlisted.2, ?_⟩
  rcases sandboxClassName_cases h with ⟨-, rfl⟩ | ⟨-, zone, hzone, rfl⟩
  · exact absurd rfl hne
  · exact ⟨zone, hzones ▸ hzone, Zone.covers_qualify zone host⟩

/-- A name is taken by a class of the contract that is named as sandbox types are. -/
theorem IsTakenName.exists_zone (taken : renamer.IsTakenName name answer)
    (h : renamer.sandboxName name family? = .ok answer) :
    ∃ contract ∈ renamer.contractClasses, ∃ zone ∈ [Zone.shadow, .api, .array, .unifying],
      zone.covers contract := by
  have hclass : ∀ {host sandbox}, renamer.IsTaken host sandbox →
      renamer.sandboxClassName host = .ok sandbox → ∃ contract ∈ renamer.contractClasses,
        ∃ zone ∈ [Zone.shadow, .api, .array, .unifying], zone.covers contract := by
    intro host sandbox htaken hsandbox
    obtain ⟨hlisted, zone, hzone, hcovers⟩ := htaken.exists_zone hsandbox
    refine ⟨sandbox, hlisted, zone, ?_, hcovers⟩
    exact List.mem_append_left [Zone.array, Zone.unifying] hzone
  rcases taken with htaken | ⟨array, -, host, sandbox, -, hsandbox, htaken⟩
  · rcases class_or_wrapper_of_sandboxName h with ⟨-, hsandbox⟩ | ⟨wrapper, hnameable, rfl⟩
    · exact hclass htaken hsandbox
    · -- the name of a wrapper has the mark of its family
      refine ⟨wrapper.name, (keepsName_iff.1 htaken.1).2, Wrapper.zone wrapper.family, ?_, ?_⟩
      · cases wrapper.family <;> simp [Wrapper.zone]
      · rw [Wrapper.name_eq_qualify hnameable]
        exact Zone.covers_qualify _ _
  · exact hclass htaken hsandbox

/-! ## In the renamer's style -/

theorem exists_toHost (h : renamer.toSandbox name family? = .ok answer) :
    ∃ host, renamer.style.Writes host ∧ renamer.toHost answer = .ok host ∧
      renamer.toSandbox host family? = .ok answer ∧
        (renamer.style.toDotted host = renamer.style.toDotted name ↔
          ¬ renamer.IsTakenName (renamer.style.toDotted name) (renamer.style.toDotted answer)) := by
  obtain ⟨dotted, hdotted, hread⟩ :=
    NameStyle.exists_dotted_of_around (fun _ hname => slash_not_mem_sandboxName hname) h
  obtain ⟨host, back⟩ := exists_isReadAs hdotted
  have hwritten : renamer.style.toDotted (renamer.style.ofDotted host) = host := by
    cases hstyle : renamer.style with
    | dotted => rfl
    | slashed =>
        rw [hstyle] at back
        exact NameStyle.toDotted_ofDotted .slashed
          (back.slash_not_mem (NameStyle.slash_not_mem_toDotted name))
  rw [toSandbox, NameStyle.around, hdotted] at h
  refine ⟨renamer.style.ofDotted host, NameStyle.writes_ofDotted _ _, ?_, ?_, ?_⟩
  · rw [toHost, NameStyle.around, hread, back.read]
    rfl
  · rw [toSandbox, NameStyle.around, hwritten, back.renamed]
    exact h
  · rw [hwritten, hread]
    exact back.same_iff

theorem toHost_eq_ok_iff (written : renamer.style.Writes name)
    (h : renamer.toSandbox name family? = .ok answer) : renamer.toHost answer = .ok name ↔
      ¬ renamer.IsTakenName (renamer.style.toDotted name) (renamer.style.toDotted answer) := by
  obtain ⟨host, hwrites, hread, -, hsame⟩ := exists_toHost h
  rw [hread, Except.ok.injEq, ← hsame]
  exact ⟨congrArg _, NameStyle.eq_of_toDotted_eq hwrites written⟩

/-- Every host name that is let into the sandbox is read off its sandbox name. -/
def ComesBack (renamer : Renamer) : Prop :=
  ∀ name family? answer, renamer.style.Writes name → renamer.toSandbox name family? = .ok answer →
    renamer.toHost answer = .ok name

/-- Different host names have different sandbox names. -/
def KeepsApart (renamer : Renamer) : Prop :=
  ∀ first second family? other? answer, renamer.style.Writes first → renamer.style.Writes second →
    renamer.toSandbox first family? = .ok answer → renamer.toSandbox second other? = .ok answer →
      first = second

theorem comesBack_iff_keepsApart : renamer.ComesBack ↔ renamer.KeepsApart := by
  constructor
  · intro comesBack first second family? other? answer hfirst hsecond h h'
    have hread := comesBack first family? answer hfirst h
    rw [comesBack second other? answer hsecond h'] at hread
    exact (Except.ok.inj hread).symm
  · intro keepsApart name family? answer written h
    obtain ⟨host, hwrites, hread, hagain, -⟩ := exists_toHost h
    rw [hread, keepsApart host name family? family? answer hwrites written hagain h]

theorem comesBack_of_unmarked (unmarked : ∀ contract ∈ renamer.contractClasses,
    ∀ zone ∈ [Zone.shadow, .api, .array, .unifying], zone.covers contract = false) :
    renamer.ComesBack := by
  intro name family? answer written h
  refine (toHost_eq_ok_iff written h).2 fun taken => ?_
  obtain ⟨dotted, hdotted, hread⟩ :=
    NameStyle.exists_dotted_of_around (fun _ hname => slash_not_mem_sandboxName hname) h
  rw [hread] at taken
  obtain ⟨contract, hlisted, zone, hzone, hcovers⟩ := taken.exists_zone hdotted
  rw [unmarked contract hlisted zone hzone] at hcovers
  exact absurd hcovers (by simp)

/-- A sandbox name is read as a host name that has it.  This is the name that was renamed, unless a
class that keeps its name has taken it.  So the host names come back exactly if no two of them share
a sandbox name, and they do if no class of the contract is named as sandbox types are. -/
theorem toHost_toSandbox_iff (renamer : Renamer) :
    (∀ name family? answer, renamer.style.Writes name →
      renamer.toSandbox name family? = .ok answer →
        (∃ host, renamer.toHost answer = .ok host ∧
          renamer.toSandbox host family? = .ok answer) ∧
        (renamer.toHost answer = .ok name ↔
          ¬ renamer.IsTakenName (renamer.style.toDotted name) (renamer.style.toDotted answer))) ∧
    (renamer.ComesBack ↔ renamer.KeepsApart) ∧
    ((∀ contract ∈ renamer.contractClasses, ∀ zone ∈ [Zone.shadow, .api, .array, .unifying],
      zone.covers contract = false) → renamer.ComesBack) := by
  refine ⟨fun name family? answer written h => ⟨?_, toHost_eq_ok_iff written h⟩,
    comesBack_iff_keepsApart, comesBack_of_unmarked⟩
  obtain ⟨host, -, hread, hagain, -⟩ := exists_toHost h
  exact ⟨host, hread, hagain⟩

/-- A configuration in debug mode.  Two of its contract classes are named as a class of the library
and the arrays of integers are renamed. -/
def echoConfig : RenamerConfig where
  style := .slashed
  debug := true
  contractClasses :=
    [("s/java/lang/String", .host), ("a/IntArray", .host), ("com/example/Token", .sandbox)]
  exceptions := []
  shadowTypes := ["java/lang/String"]
  apiTypes := []

def echoRenamer : Renamer :=
  ⟨.slashed, true, ["s.java.lang.String", "a.IntArray", "com.example.Token"], [],
    ["java.lang.String"], []⟩

theorem ofConfig_echoConfig : ofConfig echoConfig = .ok echoRenamer := rfl

/-- A name comes back from the wrapper of an array, whatever the other classes are.  With the class
alone that is named as nothing else, all names do. -/
theorem echoRenamer_toHost_toSandbox_iff :
    (echoRenamer.style.Writes "[[Lcom/example/Token;" ∧
      echoRenamer.toSandbox "[[Lcom/example/Token;" (some .unifying) =
        .ok "w/__Lcom/example/Token" ∧
      echoRenamer.toHost "w/__Lcom/example/Token" = .ok "[[Lcom/example/Token;" ∧
      ¬ echoRenamer.IsTakenName "[[Lcom.example.Token;" "w.__Lcom.example.Token") ∧
    { echoRenamer with contractClasses := ["com.example.Token"] }.ComesBack := by
  have written : echoRenamer.style.Writes "[[Lcom/example/Token;" := by decide
  have hsandbox : echoRenamer.toSandbox "[[Lcom/example/Token;" (some .unifying) =
      .ok "w/__Lcom/example/Token" := by rfl
  have hhost : echoRenamer.toHost "w/__Lcom/example/Token" = .ok "[[Lcom/example/Token;" := by rfl
  have hback := (toHost_toSandbox_iff echoRenamer).1 _ _ _ written hsandbox
  exact ⟨⟨written, hsandbox, hhost, hback.2.1 hhost⟩,
    (toHost_toSandbox_iff { echoRenamer with contractClasses := ["com.example.Token"] }).2.2
      (by decide)⟩

/-- A library class does not come back where a contract class keeps its sandbox name, and neither
do its arrays, nor does an array whose wrapper a contract class is named as. -/
theorem echoRenamer_not_comesBack :
    (ofConfig echoConfig = .ok echoRenamer ∧ echoConfig.debug = true ∧
      ∀ name ∈ ["java/lang/String", "s/java/lang/String", "[Ljava/lang/String;", "[I",
        "a/IntArray"], echoRenamer.style.Writes name) ∧
    (echoRenamer.toSandbox "java/lang/String" none = .ok "s/java/lang/String" ∧
      echoRenamer.toSandbox "s/java/lang/String" none = .ok "s/java/lang/String" ∧
      echoRenamer.toHost "s/java/lang/String" = .ok "s/java/lang/String") ∧
    (echoRenamer.toSandbox "[Ljava/lang/String;" (some .precise) = .ok "a/$Ls/java/lang/String" ∧
      echoRenamer.toHost "a/$Ls/java/lang/String" = .ok "[Ls/java/lang/String;") ∧
    (echoRenamer.toSandbox "[I" (some .precise) = .ok "a/IntArray" ∧
      echoRenamer.toSandbox "a/IntArray" none = .ok "a/IntArray" ∧
      echoRenamer.toHost "a/IntArray" = .ok "a/IntArray") ∧
    ¬ echoRenamer.ComesBack ∧ ¬ echoRenamer.KeepsApart := by
  have hstring : echoRenamer.toSandbox "java/lang/String" none = .ok "s/java/lang/String" := by rfl
  have hecho : echoRenamer.toSandbox "s/java/lang/String" none = .ok "s/java/lang/String" := by rfl
  have hread : echoRenamer.toHost "s/java/lang/String" = .ok "s/java/lang/String" := by rfl
  refine ⟨⟨ofConfig_echoConfig, rfl, by decide⟩, ⟨hstring, hecho, hread⟩, ⟨rfl, rfl⟩,
    ⟨rfl, rfl, rfl⟩, fun comesBack => ?_, fun keepsApart => ?_⟩
  · have hback := comesBack _ _ _ (by decide) hstring
    rw [hread] at hback
    exact absurd (Except.ok.inj hback) (by decide)
  · exact absurd (keepsApart _ _ _ _ _ (by decide) (by decide) hstring hecho) (by decide)

end Renamer

end SandboxTypes
