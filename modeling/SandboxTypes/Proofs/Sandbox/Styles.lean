import SandboxTypes.Proofs.Sandbox.HostNames

/-!
# A style is a way of writing

The same lists of names may be given in the dotted style or in another one, and make the
same renamer up to the style it reads and writes (`ofConfig_writtenIn`).  What a renamer
and a sandbox compute, they compute on dotted names, and the style is applied around
that: a name is read once and its answer is written once.  Reading undoes writing for
names without slashes (`NameStyle.around_ofDotted`), so that a sandbox in another style
gives the answers of the dotted one in that style, and the very same errors, in which
names are dotted (`WritesAlike`).

## Strategy

* `Renamer.inStyle` changes the style of a renamer and leaves its lists.  No function on
  dotted names sees the difference, which is true by definition.
* So the functions that are offered to callers differ in `NameStyle.around` alone.
-/

namespace SandboxTypes

/-! ## Writing names in a style -/

namespace NameStyle

variable {ε : Type} {name : Name}

/-- What is written in a style is read as it was before. -/
theorem around_ofDotted (style : NameStyle) (f : Name → Except ε Name)
    (absent : '/' ∉ name.toList) :
    style.around f (style.ofDotted name) = (f name).map style.ofDotted := by
  rw [around, toDotted_ofDotted style absent]

theorem around₂_ofDotted (style : NameStyle) (f : Name → Name → Except ε (Option Name))
    {other : Name} (absent : '/' ∉ name.toList) (absent' : '/' ∉ other.toList) :
    style.around₂ f (style.ofDotted name) (style.ofDotted other) =
      (f name other).map (Option.map style.ofDotted) := by
  rw [around₂, toDotted_ofDotted style absent, toDotted_ofDotted style absent']

end NameStyle

namespace RenamerConfig

/-- The names of a configuration. -/
def names (config : RenamerConfig) : List Name :=
  config.contractClasses.map Prod.fst ++ config.exceptions.map Prod.fst ++ config.shadowTypes ++
    config.apiTypes

/-- A configuration in the dotted style, with the same names written in another one. -/
def writtenIn (config : RenamerConfig) (style : NameStyle) : RenamerConfig where
  style := style
  debug := config.debug
  contractClasses := config.contractClasses.map fun entry => (style.ofDotted entry.1, entry.2)
  exceptions := config.exceptions.map fun entry => (style.ofDotted entry.1, entry.2)
  shadowTypes := config.shadowTypes.map style.ofDotted
  apiTypes := config.apiTypes.map style.ofDotted

/-- The host library is allowed under the same names in whichever style. -/
theorem withHostLibrary_writtenIn {config : RenamerConfig} (dotted : config.style = .dotted)
    (style : NameStyle) :
    (config.writtenIn style).withHostLibrary = config.withHostLibrary.writtenIn style := by
  simp [withHostLibrary, writtenIn, dotted, Function.comp_def]

end RenamerConfig

/-! ## Renamers of one configuration -/

namespace Renamer

/-- The renamer of the same lists that reads and writes names in another style. -/
def inStyle (renamer : Renamer) (style : NameStyle) : Renamer := { renamer with style := style }

variable {style : NameStyle} {mark name : Name} {world : World}

theorem listedName_ofDotted (absent : '/' ∉ name.toList) :
    listedName style mark (style.ofDotted name, world) = listedName .dotted mark (name, world) := by
  cases world <;>
    rw [listedName, listedName, style.toDotted_ofDotted absent, NameStyle.toDotted_dotted]

theorem mapM_listedName_ofDotted {entries : List (Name × World)}
    (absent : ∀ name ∈ entries.map Prod.fst, '/' ∉ name.toList) :
    (entries.map fun entry => (style.ofDotted entry.1, entry.2)).mapM (listedName style mark) =
      entries.mapM (listedName .dotted mark) := by
  induction entries with
  | nil => rfl
  | cons entry entries ih =>
      obtain ⟨hfirst, hrest⟩ := List.forall_mem_cons.1 absent
      rw [List.map_cons, List.mapM_cons, List.mapM_cons, listedName_ofDotted hfirst, ih hrest]

theorem map_toDotted_ofDotted {names : List Name} (absent : ∀ name ∈ names, '/' ∉ name.toList) :
    (names.map style.ofDotted).map style.toDotted = names.map NameStyle.dotted.toDotted := by
  rw [List.map_map]
  exact List.map_congr_left fun name hname => style.toDotted_ofDotted (absent name hname)

/-- The same names make the same renamer in whichever style they are written, and where they make
none, the same name is to blame. -/
theorem ofConfig_writtenIn {config : RenamerConfig} (dotted : config.style = .dotted)
    (absent : ∀ name ∈ config.names, '/' ∉ name.toList) (style : NameStyle) :
    ofConfig (config.writtenIn style) = (ofConfig config).map (·.inStyle style) := by
  simp only [RenamerConfig.names, List.forall_mem_append] at absent
  obtain ⟨⟨⟨hclasses, hexceptions⟩, hshadow⟩, hapi⟩ := absent
  simp only [ofConfig, RenamerConfig.writtenIn, dotted, mapM_listedName_ofDotted hclasses,
    mapM_listedName_ofDotted hexceptions, map_toDotted_ofDotted hshadow,
    map_toDotted_ofDotted hapi]
  cases config.contractClasses.mapM (listedName .dotted (userMark config.debug)) with
  | error error => rfl
  | ok contractClasses =>
      cases config.exceptions.mapM (listedName .dotted Zone.shadow.mark) with
      | error error => rfl
      | ok exceptions => rfl

section InStyle

variable {renamer : Renamer} (dotted : renamer.style = .dotted) (style : NameStyle) {name : Name}
  (absent : '/' ∉ name.toList)

include dotted absent

theorem toSandbox_inStyle (family? : Option Family) :
    (renamer.inStyle style).toSandbox (style.ofDotted name) family? =
      (renamer.toSandbox name family?).map style.ofDotted := by
  rw [toSandbox, toSandbox, dotted, NameStyle.around_dotted]
  exact style.around_ofDotted _ absent

theorem toSandboxOrReject_inStyle (family? : Option Family) :
    (renamer.inStyle style).toSandboxOrReject (style.ofDotted name) family? =
      (renamer.toSandboxOrReject name family?).map style.ofDotted := by
  rw [toSandboxOrReject, toSandboxOrReject, toSandbox_inStyle dotted style absent]
  cases renamer.toSandbox name family? <;> rfl

theorem toHost_inStyle : (renamer.inStyle style).toHost (style.ofDotted name) =
    (renamer.toHost name).map style.ofDotted := by
  rw [toHost_of_dotted dotted]
  exact style.around_ofDotted _ absent

theorem toExceptionWrapper_inStyle :
    (renamer.inStyle style).toExceptionWrapper (style.ofDotted name) =
      (renamer.toExceptionWrapper name).map style.ofDotted := by
  rw [toExceptionWrapper, toExceptionWrapper, dotted, NameStyle.around_dotted]
  exact style.around_ofDotted _ absent

theorem isArrayName_inStyle : (renamer.inStyle style).isArrayName (style.ofDotted name) =
    renamer.isArrayName name := by
  rw [isArrayName, isArrayName, dotted, NameStyle.toDotted_dotted]
  exact congrArg isArrayShaped (style.toDotted_ofDotted absent)

end InStyle

end Renamer

/-! ## Sandboxes in two styles -/

namespace Sandbox

/-- The sandbox with the same hierarchy and the same lists that reads and writes names in another
style. -/
def inStyle (sandbox : Sandbox) (style : NameStyle) : Sandbox where
  hierarchy := sandbox.hierarchy
  renamer := sandbox.renamer.inStyle style

/-- What one sandbox answers in a style is what the other one answers in the dotted style: answers
that are names are written in the style, and errors are the same.  The names that are asked about
are written in the style of the sandbox. -/
structure WritesAlike (style : NameStyle) (dotted written : Sandbox) (a b : Name) : Prop where
  toSandbox : ∀ family?, written.renamer.toSandbox (style.ofDotted a) family? =
    (dotted.renamer.toSandbox a family?).map style.ofDotted
  toSandboxOrReject : ∀ family?, written.renamer.toSandboxOrReject (style.ofDotted a) family? =
    (dotted.renamer.toSandboxOrReject a family?).map style.ofDotted
  toHost : written.renamer.toHost (style.ofDotted a) =
    (dotted.renamer.toHost a).map style.ofDotted
  toExceptionWrapper : written.renamer.toExceptionWrapper (style.ofDotted a) =
    (dotted.renamer.toExceptionWrapper a).map style.ofDotted
  isArrayName : written.renamer.isArrayName (style.ofDotted a) = dotted.renamer.isArrayName a
  ofClasses : written.commonSuperOfClasses (style.ofDotted a) (style.ofDotted b) =
    (dotted.commonSuperOfClasses a b).map (Option.map style.ofDotted)
  ofArrays : written.commonSuperOfArrays (style.ofDotted a) (style.ofDotted b) =
    (dotted.commonSuperOfArrays a b).map (Option.map style.ofDotted)
  commonSuper : written.commonSuper (style.ofDotted a) (style.ofDotted b) =
    (dotted.commonSuper a b).map style.ofDotted

section InStyle

variable {sandbox : Sandbox} (dotted : sandbox.renamer.style = .dotted) (style : NameStyle)
  {a b : Name} (absentA : '/' ∉ a.toList) (absentB : '/' ∉ b.toList)

include dotted absentA absentB

theorem commonSuperOfClasses_inStyle :
    (sandbox.inStyle style).commonSuperOfClasses (style.ofDotted a) (style.ofDotted b) =
      (sandbox.commonSuperOfClasses a b).map (Option.map style.ofDotted) := by
  rw [commonSuperOfClasses, commonSuperOfClasses, dotted, NameStyle.around₂_dotted]
  exact style.around₂_ofDotted _ absentA absentB

theorem commonSuperOfArrays_inStyle :
    (sandbox.inStyle style).commonSuperOfArrays (style.ofDotted a) (style.ofDotted b) =
      (sandbox.commonSuperOfArrays a b).map (Option.map style.ofDotted) := by
  rw [commonSuperOfArrays, commonSuperOfArrays, dotted, NameStyle.around₂_dotted]
  exact style.around₂_ofDotted _ absentA absentB

theorem commonSuper_inStyle :
    (sandbox.inStyle style).commonSuper (style.ofDotted a) (style.ofDotted b) =
      (sandbox.commonSuper a b).map style.ofDotted := by
  have hread : (sandbox.inStyle style).renamer.style = style := rfl
  by_cases hne : a = b
  · rw [hne, commonSuper_self, commonSuper_self]
    rfl
  · rw [commonSuper_of_ne dotted hne, commonSuper, hread, style.toDotted_ofDotted absentA,
      style.toDotted_ofDotted absentB, if_neg hne]
    rfl

theorem writesAlike_inStyle : WritesAlike style sandbox (sandbox.inStyle style) a b where
  toSandbox := Renamer.toSandbox_inStyle dotted style absentA
  toSandboxOrReject := Renamer.toSandboxOrReject_inStyle dotted style absentA
  toHost := Renamer.toHost_inStyle dotted style absentA
  toExceptionWrapper := Renamer.toExceptionWrapper_inStyle dotted style absentA
  isArrayName := Renamer.isArrayName_inStyle dotted style absentA
  ofClasses := commonSuperOfClasses_inStyle dotted style absentA absentB
  ofArrays := commonSuperOfArrays_inStyle dotted style absentA absentB
  commonSuper := commonSuper_inStyle dotted style absentA absentB

end InStyle

/-- One configuration in two styles makes no renamer for the same reason, or it makes two whose
sandboxes differ in the way they write.  The host library is allowed in either style alike. -/
theorem writesAlike_of_config {config : RenamerConfig} (dotted : config.style = .dotted)
    (absent : ∀ name ∈ config.names, '/' ∉ name.toList) (style : NameStyle) :
    ((∃ error, Renamer.ofConfig config = .error error ∧
        Renamer.ofConfig (config.writtenIn style) = .error error) ∨
      ∃ renamer written, Renamer.ofConfig config = .ok renamer ∧
        Renamer.ofConfig (config.writtenIn style) = .ok written ∧
        ∀ (hierarchy : Hierarchy) (a b : Name), '/' ∉ a.toList → '/' ∉ b.toList →
          WritesAlike style ⟨hierarchy, renamer⟩ ⟨hierarchy, written⟩ a b) ∧
    (config.writtenIn style).withHostLibrary = config.withHostLibrary.writtenIn style := by
  refine ⟨?_, RenamerConfig.withHostLibrary_writtenIn dotted style⟩
  have hwritten := Renamer.ofConfig_writtenIn dotted absent style
  cases hmade : Renamer.ofConfig config with
  | error error =>
      rw [hmade] at hwritten
      exact Or.inl ⟨error, rfl, hwritten⟩
  | ok renamer =>
      rw [hmade] at hwritten
      have hdotted : renamer.style = .dotted := (Renamer.ofConfig_eq_ok hmade).1.trans dotted
      refine Or.inr ⟨renamer, renamer.inStyle style, rfl, hwritten, ?_⟩
      intro hierarchy a b absentA absentB
      exact writesAlike_inStyle hdotted style absentA absentB

/-- Contract classes and an exception in packages that are called as zones are, two of them listed
by their sandbox names. -/
def sketchConfig : RenamerConfig where
  style := .dotted
  debug := false
  contractClasses := [("a.Circle", .host), ("user.i.Drawn", .sandbox)]
  exceptions := [("s.e.Torn", .sandbox)]
  shadowTypes := ["s.Paper"]
  apiTypes := []

theorem sketchConfig_writesAlike :
    (sketchConfig.style = .dotted ∧ (∀ name ∈ sketchConfig.names, '/' ∉ name.toList) ∧
      '/' ∉ "[[La.Circle;".toList ∧ '/' ∉ "w.__Ls.s.Paper".toList) ∧
    ∃ renamer written, Renamer.ofConfig sketchConfig = .ok renamer ∧
      Renamer.ofConfig (sketchConfig.writtenIn .slashed) = .ok written ∧
      WritesAlike .slashed ⟨sketchSandbox.hierarchy, renamer⟩ ⟨sketchSandbox.hierarchy, written⟩
        "[[La.Circle;" "w.__Ls.s.Paper" := by
  have absent : ∀ name ∈ sketchConfig.names, '/' ∉ name.toList := by decide +kernel
  have absentA : '/' ∉ "[[La.Circle;".toList := by decide
  have absentB : '/' ∉ "w.__Ls.s.Paper".toList := by decide
  refine ⟨⟨rfl, absent, absentA, absentB⟩, ?_⟩
  rcases (writesAlike_of_config rfl absent .slashed).1 with
    ⟨error, herror, -⟩ | ⟨renamer, written, hrenamer, hwritten, halike⟩
  · have hgranted : (Renamer.ofConfig sketchConfig).toOption.isSome := rfl
    rw [herror] at hgranted
    exact absurd hgranted (by simp [Except.toOption])
  · exact ⟨renamer, written, hrenamer, hwritten, halike _ _ _ absentA absentB⟩

end Sandbox

end SandboxTypes
