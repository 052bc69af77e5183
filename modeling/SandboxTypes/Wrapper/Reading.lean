import SandboxTypes.Wrapper

/-!
# Reading wrapper names

Three kinds of names share the mark of the precise family: hand-written names,
counted arrays of primitives and counted arrays of objects.  A class name inside a
wrapper name may itself start with anything, a marker included.  Reading is
unambiguous all the same: `Wrapper.ofName?_eq_some_iff` says that a text is read
as a wrapper exactly if it is the name of that wrapper.
-/

namespace SandboxTypes

namespace Wrapper

open ArrayType (ofDimension? ofDimension?_eq_some_iff)

/-- The wrapper has a name of its own: its array has a dimension, a class name is not empty, and
arrays of primitives count as precise. -/
def IsNameable (wrapper : Wrapper) : Prop :=
  wrapper.array.HasDimension ∧
    match wrapper.array.element with
    | .primitive _ => wrapper.family = .precise
    | .object base => base ≠ ""

/-- The element of a counted name, as it is written. -/
def countedElement : Element → List Char
  | .primitive type => [type.tag]
  | .object base => 'L' :: base.toList

theorem head?_countedElement (family : Family) (element : Element) :
    (countedElement element).head? ≠ some (marker family) := by
  cases family <;> cases element with
  | primitive type => cases type <;> decide
  | object base => simp [countedElement, marker]

theorem ofCounted?_eq_some_iff {dimension : Nat} {cs : List Char} {element : Element} :
    ofCounted? dimension cs = some element ↔
      cs = countedElement element ∧
        match element with
        | .primitive _ => 2 ≤ dimension
        | .object base => base ≠ "" := by
  constructor
  · intro h
    unfold ofCounted? at h
    split at h
    · exact absurd h (by simp)
    · rename_i base
      split at h
      · exact absurd h (by simp)
      · rename_i hne
        obtain rfl := Option.some.inj h
        exact ⟨by simp [countedElement],
          fun he => hne (by simpa using congrArg String.toList he)⟩
    · split at h
      · rename_i hcs
        obtain ⟨type, htype, rfl⟩ := Option.map_eq_some_iff.1 h
        exact ⟨by rw [countedElement, hcs.1, Primitive.ofTag?_eq_some_iff.1 htype], hcs.2⟩
      · exact absurd h (by simp)
  · rintro ⟨rfl, h⟩
    cases element with
    | primitive type => cases type <;> simp [countedElement, ofCounted?, Primitive.tag, h] <;> rfl
    | object base =>
      have hne : base.toList ≠ [] := fun he => h (String.toList_inj.1 he)
      simp [countedElement, ofCounted?, hne]

/-- What follows the mark of the zone in the name of a wrapper. -/
def localName (wrapper : Wrapper) : Name :=
  match wrapper.array.element with
  | .primitive type =>
    if wrapper.array.dimension = 1 then type.wrapperName
    else String.ofList (List.replicate wrapper.array.dimension '$' ++ [type.tag])
  | .object base =>
    String.ofList
      (List.replicate wrapper.array.dimension (marker wrapper.family) ++ 'L' :: base.toList)

theorem name_eq_qualify {wrapper : Wrapper} (h : wrapper.IsNameable) :
    wrapper.name = (zone wrapper.family).qualify wrapper.localName := by
  obtain ⟨⟨dimension, element⟩, family⟩ := wrapper
  cases element with
  | primitive type =>
    obtain rfl : family = .precise := h.2
    by_cases hd : dimension = 1 <;> simp [name, localName, counted, hd, zone, marker]
  | object base => rfl

theorem ofPrecise?_localName {array : ArrayType} (h : IsNameable ⟨array, .precise⟩) :
    ofPrecise? (localName ⟨array, .precise⟩) = some ⟨array, .precise⟩ := by
  obtain ⟨dimension, element⟩ := array
  by_cases hflat : ∃ type, dimension = 1 ∧ element = .primitive type
  · obtain ⟨type, rfl, rfl⟩ := hflat
    cases type <;> decide
  · have hdim : 1 ≤ dimension := h.1.1
    have hname : localName ⟨⟨dimension, element⟩, .precise⟩ =
        String.ofList (List.replicate dimension '$' ++ countedElement element) := by
      cases element with
      | primitive type =>
        have hd : dimension ≠ 1 := fun hd => hflat ⟨type, hd, rfl⟩
        simp [localName, countedElement, hd]
      | object base => rfl
    have hsplit := splitRun_replicate_append (head?_countedElement .precise element) dimension
    have hcounted : ofCounted? dimension (countedElement element) = some element := by
      refine ofCounted?_eq_some_iff.2 ⟨rfl, ?_⟩
      cases element with
      | primitive type =>
        have hd : dimension ≠ 1 := fun hd => hflat ⟨type, hd, rfl⟩
        show 2 ≤ dimension
        omega
      | object base => exact h.2
    have harray := ofDimension?_eq_some_iff.2 ⟨rfl, h.1⟩
    rw [hname, ofPrecise?, String.toList_ofList]
    simp only [marker] at hsplit
    rw [hsplit, if_neg (by show ¬dimension = 0; omega)]
    simp [hcounted, harray]

theorem ofUnifying?_localName {array : ArrayType} (h : IsNameable ⟨array, .unifying⟩) :
    ofUnifying? (localName ⟨array, .unifying⟩) = some ⟨array, .unifying⟩ := by
  obtain ⟨dimension, element⟩ := array
  cases element with
  | primitive type => exact absurd h.2 (by simp)
  | object base =>
    have hsplit := splitRun_replicate_append
      (head?_countedElement .unifying (.object base)) dimension
    have hne : base.toList ≠ [] := fun he => h.2 (String.toList_inj.1 he)
    have harray := ofDimension?_eq_some_iff.2 ⟨rfl, h.1⟩
    simp only [marker, countedElement] at hsplit
    simp [ofUnifying?, localName, marker, hsplit, hne, harray]

theorem eq_localName_of_ofPrecise? {rest : Name} {wrapper : Wrapper}
    (h : ofPrecise? rest = some wrapper) :
    wrapper.family = .precise ∧ wrapper.IsNameable ∧ rest = wrapper.localName := by
  unfold ofPrecise? at h
  split at h
  · obtain ⟨type, htype, rfl⟩ := Option.map_eq_some_iff.1 h
    exact ⟨rfl, ⟨ArrayType.hasDimension_one _, rfl⟩, Primitive.ofWrapperName?_eq_some_iff.1 htype⟩
  · obtain ⟨array, harray, rfl⟩ := Option.map_eq_some_iff.1 h
    obtain ⟨element, helement, hdim⟩ := Option.bind_eq_some_iff.1 harray
    obtain ⟨rfl, hdim⟩ := ofDimension?_eq_some_iff.1 hdim
    obtain ⟨hrest, hcond⟩ := ofCounted?_eq_some_iff.1 helement
    have happ := splitRun_append '$' rest.toList
    rw [hrest] at happ
    cases element with
    | primitive type =>
      have hd : (splitRun '$' rest.toList).1 ≠ 1 := by
        have : 2 ≤ (splitRun '$' rest.toList).1 := hcond
        omega
      refine ⟨rfl, ⟨hdim, rfl⟩, ?_⟩
      rw [← String.toList_inj]
      simp only [localName, hd, if_false, String.toList_ofList]
      exact happ.symm
    | object base =>
      refine ⟨rfl, ⟨hdim, hcond⟩, ?_⟩
      rw [← String.toList_inj, localName, String.toList_ofList]
      exact happ.symm

theorem eq_localName_of_ofUnifying? {rest : Name} {wrapper : Wrapper}
    (h : ofUnifying? rest = some wrapper) :
    wrapper.family = .unifying ∧ wrapper.IsNameable ∧ rest = wrapper.localName := by
  unfold ofUnifying? at h
  split at h
  · rename_i base hbase
    split at h
    · exact absurd h (by simp)
    · rename_i hne
      obtain ⟨array, harray, rfl⟩ := Option.map_eq_some_iff.1 h
      obtain ⟨rfl, hdim⟩ := ofDimension?_eq_some_iff.1 harray
      have happ := splitRun_append '_' rest.toList
      rw [hbase] at happ
      refine ⟨rfl, ⟨hdim, fun he => hne (by simpa using congrArg String.toList he)⟩, ?_⟩
      rw [← String.toList_inj, localName, String.toList_ofList, String.toList_ofList]
      exact happ.symm
  · exact absurd h (by simp)

/-- Reading a wrapper name accepts exactly what writing a nameable wrapper produces. -/
theorem ofName?_eq_some_iff {text : Name} {wrapper : Wrapper} :
    ofName? text = some wrapper ↔ text = wrapper.name ∧ wrapper.IsNameable := by
  constructor
  · intro h
    unfold ofName? at h
    split at h
    · rename_i rest hrest
      obtain ⟨hfamily, hw, rfl⟩ := eq_localName_of_ofUnifying? h
      refine ⟨?_, hw⟩
      rw [name_eq_qualify hw, hfamily, Zone.unqualify?_eq_some_iff.1 hrest]
      rfl
    · obtain ⟨rest, hrest, hprecise⟩ := Option.bind_eq_some_iff.1 h
      obtain ⟨hfamily, hw, rfl⟩ := eq_localName_of_ofPrecise? hprecise
      refine ⟨?_, hw⟩
      rw [name_eq_qualify hw, hfamily, Zone.unqualify?_eq_some_iff.1 hrest]
      rfl
  · rintro ⟨rfl, hw⟩
    rw [name_eq_qualify hw, ofName?]
    obtain ⟨array, family⟩ := wrapper
    cases family with
    | precise =>
      simp [zone, Zone.unqualify?_qualify_of_ne, ofPrecise?_localName hw]
    | unifying => simp [zone, ofUnifying?_localName hw]

/-! ### What is no wrapper -/

theorem ofName?_base (base : ArrayBase) : ofName? base.name = none := by
  cases base <;> decide

theorem ofBaseName?_of_ofName? {text : Name} {wrapper : Wrapper}
    (h : ofName? text = some wrapper) : ArrayBase.ofName? text = none := by
  cases hfound : ArrayBase.ofName? text with
  | none => rfl
  | some base =>
    rw [ArrayBase.ofName?_eq_some_iff.1 hfound, ofName?_base] at h
    exact absurd h (by simp)

/-- Wrappers lie in the zones of the two families. -/
theorem ofName?_qualify_of_ne {zone : Zone} (hprecise : zone ≠ .array)
    (hunifying : zone ≠ .unifying) (name : Name) : ofName? (zone.qualify name) = none := by
  rw [ofName?, Zone.unqualify?_qualify_of_ne (Ne.symm hunifying),
    Zone.unqualify?_qualify_of_ne (Ne.symm hprecise)]
  rfl

end Wrapper

end SandboxTypes
