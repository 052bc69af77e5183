import SandboxTypes.ArrayType.Descriptor

/-!
# The format of descriptors

`Describes` is the format, written down character by character and without the
functions that print and read it.  A descriptor counts up to 255 dimensions in
brackets, and then comes one letter for a primitive type, or a class name between `L`
and a semicolon.

The class name may hold anything but a semicolon, and that includes brackets, the
letter `L` and whole descriptors of primitive arrays.  No text is ambiguous for that:
the brackets end at the first other character, and the semicolon is the last one.
So reading accepts the texts of the format and nothing else, and it is inverse to
printing in both directions.
-/

namespace SandboxTypes

namespace ArrayType

/-- The format of descriptors: which text stands for which array type. -/
inductive Describes : Name → ArrayType → Prop where
  | primitive {dimension : Nat} (least : 1 ≤ dimension) (most : dimension ≤ 255)
      (type : Primitive) :
      Describes (String.ofList (List.replicate dimension '[' ++ [type.tag]))
        ⟨dimension, .primitive type⟩
  | object {dimension : Nat} (least : 1 ≤ dimension) (most : dimension ≤ 255) {base : Name}
      (nonempty : base ≠ "") (closed : ';' ∉ base.toList) :
      Describes (String.ofList (List.replicate dimension '[' ++ ('L' :: base.toList ++ [';'])))
        ⟨dimension, .object base⟩

variable {text : Name} {array : ArrayType}

theorem Describes.isWritable (h : Describes text array) : array.IsWritable := by
  cases h with
  | primitive least most type => exact ⟨⟨least, most⟩, trivial⟩
  | object least most nonempty closed => exact ⟨⟨least, most⟩, nonempty, closed⟩

theorem Describes.eq_descriptor (h : Describes text array) : text = array.descriptor := by
  cases h with
  | primitive least most type => rfl
  | object least most nonempty closed => rfl

/-- What is printed for an array type that can be written is in the format. -/
theorem describes_descriptor (h : array.IsWritable) : Describes array.descriptor array := by
  obtain ⟨dimension, element⟩ := array
  obtain ⟨⟨least, most⟩, helement⟩ := h
  cases element with
  | primitive type => exact .primitive least most type
  | object base => exact .object least most helement.1 helement.2

theorem ofDescriptor?_eq_some_iff_describes :
    ofDescriptor? text = some array ↔ Describes text array := by
  rw [ofDescriptor?_eq_some_iff]
  constructor
  · rintro ⟨rfl, h⟩
    exact describes_descriptor h
  · intro h
    exact ⟨h.eq_descriptor, h.isWritable⟩

/-- A text is read as an array type exactly if the format says that it stands for it, and then it is
what is printed for the array type.  Every array type with a dimension that an array can have, and
with elements that can be written, is read back from what is printed for it. -/
theorem ofDescriptor?_inverse_descriptor :
    (∀ text array, ofDescriptor? text = some array ↔ Describes text array) ∧
    (∀ text array, ofDescriptor? text = some array → array.descriptor = text) ∧
    ∀ array : ArrayType, array.HasDimension → array.element.IsWritable →
      ofDescriptor? array.descriptor = some array := by
  refine ⟨fun text array => ofDescriptor?_eq_some_iff_describes, fun text array h => ?_,
    fun array hdim helement => ?_⟩
  · exact (ofDescriptor?_eq_some_iff_describes.1 h).eq_descriptor.symm
  · exact ofDescriptor?_eq_some_iff_describes.2 (describes_descriptor ⟨hdim, helement⟩)

/-- The class of the elements is named by a bracket and the letter that announces a class. -/
theorem ofDescriptor?_inverse_descriptor_bracket :
    ofDescriptor? "[[L[L;" = some ⟨2, .object "[L"⟩ ∧
      Describes "[[L[L;" ⟨2, .object "[L"⟩ ∧
      ArrayType.descriptor ⟨2, .object "[L"⟩ = "[[L[L;" ∧
    (HasDimension ⟨255, .object "[L"⟩ ∧ (Element.object "[L").IsWritable ∧
      ofDescriptor? (ArrayType.descriptor ⟨255, .object "[L"⟩) = some ⟨255, .object "[L"⟩) := by
  have hread : ofDescriptor? "[[L[L;" = some ⟨2, .object "[L"⟩ := by rfl
  have hdim : HasDimension ⟨255, .object "[L"⟩ := by decide
  have helement : (Element.object "[L").IsWritable := ⟨by decide, by decide⟩
  obtain ⟨hformat, hprint, hback⟩ := ofDescriptor?_inverse_descriptor
  exact ⟨hread, (hformat _ _).1 hread, hprint _ _ hread, hdim, helement, hback _ hdim helement⟩

/-- The brackets are counted on beyond the last dimension. -/
example : ofDescriptor? (String.ofList (List.replicate 256 '[' ++ ['I'])) = none := by
  rw [ofDescriptor?, String.toList_ofList]
  decide +kernel

end ArrayType

end SandboxTypes
