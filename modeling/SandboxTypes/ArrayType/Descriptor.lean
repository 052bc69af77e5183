import SandboxTypes.ArrayType

/-!
# Array descriptors

The host writes an array type as its dimension in opening brackets followed by
the element: a primitive tag, or a class name between `L` and a semicolon.
`ArrayType.descriptor` prints, `ArrayType.ofDescriptor?` reads.

A class name inside a descriptor is not empty and holds no semicolon; brackets
and all other characters are allowed in it.  `Element.IsWritable` says so, and
under it reading accepts exactly what printing produces
(`ArrayType.ofDescriptor?_eq_some_iff`).
-/

namespace SandboxTypes

/-- What is wrong with a text that should be a descriptor. -/
inductive DescriptorError where
  | invalid
  deriving DecidableEq, Repr

/-- The text reported for an error. -/
def DescriptorError.message : DescriptorError → String
  | invalid => "Invalid descriptor"

namespace Element

/-- The element as the end of a descriptor. -/
def descriptor : Element → List Char
  | primitive type => [type.tag]
  | object base => 'L' :: base.toList ++ [';']

/-- Reads a name that is closed by a semicolon, the only one in the text. -/
def closedName? (cs : List Char) : Option (List Char) :=
  if cs.takeWhile (· ≠ ';') ≠ [] ∧ cs.dropWhile (· ≠ ';') = [';'] then
    some (cs.takeWhile (· ≠ ';'))
  else none

/-- Reads the end of a descriptor. -/
def ofDescriptor? : List Char → Option Element
  | [] => none
  | 'L' :: cs => (closedName? cs).map fun base => object (String.ofList base)
  | c :: cs => if cs = [] then (Primitive.ofTag? c).map primitive else none

/-- The element can stand in a descriptor: a class name is not empty and holds no semicolon. -/
def IsWritable : Element → Prop
  | primitive _ => True
  | object base => base ≠ "" ∧ ';' ∉ base.toList

theorem closedName?_eq_some_iff {cs base : List Char} :
    closedName? cs = some base ↔ cs = base ++ [';'] ∧ base ≠ [] ∧ ';' ∉ base := by
  unfold closedName?
  constructor
  · intro h
    split at h
    · rename_i hclosed
      obtain rfl := Option.some.inj h
      refine ⟨?_, hclosed.1, fun hmem => ?_⟩
      · rw [← hclosed.2, List.takeWhile_append_dropWhile]
      · simpa using List.all_eq_true.1 List.all_takeWhile _ hmem
    · exact absurd h (by simp)
  · rintro ⟨rfl, hne, hmem⟩
    have hall : ∀ c ∈ base, decide (c ≠ ';') = true := fun c hc =>
      decide_eq_true fun h => hmem (h ▸ hc)
    rw [List.takeWhile_append_of_pos hall, List.dropWhile_append_of_pos hall]
    simp [hne]

theorem ofDescriptor?_descriptor {element : Element} (h : element.IsWritable) :
    ofDescriptor? element.descriptor = some element := by
  cases element with
  | primitive type => cases type <;> decide
  | object base =>
    have hbase : base.toList ≠ [] := fun he => h.1 (String.toList_inj.1 he)
    have := closedName?_eq_some_iff.2 ⟨rfl, hbase, h.2⟩
    simp [descriptor, ofDescriptor?, this]

theorem eq_descriptor_of_ofDescriptor? {cs : List Char} {element : Element}
    (h : ofDescriptor? cs = some element) : cs = element.descriptor ∧ element.IsWritable := by
  unfold ofDescriptor? at h
  split at h
  · exact absurd h (by simp)
  · obtain ⟨base, hbase, rfl⟩ := Option.map_eq_some_iff.1 h
    obtain ⟨rfl, hne, hmem⟩ := closedName?_eq_some_iff.1 hbase
    refine ⟨by simp [descriptor], fun he => hne ?_, by simpa using hmem⟩
    simpa using congrArg String.toList he
  · split at h
    · rename_i hcs
      obtain ⟨type, htype, rfl⟩ := Option.map_eq_some_iff.1 h
      exact ⟨by rw [descriptor, hcs, Primitive.ofTag?_eq_some_iff.1 htype], trivial⟩
    · exact absurd h (by simp)

/-- Reading an element accepts exactly what printing a writable one produces. -/
theorem ofDescriptor?_eq_some_iff {cs : List Char} {element : Element} :
    ofDescriptor? cs = some element ↔ cs = element.descriptor ∧ element.IsWritable :=
  ⟨eq_descriptor_of_ofDescriptor?, fun ⟨hcs, h⟩ => hcs ▸ ofDescriptor?_descriptor h⟩

/-- The end of a descriptor is told apart from the brackets before it. -/
theorem head?_descriptor (element : Element) : element.descriptor.head? ≠ some '[' := by
  cases element with
  | primitive type => cases type <;> decide
  | object base => simp [descriptor]

end Element

namespace ArrayType

/-- The descriptor of the array type. -/
def descriptor (array : ArrayType) : Name :=
  String.ofList (List.replicate array.dimension '[' ++ array.element.descriptor)

/-- Reads a descriptor. -/
def ofDescriptor? (text : Name) : Option ArrayType :=
  (Element.ofDescriptor? (splitRun '[' text.toList).2).bind
    (ofDimension? (splitRun '[' text.toList).1)

/-- The array type can be read back from its descriptor. -/
def IsWritable (array : ArrayType) : Prop := array.HasDimension ∧ array.element.IsWritable

/-- Reading a descriptor accepts exactly what printing a writable array type produces. -/
theorem ofDescriptor?_eq_some_iff {text : Name} {array : ArrayType} :
    ofDescriptor? text = some array ↔ text = array.descriptor ∧ array.IsWritable := by
  rw [ofDescriptor?, Option.bind_eq_some_iff]
  constructor
  · rintro ⟨element, helement, harray⟩
    obtain ⟨rfl, hdim⟩ := ofDimension?_eq_some_iff.1 harray
    obtain ⟨hrest, hw⟩ := Element.ofDescriptor?_eq_some_iff.1 helement
    refine ⟨?_, hdim, hw⟩
    rw [← String.toList_inj, descriptor, String.toList_ofList, ← hrest, splitRun_append]
  · rintro ⟨rfl, hdim, hw⟩
    have hsplit := splitRun_replicate_append array.element.head?_descriptor array.dimension
    rw [descriptor, String.toList_ofList, hsplit]
    exact ⟨array.element, Element.ofDescriptor?_descriptor hw,
      ofDimension?_eq_some_iff.2 ⟨rfl, hdim⟩⟩

theorem descriptor_injective {v w : ArrayType} (hv : v.IsWritable) (hw : w.IsWritable)
    (h : v.descriptor = w.descriptor) : v = w := by
  have hreadV := ofDescriptor?_eq_some_iff.2 ⟨rfl, hv⟩
  have hreadW := ofDescriptor?_eq_some_iff.2 ⟨rfl, hw⟩
  rw [h, hreadW] at hreadV
  exact (Option.some.inj hreadV).symm

/-- Checks if a text starts as array descriptors do. -/
def opensDescriptor (text : Name) : Bool := text.toList.head? = some '['

theorem opensDescriptor_descriptor {array : ArrayType} (h : array.HasDimension) :
    opensDescriptor array.descriptor := by
  obtain ⟨dimension, element⟩ := array
  cases dimension with
  | zero => exact absurd h.1 (by simp)
  | succ dimension => simp [opensDescriptor, descriptor, List.replicate_succ]

end ArrayType

end SandboxTypes
