import SandboxTypes.Name

/-!
# Written styles of a name

Names are kept in dotted form.  A caller may also write them with slashes; the
two styles differ in the separator alone.  Everything that computes on names
does so on the dotted form, and a style is applied around it by
`NameStyle.around`, so that no answer can depend on the style in any other way.
-/

namespace SandboxTypes

/-- How the parts of a class name are separated in writing. -/
inductive NameStyle where
  | dotted
  | slashed
  deriving DecidableEq, Repr, Inhabited

namespace NameStyle

/-- The style that is meant where none is given. -/
def standard : NameStyle := .dotted

/-- The word for the style. -/
def label : NameStyle → String
  | dotted => "dotted"
  | slashed => "slashed"

/-- The character between two parts of a name. -/
def separator : NameStyle → Char
  | dotted => '.'
  | slashed => '/'

/-- Replaces every occurrence of one character by another. -/
def swap (old new : Char) (name : Name) : Name :=
  String.ofList (name.toList.map fun c => if c = old then new else c)

/-- Reads a name written in this style.  Under the slashed style a dot is read as it stands. -/
def toDotted : NameStyle → Name → Name
  | dotted, name => name
  | slashed, name => swap '/' '.' name

/-- Writes a dotted name in this style. -/
def ofDotted : NameStyle → Name → Name
  | dotted, name => name
  | slashed, name => swap '.' '/' name

@[simp] theorem toDotted_dotted (name : Name) : toDotted dotted name = name := rfl

@[simp] theorem ofDotted_dotted (name : Name) : ofDotted dotted name = name := rfl

theorem toList_swap (old new : Char) (name : Name) :
    (swap old new name).toList = name.toList.map fun c => if c = old then new else c := by
  rw [swap, String.toList_ofList]

/-- Swapping a character and swapping it back keeps every name without the second character. -/
theorem swap_swap {old new : Char} {name : Name} (absent : new ∉ name.toList) :
    swap new old (swap old new name) = name := by
  rw [← String.toList_inj, toList_swap, toList_swap, List.map_map]
  refine (List.map_congr_left fun c hc => ?_).trans (List.map_id _)
  have hne : c ≠ new := fun h => absent (h ▸ hc)
  by_cases h : c = old <;> simp [h, hne]

/-- A dotted name without slashes survives being written and read in either style. -/
theorem toDotted_ofDotted (style : NameStyle) {name : Name} (absent : '/' ∉ name.toList) :
    style.toDotted (style.ofDotted name) = name := by
  cases style with
  | dotted => rfl
  | slashed => exact swap_swap absent

/-- A name that is written in the style survives being read and written again. -/
theorem ofDotted_toDotted (style : NameStyle) {name : Name}
    (written : style = slashed → '.' ∉ name.toList) :
    style.ofDotted (style.toDotted name) = name := by
  cases style with
  | dotted => rfl
  | slashed => exact swap_swap (written rfl)

/-- Applies a function on dotted names to a written name, and writes its answer. -/
def around {ε : Type} (style : NameStyle) (f : Name → Except ε Name) (name : Name) :
    Except ε Name :=
  (f (style.toDotted name)).map style.ofDotted

/-- Applies a partial function on two dotted names to written names, and writes its answer. -/
def around₂ {ε : Type} (style : NameStyle) (f : Name → Name → Except ε (Option Name))
    (a b : Name) : Except ε (Option Name) :=
  (f (style.toDotted a) (style.toDotted b)).map (Option.map style.ofDotted)

@[simp] theorem around_dotted {ε : Type} (f : Name → Except ε Name) (name : Name) :
    around dotted f name = f name := by
  rw [around, toDotted_dotted]
  cases f name <;> rfl

@[simp] theorem around₂_dotted {ε : Type} (f : Name → Name → Except ε (Option Name))
    (a b : Name) : around₂ dotted f a b = f a b := by
  rw [around₂, toDotted_dotted, toDotted_dotted]
  rcases f a b with error | ⟨_ | merged⟩ <;> rfl

end NameStyle

end SandboxTypes
