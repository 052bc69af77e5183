/-!
# Class names

A class name is a text.  Two things are asked of it everywhere: whether it
continues a given mark (the leading text that names a namespace or a family),
and how many copies of one character it opens with (a dimension count).  Both
are stated here once, as a removal paired with the text it removes:

* `dropMark? mark name = some rest` says exactly that `name = mark ++ rest`;
* `splitRun marker cs = (n, rest)` says exactly that `cs` is `n` markers
  followed by `rest`, and that `rest` does not go on with the marker.
-/

namespace SandboxTypes

/-- The name of a class or an interface, or the descriptor of a host array. -/
abbrev Name := String

/-- What follows `mark` in a name that starts with it. -/
def dropMark? (mark name : Name) : Option Name :=
  (mark.toList.isPrefixOf? name.toList).map String.ofList

private theorem isPrefixOf?_eq_some {mark cs rest : List Char} :
    mark.isPrefixOf? cs = some rest ↔ cs = mark ++ rest := by
  induction mark generalizing cs with
  | nil =>
    show some cs = some rest ↔ _
    simp
  | cons m mark ih =>
    cases cs with
    | nil =>
      show none = some rest ↔ _
      simp
    | cons c cs =>
      show (if m == c then mark.isPrefixOf? cs else none) = some rest ↔ _
      by_cases h : m = c
      · simp [ih, h]
      · simp [h, Ne.symm h]

theorem dropMark?_eq_some_iff {mark name rest : Name} :
    dropMark? mark name = some rest ↔ name = mark ++ rest := by
  rw [dropMark?, Option.map_eq_some_iff]
  constructor
  · rintro ⟨cs, hcs, rfl⟩
    rw [isPrefixOf?_eq_some] at hcs
    rw [← String.toList_inj, String.toList_append, String.toList_ofList, hcs]
  · rintro rfl
    refine ⟨rest.toList, ?_, String.ofList_toList⟩
    rw [isPrefixOf?_eq_some, String.toList_append]

@[simp] theorem dropMark?_append (mark rest : Name) : dropMark? mark (mark ++ rest) = some rest :=
  dropMark?_eq_some_iff.2 rfl

/-- Splits off the leading run of one character: its length, and what follows it. -/
def splitRun (marker : Char) : List Char → Nat × List Char
  | [] => (0, [])
  | c :: cs =>
    if c = marker then ((splitRun marker cs).1 + 1, (splitRun marker cs).2) else (0, c :: cs)

/-- A run of `n` markers splits off whole where the text after it does not go on with one. -/
theorem splitRun_replicate_append {marker : Char} {rest : List Char}
    (stop : rest.head? ≠ some marker) (n : Nat) :
    splitRun marker (List.replicate n marker ++ rest) = (n, rest) := by
  induction n with
  | zero =>
    cases rest with
    | nil => rfl
    | cons c cs => simp_all [splitRun]
  | succ n ih => simp [List.replicate_succ, splitRun, ih]

theorem splitRun_append (marker : Char) (cs : List Char) :
    List.replicate (splitRun marker cs).1 marker ++ (splitRun marker cs).2 = cs := by
  induction cs with
  | nil => rfl
  | cons c cs ih =>
    by_cases h : c = marker
    · simp [splitRun, h, List.replicate_succ, ih]
    · simp [splitRun, h]

theorem head?_splitRun (marker : Char) (cs : List Char) :
    (splitRun marker cs).2.head? ≠ some marker := by
  induction cs with
  | nil => simp [splitRun]
  | cons c cs ih =>
    by_cases h : c = marker
    · simpa [splitRun, h] using ih
    · simp [splitRun, h]

/-- The split is the only way to write a text as a run and a text that does not prolong it. -/
theorem splitRun_eq_iff {marker : Char} {cs rest : List Char} {n : Nat} :
    splitRun marker cs = (n, rest) ↔
      cs = List.replicate n marker ++ rest ∧ rest.head? ≠ some marker := by
  constructor
  · intro h
    have happ := splitRun_append marker cs
    have hhead := head?_splitRun marker cs
    rw [h] at happ hhead
    exact ⟨happ.symm, hhead⟩
  · rintro ⟨rfl, stop⟩
    exact splitRun_replicate_append stop n

end SandboxTypes
