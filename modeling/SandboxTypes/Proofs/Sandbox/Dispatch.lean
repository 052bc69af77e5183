import SandboxTypes.Proofs.Sandbox.Operands

/-!
# Which rule answers

There is a question for classes and a question for arrays, and each declines what is
the other's.  Whether a name has the form of an array is found out in two ways: by a
test on the name (`isArrayShaped`), and by reading the array (`ArrayOperand.ofName?`).
The two agree on every name (`ArrayOperand.ofName?_eq_none_iff`).  In particular a name
that passes the test and stands for no array is an error of reading, and is not taken
for a class.

So exactly one of the two questions declines, and `commonSuper` has the answer of the
other one (`Sandbox.commonSuper_partition`).
-/

namespace SandboxTypes

/-! ## Reading a name and testing it -/

theorem ArrayOperand.ofName?_eq_none_iff {name : Name} :
    ofName? name = .ok none ↔ isArrayShaped name = false := by
  constructor
  · intro h
    cases hbase : ArrayBase.ofName? name with
    | some base => simp [ofName?, hbase] at h
    | none =>
        cases hwrapper : Wrapper.ofName? name with
        | some wrapper => simp [ofName?, hbase, hwrapper] at h
        | none =>
            cases hopens : ArrayType.opensDescriptor name with
            | false => simp [isArrayShaped, Wrapper.isName, hbase, hwrapper, hopens]
            | true =>
                -- what is read of a descriptor is an array of the host
                simp only [ofName?, hbase, hwrapper, hopens, if_true] at h
                obtain ⟨array, -, hread⟩ := map_eq_ok_iff.1 h
                exact absurd hread (by simp)
  · exact ofName?_plain

namespace NameStyle

variable {ε : Type} {f : Name → Name → Except ε (Option Name)} {a b : Name}

/-- A style neither makes an answer nor takes one away. -/
theorem around₂_eq_none_iff (style : NameStyle) :
    style.around₂ f a b = .ok none ↔ f (style.toDotted a) (style.toDotted b) = .ok none := by
  rw [around₂, map_eq_ok_iff]
  simp

end NameStyle

namespace Sandbox

variable {sandbox : Sandbox} {a b : Name}

/-! ## Declining -/

theorem mergePlain_eq_none_iff :
    sandbox.mergePlain a b = .ok none ↔ isArrayShaped a ∨ isArrayShaped b := by
  unfold mergePlain
  split
  case isTrue harray => simpa using harray
  case isFalse hplain =>
    constructor
    · intro h
      obtain ⟨merged, -, hmerged⟩ := map_eq_ok_iff.1 h
      exact absurd hmerged (by simp)
    · intro harray
      exact absurd harray (by simpa using hplain)

theorem mergeArrays_eq_none_iff :
    sandbox.mergeArrays a b = .ok none ↔ ¬ (isArrayShaped a ∨ isArrayShaped b) := by
  have hgranted : ∀ answer : Except MergeError Name, some <$> answer ≠ .ok none := by
    intro answer h
    obtain ⟨merged, -, hmerged⟩ := map_eq_ok_iff.1 h
    exact absurd hmerged (by simp)
  constructor
  · intro h
    obtain ⟨lhs, hlhs, h⟩ := bind_eq_ok_iff.1 h
    obtain ⟨rhs, hrhs, h⟩ := bind_eq_ok_iff.1 h
    cases lhs with
    | none =>
        cases rhs with
        | none =>
            have ha := ArrayOperand.ofName?_eq_none_iff.1 (mapError_eq_ok_iff.1 hlhs)
            have hb := ArrayOperand.ofName?_eq_none_iff.1 (mapError_eq_ok_iff.1 hrhs)
            simp [ha, hb]
        | some rhs => exact absurd h (hgranted _)
    | some lhs =>
        cases rhs with
        | none => exact absurd h (hgranted _)
        | some rhs =>
            change (if a = b then _ else some <$> sandbox.mergeOperands lhs rhs) = _ at h
            split at h
            case isTrue => exact absurd h (by simp [pure, Except.pure])
            case isFalse => exact absurd h (hgranted _)
  · intro h
    simp only [not_or, Bool.not_eq_true] at h
    rw [mergeArrays, ArrayOperand.ofName?_plain h.1, ArrayOperand.ofName?_plain h.2]
    rfl

/-! ## Answering -/

/-- What is merged is what the one question says that does not decline. -/
theorem map_some_merge (sandbox : Sandbox) (a b : Name) : (sandbox.merge a b).map some =
    if sandbox.mergeArrays a b = .ok none then sandbox.mergePlain a b
    else sandbox.mergeArrays a b := by
  split
  case isTrue hdeclined =>
    have hplain := mergeArrays_eq_none_iff.1 hdeclined
    rw [merge, hdeclined, mergePlain, if_neg (by simpa using hplain)]
    rfl
  case isFalse hanswered =>
    rw [merge]
    rcases hread : sandbox.mergeArrays a b with error | _ | merged
    · rfl
    · exact absurd hread hanswered
    · rfl

/-- Of the two questions exactly one declines: the one for classes where a name has the form of an
array, and the one for arrays where none has.  Two different names are merged as the other question
answers, be it by a type or by an error.  A name that is merged with itself is given back as it was
written, whatever it is. -/
theorem commonSuper_partition (sandbox : Sandbox) (a b : Name) :
    (sandbox.commonSuperOfClasses a b = .ok none ↔
      sandbox.renamer.isArrayName a ∨ sandbox.renamer.isArrayName b) ∧
    (sandbox.commonSuperOfArrays a b = .ok none ↔
      ¬ (sandbox.renamer.isArrayName a ∨ sandbox.renamer.isArrayName b)) ∧
    (sandbox.renamer.style.toDotted a ≠ sandbox.renamer.style.toDotted b →
      (sandbox.commonSuper a b).map some =
        if sandbox.commonSuperOfArrays a b = .ok none then sandbox.commonSuperOfClasses a b
        else sandbox.commonSuperOfArrays a b) ∧
    (sandbox.renamer.style.toDotted a = sandbox.renamer.style.toDotted b →
      sandbox.commonSuper a b = .ok a) := by
  refine ⟨?_, ?_, ?_, ?_⟩
  · exact (NameStyle.around₂_eq_none_iff _).trans mergePlain_eq_none_iff
  · exact (NameStyle.around₂_eq_none_iff _).trans mergeArrays_eq_none_iff
  · intro hne
    let style := sandbox.renamer.style
    calc (sandbox.commonSuper a b).map some
        = ((sandbox.merge (style.toDotted a) (style.toDotted b)).map some).map
            (Option.map style.ofDotted) := by
          rw [commonSuper, if_neg hne]
          cases sandbox.merge (style.toDotted a) (style.toDotted b) <;> rfl
      _ = _ := by
          rw [map_some_merge, apply_ite (Except.map (Option.map style.ofDotted))]
          simp only [commonSuperOfArrays, NameStyle.around₂_eq_none_iff]
          rfl
  · intro heq
    rw [commonSuper, if_pos heq]

/-- A sandbox of the roots alone that reads names with slashes. -/
def slashedRoots : Sandbox := ⟨Hierarchy.initial, ⟨.slashed, false, [], [], [], []⟩⟩

/-- A torn descriptor is an array that cannot be read, and the mark of a wrapper without its array
is no array at all. -/
theorem slashedRoots_commonSuper_partition :
    (slashedRoots.renamer.style.toDotted "[LTorn" ≠ slashedRoots.renamer.style.toDotted "a/$" ∧
      slashedRoots.renamer.style.toDotted "w._" = slashedRoots.renamer.style.toDotted "w/_") ∧
    slashedRoots.commonSuperOfClasses "[LTorn" "a/$" = .ok none ∧
    slashedRoots.commonSuperOfArrays "[LTorn" "a/$" ≠ .ok none ∧
    (slashedRoots.commonSuper "[LTorn" "a/$").map some =
      slashedRoots.commonSuperOfArrays "[LTorn" "a/$" ∧
    slashedRoots.commonSuper "w._" "w/_" = .ok "w._" := by
  have hne : slashedRoots.renamer.style.toDotted "[LTorn" ≠
      slashedRoots.renamer.style.toDotted "a/$" := by decide
  have heq : slashedRoots.renamer.style.toDotted "w._" =
      slashedRoots.renamer.style.toDotted "w/_" := by decide
  have htorn : slashedRoots.renamer.isArrayName "[LTorn" := by decide
  obtain ⟨hclasses, harrays, hanswer, -⟩ := commonSuper_partition slashedRoots "[LTorn" "a/$"
  have hread : slashedRoots.commonSuperOfArrays "[LTorn" "a/$" ≠ .ok none :=
    fun h => harrays.1 h (Or.inl htorn)
  have hmerged := hanswer hne
  rw [if_neg hread] at hmerged
  exact ⟨⟨hne, heq⟩, hclasses.2 (Or.inl htorn), hread, hmerged,
    (commonSuper_partition slashedRoots "w._" "w/_").2.2.2 heq⟩

end Sandbox

end SandboxTypes
