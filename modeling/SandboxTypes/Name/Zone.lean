import SandboxTypes.Name

/-!
# Zones of the sandbox namespace

Every name inside the sandbox belongs to a zone, told by the mark the name
starts with.  Host names carry no mark.  Since every mark is a lower-case letter
or word followed by a dot, no mark starts another one.
-/

namespace SandboxTypes

/-- The parts of the sandbox namespace. -/
inductive Zone where
  /-- Classes of the contract. -/
  | user
  /-- Counterparts of the standard library. -/
  | shadow
  /-- Types that face the host. -/
  | api
  /-- Hand-written types of the sandbox itself. -/
  | internal
  /-- Array base types and precise array wrappers. -/
  | array
  /-- Unifying array wrappers. -/
  | unifying
  /-- Carriers of a host exception that is thrown again inside the sandbox. -/
  | exception
  deriving DecidableEq, Repr

namespace Zone

/-- All zones. -/
def all : List Zone := [user, shadow, api, internal, array, unifying, exception]

/-- The text that every name of the zone starts with. -/
def mark : Zone → Name
  | user => "user."
  | shadow => "s."
  | api => "p."
  | internal => "i."
  | array => "a."
  | unifying => "w."
  | exception => "e."

/-- Places a name in the zone. -/
def qualify (zone : Zone) (name : Name) : Name := zone.mark ++ name

/-- The name that the zone qualifies, where there is one. -/
def unqualify? (zone : Zone) (name : Name) : Option Name := dropMark? zone.mark name

/-- A name lies in the zone if it starts with the mark of the zone. -/
def covers (zone : Zone) (name : Name) : Bool := (zone.unqualify? name).isSome

theorem unqualify?_eq_some_iff {zone : Zone} {name rest : Name} :
    zone.unqualify? name = some rest ↔ name = zone.qualify rest :=
  dropMark?_eq_some_iff

@[simp] theorem unqualify?_qualify (zone : Zone) (name : Name) :
    zone.unqualify? (zone.qualify name) = some name :=
  unqualify?_eq_some_iff.2 rfl

@[simp] theorem covers_qualify (zone : Zone) (name : Name) : zone.covers (zone.qualify name) := by
  simp [covers]

theorem qualify_ne {zone : Zone} {other : Name} (h : zone.covers other = false) (name : Name) :
    zone.qualify name ≠ other := by
  rintro rfl
  rw [covers_qualify] at h
  exact absurd h (by simp)

theorem qualify_injective (zone : Zone) {a b : Name} (h : zone.qualify a = zone.qualify b) :
    a = b := by
  have ha := unqualify?_qualify zone a
  rw [h, unqualify?_qualify] at ha
  exact (Option.some.inj ha).symm

/-- The zones are disjoint: a name is qualified by at most one of them. -/
theorem eq_of_qualify_eq {z₁ z₂ : Zone} {a b : Name} (h : z₁.qualify a = z₂.qualify b) :
    z₁ = z₂ := by
  have hlist : z₁.mark.toList ++ a.toList = z₂.mark.toList ++ b.toList := by
    simpa [qualify] using congrArg String.toList h
  cases z₁ <;> cases z₂ <;> simp [mark] at hlist ⊢

theorem unqualify?_qualify_of_ne {z₁ z₂ : Zone} (h : z₁ ≠ z₂) (name : Name) :
    z₁.unqualify? (z₂.qualify name) = none := by
  cases hz : z₁.unqualify? (z₂.qualify name) with
  | none => rfl
  | some rest => exact absurd (eq_of_qualify_eq (unqualify?_eq_some_iff.1 hz)).symm h

end Zone

end SandboxTypes
