import TypeBounds.Order.Extrema
import TypeBounds.Ty.Printer

/-! # Lattices over bounds

A bound is a type or absent. Joins, meets and comparisons of present types always
have an answer; with an absent operand there is one only where the other operand
decides it alone. A `Lattice` is what the solver combines bounds with: `nominal`
is the order on types, `flat` relates a type to itself only.
-/

namespace TypeBounds

/-- A type, or absent while nothing bounds a variable. -/
abbrev Bound := Option Ty

/-- A combination that has no answer. -/
inductive Undefined where
  | join (s t : Bound)
  /-- The left side of a comparison is absent. -/
  | comparison

/-- The word for the shape of a bound. -/
def Bound.shape : Bound → String
  | none => "<nil>"
  | some (.inst _) => "types.Instance"
  | some (.callable ..) => "types.Callable"
  | some (.tuple ..) => "types.Tuple"
  | some .void => "types.Void"
  | some .dynamic => "types.Dynamic"
  | some .bottom => "types.Bottom"
  | some .error => "types.ErrorType"

def Undefined.message : Undefined → String
  | .join s t => s!"Join not implemented for {s.shape} and {t.shape}"
  | .comparison => "IsSubtype not implemented for <nil>"

namespace Bound

def same : Bound → Bound → Bool
  | some s, some t => s.same t
  | none, none => true
  | _, _ => false

/-- An absent bound is below itself and `dynamic`; `dynamic` and `bottom` are below it. -/
def isSubtype : Bound → Bound → Except Undefined Bool
  | some s, some t => .ok (s.isSubtype t)
  | none, none => .ok true
  | none, some .dynamic => .ok true
  | none, some _ => .error .comparison
  | some .dynamic, none => .ok true
  | some .bottom, none => .ok true
  | some _, none => .ok false

def isEquivalent (a b : Bound) : Except Undefined Bool := do
  if ← a.isSubtype b then b.isSubtype a else return false

/-- The join of a type with an absent bound, where the type alone decides it. -/
def joinAbsent? : Ty → Option Bound
  | .dynamic => some (some .dynamic)
  | .error => some (some .error)
  | .void => some (some .error)
  | .bottom => some none
  | _ => none

def join : Bound → Bound → Except Undefined Bound
  | some s, some t => .ok (some (s.join t))
  | none, none => .error (.join none none)
  | some s, none => (joinAbsent? s).elim (.error (.join (some s) none)) .ok
  | none, some t => (joinAbsent? t).elim (.error (.join none (some t))) .ok

/-- The meet of a type with an absent bound, where the type alone decides it. -/
def meetAbsent? : Ty → Option Bound
  | .dynamic => some (some .dynamic)
  | .error => some (some .error)
  | .void => some (some .error)
  | .bottom => some (some .bottom)
  | _ => none

def meet : Bound → Bound → Except Undefined Bound
  | some s, some t => .ok (some (s.meet t))
  | none, none => .ok none
  | some s, none => (meetAbsent? s).elim (.error .comparison) .ok
  | none, some t => (meetAbsent? t).elim (.error .comparison) .ok

end Bound

/-- The operations bounds are combined and compared with. -/
structure Lattice where
  join : Bound → Bound → Except Undefined Bound
  meet : Bound → Bound → Except Undefined Bound
  isSubtype : Bound → Bound → Except Undefined Bool

namespace Lattice

/-- The order on types. -/
def nominal : Lattice := ⟨Bound.join, Bound.meet, Bound.isSubtype⟩

/-- Only types of the same shape are related; others combine to `error`. -/
def flat : Lattice where
  join a b := .ok (if a.same b then a else some .error)
  meet a b := .ok (if a.same b then a else some .error)
  isSubtype a b := .ok (a.same b)

end Lattice

end TypeBounds
