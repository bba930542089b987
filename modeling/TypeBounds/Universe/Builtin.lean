import TypeBounds.Universe

/-! # Anchors and builtin classes

The anchors are the four nominal types that other parts refer to by role. The
builtin universe holds them and a handful of common classes.
-/

namespace TypeBounds

/-- The nominal types that callables, tuples and reports are anchored to. -/
structure Anchors where
  object : Instance
  typeType : Instance
  tuple : Instance
  function : Instance

/-- Why a universe has no anchors. -/
inductive AnchorError where
  | absent (name : String)
  | generic (name : String)
  deriving Repr, DecidableEq

def AnchorError.message : AnchorError → String
  | .absent name => s!"universe is missing basic class '{name}'"
  | .generic name => s!"basic class '{name}' cannot be generic"

namespace Universe

/-- A class of the universe that takes no arguments, as an instance. -/
def anchor (u : Universe) (name : String) : Except AnchorError Instance :=
  match u.lookup? name with
  | none => .error (.absent name)
  | some c => if c.arity = 0 then .ok ⟨c, []⟩ else .error (.generic name)

/-- The anchors of a universe; the first that is missing or generic is reported. -/
def anchors (u : Universe) : Except AnchorError Anchors := do
  let object ← u.anchor "object"
  let typeType ← u.anchor "type"
  let tuple ← u.anchor "tuple"
  let function ← u.anchor "function"
  return { object, typeType, tuple, function }

end Universe

namespace Builtin

def object : Class := ⟨0, "object", 0, none⟩

/-- A builtin class right below `object`. -/
def belowObject (serial : Nat) (name : String) (arity : Int) : Class :=
  ⟨serial, name, arity, some ⟨object, []⟩⟩

def typeType : Class := belowObject 1 "type" 0

def tuple : Class := belowObject 2 "tuple" 0

def function : Class := belowObject 3 "function" 0

def int : Class := belowObject 4 "int" 0

def float : Class := belowObject 5 "float" 0

def str : Class := belowObject 6 "str" 0

def list : Class := belowObject 7 "list" 1

def dict : Class := belowObject 8 "dict" 2

def bool : Class := ⟨9, "bool", 0, some ⟨int, []⟩⟩

/-- The ten builtin classes, sorted by name. -/
def classes : List Class :=
  [bool, dict, float, function, int, list, object, str, tuple, typeType]

def anchors : Anchors := ⟨⟨object, []⟩, ⟨typeType, []⟩, ⟨tuple, []⟩, ⟨function, []⟩⟩

end Builtin

/-- The universe of the ten builtin classes. -/
def Universe.builtin : Universe := .ofSorted Builtin.classes

end TypeBounds
