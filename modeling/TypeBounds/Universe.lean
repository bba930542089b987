import TypeBounds.Ty.Same
import TypeBounds.Ty.Printer

/-! # Universes of classes

A universe holds classes under their names, in the order of the names. A class
is added only when its name is free, its arity is not negative, and its base is
the very class the universe holds under that name, applied to as many arguments
as it takes.
-/

namespace TypeBounds

/-- A persistent map from names to classes, sorted by name. -/
@[ext]
structure Universe where
  entries : List (String × Class)
  /-- Each class is kept under its own name. -/
  named : ∀ entry ∈ entries, entry.2.name = entry.1

/-- Why a class cannot be added. -/
inductive DefineError where
  | alreadyDefined (name : String)
  | negativeArity (name : String) (arity : Int)
  | unknownBase (name base : String)
  | baseArity (name base : String) (expected : Int) (found : Nat)
  deriving Repr, DecidableEq

def DefineError.message : DefineError → String
  | .alreadyDefined name => s!"class '{name}' is already defined"
  | .negativeArity name arity => s!"class '{name}' cannot have {arity} type parameters"
  | .unknownBase name base => s!"base '{base}' of class '{name}' is not defined"
  | .baseArity name base expected found =>
      s!"base '{base}' of class '{name}' expects {expected} type arguments, found {found}"

namespace Universe

def empty : Universe := ⟨[], nofun⟩

def lookup? (u : Universe) (name : String) : Option Class := u.entries.lookup name

def size (u : Universe) : Nat := u.entries.length

/-- The classes in the order of their names. -/
def classes (u : Universe) : List Class := u.entries.map (·.2)

/-- Put an entry before the first one with a greater name. -/
def insertSorted (entry : String × Class) : List (String × Class) → List (String × Class)
  | [] => [entry]
  | first :: rest =>
      if entry.1 < first.1 then entry :: first :: rest else first :: insertSorted entry rest

theorem insertSorted_perm (entry : String × Class) (entries : List (String × Class)) :
    (insertSorted entry entries).Perm (entry :: entries) := by
  induction entries with
  | nil => exact .refl _
  | cons first rest ih =>
      rw [insertSorted]
      split
      · exact .refl _
      · exact (ih.cons first).trans (.swap entry first rest)

/-- The universe with one more class. -/
def insert (u : Universe) (c : Class) : Universe where
  entries := insertSorted (c.name, c) u.entries
  named entry member := by
    rcases List.mem_cons.mp ((insertSorted_perm _ _).mem_iff.mp member) with rfl | old
    · rfl
    · exact u.named entry old

/-- The universe of classes that are sorted by name. -/
def ofSorted (cs : List Class) : Universe where
  entries := cs.map fun c => (c.name, c)
  named entry member := by
    obtain ⟨c, -, rfl⟩ := List.mem_map.mp member
    rfl

/-- Check that a base is held by the universe and has the right number of arguments. -/
def checkBase (u : Universe) (name : String) (base : Instance) : Except DefineError Unit :=
  match u.lookup? base.name with
  | none => .error (.unknownBase name base.name)
  | some known =>
      if known = base.cls then
        if (base.args.length : Int) = known.arity then .ok ()
        else .error (.baseArity name base.name known.arity base.args.length)
      else .error (.unknownBase name base.name)

/-- Add a class with the given serial number. The universe itself is left as it was;
    the answer is the larger one together with the class. -/
def defineAs (u : Universe) (serial : Nat) (name : String) (arity : Int) (base : Option Instance) :
    Except DefineError (Universe × Class) :=
  if (u.lookup? name).isSome then .error (.alreadyDefined name)
  else if arity < 0 then .error (.negativeArity name arity)
  else
    let c : Class := ⟨serial, name, arity, base⟩
    let larger : Universe × Class := (u.insert c, c)
    match base with
    | none => .ok larger
    | some b => (u.checkBase name b).map fun _ => larger

/-- Add a class whose serial number is the number of classes before it. -/
def define (u : Universe) (name : String) (arity : Int) (base : Option Instance) :
    Except DefineError (Universe × Class) :=
  u.defineAs u.size name arity base

end Universe

end TypeBounds
