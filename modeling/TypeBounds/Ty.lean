/-! # Classes, instances and types

A class carries its whole chain of bases as a value, so walking the chain is
structural recursion. Nothing here checks that arguments fit a class: types
over a hierarchy that was put together carelessly are values like any others.
-/

namespace TypeBounds

mutual
/-- A nominal class with at most one base. The base's arguments are fixed when
    the class is made. -/
structure Class where
  /-- Tells separate declarations apart: two classes of one shape that were
      declared separately are different classes. -/
  serial : Nat
  name : String
  /-- How many type arguments an instance takes. -/
  arity : Int
  /-- Absent for a root. -/
  base : Option Instance

/-- A class applied to type arguments. -/
structure Instance where
  cls : Class
  args : List Ty

/-- The types the order and the solver work on. -/
inductive Ty where
  /-- A nominal type. -/
  | inst (i : Instance)
  /-- A function; `fallback` is the nominal type it may stand in for. -/
  | callable (params : List Ty) (result : Ty) (fallback : Instance)
  /-- A tuple of fixed length, with the nominal type it may stand in for. -/
  | tuple (items : List Ty) (fallback : Instance)
  /-- No value at all; combines only with itself. -/
  | void
  /-- Accepts everything and is accepted by everything. -/
  | dynamic
  /-- The most specific type. -/
  | bottom
  /-- What two types that cannot be combined combine to. -/
  | error
end

deriving instance Inhabited for Class
deriving instance Inhabited for Instance
deriving instance Inhabited for Ty

namespace Class

/-- The base, its base, and so on up to the root. -/
def bases : Class → List Instance
  | ⟨_, _, _, none⟩ => []
  | ⟨_, _, _, some ⟨c, args⟩⟩ => ⟨c, args⟩ :: c.bases

/-- The names of the class and of all its bases as a set: the set of the base with the name of
    the class put into it. -/
def ancestors : Class → List String
  | ⟨_, name, _, none⟩ => [name]
  | ⟨_, name, _, some ⟨c, _⟩⟩ => c.ancestors.insert name

/-- Whether `name` is the class itself or one of its bases. -/
def hasBase (c : Class) (name : String) : Bool :=
  c.ancestors.contains name

/-- The number of different names above the class's own. -/
def depth (c : Class) : Nat :=
  c.ancestors.length - 1

def isRoot (c : Class) : Bool :=
  c.base.isNone

/-- Stands where an instance was given no class. -/
def missing : Class := ⟨0, "<nil>", 0, none⟩

theorem sizeOf_lt_of_mem_bases {c : Class} {i : Instance} (member : i ∈ c.bases) :
    sizeOf i < sizeOf c := by
  fun_induction bases c with
  | case1 => simp at member
  | case2 serial name arity c args ih =>
      simp only [List.mem_cons] at member
      rcases member with rfl | above
      · simp only [Instance.mk.sizeOf_spec, Class.mk.sizeOf_spec, Option.some.sizeOf_spec]
        omega
      · have smaller := ih above
        simp only [Class.mk.sizeOf_spec, Option.some.sizeOf_spec, Instance.mk.sizeOf_spec]
        omega

theorem mem_ancestors_iff {c : Class} {n : String} :
    n ∈ c.ancestors ↔ n = c.name ∨ ∃ i ∈ c.bases, i.cls.name = n := by
  fun_induction ancestors c with
  | case1 => simp [bases]
  | case2 serial name arity c args ih =>
      simp only [List.mem_insert_iff, ih, bases, List.mem_cons, exists_eq_or_imp, eq_comm]

end Class

namespace Instance

def name (t : Instance) : String := t.cls.name

/-- The instance followed by the bases of its class, most specific first. -/
def ancestry (t : Instance) : List Instance := t :: t.cls.bases

/-- The set of names says what is on the chain of bases. -/
theorem hasBase_iff {t : Instance} {n : String} :
    t.cls.hasBase n ↔ ∃ i ∈ t.ancestry, i.name = n := by
  rw [Class.hasBase, List.contains_iff_mem, Class.mem_ancestors_iff, eq_comm (a := n)]
  simp only [ancestry, List.mem_cons, exists_eq_or_imp, name]

/-- The instance seen as one of the class called `name`: the first of that name
    in its ancestry. -/
def view? (t : Instance) (name : String) : Option Instance :=
  t.ancestry.find? (·.name == name)

theorem sizeOf_le_of_mem_ancestry {t i : Instance} (member : i ∈ t.ancestry) :
    sizeOf i ≤ sizeOf t := by
  simp only [ancestry, List.mem_cons] at member
  rcases member with rfl | above
  · omega
  · have smaller := Class.sizeOf_lt_of_mem_bases above
    cases t
    simp only [Instance.mk.sizeOf_spec] at *
    omega

theorem sizeOf_args_lt (t : Instance) : sizeOf t.args < sizeOf t := by
  cases t
  simp only [Instance.mk.sizeOf_spec]
  omega

theorem mem_ancestry_of_view? {t view : Instance} {name : String} (found : t.view? name = some view) :
    view ∈ t.ancestry :=
  List.mem_of_find?_eq_some found

/-- The arguments an instance has as one of its bases are smaller than it. -/
theorem sizeOf_args_lt_of_view? {t view : Instance} {name : String}
    (found : t.view? name = some view) : sizeOf view.args < sizeOf t := by
  have le := sizeOf_le_of_mem_ancestry (mem_ancestry_of_view? found)
  have lt := view.sizeOf_args_lt
  omega

end Instance

end TypeBounds
