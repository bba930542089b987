import TypeBounds.Order.Subtype
import TypeBounds.Ty.Same

/-! # Joins and meets

The join of two types is their least upper bound, the meet their greatest lower
bound. Each is defined through the other, because a callable's parameters vary
against it, and both go through the arguments of base classes, which are no
parts of the operands' own argument lists; they are parts of the classes, though,
so the sizes of the operands bound the recursion.
-/

namespace TypeBounds

/-- The nearest base of `s` that `t` has too, seen from `s` and from `t`. -/
def Instance.commonBase? (s t : Instance) : Option (Instance × Instance) :=
  s.ancestry.findSome? fun a => (t.view? a.name).map fun view => (a, view)

theorem Instance.commonBase?_eq_some {s t a view : Instance}
    (found : s.commonBase? t = some (a, view)) : a ∈ s.ancestry ∧ t.view? a.name = some view := by
  obtain ⟨b, member, eq⟩ := List.exists_of_findSome?_eq_some found
  obtain ⟨v, seen, pair⟩ := Option.map_eq_some_iff.mp eq
  obtain ⟨rfl, rfl⟩ := Prod.mk.inj pair
  exact ⟨member, seen⟩

theorem Instance.sizeOf_args_lt_of_commonBase? {s t a view : Instance}
    (found : s.commonBase? t = some (a, view)) :
    sizeOf a.args + sizeOf view.args < sizeOf s + sizeOf t := by
  obtain ⟨member, seen⟩ := commonBase?_eq_some found
  have le := sizeOf_le_of_mem_ancestry member
  have lt := a.sizeOf_args_lt
  have lt' := sizeOf_args_lt_of_view? seen
  omega

/-- Lists of one length over fallbacks of the same shape: such callables or tuples
    are combined part by part. -/
def Ty.similar (items items' : List Ty) (fallback fallback' : Instance) : Bool :=
  items.length == items'.length && fallback.same fallback'

/-- The one of two types that is below the other, the first if both are. -/
def Ty.lesser (s t : Ty) : Ty :=
  if s.isSubtype t then s
  else if t.isSubtype s then t
  else .bottom

mutual
/-- The least upper bound. Types of different shapes are joined through their
    fallbacks; `error` says that there is none. -/
def Ty.join : Ty → Ty → Ty
  | .dynamic, _ => .dynamic
  | _, .dynamic => .dynamic
  | .error, _ => .error
  | _, .error => .error
  | .void, .void => .void
  | .void, _ => .error
  | _, .void => .error
  | .bottom, t => t
  | s, .bottom => s
  | .inst s, .inst t => s.join t
  | .inst s, .callable _ _ fallback => fallback.join s
  | .inst s, .tuple _ fallback => fallback.join s
  | .callable _ _ fallback, .inst t => fallback.join t
  | .callable params result fallback, .callable params' result' fallback' =>
      if Ty.similar params params' fallback fallback' then
        .callable (Ty.meetAll params params') (result.join result') fallback'
      else fallback.join fallback'
  | .callable _ _ fallback, .tuple _ fallback' => fallback.join fallback'
  | .tuple _ fallback, .inst t => fallback.join t
  | .tuple _ fallback, .callable _ _ fallback' => fallback.join fallback'
  | .tuple items fallback, .tuple items' fallback' =>
      if Ty.similar items items' fallback fallback' then
        .tuple (Ty.joinAll items items') fallback'
      else fallback.join fallback'
termination_by s t => sizeOf s + sizeOf t
decreasing_by
  all_goals
    simp only [Ty.inst.sizeOf_spec, Ty.callable.sizeOf_spec, Ty.tuple.sizeOf_spec]
    omega

/-- The nearest common base, with its arguments as seen from both sides joined. -/
def Instance.join (s t : Instance) : Ty :=
  match _found : s.commonBase? t with
  | none => .error
  | some (a, view) =>
      if a.args.length = view.args.length then .inst ⟨a.cls, Ty.joinAll a.args view.args⟩
      else .error
termination_by sizeOf s + sizeOf t
decreasing_by exact Instance.sizeOf_args_lt_of_commonBase? _found

def Ty.joinAll : List Ty → List Ty → List Ty
  | a :: as, b :: bs => a.join b :: Ty.joinAll as bs
  | _, _ => []
termination_by as bs => sizeOf as + sizeOf bs

/-- The greatest lower bound. Types that cannot be combined part by part have one
    only when one of them is below the other; else it is `bottom`. -/
def Ty.meet : Ty → Ty → Ty
  | .dynamic, _ => .dynamic
  | _, .dynamic => .dynamic
  | .error, _ => .error
  | _, .error => .error
  | .void, .void => .void
  | .void, _ => .error
  | _, .void => .error
  | .bottom, _ => .bottom
  | _, .bottom => .bottom
  | .inst s, .inst t =>
      if s.name == t.name && s.args.length == t.args.length then
        .inst ⟨s.cls, Ty.meetAll s.args t.args⟩
      else Ty.lesser (.inst s) (.inst t)
  | .callable params result fallback, .callable params' result' fallback' =>
      if Ty.similar params params' fallback fallback' then
        .callable (Ty.joinAll params params') (result.meet result') fallback
      else Ty.lesser (.callable params result fallback) (.callable params' result' fallback')
  | .tuple items fallback, .tuple items' fallback' =>
      if Ty.similar items items' fallback fallback' then
        .tuple (Ty.meetAll items items') fallback
      else Ty.lesser (.tuple items fallback) (.tuple items' fallback')
  | s, t => Ty.lesser s t
termination_by s t => sizeOf s + sizeOf t
decreasing_by
  · have left := s.sizeOf_args_lt
    have right := t.sizeOf_args_lt
    simp only [Ty.inst.sizeOf_spec]
    omega
  all_goals
    simp only [Ty.callable.sizeOf_spec, Ty.tuple.sizeOf_spec]
    omega

def Ty.meetAll : List Ty → List Ty → List Ty
  | a :: as, b :: bs => a.meet b :: Ty.meetAll as bs
  | _, _ => []
termination_by as bs => sizeOf as + sizeOf bs
end

end TypeBounds
