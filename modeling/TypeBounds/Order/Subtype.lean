import TypeBounds.Ty

/-! # The subtype order

Nominal types are ordered by inheritance with covariant arguments, callables by
contravariant parameters and a covariant result, tuples item by item. A callable
or a tuple is also below whatever its fallback is below. `dynamic` is related to
everything in both directions, so the order is transitive only without it.
-/

namespace TypeBounds

mutual
/-- Whether the first type may be used where the second is wanted. -/
def Ty.isSubtype : Ty → Ty → Bool
  | .dynamic, _ => true
  | _, .dynamic => true
  | .bottom, _ => true
  | .void, .void => true
  | .error, .error => true
  | .inst s, .inst t => s.isSubtype t
  | .callable params result fallback, .callable params' result' fallback' =>
      Ty.allSubtypes params' params && result.isSubtype result' && fallback.isSubtype fallback'
  | .callable _ _ fallback, .inst t => fallback.isSubtype t
  | .tuple items fallback, .tuple items' fallback' =>
      Ty.allSubtypes items items' && fallback.isSubtype fallback'
  | .tuple _ fallback, .inst t => fallback.isSubtype t
  | _, _ => false
termination_by s t => sizeOf s + sizeOf t
decreasing_by
  all_goals
    simp only [Ty.inst.sizeOf_spec, Ty.callable.sizeOf_spec, Ty.tuple.sizeOf_spec]
    omega

/-- Seen as an instance of the other's class, the first has smaller arguments. -/
def Instance.isSubtype (s t : Instance) : Bool :=
  match _found : s.view? t.name with
  | none => false
  | some view => Ty.allSubtypes view.args t.args
termination_by sizeOf s + sizeOf t
decreasing_by
  have viewArgs := Instance.sizeOf_args_lt_of_view? _found
  have targetArgs := t.sizeOf_args_lt
  omega

/-- Lists of one length, in order item by item. -/
def Ty.allSubtypes : List Ty → List Ty → Bool
  | [], [] => true
  | a :: as, b :: bs => a.isSubtype b && Ty.allSubtypes as bs
  | _, _ => false
termination_by as bs => sizeOf as + sizeOf bs
end

/-- Each below the other. -/
def Ty.isEquivalent (a b : Ty) : Bool :=
  a.isSubtype b && b.isSubtype a

end TypeBounds
