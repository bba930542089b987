import TypeBounds.Order.Lattice

/-! # Where a join or a meet fails

Combining two types walks down to pairs of nominal types. A pair without a common
base clashes: that part of the result is `error`. The clashes are listed here in
the order in which the parts are combined.
-/

namespace TypeBounds

/-- Two nominal types without a common base, or with base arguments that do not match. -/
structure Clash where
  left : Instance
  right : Instance

mutual
def Ty.joinClashes : Ty → Ty → List Clash
  | .inst s, .inst t => s.joinClashes t
  | .inst s, .callable _ _ fallback => fallback.joinClashes s
  | .inst s, .tuple _ fallback => fallback.joinClashes s
  | .callable _ _ fallback, .inst t => fallback.joinClashes t
  | .callable params result fallback, .callable params' result' fallback' =>
      if Ty.similar params params' fallback fallback' then
        Ty.meetAllClashes params params' ++ result.joinClashes result'
      else fallback.joinClashes fallback'
  | .callable _ _ fallback, .tuple _ fallback' => fallback.joinClashes fallback'
  | .tuple _ fallback, .inst t => fallback.joinClashes t
  | .tuple _ fallback, .callable _ _ fallback' => fallback.joinClashes fallback'
  | .tuple items fallback, .tuple items' fallback' =>
      if Ty.similar items items' fallback fallback' then Ty.joinAllClashes items items'
      else fallback.joinClashes fallback'
  | _, _ => []
termination_by s t => sizeOf s + sizeOf t
decreasing_by
  all_goals
    simp only [Ty.inst.sizeOf_spec, Ty.callable.sizeOf_spec, Ty.tuple.sizeOf_spec]
    omega

def Instance.joinClashes (s t : Instance) : List Clash :=
  match _found : s.commonBase? t with
  | none => [⟨s, t⟩]
  | some (a, view) =>
      if a.args.length = view.args.length then Ty.joinAllClashes a.args view.args
      else [⟨s, t⟩]
termination_by sizeOf s + sizeOf t
decreasing_by exact Instance.sizeOf_args_lt_of_commonBase? _found

def Ty.joinAllClashes : List Ty → List Ty → List Clash
  | a :: as, b :: bs => a.joinClashes b ++ Ty.joinAllClashes as bs
  | _, _ => []
termination_by as bs => sizeOf as + sizeOf bs

def Ty.meetClashes : Ty → Ty → List Clash
  | .inst s, .inst t =>
      if s.name == t.name && s.args.length == t.args.length then Ty.meetAllClashes s.args t.args
      else []
  | .callable params result fallback, .callable params' result' fallback' =>
      if Ty.similar params params' fallback fallback' then
        Ty.joinAllClashes params params' ++ result.meetClashes result'
      else []
  | .tuple items fallback, .tuple items' fallback' =>
      if Ty.similar items items' fallback fallback' then Ty.meetAllClashes items items' else []
  | _, _ => []
termination_by s t => sizeOf s + sizeOf t
decreasing_by
  · have left := s.sizeOf_args_lt
    have right := t.sizeOf_args_lt
    simp only [Ty.inst.sizeOf_spec]
    omega
  all_goals
    simp only [Ty.callable.sizeOf_spec, Ty.tuple.sizeOf_spec]
    omega

def Ty.meetAllClashes : List Ty → List Ty → List Clash
  | a :: as, b :: bs => a.meetClashes b ++ Ty.meetAllClashes as bs
  | _, _ => []
termination_by as bs => sizeOf as + sizeOf bs
end

namespace Bound

def joinClashes : Bound → Bound → List Clash
  | some s, some t => s.joinClashes t
  | _, _ => []

def meetClashes : Bound → Bound → List Clash
  | some s, some t => s.meetClashes t
  | _, _ => []

end Bound

end TypeBounds
