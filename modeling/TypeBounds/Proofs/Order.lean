import TypeBounds.Proofs.Ancestry
import Mathlib.Data.List.Forall2

/-! # The order as a relation

Without `dynamic` the subtype test decides a relation that is a partial order on
well-formed types. The relation comes in two forms. In the plain one `error` is
related to itself and `bottom` only, as in the test. With a cap `error` is above
everything: this is the order in which joins are least upper bounds also where
classes have no common base, and the test cannot tell the two forms apart as long
as it never meets `error` on its right side.
-/

namespace TypeBounds

/-- The order on types without `dynamic`. With a `cap`, `error` is above every type. -/
inductive Ty.Below (cap : Bool) : Ty → Ty → Prop where
  | bottom (t : Ty) : Below cap .bottom t
  | void : Below cap .void .void
  | error : Below cap .error .error
  | capped (t : Ty) (present : cap) : Below cap t .error
  | inst {s t view : Instance} (seen : s.view? t.name = some view)
      (args : List.Forall₂ (Below cap) view.args t.args) : Below cap (.inst s) (.inst t)
  | callable {params params' : List Ty} {result result' : Ty} {fallback fallback' : Instance}
      (ofParams : List.Forall₂ (Below cap) params' params) (ofResult : Below cap result result')
      (ofFallback : Below cap (.inst fallback) (.inst fallback')) :
      Below cap (.callable params result fallback) (.callable params' result' fallback')
  | callableInst {params : List Ty} {result : Ty} {fallback t : Instance}
      (ofFallback : Below cap (.inst fallback) (.inst t)) :
      Below cap (.callable params result fallback) (.inst t)
  | tuple {items items' : List Ty} {fallback fallback' : Instance}
      (ofItems : List.Forall₂ (Below cap) items items')
      (ofFallback : Below cap (.inst fallback) (.inst fallback')) :
      Below cap (.tuple items fallback) (.tuple items' fallback')
  | tupleInst {items : List Ty} {fallback t : Instance}
      (ofFallback : Below cap (.inst fallback) (.inst t)) :
      Below cap (.tuple items fallback) (.inst t)

theorem Instance.below_iff {cap : Bool} {s t : Instance} :
    Ty.Below cap (.inst s) (.inst t) ↔
      ∃ view, s.view? t.name = some view ∧ List.Forall₂ (Ty.Below cap) view.args t.args := by
  constructor
  · intro below
    cases below with
    | inst seen args => exact ⟨_, seen, args⟩
  · rintro ⟨view, seen, args⟩
    exact .inst seen args

mutual
theorem Ty.Below.refl {u : Universe} {d : Dialect} (cap : Bool) (free : d.dynamic = false) {t : Ty}
    (fit : t.fits u d) : Ty.Below cap t t := by
  match t with
  | .inst i => exact Instance.below_refl cap free fit
  | .callable params result fallback =>
      obtain ⟨ofParams, ofResult, ofFallback, -⟩ := Ty.fits_callable_iff.mp fit
      exact .callable (Ty.Below.refl_all cap (d := d.opposite) free ofParams)
        (Ty.Below.refl cap free ofResult) (Instance.below_refl cap free ofFallback)
  | .tuple items fallback =>
      obtain ⟨ofItems, ofFallback, -⟩ := Ty.fits_tuple_iff.mp fit
      exact .tuple (Ty.Below.refl_all cap free ofItems) (Instance.below_refl cap free ofFallback)
  | .void => exact .void
  | .dynamic =>
      rw [Ty.fits, free] at fit
      cases fit
  | .bottom => exact .bottom _
  | .error => exact .error

theorem Instance.below_refl {u : Universe} {d : Dialect} (cap : Bool) (free : d.dynamic = false)
    {i : Instance} (fit : i.fits u d) : Ty.Below cap (.inst i) (.inst i) := by
  match i with
  | ⟨c, args⟩ =>
      exact .inst (Instance.view?_self _) (Ty.Below.refl_all cap free (Instance.fits_iff.mp fit).2.2)

theorem Ty.Below.refl_all {u : Universe} {d : Dialect} (cap : Bool) (free : d.dynamic = false)
    {ts : List Ty} (fit : Ty.allFit u d ts) : List.Forall₂ (Ty.Below cap) ts ts := by
  match ts with
  | [] => exact .nil
  | t :: ts =>
      obtain ⟨head, tail⟩ := Ty.allFit_cons_iff.mp fit
      exact .cons (Ty.Below.refl cap free head) (Ty.Below.refl_all cap free tail)
end

mutual
theorem Ty.Below.trans {u : Universe} {cap : Bool} (lawful : u.Lawful .any) {a b c : Ty}
    (aFit : a.fits u .any) (bFit : b.fits u .any) (cFit : c.fits u .any)
    (first : Ty.Below cap a b) (second : Ty.Below cap b c) : Ty.Below cap a c := by
  cases first with
  | bottom => exact .bottom c
  | void | error => exact second
  | capped _ present =>
      cases second with
      | error | capped => exact .capped a present
  | inst seen args =>
      cases second with
      | capped _ present => exact .capped _ present
      | inst seen' args' =>
          exact Instance.below_trans lawful aFit bFit cFit (.inst seen args) (.inst seen' args')
  | callable ofParams ofResult ofFallback =>
      obtain ⟨aParams, aResult, aFallback, -⟩ := Ty.fits_callable_iff.mp aFit
      obtain ⟨bParams, bResult, bFallback, -⟩ := Ty.fits_callable_iff.mp bFit
      cases second with
      | capped _ present => exact .capped _ present
      | callable ofParams' ofResult' ofFallback' =>
          obtain ⟨cParams, cResult, cFallback, -⟩ := Ty.fits_callable_iff.mp cFit
          exact .callable (Ty.Below.trans_all lawful cParams bParams aParams ofParams' ofParams)
            (Ty.Below.trans lawful aResult bResult cResult ofResult ofResult')
            (Instance.below_trans lawful aFallback bFallback cFallback ofFallback ofFallback')
      | callableInst ofFallback' =>
          exact .callableInst
            (Instance.below_trans lawful aFallback bFallback cFit ofFallback ofFallback')
  | callableInst ofFallback =>
      obtain ⟨-, -, aFallback, -⟩ := Ty.fits_callable_iff.mp aFit
      cases second with
      | capped _ present => exact .capped _ present
      | inst seen args =>
          exact .callableInst
            (Instance.below_trans lawful aFallback bFit cFit ofFallback (.inst seen args))
  | tuple ofItems ofFallback =>
      obtain ⟨aItems, aFallback, -⟩ := Ty.fits_tuple_iff.mp aFit
      obtain ⟨bItems, bFallback, -⟩ := Ty.fits_tuple_iff.mp bFit
      cases second with
      | capped _ present => exact .capped _ present
      | tuple ofItems' ofFallback' =>
          obtain ⟨cItems, cFallback, -⟩ := Ty.fits_tuple_iff.mp cFit
          exact .tuple (Ty.Below.trans_all lawful aItems bItems cItems ofItems ofItems')
            (Instance.below_trans lawful aFallback bFallback cFallback ofFallback ofFallback')
      | tupleInst ofFallback' =>
          exact .tupleInst
            (Instance.below_trans lawful aFallback bFallback cFit ofFallback ofFallback')
  | tupleInst ofFallback =>
      obtain ⟨-, aFallback, -⟩ := Ty.fits_tuple_iff.mp aFit
      cases second with
      | capped _ present => exact .capped _ present
      | inst seen args =>
          exact .tupleInst
            (Instance.below_trans lawful aFallback bFit cFit ofFallback (.inst seen args))
termination_by sizeOf a + sizeOf b + sizeOf c

theorem Instance.below_trans {u : Universe} {cap : Bool} (lawful : u.Lawful .any)
    {s t r : Instance} (sFit : s.fits u .any) (tFit : t.fits u .any) (rFit : r.fits u .any)
    (first : Ty.Below cap (.inst s) (.inst t)) (second : Ty.Below cap (.inst t) (.inst r)) :
    Ty.Below cap (.inst s) (.inst r) := by
  obtain ⟨view, seen, args⟩ := Instance.below_iff.mp first
  obtain ⟨view', seen', args'⟩ := Instance.below_iff.mp second
  have sHeld := (Instance.fits_iff.mp sFit).1
  have tHeld := (Instance.fits_iff.mp tFit).1
  by_cases names : t.name = r.name
  · rw [← names, Instance.view?_self] at seen'
    obtain rfl := Option.some.inj seen'
    have viewFit := Instance.fits_of_view? lawful sFit seen
    have argsLt := Instance.sizeOf_args_lt_of_view? seen
    have argsLt' := t.sizeOf_args_lt
    have argsLt'' := r.sizeOf_args_lt
    exact .inst (names ▸ seen) (Ty.Below.trans_all lawful (Instance.fits_iff.mp viewFit).2.2
      (Instance.fits_iff.mp tFit).2.2 (Instance.fits_iff.mp rFit).2.2 args args')
  · have classes := Instance.cls_eq_of_view? lawful.linked sHeld tHeld seen
    rw [← Instance.view?_congr classes (by rwa [Instance.name, classes])] at seen'
    exact .inst (Instance.view?_trans lawful.linked sHeld seen seen') args'
termination_by sizeOf s + sizeOf t + sizeOf r

theorem Ty.Below.trans_all {u : Universe} {cap : Bool} (lawful : u.Lawful .any)
    {as bs cs : List Ty} (aFit : Ty.allFit u .any as) (bFit : Ty.allFit u .any bs)
    (cFit : Ty.allFit u .any cs) (first : List.Forall₂ (Ty.Below cap) as bs)
    (second : List.Forall₂ (Ty.Below cap) bs cs) : List.Forall₂ (Ty.Below cap) as cs := by
  cases first with
  | nil => exact second
  | cons head tail =>
      cases second with
      | cons head' tail' =>
          obtain ⟨aHead, aTail⟩ := Ty.allFit_cons_iff.mp aFit
          obtain ⟨bHead, bTail⟩ := Ty.allFit_cons_iff.mp bFit
          obtain ⟨cHead, cTail⟩ := Ty.allFit_cons_iff.mp cFit
          exact .cons (Ty.Below.trans lawful aHead bHead cHead head head')
            (Ty.Below.trans_all lawful aTail bTail cTail tail tail')
termination_by sizeOf as + sizeOf bs + sizeOf cs
end

mutual
theorem Ty.Below.antisymm {u : Universe} {cap : Bool} (lawful : u.Lawful .any) {a b : Ty}
    (aFit : a.fits u .any) (bFit : b.fits u .any) (up : Ty.Below cap a b)
    (down : Ty.Below cap b a) : a = b := by
  cases up with
  | bottom => cases down with | bottom => rfl
  | void | error => rfl
  | capped => cases down with | error | capped => rfl
  | inst seen args =>
      exact congrArg Ty.inst (Instance.below_antisymm lawful aFit bFit (.inst seen args) down)
  | callable ofParams ofResult ofFallback =>
      obtain ⟨aParams, aResult, aFallback, -⟩ := Ty.fits_callable_iff.mp aFit
      obtain ⟨bParams, bResult, bFallback, -⟩ := Ty.fits_callable_iff.mp bFit
      cases down with
      | callable ofParams' ofResult' ofFallback' =>
          rw [Ty.Below.antisymm_all lawful aParams bParams ofParams' ofParams,
            Ty.Below.antisymm lawful aResult bResult ofResult ofResult',
            Instance.below_antisymm lawful aFallback bFallback ofFallback ofFallback']
  | callableInst => cases down
  | tuple ofItems ofFallback =>
      obtain ⟨aItems, aFallback, -⟩ := Ty.fits_tuple_iff.mp aFit
      obtain ⟨bItems, bFallback, -⟩ := Ty.fits_tuple_iff.mp bFit
      cases down with
      | tuple ofItems' ofFallback' =>
          rw [Ty.Below.antisymm_all lawful aItems bItems ofItems ofItems',
            Instance.below_antisymm lawful aFallback bFallback ofFallback ofFallback']
  | tupleInst => cases down
termination_by sizeOf a + sizeOf b

theorem Instance.below_antisymm {u : Universe} {cap : Bool} (lawful : u.Lawful .any)
    {s t : Instance} (sFit : s.fits u .any) (tFit : t.fits u .any)
    (up : Ty.Below cap (.inst s) (.inst t)) (down : Ty.Below cap (.inst t) (.inst s)) :
    s = t := by
  obtain ⟨view, seen, args⟩ := Instance.below_iff.mp up
  obtain ⟨view', seen', args'⟩ := Instance.below_iff.mp down
  obtain ⟨sHeld, -, sArgs⟩ := Instance.fits_iff.mp sFit
  obtain ⟨tHeld, -, tArgs⟩ := Instance.fits_iff.mp tFit
  have names := Instance.name_eq_of_view?_of_view? lawful.linked sHeld tHeld seen seen'
  rw [← names, Instance.view?_self] at seen
  rw [names, Instance.view?_self] at seen'
  obtain rfl := Option.some.inj seen
  obtain rfl := Option.some.inj seen'
  have classes := Universe.eq_of_holds sHeld tHeld names
  have sameArgs := Ty.Below.antisymm_all lawful sArgs tArgs args args'
  cases s
  cases t
  exact (Instance.mk.injEq ..).mpr ⟨classes, sameArgs⟩
termination_by sizeOf s + sizeOf t
decreasing_by
  have := s.sizeOf_args_lt
  have := t.sizeOf_args_lt
  omega

theorem Ty.Below.antisymm_all {u : Universe} {cap : Bool} (lawful : u.Lawful .any)
    {as bs : List Ty} (aFit : Ty.allFit u .any as) (bFit : Ty.allFit u .any bs)
    (up : List.Forall₂ (Ty.Below cap) as bs) (down : List.Forall₂ (Ty.Below cap) bs as) :
    as = bs := by
  cases up with
  | nil => rfl
  | cons head tail =>
      cases down with
      | cons head' tail' =>
          obtain ⟨aHead, aTail⟩ := Ty.allFit_cons_iff.mp aFit
          obtain ⟨bHead, bTail⟩ := Ty.allFit_cons_iff.mp bFit
          rw [Ty.Below.antisymm lawful aHead bHead head head',
            Ty.Below.antisymm_all lawful aTail bTail tail tail']
termination_by sizeOf as + sizeOf bs
end

theorem Instance.isSubtype_iff {s t : Instance} :
    s.isSubtype t ↔ ∃ view, s.view? t.name = some view ∧ Ty.allSubtypes view.args t.args := by
  rw [Instance.isSubtype]
  split
  · rename_i absent
    simp [absent]
  · rename_i view seen
    simp [seen]

theorem Instance.isSubtype_of_name_eq {s t : Instance} (names : s.name = t.name)
    (args : Ty.allSubtypes s.args t.args) : s.isSubtype t :=
  Instance.isSubtype_iff.mpr ⟨s, names ▸ s.view?_self, args⟩

/-- Dialects in which a type of the first may be compared with one of the second: `dynamic` is
    in neither and, if there is a cap, `error` never gets to the right side. -/
structure Dialect.Comparable (u : Universe) (cap : Bool) (d e : Dialect) : Prop where
  left : u.Lawful d
  right : u.Lawful e.opposite
  leftFree : d.dynamic = false
  rightFree : e.dynamic = false
  uncapped : cap → d.errorAgainst = false ∧ e.errorWith = false

theorem Dialect.Comparable.opposite {u : Universe} {cap : Bool} {d e : Dialect}
    (sides : Comparable u cap d e) : Comparable u cap e.opposite d.opposite :=
  ⟨sides.right, sides.left, sides.rightFree, sides.leftFree, fun present =>
    (sides.uncapped present).symm⟩

/-- Where the right side is `error`, there is no cap. -/
theorem Ty.isSubtype_error_iff_below {u : Universe} {cap : Bool} {d e : Dialect}
    (sides : Dialect.Comparable u cap d e) {a : Ty} (aFit : a.fits u d)
    (errorFit : Ty.error.fits u e) : a.isSubtype .error ↔ Ty.Below cap a .error := by
  have uncapped : ¬ cap := by
    intro present
    rw [Ty.fits, (sides.uncapped present).2] at errorFit
    cases errorFit
  cases a with
  | bottom => exact iff_of_true (by simp [Ty.isSubtype]) (.bottom _)
  | error => exact iff_of_true (by simp [Ty.isSubtype]) .error
  | dynamic => simp [Ty.fits, sides.leftFree] at aFit
  | inst | callable | tuple | void =>
      refine iff_of_false (by simp [Ty.isSubtype]) ?_
      intro below
      cases below with
      | capped _ present => exact uncapped present

mutual
/-- The subtype test decides the order. -/
theorem Ty.isSubtype_iff_below {u : Universe} {cap : Bool} {d e : Dialect}
    (sides : Dialect.Comparable u cap d e) {a b : Ty} (aFit : a.fits u d) (bFit : b.fits u e) :
    a.isSubtype b ↔ Ty.Below cap a b := by
  match a, b with
  | .inst s, .inst t =>
      rw [Ty.isSubtype]
      exact Instance.isSubtype_iff_below sides aFit bFit
  | .callable params result fallback, .callable params' result' fallback' =>
      obtain ⟨aParams, aResult, aFallback, -⟩ := Ty.fits_callable_iff.mp aFit
      obtain ⟨bParams, bResult, bFallback, -⟩ := Ty.fits_callable_iff.mp bFit
      have ofParams := Ty.allSubtypes_iff_below sides.opposite bParams aParams
      have ofResult := Ty.isSubtype_iff_below sides aResult bResult
      have ofFallback := Instance.isSubtype_iff_below sides aFallback bFallback
      simp only [Ty.isSubtype, Bool.and_eq_true, ofParams, ofResult, ofFallback]
      constructor
      · exact fun parts => .callable parts.1.1 parts.1.2 parts.2
      · intro below
        cases below with
        | callable params result fallback => exact ⟨⟨params, result⟩, fallback⟩
  | .callable params result fallback, .inst t =>
      obtain ⟨-, -, aFallback, -⟩ := Ty.fits_callable_iff.mp aFit
      rw [Ty.isSubtype, Instance.isSubtype_iff_below sides aFallback bFit]
      constructor
      · exact .callableInst
      · intro below
        cases below with
        | callableInst fallback => exact fallback
  | .tuple items fallback, .tuple items' fallback' =>
      obtain ⟨aItems, aFallback, -⟩ := Ty.fits_tuple_iff.mp aFit
      obtain ⟨bItems, bFallback, -⟩ := Ty.fits_tuple_iff.mp bFit
      have ofItems := Ty.allSubtypes_iff_below sides aItems bItems
      have ofFallback := Instance.isSubtype_iff_below sides aFallback bFallback
      simp only [Ty.isSubtype, Bool.and_eq_true, ofItems, ofFallback]
      constructor
      · exact fun parts => .tuple parts.1 parts.2
      · intro below
        cases below with
        | tuple items fallback => exact ⟨items, fallback⟩
  | .tuple items fallback, .inst t =>
      obtain ⟨-, aFallback, -⟩ := Ty.fits_tuple_iff.mp aFit
      rw [Ty.isSubtype, Instance.isSubtype_iff_below sides aFallback bFit]
      constructor
      · exact .tupleInst
      · intro below
        cases below with
        | tupleInst fallback => exact fallback
  | .bottom, b => exact iff_of_true (by cases b <;> simp [Ty.isSubtype]) (.bottom b)
  | .dynamic, _ => simp [Ty.fits, sides.leftFree] at aFit
  | _, .dynamic => simp [Ty.fits, sides.rightFree] at bFit
  | a, .error => exact Ty.isSubtype_error_iff_below sides aFit bFit
  | .void, .void => exact iff_of_true (by simp [Ty.isSubtype]) .void
  | .inst _, .callable .. | .inst _, .tuple .. | .inst _, .void | .inst _, .bottom =>
      exact iff_of_false (by simp [Ty.isSubtype]) (by rintro ⟨⟩)
  | .callable .., .tuple .. | .callable .., .void | .callable .., .bottom =>
      exact iff_of_false (by simp [Ty.isSubtype]) (by rintro ⟨⟩)
  | .tuple .., .callable .. | .tuple .., .void | .tuple .., .bottom =>
      exact iff_of_false (by simp [Ty.isSubtype]) (by rintro ⟨⟩)
  | .void, .inst _ | .void, .callable .. | .void, .tuple .. | .void, .bottom =>
      exact iff_of_false (by simp [Ty.isSubtype]) (by rintro ⟨⟩)
  | .error, .inst _ | .error, .callable .. | .error, .tuple .. | .error, .void
  | .error, .bottom =>
      exact iff_of_false (by simp [Ty.isSubtype]) (by rintro ⟨⟩)
termination_by sizeOf a + sizeOf b

theorem Instance.isSubtype_iff_below {u : Universe} {cap : Bool} {d e : Dialect}
    (sides : Dialect.Comparable u cap d e) {s t : Instance} (sFit : s.fits u d)
    (tFit : t.fits u e) : s.isSubtype t ↔ Ty.Below cap (.inst s) (.inst t) := by
  rw [Instance.isSubtype_iff, Instance.below_iff]
  refine exists_congr fun view => and_congr_right fun seen => ?_
  have viewFit := Instance.fits_of_view? sides.left sFit seen
  have argsLt := Instance.sizeOf_args_lt_of_view? seen
  have argsLt' := t.sizeOf_args_lt
  exact Ty.allSubtypes_iff_below sides (Instance.fits_iff.mp viewFit).2.2
    (Instance.fits_iff.mp tFit).2.2
termination_by sizeOf s + sizeOf t

theorem Ty.allSubtypes_iff_below {u : Universe} {cap : Bool} {d e : Dialect}
    (sides : Dialect.Comparable u cap d e) {as bs : List Ty} (aFit : Ty.allFit u d as)
    (bFit : Ty.allFit u e bs) : Ty.allSubtypes as bs ↔ List.Forall₂ (Ty.Below cap) as bs := by
  match as, bs with
  | [], [] => simp [Ty.allSubtypes]
  | [], _ :: _ | _ :: _, [] => simp [Ty.allSubtypes]
  | a :: as, b :: bs =>
      obtain ⟨aHead, aTail⟩ := Ty.allFit_cons_iff.mp aFit
      obtain ⟨bHead, bTail⟩ := Ty.allFit_cons_iff.mp bFit
      rw [Ty.allSubtypes, Bool.and_eq_true, List.forall₂_cons,
        Ty.isSubtype_iff_below sides aHead bHead, Ty.allSubtypes_iff_below sides aTail bTail]
termination_by sizeOf as + sizeOf bs
end

end TypeBounds
