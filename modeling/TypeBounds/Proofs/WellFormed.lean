import TypeBounds.Universe.Builtin

/-! # Well-formed types over a universe

A type is well-formed when every class in it is the one the universe holds under
its name and has as many arguments as it takes. Which of the special types may
occur in it is said by a `Dialect`. The universes are those that grow out of the
builtin one by adding classes; in each of them the base of a class is well-formed
as well, and this is all that the order on types relies on.
-/

namespace TypeBounds

/-- Which types may occur besides nominal ones, callables, tuples and `bottom`. -/
structure Dialect where
  void : Bool
  dynamic : Bool
  /-- `error` as the whole type or in a part that varies with it. -/
  errorWith : Bool
  /-- `error` in a part that varies against the whole type. -/
  errorAgainst : Bool
  /-- Fallbacks other than the anchors. -/
  anyFallback : Bool

namespace Dialect

/-- No special type but `bottom`, and anchored fallbacks. -/
def plain : Dialect := ⟨false, false, false, false, false⟩

/-- What joins of plain types come to. -/
def raised : Dialect := { plain with errorWith := true }

/-- What meets of plain types come to. -/
def lowered : Dialect := { plain with errorAgainst := true }

/-- Everything over anchored fallbacks. -/
def anchored : Dialect := ⟨true, true, true, true, false⟩

/-- What type expressions can say: everything but `error`, over anchored fallbacks. -/
def written : Dialect := { anchored with errorWith := false, errorAgainst := false }

def any : Dialect := ⟨true, true, true, true, true⟩

/-- The dialect of the parts that vary against the whole type. -/
def opposite (d : Dialect) : Dialect :=
  { d with errorWith := d.errorAgainst, errorAgainst := d.errorWith }

/-- The second dialect allows whatever the first one does. -/
def Within (d e : Dialect) : Prop :=
  (d.void → e.void) ∧ (d.dynamic → e.dynamic) ∧ (d.errorWith → e.errorWith) ∧
    (d.errorAgainst → e.errorAgainst) ∧ (d.anyFallback → e.anyFallback)

instance (d e : Dialect) : Decidable (d.Within e) :=
  inferInstanceAs (Decidable (_ ∧ _ ∧ _ ∧ _ ∧ _))

theorem Within.refl (d : Dialect) : d.Within d := ⟨id, id, id, id, id⟩

theorem Within.opposite {d e : Dialect} (le : d.Within e) : d.opposite.Within e.opposite :=
  ⟨le.1, le.2.1, le.2.2.2.1, le.2.2.1, le.2.2.2.2⟩

theorem plain_within (d : Dialect) : plain.Within d := by simp [Within, plain]

theorem within_any (d : Dialect) : d.Within any := by simp [Within, any]

end Dialect

/-- Whether the universe holds this very class under its name. -/
def Universe.holds (u : Universe) (c : Class) : Bool := u.lookup? c.name = some c

mutual
/-- Well-formed over a universe, in a dialect. -/
def Ty.fits (u : Universe) : Dialect → Ty → Bool
  | d, .inst i => i.fits u d
  | d, .callable params result fallback =>
      Ty.allFit u d.opposite params && result.fits u d && fallback.fits u d &&
        (d.anyFallback || fallback = Builtin.anchors.function)
  | d, .tuple items fallback =>
      Ty.allFit u d items && fallback.fits u d &&
        (d.anyFallback || fallback = Builtin.anchors.tuple)
  | d, .void => d.void
  | d, .dynamic => d.dynamic
  | _, .bottom => true
  | d, .error => d.errorWith

def Instance.fits (u : Universe) : Dialect → Instance → Bool
  | d, ⟨c, args⟩ => u.holds c && (args.length : Int) == c.arity && Ty.allFit u d args

def Ty.allFit (u : Universe) : Dialect → List Ty → Bool
  | _, [] => true
  | d, t :: ts => t.fits u d && Ty.allFit u d ts
end

theorem Universe.holds_iff {u : Universe} {c : Class} :
    u.holds c ↔ u.lookup? c.name = some c := by
  simp [holds]

theorem Universe.eq_of_holds {u : Universe} {c d : Class} (left : u.holds c) (right : u.holds d)
    (names : c.name = d.name) : c = d := by
  rw [holds_iff] at left right
  rw [names, right] at left
  exact (Option.some.inj left).symm

theorem Instance.fits_iff {u : Universe} {d : Dialect} {i : Instance} :
    i.fits u d ↔ u.holds i.cls ∧ (i.args.length : Int) = i.cls.arity ∧ Ty.allFit u d i.args := by
  cases i
  simp [Instance.fits, and_assoc]

theorem Ty.fits_callable_iff {u : Universe} {d : Dialect} {params : List Ty} {result : Ty}
    {fallback : Instance} :
    (Ty.callable params result fallback).fits u d ↔
      Ty.allFit u d.opposite params ∧ result.fits u d ∧ fallback.fits u d ∧
        (d.anyFallback ∨ fallback = Builtin.anchors.function) := by
  simp [Ty.fits, and_assoc]

theorem Ty.fits_tuple_iff {u : Universe} {d : Dialect} {items : List Ty} {fallback : Instance} :
    (Ty.tuple items fallback).fits u d ↔
      Ty.allFit u d items ∧ fallback.fits u d ∧
        (d.anyFallback ∨ fallback = Builtin.anchors.tuple) := by
  simp [Ty.fits, and_assoc]

theorem Ty.allFit_cons_iff {u : Universe} {d : Dialect} {t : Ty} {ts : List Ty} :
    Ty.allFit u d (t :: ts) ↔ t.fits u d ∧ Ty.allFit u d ts := by
  simp [Ty.allFit]

mutual
/-- Well-formed types stay so in a larger universe and in a wider dialect. -/
theorem Ty.fits_mono {u larger : Universe} {d e : Dialect} {t : Ty} (wider : d.Within e)
    (kept : ∀ c, u.holds c → larger.holds c) (fit : t.fits u d) : t.fits larger e := by
  match t with
  | .inst i => exact Instance.fits_mono wider kept fit
  | .callable params result fallback =>
      obtain ⟨ofParams, ofResult, ofFallback, anchor⟩ := Ty.fits_callable_iff.mp fit
      exact Ty.fits_callable_iff.mpr
        ⟨Ty.allFit_mono wider.opposite kept ofParams, Ty.fits_mono wider kept ofResult,
          Instance.fits_mono wider kept ofFallback, anchor.imp_left wider.2.2.2.2⟩
  | .tuple items fallback =>
      obtain ⟨ofItems, ofFallback, anchor⟩ := Ty.fits_tuple_iff.mp fit
      exact Ty.fits_tuple_iff.mpr
        ⟨Ty.allFit_mono wider kept ofItems, Instance.fits_mono wider kept ofFallback,
          anchor.imp_left wider.2.2.2.2⟩
  | .void => exact wider.1 fit
  | .dynamic => exact wider.2.1 fit
  | .bottom => rfl
  | .error => exact wider.2.2.1 fit

theorem Instance.fits_mono {u larger : Universe} {d e : Dialect} {i : Instance}
    (wider : d.Within e) (kept : ∀ c, u.holds c → larger.holds c) (fit : i.fits u d) :
    i.fits larger e := by
  match i with
  | ⟨c, args⟩ =>
      obtain ⟨held, arity, ofArgs⟩ := Instance.fits_iff.mp fit
      exact Instance.fits_iff.mpr ⟨kept c held, arity, Ty.allFit_mono wider kept ofArgs⟩

theorem Ty.allFit_mono {u larger : Universe} {d e : Dialect} {ts : List Ty}
    (wider : d.Within e) (kept : ∀ c, u.holds c → larger.holds c) (fit : Ty.allFit u d ts) :
    Ty.allFit larger e ts := by
  match ts with
  | [] => rfl
  | t :: ts =>
      obtain ⟨head, tail⟩ := Ty.allFit_cons_iff.mp fit
      exact Ty.allFit_cons_iff.mpr
        ⟨Ty.fits_mono wider kept head, Ty.allFit_mono wider kept tail⟩
end

theorem Ty.fits_widen {u : Universe} {d e : Dialect} {t : Ty} (wider : d.Within e)
    (fit : t.fits u d) : t.fits u e :=
  Ty.fits_mono wider (fun _ held => held) fit

end TypeBounds
