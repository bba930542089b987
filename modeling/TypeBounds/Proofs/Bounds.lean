import TypeBounds.Variable.Solve
import TypeBounds.Proofs.Extrema
import Mathlib.Data.List.Induction

/-! # What constraints combine to

The bounds of a variable are two folds, one over the targets from below and one over
those from above. A fold of joins is a least upper bound of all that went into it, a fold
of meets a greatest lower bound, and the special types decide a fold by their mere
presence; so a fold depends on which targets there are and on nothing else.
-/

namespace TypeBounds

theorem foldl_bound_iff (Part Bounding : Ty → Prop) (Rel : Ty → Ty → Prop) {op : Ty → Ty → Ty}
    (closed : ∀ {a b}, Part a → Part b → Part (op a b))
    (bound : ∀ {a b c}, Part a → Part b → Bounding c → (Rel (op a b) c ↔ Rel a c ∧ Rel b c))
    {t : Ty} {ts : List Ty} (parts : ∀ x ∈ t :: ts, Part x) :
    Part (ts.foldl op t) ∧
      ∀ {c}, Bounding c → (Rel (ts.foldl op t) c ↔ ∀ x ∈ t :: ts, Rel x c) := by
  induction ts generalizing t with
  | nil => simpa using parts
  | cons b ts ih =>
      simp only [List.forall_mem_cons] at parts
      obtain ⟨head, next, rest⟩ := parts
      obtain ⟨part, bounded⟩ := ih (List.forall_mem_cons.mpr ⟨closed head next, rest⟩)
      refine ⟨part, fun bounding => ?_⟩
      rw [List.foldl_cons, bounded bounding]
      simp only [List.forall_mem_cons, bound head next bounding, and_assoc]

theorem eq_of_same_bounds (Part : Ty → Prop) (Rel : Ty → Ty → Prop)
    (refl : ∀ {a}, Part a → Rel a a)
    (antisymm : ∀ {a b}, Part a → Part b → Rel a b → Rel b a → a = b) {a a' : Ty}
    {xs xs' : List Ty} (part : Part a) (part' : Part a')
    (least : ∀ {c}, Part c → (Rel a c ↔ ∀ x ∈ xs, Rel x c))
    (least' : ∀ {c}, Part c → (Rel a' c ↔ ∀ x ∈ xs', Rel x c))
    (same : ∀ x, x ∈ xs ↔ x ∈ xs') : a = a' := by
  apply antisymm part part'
  · rw [least part']
    intro x member
    exact (least' part').mp (refl part') x ((same x).mp member)
  · rw [least' part]
    intro x member
    exact (least part).mp (refl part) x ((same x).mpr member)

section Extremal

variable {u : Universe} (lawful : u.Lawful .plain) {t t' : Ty} {ts ts' : List Ty}
  (plain : ∀ x ∈ t :: ts, x.fits u .plain)

include lawful plain

theorem foldl_join_plain (rooted : u.Rooted) :
    (ts.foldl Ty.join t).fits u .plain ∧ ∀ {c : Ty}, c.fits u .plain →
      ((ts.foldl Ty.join t).isSubtype c ↔ ∀ x ∈ t :: ts, x.isSubtype c) :=
  foldl_bound_iff (·.fits u .plain) (·.fits u .plain) (·.isSubtype ·)
    (Ty.join_plain lawful rooted) (Ty.join_isSubtype_iff lawful rooted) plain

theorem foldl_meet_plain (rooted : u.Rooted) :
    (ts.foldl Ty.meet t).fits u .plain ∧ ∀ {c : Ty}, c.fits u .plain →
      (c.isSubtype (ts.foldl Ty.meet t) ↔ ∀ x ∈ t :: ts, c.isSubtype x) :=
  foldl_bound_iff (·.fits u .plain) (·.fits u .plain) (fun x c => c.isSubtype x)
    (Ty.meet_plain lawful rooted) (Ty.isSubtype_meet_iff lawful rooted) plain

/-- Without a common root a fold of joins may hold `error`, but is still extremal. -/
theorem foldl_join_raised :
    (ts.foldl Ty.join t).fits u .raised ∧ ∀ {c : Ty}, c.fits u .anchored →
      (Ty.Below true (ts.foldl Ty.join t) c ↔ ∀ x ∈ t :: ts, Ty.Below true x c) :=
  foldl_bound_iff (·.fits u .raised) (·.fits u .anchored) (Ty.Below true)
    (Ty.join_fits (Dialect.joinable_raised lawful)) (Ty.join_below_iff lawful)
    fun x member => Ty.fits_widen (Dialect.plain_within _) (plain x member)

theorem foldl_meet_lowered :
    (ts.foldl Ty.meet t).fits u .lowered ∧ ∀ {c : Ty}, c.fits u .anchored →
      (Ty.Below true c (ts.foldl Ty.meet t) ↔ ∀ x ∈ t :: ts, Ty.Below true c x) :=
  foldl_bound_iff (·.fits u .lowered) (·.fits u .anchored) (fun x c => Ty.Below true c x)
    (Ty.meet_fits (Dialect.joinable_raised lawful)) (Ty.below_meet_iff lawful)
    fun x member => Ty.fits_widen (Dialect.plain_within _) (plain x member)

variable (same : ∀ x, x ∈ t :: ts ↔ x ∈ t' :: ts')

include same

theorem foldl_join_congr_of_plain : ts.foldl Ty.join t = ts'.foldl Ty.join t' := by
  obtain ⟨fit, bounded⟩ := foldl_join_raised lawful plain
  obtain ⟨fit', bounded'⟩ := foldl_join_raised lawful fun x member => plain x ((same x).mpr member)
  have loose := lawful.widen (Dialect.plain_within .any)
  exact eq_of_same_bounds (·.fits u .raised) (Ty.Below true) (.refl true rfl)
    (fun left right => Ty.Below.antisymm loose (Ty.fits_widen (Dialect.within_any _) left)
      (Ty.fits_widen (Dialect.within_any _) right))
    fit fit' (fun raised => bounded (Ty.fits_widen (by decide) raised))
    (fun raised => bounded' (Ty.fits_widen (by decide) raised)) same

theorem foldl_meet_congr_of_plain : ts.foldl Ty.meet t = ts'.foldl Ty.meet t' := by
  obtain ⟨fit, bounded⟩ := foldl_meet_lowered lawful plain
  obtain ⟨fit', bounded'⟩ := foldl_meet_lowered lawful fun x member => plain x ((same x).mpr member)
  have loose := lawful.widen (Dialect.plain_within .any)
  exact eq_of_same_bounds (·.fits u .lowered) (fun x c => Ty.Below true c x) (.refl true rfl)
    (fun left right up down => Ty.Below.antisymm loose
      (Ty.fits_widen (Dialect.within_any _) left) (Ty.fits_widen (Dialect.within_any _) right)
      down up)
    fit fit' (fun lowered => bounded (Ty.fits_widen (by decide) lowered))
    (fun lowered => bounded' (Ty.fits_widen (by decide) lowered)) same

end Extremal

/-- Types that cannot be combined, whatever the hierarchy. -/
def Ty.Failing (ts : List Ty) : Prop := .error ∈ ts ∨ .void ∈ ts ∧ ∃ x ∈ ts, x ≠ .void

theorem Ty.failing_or_void_or_ordinary {ts : List Ty} (absent : .dynamic ∉ ts) :
    Ty.Failing ts ∨ ¬ Ty.Failing ts ∧ ((∀ x ∈ ts, x = .void) ∨ ∀ x ∈ ts, x.Ordinary) := by
  by_cases failing : Ty.Failing ts
  · exact .inl failing
  refine .inr ⟨failing, ?_⟩
  by_cases void : .void ∈ ts
  · left
    intro x member
    by_contra solid
    exact failing (.inr ⟨void, x, member, solid⟩)
  · right
    intro x member
    refine ⟨?_, ?_, ?_⟩ <;> rintro rfl
    · exact void member
    · exact absent member
    · exact failing (.inl member)

namespace Ty.Absorbing

variable {op : Ty → Ty → Ty} (absorbing : Ty.Absorbing op)

include absorbing

theorem foldl_dynamic {t : Ty} {ts : List Ty} (present : .dynamic ∈ t :: ts) :
    ts.foldl op t = .dynamic := by
  induction ts generalizing t with
  | nil => exact (List.mem_singleton.mp present).symm
  | cons b ts ih =>
      apply ih
      simp only [List.mem_cons] at present ⊢
      rcases present with rfl | rfl | later
      · exact .inl (absorbing.dynamic_left b).symm
      · exact .inl (absorbing.dynamic_right t).symm
      · exact .inr later

theorem failing_step {t b : Ty} {ts : List Ty} (absent : .dynamic ∉ t :: b :: ts)
    (failing : Ty.Failing (t :: b :: ts)) : Ty.Failing (op t b :: ts) := by
  have tLive : t ≠ .dynamic := fun eq => absent (by simp [eq])
  have bLive : b ≠ .dynamic := fun eq => absent (by simp [eq])
  by_cases combined : op t b = .error
  · exact .inl (by simp [combined])
  · have tSound : t ≠ .error := fun eq => combined (eq ▸ absorbing.error_left b bLive)
    have bSound : b ≠ .error := fun eq => combined (eq ▸ absorbing.error_right t tLive)
    rcases failing with error | ⟨void, x, member, solid⟩
    · have later : .error ∈ ts := by simpa [tSound.symm, bSound.symm] using error
      exact .inl (List.mem_cons_of_mem _ later)
    · by_cases tVoid : t = .void
      · have bVoid : b = .void := by
          by_contra other
          exact combined (tVoid ▸ absorbing.void_left b bLive other)
        subst tVoid bVoid
        have later : x ∈ ts := by simpa [solid] using member
        exact .inr ⟨by simp [absorbing.void], x, List.mem_cons_of_mem _ later, solid⟩
      · have bSolid : b ≠ .void := fun eq => combined (eq ▸ absorbing.void_right t tLive tVoid)
        have later : .void ∈ ts := by simpa [Ne.symm tVoid, bSolid.symm] using void
        exact .inr ⟨List.mem_cons_of_mem _ later, op t b, by simp, absorbing.solid t b tVoid⟩

theorem foldl_failing {t : Ty} {ts : List Ty} (absent : .dynamic ∉ t :: ts)
    (failing : Ty.Failing (t :: ts)) : ts.foldl op t = .error := by
  induction ts generalizing t with
  | nil =>
      rcases failing with error | ⟨void, x, member, solid⟩
      · exact (List.mem_singleton.mp error).symm
      · simp_all
  | cons b ts ih =>
      refine ih ?_ (absorbing.failing_step absent failing)
      simp only [List.mem_cons, not_or] at absent ⊢
      exact ⟨(absorbing.live t b (Ne.symm absent.1) (Ne.symm absent.2.1)).symm, absent.2.2⟩

theorem foldl_void {t : Ty} {ts : List Ty} (all : ∀ x ∈ t :: ts, x = .void) :
    ts.foldl op t = .void := by
  induction ts generalizing t with
  | nil => simpa using all
  | cons b ts ih =>
      simp only [List.forall_mem_cons] at all
      obtain ⟨rfl, rfl, rest⟩ := all
      exact ih (List.forall_mem_cons.mpr ⟨absorbing.void, rest⟩)

/-- A fold over special types and others depends only on which types there are, if a fold over
    the others does. -/
theorem foldl_congr (Proper : Ty → Prop)
    (proper : ∀ {t t' : Ty} {ts ts' : List Ty}, (∀ x ∈ t :: ts, Proper x) →
      (∀ x, x ∈ t :: ts ↔ x ∈ t' :: ts') → ts.foldl op t = ts'.foldl op t')
    {t t' : Ty} {ts ts' : List Ty}
    (targets : ∀ x ∈ t :: ts, x = .dynamic ∨ x = .void ∨ x = .error ∨ Proper x)
    (same : ∀ x, x ∈ t :: ts ↔ x ∈ t' :: ts') : ts.foldl op t = ts'.foldl op t' := by
  by_cases live : .dynamic ∈ t :: ts
  · rw [absorbing.foldl_dynamic live, absorbing.foldl_dynamic ((same _).mp live)]
  rcases Ty.failing_or_void_or_ordinary live with failing | ⟨-, all | ordinary⟩
  · have failing' : Ty.Failing (t' :: ts') := by simpa only [Ty.Failing, same] using failing
    rw [absorbing.foldl_failing live failing,
      absorbing.foldl_failing (mt (same _).mpr live) failing']
  · rw [absorbing.foldl_void all, absorbing.foldl_void fun x member => all x ((same x).mpr member)]
  · refine proper (fun x member => ?_) same
    obtain ⟨solid, live, sound⟩ := ordinary x member
    simpa [solid, live, sound] using targets x member

end Ty.Absorbing

/-- The targets that bound a variable from one side, in their order. -/
def targetsFrom (side : Direction) (cs : List Constraint) : List Ty :=
  cs.filterMap fun c => if c.direction = side then c.target else none

theorem mem_targetsFrom {side : Direction} {cs : List Constraint} {t : Ty} :
    t ∈ targetsFrom side cs ↔ ∃ c ∈ cs, c.direction = side ∧ c.target = some t := by
  simp [targetsFrom]

section Targets

variable {P : Ty → Bool} {cs : List Constraint} (targets : ∀ c ∈ cs, c.target.any P)

include targets

theorem isSome_target {c : Constraint} (member : c ∈ cs) : c.target.isSome := by
  obtain ⟨t, target, -⟩ := (Option.any_eq_true _ _).mp (targets c member)
  simp [target]

theorem of_mem_targetsFrom {side : Direction} {t : Ty} (member : t ∈ targetsFrom side cs) :
    P t := by
  obtain ⟨c, inside, -, target⟩ := mem_targetsFrom.mp member
  simpa [target] using targets c inside

end Targets

/-- Types combined from the left, absent if there are none. -/
def Bound.combined (op : Ty → Ty → Ty) : List Ty → Bound
  | [] => none
  | t :: ts => some (ts.foldl op t)

theorem Bound.combined_concat (op : Ty → Ty → Ty) (ts : List Ty) (t : Ty) :
    Bound.combined op (ts ++ [t]) = some ((Bound.combined op ts).elim t (op · t)) := by
  cases ts <;> simp [Bound.combined]

theorem Bound.combined_congr {op : Ty → Ty → Ty} {ts ts' : List Ty}
    (fold : ∀ {t t' : Ty} {rest rest' : List Ty}, ts = t :: rest → ts' = t' :: rest' →
      rest.foldl op t = rest'.foldl op t')
    (same : ∀ x, x ∈ ts ↔ x ∈ ts') : Bound.combined op ts = Bound.combined op ts' := by
  match ts, ts' with
  | [], [] => rfl
  | [], t :: _ => exact absurd ((same t).mpr List.mem_cons_self) (by simp)
  | t :: _, [] => exact absurd ((same t).mp List.mem_cons_self) (by simp)
  | _ :: _, _ :: _ => exact congrArg some (fold rfl rfl)

theorem Bounds.add_nominal {b : Bounds} {c : Constraint} {t : Ty} (present : c.target = some t) :
    b.add .nominal c = .ok
      ⟨if c.direction = .lower then some (b.lower.elim t (·.join t)) else b.lower,
        if c.direction = .upper then some (b.upper.elim t (·.meet t)) else b.upper⟩ := by
  obtain ⟨lower, upper⟩ := b
  cases side : c.direction with
  | lower =>
      cases lower <;> simp [add, side, present, combine, Lattice.nominal, Bound.join, Except.map]
  | upper =>
      cases upper <;> simp [add, side, present, combine, Lattice.nominal, Bound.meet, Except.map]
  | unknown => simp [add, side]

theorem Bounds.ofConstraints_eq {cs : List Constraint} (present : ∀ c ∈ cs, c.target.isSome) :
    Bounds.ofConstraints .nominal cs = .ok
      ⟨Bound.combined Ty.join (targetsFrom .lower cs),
        Bound.combined Ty.meet (targetsFrom .upper cs)⟩ := by
  induction cs using List.reverseRecOn with
  | nil => rfl
  | append_singleton cs c ih =>
      obtain ⟨t, target⟩ := Option.isSome_iff_exists.mp (present c (by simp))
      have before := ih fun c member => present c (by simp [member])
      rw [ofConstraints] at before ⊢
      rw [List.foldlM_append, before]
      change (List.foldlM (add .nominal) _ [c]) = _
      rw [List.foldlM_cons, add_nominal target]
      cases side : c.direction <;>
        simp [targetsFrom, side, target, Bound.combined_concat, pure, Except.pure, bind, Except.bind]

end TypeBounds
