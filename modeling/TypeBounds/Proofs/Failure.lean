import TypeBounds.Proofs.NearestBase
import TypeBounds.Proofs.Solution

/-! # Failures inside a result

A join that fails is `error`, and a variable bounded by it is unsolvable. A join of
two instances that fails for one argument only is not `error` as a whole, so the
variable is resolved to a type with `error` inside. This never happens where
`object` is above all classes and `void` is not part of a type; and in every other
universe, or with `void` inside types, it does happen.
-/

namespace TypeBounds

mutual
/-- Whether `error` is the type or a part of it, at any depth. -/
def Ty.hasError : Ty → Bool
  | .inst i => i.hasError
  | .callable params result fallback =>
      Ty.anyError params || result.hasError || fallback.hasError
  | .tuple items fallback => Ty.anyError items || fallback.hasError
  | .error => true
  | .void | .dynamic | .bottom => false

def Instance.hasError : Instance → Bool
  | ⟨_, args⟩ => Ty.anyError args

def Ty.anyError : List Ty → Bool
  | [] => false
  | t :: ts => t.hasError || Ty.anyError ts
end

/-- A variable that is resolved although combining its bounds failed somewhere. -/
def Result.hidesFailure (r : Result) : Bool :=
  match r.verdict with
  | .resolved t => t.hasError
  | _ => false

/-- Everything but `error`, with `void` or without it. -/
def Dialect.whole (void : Bool) : Dialect :=
  { any with void, errorWith := false, errorAgainst := false }

/-- What may bound a variable: `void` by itself, or a type without `error` in which `void`
    occurs only if it may. -/
def Ty.isWhole (u : Universe) (void : Bool) (t : Ty) : Bool := t = .void || t.fits u (.whole void)

/-- Solving variables under such bounds succeeds, and hides no failure. -/
def Universe.HidesNothing (u : Universe) (void : Bool) : Prop :=
  ∀ vars cs, (∀ c ∈ cs, c.target.any (·.isWhole u void)) →
    ∃ rs, solve .nominal vars cs = .ok rs ∧
      List.Forall₂ (fun v r => r.var = v ∧ r.hidesFailure = false) vars rs

theorem Ty.isWhole_iff {u : Universe} {void : Bool} {t : Ty} :
    t.isWhole u void ↔ t = .void ∨ t.fits u (.whole void) := by
  simp [isWhole]

mutual
theorem Ty.hasError_of_fits {u : Universe} {void : Bool} {t : Ty} (fit : t.fits u (.whole void)) :
    t.hasError = false := by
  cases t with
  | inst i => exact Instance.hasError_of_fits fit
  | callable params result fallback =>
      obtain ⟨ofParams, ofResult, ofFallback, -⟩ := Ty.fits_callable_iff.mp fit
      simp only [Ty.hasError, Ty.anyError_of_allFit ofParams, Ty.hasError_of_fits ofResult,
        Instance.hasError_of_fits ofFallback, Bool.or_self]
  | tuple items fallback =>
      obtain ⟨ofItems, ofFallback, -⟩ := Ty.fits_tuple_iff.mp fit
      simp only [Ty.hasError, Ty.anyError_of_allFit ofItems,
        Instance.hasError_of_fits ofFallback, Bool.or_self]
  | void | dynamic | bottom => rfl
  | error => cases fit

theorem Instance.hasError_of_fits {u : Universe} {void : Bool} {i : Instance}
    (fit : i.fits u (.whole void)) : i.hasError = false := by
  cases i with
  | mk c args => exact Ty.anyError_of_allFit (Instance.fits_iff.mp fit).2.2

theorem Ty.anyError_of_allFit {u : Universe} {void : Bool} {ts : List Ty}
    (fit : Ty.allFit u (.whole void) ts) : Ty.anyError ts = false := by
  cases ts with
  | nil => rfl
  | cons t ts =>
      obtain ⟨head, tail⟩ := Ty.allFit_cons_iff.mp fit
      simp only [Ty.anyError, Ty.hasError_of_fits head, Ty.anyError_of_allFit tail, Bool.or_self]
end

/-- Without `error` inside: a failure that occurred is the whole type. -/
def Ty.Outright (u : Universe) (t : Ty) : Prop :=
  t.fits u (.whole false) ∨ t = .void ∨ t = .error

theorem Ty.outright_of_isWhole {u : Universe} {t : Ty} (whole : t.isWhole u false) :
    t.Outright u := by
  rcases Ty.isWhole_iff.mp whole with void | fit
  · exact .inr (.inl void)
  · exact .inl fit

theorem Ty.Outright.hasError {u : Universe} {t : Ty} (outright : t.Outright u)
    (sound : t ≠ .error) : t.hasError = false := by
  rcases outright with fit | rfl | failed
  · exact Ty.hasError_of_fits fit
  · rfl
  · exact absurd failed sound

theorem Ty.Absorbing.outright {op : Ty → Ty → Ty} (absorbing : Ty.Absorbing op) {u : Universe}
    (closed : ∀ {a b : Ty}, a.fits u (.whole false) → b.fits u (.whole false) →
      (op a b).fits u (.whole false))
    {a b : Ty} (left : a.Outright u) (right : b.Outright u) : (op a b).Outright u := by
  by_cases aLive : a = .dynamic
  · subst aLive
    rwa [absorbing.dynamic_left]
  by_cases bLive : b = .dynamic
  · subst bLive
    rwa [absorbing.dynamic_right]
  rcases left with aFit | rfl | rfl
  · rcases right with bFit | rfl | rfl
    · exact .inl (closed aFit bFit)
    · have solid : a ≠ .void := by
        rintro rfl
        cases aFit
      exact .inr (.inr (absorbing.void_right a aLive solid))
    · exact .inr (.inr (absorbing.error_right a aLive))
  · by_cases bVoid : b = .void
    · subst bVoid
      exact .inr (.inl absorbing.void)
    · exact .inr (.inr (absorbing.void_left b bLive bVoid))
  · exact .inr (.inr (absorbing.error_left b bLive))

theorem Bound.combined_outright {op : Ty → Ty → Ty} {u : Universe}
    (step : ∀ {a b : Ty}, a.Outright u → b.Outright u → (op a b).Outright u) {ts : List Ty}
    (targets : ∀ t ∈ ts, t.Outright u) : ∀ t ∈ Bound.combined op ts, t.Outright u := by
  cases ts with
  | nil => simp [Bound.combined]
  | cons first ts =>
      rw [List.forall_mem_cons] at targets
      obtain ⟨head, rest⟩ := targets
      simp only [Bound.combined, Option.mem_some_iff, forall_eq']
      induction ts generalizing first with
      | nil => exact head
      | cons next ts ih =>
          rw [List.forall_mem_cons] at rest
          exact ih (op first next) (step head rest.1) rest.2

theorem Bounds.settle_eq_resolved {t t' : Ty} (settled : settle t = .resolved t') :
    t' = t ∧ t ≠ .error := by
  cases t with
  | error => cases settled
  | _ =>
      cases settled
      exact ⟨rfl, by simp⟩

theorem Bounds.hasError_of_verdict {u : Universe} {b : Bounds} {t : Ty}
    (lower : ∀ x ∈ b.lower, x.Outright u) (upper : ∀ x ∈ b.upper, x.Outright u)
    (given : b.verdict .nominal = .ok (.resolved t)) : t.hasError = false := by
  have ofSettled {x : Ty} (outright : x.Outright u) (settled : settle x = .resolved t) :
      t.hasError = false := by
    obtain ⟨rfl, sound⟩ := settle_eq_resolved settled
    exact outright.hasError sound
  obtain ⟨l, h⟩ := b
  by_cases live : l = some .dynamic ∨ h = some .dynamic
  · simp only [verdict, live, ↓reduceIte, Except.ok.injEq, Verdict.resolved.injEq] at given
    exact given ▸ rfl
  · rw [not_or] at live
    cases l with
    | none =>
        cases h with
        | none => simp [verdict] at given
        | some y =>
            rw [verdict_of_upper fun eq => live.2 (congrArg some eq), Except.ok.injEq] at given
            exact ofSettled (upper y rfl) given
    | some x =>
        have xLive : x ≠ .dynamic := fun eq => live.1 (congrArg some eq)
        cases h with
        | none =>
            rw [verdict_of_lower xLive, Except.ok.injEq] at given
            exact ofSettled (lower x rfl) given
        | some y =>
            rw [verdict_of_both xLive fun eq => live.2 (congrArg some eq), Except.ok.injEq] at given
            split at given
            · exact ofSettled (lower x rfl) given
            · cases given

section Rooted

variable {u : Universe} (lawful : u.Lawful (.whole false)) (rooted : u.Rooted)
  {cs : List Constraint} (whole : ∀ c ∈ cs, c.target.any (·.isWhole u false))

include whole in
theorem outright_of_mem_targetsFrom (side : Direction) {t : Ty}
    (member : t ∈ targetsFrom side cs) : t.Outright u :=
  Ty.outright_of_isWhole (of_mem_targetsFrom whole member)

include lawful rooted

theorem Dialect.joinable_whole : (Dialect.whole false).Joinable u := ⟨lawful, rfl, .inr rooted⟩

include whole

/-- Below one root and without `void` inside the bounds of a variable, resolving it succeeds and
    hides nothing. -/
theorem resolve_hides_nothing (v : TypeVar) :
    ∃ r, resolve .nominal v cs = .ok r ∧ r.var = v ∧ r.hidesFailure = false := by
  have closed := Dialect.joinable_whole lawful rooted
  have joins := Bound.combined_outright (Ty.absorbing_join.outright (Ty.join_fits closed))
    fun t => outright_of_mem_targetsFrom whole .lower
  have meets := Bound.combined_outright (Ty.absorbing_meet.outright (Ty.meet_fits closed))
    fun t => outright_of_mem_targetsFrom whole .upper
  obtain ⟨verdict, given⟩ := Bounds.verdict_total ⟨_, _⟩
  have bounds := Bounds.ofConstraints_eq fun c => isSome_target whole
  refine ⟨_, resolve_eq_ok_iff.mpr ⟨_, verdict, bounds, given, rfl⟩, rfl, ?_⟩
  cases verdict with
  | resolved t => exact Bounds.hasError_of_verdict joins meets given
  | unconstrained | unsolvable => rfl

end Rooted

open Sample in
theorem Ty.join_listOf (s t : Ty) : (listOf s).join (listOf t) = listOf (s.join t) := by
  have found : Instance.commonBase? ⟨Builtin.list, [s]⟩ ⟨Builtin.list, [t]⟩ =
      some (⟨Builtin.list, [s]⟩, ⟨Builtin.list, [t]⟩) := rfl
  rw [listOf, listOf, Ty.join, Instance.join_eq_joined found rfl]
  simp [Instance.joined, Ty.joinAll, listOf]

theorem Instance.join_object {s : Instance} (apart : ¬ s.cls.hasBase "object") :
    s.join ⟨Builtin.object, []⟩ = .error := by
  apply join_eq_error
  intro n v w fromClass fromObject
  have names : v.name = "object" := by
    have root : w = ⟨Builtin.object, []⟩ := List.mem_singleton.mp (mem_ancestry_of_view? fromObject)
    rw [name_eq_of_view? fromClass, ← name_eq_of_view? fromObject, root]
    rfl
  exact apart (hasBase_iff.mpr ⟨v, mem_ancestry_of_view? fromClass, names⟩)

open Sample in
theorem solve_listOf {s t : Ty} (clash : s.join t = .error) :
    solve .nominal [⟨0⟩] [⟨⟨0⟩, .lower, some (listOf s)⟩, ⟨⟨0⟩, .lower, some (listOf t)⟩] =
      .ok [⟨⟨0⟩, .resolved (listOf .error), ⟨some (listOf .error), none⟩⟩] := by
  have joined : (listOf s).join (listOf t) = listOf .error := by rw [Ty.join_listOf, clash]
  rw [solve_eq_ok_iff]
  refine .cons ?_ .nil
  refine resolve_eq_ok_iff.mpr
    ⟨⟨some (listOf .error), none⟩, _, ?_, Bounds.verdict_of_lower ?_, rfl⟩
  · rw [← joined]
    exact Bounds.ofConstraints_eq (by simp [constraintsOn])
  · simp [listOf]

open Sample in
theorem Ty.listOf_fits {u : Universe} {d : Dialect} (grown : u.Grown) {t : Ty} (fit : t.fits u d) :
    (listOf t).fits u d :=
  grown.filled_fits (grown.holds_builtin (by simp [Builtin.classes])) fit

open Sample in
theorem Universe.HidesNothing.join_ne_error {u : Universe} {void : Bool} (grown : u.Grown)
    (nothing : u.HidesNothing void) {s t : Ty} (sFit : s.fits u (.whole void))
    (tFit : t.fits u (.whole void)) : s.join t ≠ .error := by
  intro clash
  have whole : ∀ c ∈ [(⟨⟨0⟩, .lower, some (listOf s)⟩ : Constraint),
      ⟨⟨0⟩, .lower, some (listOf t)⟩], c.target.any (·.isWhole u void) := by
    simp [Ty.isWhole, Ty.listOf_fits grown sFit, Ty.listOf_fits grown tFit]
  obtain ⟨rs, solved, sound⟩ := nothing [⟨0⟩] _ whole
  rw [solve_listOf clash, Except.ok.injEq] at solved
  subst solved
  obtain ⟨⟨-, hidden⟩, -⟩ := List.forall₂_cons.mp sound
  simp [Result.hidesFailure, listOf, Ty.hasError, Instance.hasError, Ty.anyError] at hidden

/-- Solving never hides a failure in the type of a resolved variable exactly if `void` is not
    part of any type and `object` is above all classes. -/
theorem Universe.Built.hides_nothing_iff {u : Universe} {void : Bool}
    (built : u.Built (.whole void) true) : u.HidesNothing void ↔ void = false ∧ u.Rooted := by
  constructor
  · intro nothing
    have objectFit : (Ty.inst ⟨Builtin.object, []⟩).fits u (.whole void) :=
      built.grown.filled_fits (t := .bottom)
        (built.grown.holds_builtin (by simp [Builtin.classes])) rfl
    constructor
    · by_contra present
      have voidFit : Ty.void.fits u (.whole void) := by simpa [Ty.fits, Dialect.whole] using present
      apply nothing.join_ne_error built.grown voidFit objectFit
      simp [Ty.join]
    · intro c held
      by_contra apart
      have fit : (Ty.inst (c.filled .bottom)).fits u (.whole void) :=
        built.grown.filled_fits held rfl
      apply nothing.join_ne_error built.grown fit objectFit
      rw [Ty.join]
      exact Instance.join_object apart
  · rintro ⟨rfl, rooted⟩ vars cs whole
    apply exists_solve
    intro v _
    apply resolve_hides_nothing built.lawful rooted
    intro c member
    exact whole c (mem_constraintsOn.mp member).1

open Sample in
/-- Without `void` nothing is hidden below one root, but with a second one something is. -/
theorem hides_nothing_iff_worlds :
    (world.Built (.whole false) true ∧ world.HidesNothing false) ∧
      rockyWorld.Built (.whole false) true ∧ ¬ rockyWorld.HidesNothing false := by
  have built : world.Built (.whole false) true := built_world.widen (Dialect.plain_within _)
  have rocky : rockyWorld.Built (.whole false) true :=
    built_rockyWorld.widen (Dialect.plain_within _)
  have apart : ¬ rockyWorld.Rooted := by
    intro rooted
    have held : rockyWorld.holds rock := Universe.holds_iff.mpr rfl
    exact absurd (rooted rock held) (by decide)
  exact ⟨⟨built, built.hides_nothing_iff.mpr ⟨rfl, built_world.rooted⟩⟩, rocky,
    fun nothing => apart (rocky.hides_nothing_iff.mp nothing).2⟩

open Sample in
/-- A variable bounded by lists of nothing and by lists of integers is resolved to a list of
    `error`. -/
theorem list_void_hides_failure :
    let cs : List Constraint := [⟨⟨0⟩, .lower, some (listOf .void)⟩,
      ⟨⟨0⟩, .lower, some (listOf (one Builtin.int))⟩]
    (Universe.builtin.Built (.whole true) true ∧
        ∀ c ∈ cs, c.target.any (·.isWhole Universe.builtin true)) ∧
      ∃ r, solve .nominal [⟨0⟩] cs = .ok [r] ∧ r.verdict.outcome = .resolved ∧ r.hidesFailure := by
  intro cs
  have int : (one Builtin.int).fits Universe.builtin (.whole true) :=
    Universe.bare_fits (by simp [Builtin.classes]) rfl _
  have void : Ty.void.fits Universe.builtin (.whole true) := rfl
  have whole : ∀ c ∈ cs, c.target.any (·.isWhole Universe.builtin true) := by
    simp [cs, Ty.isWhole, Ty.listOf_fits .builtin void, Ty.listOf_fits .builtin int]
  exact ⟨⟨.builtin, whole⟩, _, solve_listOf (by simp [one, Ty.join]), rfl, rfl⟩

end TypeBounds
