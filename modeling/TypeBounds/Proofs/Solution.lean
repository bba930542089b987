import TypeBounds.Proofs.Bounds

/-! # The solver finds the best solution

A variable's constraints have a solution exactly if the solver resolves it, and then
the type it resolves to is the least solution, or the greatest one if nothing bounds
the variable from below. The order in which constraints are given, and how often,
makes no difference.
-/

namespace TypeBounds

/-- Whether a variable may be this type. -/
def Constraint.admits (c : Constraint) (x : Ty) : Bool :=
  match c.direction, c.target with
  | .lower, some t => t.isSubtype x
  | .upper, some t => x.isSubtype t
  | _, _ => true

/-- A bound from below or from above by a plain type. -/
def Constraint.isPlain (u : Universe) (c : Constraint) : Bool :=
  (c.direction = .lower || c.direction = .upper) && c.target.any (·.fits u .plain)

/-- A type that all constraints admit. -/
def Solution (cs : List Constraint) (x : Ty) : Prop := ∀ c ∈ cs, c.admits x

/-- A verdict on a variable that could not be better: its type is the least solution, or the
    greatest where nothing bounds it from below; it is unconstrained only without constraints,
    and unsolvable only without a solution. -/
def Verdict.Optimal (u : Universe) (cs : List Constraint) : Verdict → Prop
  | .resolved t =>
      t.fits u .plain ∧ Solution cs t ∧
        ((∃ c ∈ cs, c.direction = .lower) →
          ∀ x : Ty, x.fits u .plain → Solution cs x → t.isSubtype x) ∧
        ((∀ c ∈ cs, c.direction ≠ .lower) →
          ∀ x : Ty, x.fits u .plain → Solution cs x → x.isSubtype t)
  | .unconstrained => cs = []
  | .unsolvable _ => ∀ x : Ty, x.fits u .plain → ¬ Solution cs x

theorem Constraint.isPlain_iff {u : Universe} {c : Constraint} :
    c.isPlain u ↔ (c.direction = .lower ∨ c.direction = .upper) ∧
      ∃ t, c.target = some t ∧ t.fits u .plain := by
  simp [isPlain, Option.any_eq_true]

section Plain

variable {u : Universe} {cs : List Constraint} (plain : ∀ c ∈ cs, c.isPlain u)

include plain

theorem plain_of_mem_targetsFrom {side : Direction} {t : Ty} (member : t ∈ targetsFrom side cs) :
    t.fits u .plain := by
  obtain ⟨c, inside, -, target⟩ := mem_targetsFrom.mp member
  obtain ⟨-, t', target', fit⟩ := Constraint.isPlain_iff.mp (plain c inside)
  obtain rfl := Option.some.inj (target.symm.trans target')
  exact fit

theorem solution_iff {x : Ty} :
    Solution cs x ↔
      (∀ t ∈ targetsFrom .lower cs, t.isSubtype x) ∧ ∀ t ∈ targetsFrom .upper cs, x.isSubtype t := by
  simp only [mem_targetsFrom]
  constructor
  · intro solution
    constructor
    · rintro t ⟨c, member, side, target⟩
      simpa [Constraint.admits, side, target] using solution c member
    · rintro t ⟨c, member, side, target⟩
      simpa [Constraint.admits, side, target] using solution c member
  · rintro ⟨below, above⟩ c member
    obtain ⟨side | side, t, target, -⟩ := Constraint.isPlain_iff.mp (plain c member)
    · simpa [Constraint.admits, side, target] using below t ⟨c, member, side, target⟩
    · simpa [Constraint.admits, side, target] using above t ⟨c, member, side, target⟩

theorem targetsFrom_lower_eq_nil_iff :
    targetsFrom .lower cs = [] ↔ ∀ c ∈ cs, c.direction ≠ .lower := by
  rw [List.eq_nil_iff_forall_not_mem]
  simp only [mem_targetsFrom]
  constructor
  · intro none c member side
    obtain ⟨-, t, target, -⟩ := Constraint.isPlain_iff.mp (plain c member)
    exact none t ⟨c, member, side, target⟩
  · rintro none t ⟨c, member, side, -⟩
    exact none c member side

theorem eq_nil_of_targetsFrom (lowers : targetsFrom .lower cs = [])
    (uppers : targetsFrom .upper cs = []) : cs = [] := by
  rw [List.eq_nil_iff_forall_not_mem]
  intro c member
  obtain ⟨side | side, t, target, -⟩ := Constraint.isPlain_iff.mp (plain c member)
  · exact List.eq_nil_iff_forall_not_mem.mp lowers t (mem_targetsFrom.mpr ⟨c, member, side, target⟩)
  · exact List.eq_nil_iff_forall_not_mem.mp uppers t (mem_targetsFrom.mpr ⟨c, member, side, target⟩)

end Plain

theorem Bounds.settle_of_plain {u : Universe} {t : Ty} (plain : t.fits u .plain) :
    settle t = .resolved t := by
  cases t with
  | error => cases plain
  | _ => rfl

theorem Bounds.verdict_of_lower {t : Ty} (live : t ≠ .dynamic) :
    Bounds.verdict .nominal ⟨some t, .none⟩ = .ok (settle t) := by
  simp [verdict, live]

theorem Bounds.verdict_of_upper {t : Ty} (live : t ≠ .dynamic) :
    Bounds.verdict .nominal ⟨.none, some t⟩ = .ok (settle t) := by
  simp [verdict, live]

theorem Bounds.verdict_of_both {s t : Ty} (live : s ≠ .dynamic) (live' : t ≠ .dynamic) :
    Bounds.verdict .nominal ⟨some s, some t⟩ =
      .ok (if s.isSubtype t then settle s else .unsolvable .boundConflict) := by
  simp only [verdict, live, live', Option.some.injEq, or_self, ↓reduceIte, Lattice.nominal,
    Bound.isSubtype, bind, Except.bind, pure, Except.pure]
  split <;> rfl

theorem resolve_eq_ok_iff {L : Lattice} {v : TypeVar} {cs : List Constraint} {r : Result} :
    resolve L v cs = .ok r ↔ ∃ b verdict, Bounds.ofConstraints L cs = .ok b ∧
      b.verdict L = .ok verdict ∧ r = ⟨v, verdict, b⟩ := by
  simp only [resolve, bind, Except.bind, pure, Except.pure]
  cases Bounds.ofConstraints L cs with
  | error => simp
  | ok b => cases given : b.verdict L <;> simp [given, eq_comm]

theorem Ty.ne_dynamic_of_plain {u : Universe} {t : Ty} (plain : t.fits u .plain) :
    t ≠ .dynamic := by
  rintro rfl
  cases plain

section Optimal

variable {u : Universe} (lawful : u.Lawful .plain) (rooted : u.Rooted) {cs : List Constraint}
  (plain : ∀ c ∈ cs, c.isPlain u)

include lawful rooted plain

theorem join_of_lowers {t : Ty} {ts : List Ty} (lowers : targetsFrom .lower cs = t :: ts) :
    (ts.foldl Ty.join t).fits u .plain ∧ ∀ {x : Ty}, x.fits u .plain →
      ((ts.foldl Ty.join t).isSubtype x ↔ ∀ l ∈ targetsFrom .lower cs, l.isSubtype x) := by
  rw [lowers]
  exact foldl_join_plain lawful
    (fun x member => plain_of_mem_targetsFrom plain (lowers ▸ member)) rooted

theorem meet_of_uppers {t : Ty} {ts : List Ty} (uppers : targetsFrom .upper cs = t :: ts) :
    (ts.foldl Ty.meet t).fits u .plain ∧ ∀ {x : Ty}, x.fits u .plain →
      (x.isSubtype (ts.foldl Ty.meet t) ↔ ∀ h ∈ targetsFrom .upper cs, x.isSubtype h) := by
  rw [uppers]
  exact foldl_meet_plain lawful
    (fun x member => plain_of_mem_targetsFrom plain (uppers ▸ member)) rooted

theorem optimal_of_uppers {t : Ty} {ts : List Ty} (lowers : targetsFrom .lower cs = [])
    (uppers : targetsFrom .upper cs = t :: ts) :
    Verdict.Optimal u cs (.resolved (ts.foldl Ty.meet t)) := by
  obtain ⟨fit, greatest⟩ := meet_of_uppers lawful rooted plain uppers
  have solution {x : Ty} (xPlain : x.fits u .plain) :
      Solution cs x ↔ x.isSubtype (ts.foldl Ty.meet t) := by
    rw [solution_iff plain, lowers, greatest xPlain]
    simp
  refine ⟨fit, (solution fit).mpr (Ty.isSubtype_refl_of_plain lawful fit), ?_, ?_⟩
  · rintro ⟨c, member, side⟩
    exact absurd side ((targetsFrom_lower_eq_nil_iff plain).mp lowers c member)
  · exact fun _ x xPlain solves => (solution xPlain).mp solves

/-- If the bounds from above allow it, the join of the bounds from below is the least solution. -/
theorem optimal_of_lowers {t : Ty} {ts : List Ty} (lowers : targetsFrom .lower cs = t :: ts)
    (agree : ∀ x ∈ targetsFrom .upper cs, (ts.foldl Ty.join t).isSubtype x) :
    Verdict.Optimal u cs (.resolved (ts.foldl Ty.join t)) := by
  obtain ⟨fit, least⟩ := join_of_lowers lawful rooted plain lowers
  refine ⟨fit, (solution_iff plain).mpr ⟨?_, agree⟩, ?_, ?_⟩
  · exact (least fit).mp (Ty.isSubtype_refl_of_plain lawful fit)
  · exact fun _ x xPlain solves => (least xPlain).mpr ((solution_iff plain).mp solves).1
  · intro none
    rw [(targetsFrom_lower_eq_nil_iff plain).mpr none] at lowers
    cases lowers

theorem optimal_of_conflict {s t : Ty} {ss ts : List Ty} (reason : Reason)
    (lowers : targetsFrom .lower cs = s :: ss) (uppers : targetsFrom .upper cs = t :: ts)
    (conflict : ¬ (ss.foldl Ty.join s).isSubtype (ts.foldl Ty.meet t)) :
    Verdict.Optimal u cs (.unsolvable reason) := by
  intro x xPlain solves
  obtain ⟨lowerPlain, least⟩ := join_of_lowers lawful rooted plain lowers
  obtain ⟨upperPlain, greatest⟩ := meet_of_uppers lawful rooted plain uppers
  obtain ⟨below, above⟩ := (solution_iff plain).mp solves
  exact conflict (Ty.isSubtype_trans_of_plain lawful lowerPlain xPlain upperPlain
    ((least xPlain).mpr below) ((greatest xPlain).mpr above))

theorem verdict_optimal :
    ∃ verdict, Bounds.verdict .nominal ⟨Bound.combined Ty.join (targetsFrom .lower cs),
      Bound.combined Ty.meet (targetsFrom .upper cs)⟩ = .ok verdict ∧ verdict.Optimal u cs := by
  cases lowers : targetsFrom .lower cs with
  | nil =>
      cases uppers : targetsFrom .upper cs with
      | nil => exact ⟨.unconstrained, rfl, eq_nil_of_targetsFrom plain lowers uppers⟩
      | cons t ts =>
          have upperPlain := (meet_of_uppers lawful rooted plain uppers).1
          refine ⟨_, Bounds.verdict_of_upper (Ty.ne_dynamic_of_plain upperPlain), ?_⟩
          rw [Bounds.settle_of_plain upperPlain]
          exact optimal_of_uppers lawful rooted plain lowers uppers
  | cons s ss =>
      have lowerPlain := (join_of_lowers lawful rooted plain lowers).1
      cases uppers : targetsFrom .upper cs with
      | nil =>
          refine ⟨_, Bounds.verdict_of_lower (Ty.ne_dynamic_of_plain lowerPlain), ?_⟩
          rw [Bounds.settle_of_plain lowerPlain]
          exact optimal_of_lowers lawful rooted plain lowers (by simp [uppers])
      | cons t ts =>
          obtain ⟨upperPlain, greatest⟩ := meet_of_uppers lawful rooted plain uppers
          refine ⟨_, Bounds.verdict_of_both (Ty.ne_dynamic_of_plain lowerPlain)
            (Ty.ne_dynamic_of_plain upperPlain), ?_⟩
          rw [Bounds.settle_of_plain lowerPlain]
          split
          next agree =>
            exact optimal_of_lowers lawful rooted plain lowers ((greatest lowerPlain).mp agree)
          next conflict =>
            exact optimal_of_conflict lawful rooted plain _ lowers uppers conflict

theorem resolve_optimal (v : TypeVar) :
    ∃ r, resolve .nominal v cs = .ok r ∧ r.var = v ∧ r.verdict.Optimal u cs := by
  have present : ∀ c ∈ cs, c.target.isSome := by
    intro c member
    obtain ⟨-, t, target, -⟩ := Constraint.isPlain_iff.mp (plain c member)
    simp [target]
  obtain ⟨verdict, given, optimal⟩ := verdict_optimal lawful rooted plain
  exact ⟨_, resolve_eq_ok_iff.mpr ⟨_, _, Bounds.ofConstraints_eq present, given, rfl⟩, rfl, optimal⟩

end Optimal

theorem solve_eq_ok_iff {L : Lattice} {vars : List TypeVar} {cs : List Constraint}
    {rs : List Result} : solve L vars cs = .ok rs ↔
      List.Forall₂ (fun v r => resolve L v (constraintsOn v cs) = .ok r) vars rs := by
  induction vars generalizing rs with
  | nil =>
      rw [List.forall₂_nil_left_iff]
      exact ⟨fun done => (Except.ok.inj done).symm, fun eq => congrArg Except.ok eq.symm⟩
  | cons v vars ih =>
      rw [List.forall₂_cons_left_iff]
      simp only [← ih, solve_eq_mapM, List.mapM_cons]
      cases resolve L v (constraintsOn v cs) with
      | error => simp [bind, Except.bind]
      | ok r =>
          cases List.mapM (fun v => resolve L v (constraintsOn v cs)) vars with
          | error => simp [bind, Except.bind]
          | ok rs => simp [bind, Except.bind, pure, Except.pure, eq_comm]

theorem exists_solve {L : Lattice} {vars : List TypeVar} {cs : List Constraint}
    {Good : TypeVar → Result → Prop}
    (each : ∀ v ∈ vars, ∃ r, resolve L v (constraintsOn v cs) = .ok r ∧ Good v r) :
    ∃ rs, solve L vars cs = .ok rs ∧ List.Forall₂ Good vars rs := by
  induction vars with
  | nil => exact ⟨[], rfl, .nil⟩
  | cons v vars ih =>
      rw [List.forall_mem_cons] at each
      obtain ⟨⟨r, resolved, good⟩, rest⟩ := each
      obtain ⟨rs, solved, goods⟩ := ih rest
      exact ⟨r :: rs, solve_eq_ok_iff.mpr (.cons resolved (solve_eq_ok_iff.mp solved)),
        .cons good goods⟩

theorem exists_solve_of_resolve {L : Lattice} {vars : List TypeVar} {cs : List Constraint}
    (each : ∀ v ∈ vars, ∃ r, resolve L v (constraintsOn v cs) = .ok r) :
    ∃ rs, solve L vars cs = .ok rs := by
  have good : ∀ v ∈ vars, ∃ r, resolve L v (constraintsOn v cs) = .ok r ∧ True := by
    simpa using each
  obtain ⟨rs, solved, -⟩ := exists_solve good
  exact ⟨rs, solved⟩

theorem mem_constraintsOn {v : TypeVar} {c : Constraint} {cs : List Constraint} :
    c ∈ constraintsOn v cs ↔ c ∈ cs ∧ c.var = v := by
  simp [constraintsOn]

/-- In a universe with one root every variable that plain types bound is solved, one result for
    each variable, and no verdict could be better. -/
theorem Universe.Built.solve_optimal {u : Universe} (built : u.Built .plain false)
    {vars : List TypeVar} {cs : List Constraint}
    (plain : ∀ c ∈ cs, c.var ∈ vars → c.isPlain u) :
    ∃ rs, solve .nominal vars cs = .ok rs ∧
      List.Forall₂ (fun v r => r.var = v ∧ r.verdict.Optimal u (constraintsOn v cs)) vars rs := by
  apply exists_solve
  intro v asked
  apply resolve_optimal built.lawful built.rooted
  intro c member
  obtain ⟨inside, rfl⟩ := mem_constraintsOn.mp member
  exact plain c inside asked

open Sample in
/-- A variable between a class and its generic base, one that cannot be solved and one that
    nothing bounds. -/
theorem solve_optimal_world :
    let vars := [⟨0⟩, ⟨1⟩, ⟨2⟩]
    let cs := [⟨⟨0⟩, .lower, some (one intList)⟩, ⟨⟨1⟩, .lower, some (one Builtin.str)⟩,
      ⟨⟨0⟩, .lower, some (listOf (one Builtin.bool))⟩, ⟨⟨1⟩, .upper, some (one Builtin.int)⟩,
      ⟨⟨0⟩, .upper, some (listOf (one Builtin.int))⟩]
    (world.Built .plain false ∧ ∀ c ∈ cs, c.var ∈ vars → c.isPlain world) ∧
      ∃ rs, solve .nominal vars cs = .ok rs ∧ List.Forall₂
        (fun v r => r.var = v ∧ r.verdict.Optimal world (constraintsOn v cs)) vars rs := by
  intro vars cs
  have plain : ∀ c ∈ cs, c.var ∈ vars → c.isPlain world := by decide +kernel
  exact ⟨⟨built_world, plain⟩, built_world.solve_optimal plain⟩

/-- A plain type, or a special one by itself. -/
def Ty.isTarget (u : Universe) (t : Ty) : Bool :=
  t = .dynamic || t = .void || t = .error || t.fits u .plain

theorem Ty.isTarget_iff {u : Universe} {t : Ty} :
    t.isTarget u ↔ t = .dynamic ∨ t = .void ∨ t = .error ∨ t.fits u .plain := by
  simp [isTarget, or_assoc]

theorem Bounds.verdict_total (b : Bounds) : ∃ verdict, b.verdict .nominal = .ok verdict := by
  obtain ⟨lower, upper⟩ := b
  by_cases live : lower = some .dynamic ∨ upper = some .dynamic
  · exact ⟨.resolved .dynamic, by simp [verdict, live]⟩
  · rw [not_or] at live
    cases lower with
    | none =>
        cases upper with
        | none => exact ⟨.unconstrained, rfl⟩
        | some t => exact ⟨_, verdict_of_upper fun eq => live.2 (congrArg some eq)⟩
    | some s =>
        have sLive : s ≠ .dynamic := fun eq => live.1 (congrArg some eq)
        cases upper with
        | none => exact ⟨_, verdict_of_lower sLive⟩
        | some t => exact ⟨_, verdict_of_both sLive fun eq => live.2 (congrArg some eq)⟩

section Congruence

variable {u : Universe} (lawful : u.Lawful .plain) {cs cs' : List Constraint}
  (targets : ∀ c ∈ cs, c.target.any (·.isTarget u)) (same : ∀ c, c ∈ cs ↔ c ∈ cs')

include same

theorem mem_targetsFrom_congr (side : Direction) (t : Ty) :
    t ∈ targetsFrom side cs ↔ t ∈ targetsFrom side cs' := by
  simp only [mem_targetsFrom, same]

include targets

theorem combined_targetsFrom_congr {op : Ty → Ty → Ty} (absorbing : Ty.Absorbing op)
    (proper : ∀ {t t' : Ty} {ts ts' : List Ty}, (∀ x ∈ t :: ts, x.fits u .plain) →
      (∀ x, x ∈ t :: ts ↔ x ∈ t' :: ts') → ts.foldl op t = ts'.foldl op t') (side : Direction) :
    Bound.combined op (targetsFrom side cs) = Bound.combined op (targetsFrom side cs') := by
  have sameTargets := mem_targetsFrom_congr same side
  refine Bound.combined_congr (fun eq eq' => ?_) sameTargets
  rw [eq, eq'] at sameTargets
  refine absorbing.foldl_congr (·.fits u .plain) proper (fun x member => ?_) sameTargets
  exact Ty.isTarget_iff.mp (of_mem_targetsFrom targets (eq ▸ member))

include lawful

theorem ofConstraints_congr :
    ∃ b, Bounds.ofConstraints .nominal cs = .ok b ∧ Bounds.ofConstraints .nominal cs' = .ok b := by
  refine ⟨_, Bounds.ofConstraints_eq fun c => isSome_target targets, ?_⟩
  rw [Bounds.ofConstraints_eq fun c member => isSome_target targets ((same c).mpr member),
    combined_targetsFrom_congr targets same Ty.absorbing_join
      (foldl_join_congr_of_plain lawful) .lower,
    combined_targetsFrom_congr targets same Ty.absorbing_meet
      (foldl_meet_congr_of_plain lawful) .upper]

theorem resolve_congr (v : TypeVar) :
    ∃ r, resolve .nominal v cs = .ok r ∧ resolve .nominal v cs' = .ok r := by
  obtain ⟨b, bounds, bounds'⟩ := ofConstraints_congr lawful targets same
  obtain ⟨verdict, given⟩ := b.verdict_total
  exact ⟨_, resolve_eq_ok_iff.mpr ⟨b, verdict, bounds, given, rfl⟩,
    resolve_eq_ok_iff.mpr ⟨b, verdict, bounds', given, rfl⟩⟩

end Congruence

/-- Constraints may be given in any order and any number of times, also in a universe with
    several roots: solving succeeds, and with the same results. -/
theorem Universe.Built.solve_congr {u : Universe} (built : u.Built .plain true)
    {vars : List TypeVar} {cs cs' : List Constraint}
    (targets : ∀ c ∈ cs, c.var ∈ vars → c.target.any (·.isTarget u))
    (same : ∀ c, c ∈ cs ↔ c ∈ cs') :
    ∃ rs, solve .nominal vars cs = .ok rs ∧ solve .nominal vars cs' = .ok rs := by
  have each : ∀ v ∈ vars, ∃ r, resolve .nominal v (constraintsOn v cs) = .ok r ∧
      resolve .nominal v (constraintsOn v cs') = .ok r := by
    intro v asked
    apply resolve_congr built.lawful
    · intro c member
      obtain ⟨inside, rfl⟩ := mem_constraintsOn.mp member
      exact targets c inside asked
    · simp [mem_constraintsOn, same]
  obtain ⟨rs, solved, solved'⟩ := exists_solve each
  exact ⟨rs, solved, solve_eq_ok_iff.mpr solved'⟩

open Sample in
/-- Types below different roots, `dynamic` and `void`, shuffled and repeated. -/
theorem solve_congr_rockyWorld :
    let vars := [⟨0⟩, ⟨1⟩]
    let c₁ := ⟨⟨0⟩, .lower, some (function (listOf (one rock)) (one Builtin.int))⟩
    let c₂ := ⟨⟨0⟩, .lower, some (function (listOf (one Builtin.int)) (one rock))⟩
    let c₃ := ⟨⟨1⟩, .lower, some .void⟩
    let c₄ := ⟨⟨1⟩, .upper, some .dynamic⟩
    (rockyWorld.Built .plain true ∧
        (∀ c ∈ [c₁, c₂, c₃, c₄], c.var ∈ vars → c.target.any (·.isTarget rockyWorld)) ∧
        ∀ c, c ∈ [c₁, c₂, c₃, c₄] ↔ c ∈ [c₄, c₂, c₁, c₂, c₃]) ∧
      ∃ rs, solve .nominal vars [c₁, c₂, c₃, c₄] = .ok rs ∧
        solve .nominal vars [c₄, c₂, c₁, c₂, c₃] = .ok rs := by
  intro vars c₁ c₂ c₃ c₄
  have targets : ∀ c ∈ [c₁, c₂, c₃, c₄], c.var ∈ vars → c.target.any (·.isTarget rockyWorld) := by
    decide +kernel
  have same : ∀ c, c ∈ [c₁, c₂, c₃, c₄] ↔ c ∈ [c₄, c₂, c₁, c₂, c₃] := by
    intro c
    simp only [List.mem_cons, List.not_mem_nil, or_false]
    tauto
  exact ⟨⟨built_rockyWorld, targets, same⟩, built_rockyWorld.solve_congr targets same⟩

end TypeBounds
