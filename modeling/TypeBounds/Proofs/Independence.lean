import TypeBounds.Proofs.Concurrent

/-! # Variables are solved independently

What happens while several variables are solved is what happens while each of them is
solved by itself, under nothing but its own constraints in their order. So constraints on
other variables may come, go and move without any effect.
-/

namespace TypeBounds

/-- Joins, meets and comparisons always have an answer. -/
structure Lattice.Total (L : Lattice) : Prop where
  join : ∀ a b, ∃ c, L.join a b = .ok c
  meet : ∀ a b, ∃ c, L.meet a b = .ok c
  isSubtype : ∀ a b, ∃ c, L.isSubtype a b = .ok c

theorem Lattice.total_flat : Lattice.flat.Total :=
  ⟨fun _ _ => ⟨_, rfl⟩, fun _ _ => ⟨_, rfl⟩, fun _ _ => ⟨_, rfl⟩⟩

namespace Lattice.Total

variable {L : Lattice} (total : L.Total)

include total

theorem exists_add (b : Bounds) (c : Constraint) : ∃ b', b.add L c = .ok b' := by
  unfold Bounds.add
  cases c.direction with
  | lower =>
      cases b.lower with
      | none => exact ⟨_, rfl⟩
      | some t =>
          obtain ⟨joined, answer⟩ := total.join (some t) c.target
          exact ⟨{ b with lower := joined }, by simp [Bounds.combine, answer, Except.map]⟩
  | upper =>
      cases b.upper with
      | none => exact ⟨_, rfl⟩
      | some t =>
          obtain ⟨met, answer⟩ := total.meet (some t) c.target
          exact ⟨{ b with upper := met }, by simp [Bounds.combine, answer, Except.map]⟩
  | unknown code => exact ⟨b, rfl⟩

theorem exists_bounds (b : Bounds) (cs : List Constraint) :
    ∃ b', cs.foldlM (Bounds.add L) b = .ok b' := by
  induction cs generalizing b with
  | nil => exact ⟨b, rfl⟩
  | cons c cs ih =>
      obtain ⟨next, added⟩ := total.exists_add b c
      obtain ⟨last, rest⟩ := ih next
      exact ⟨last, by rw [List.foldlM_cons, added]; exact rest⟩

theorem exists_verdict (b : Bounds) : ∃ verdict, b.verdict L = .ok verdict := by
  unfold Bounds.verdict
  split
  · exact ⟨_, rfl⟩
  · split
    · exact ⟨_, rfl⟩
    · exact ⟨_, rfl⟩
    · exact ⟨_, rfl⟩
    · rename_i lower upper _ _
      obtain ⟨below, answer⟩ := total.isSubtype (some lower) (some upper)
      rw [answer]
      cases below
      · exact ⟨_, rfl⟩
      · exact ⟨_, rfl⟩

theorem exists_resolve (v : TypeVar) (cs : List Constraint) : ∃ r, resolve L v cs = .ok r := by
  obtain ⟨b, bounded⟩ := total.exists_bounds .none cs
  obtain ⟨verdict, given⟩ := total.exists_verdict b
  exact ⟨_, resolve_eq_ok_iff.mpr ⟨b, verdict, bounded, given, rfl⟩⟩

end Lattice.Total

/-- Traced computations one after another, up to the first one that becomes undefined. -/
def Traced.chain {α : Type} : List (Traced (List α)) → Traced (List α)
  | [] => ⟨[], .ok []⟩
  | first :: rest =>
      first.andThen fun as => (chain rest).andThen fun bs => ⟨[], .ok (as ++ bs)⟩

theorem constraintsOn_constraintsOn (v : TypeVar) (cs : List Constraint) :
    constraintsOn v (constraintsOn v cs) = constraintsOn v cs := by
  simp [constraintsOn]

section Alone

variable (L : Lattice) (cs : List Constraint)

theorem solve_alone (v : TypeVar) :
    solve L [v] (constraintsOn v cs) = (resolve L v (constraintsOn v cs)).map fun r => [r] := by
  rw [solve_eq_mapM, List.mapM_cons, constraintsOn_constraintsOn]
  cases resolve L v (constraintsOn v cs) <;> rfl

theorem traceSolve_alone (v : TypeVar) :
    traceSolve L (constraintsOn v cs) [v] =
      (traceResolve L v (constraintsOn v cs)).andThen fun r => ⟨[], .ok [r]⟩ := by
  simp only [traceSolve, traceEach, Buckets.on_ofConstraints, constraintsOn_constraintsOn]
  rfl

theorem traceSolve_eq_chain (vars : List TypeVar) :
    traceSolve L cs vars = .chain (vars.map fun v => traceSolve L (constraintsOn v cs) [v]) := by
  induction vars with
  | nil => rfl
  | cons v vars ih =>
      have first : traceSolve L cs (v :: vars) =
          (traceResolve L v (constraintsOn v cs)).andThen fun r =>
            (traceSolve L cs vars).andThen fun rs => ⟨[], .ok (r :: rs)⟩ := by
        simp only [traceSolve, traceEach, Buckets.on_ofConstraints]
      rw [first, ih, List.map_cons, Traced.chain, traceSolve_alone]
      unfold Traced.andThen
      cases (traceResolve L v (constraintsOn v cs)).outcome with
      | error e => rfl
      | ok r => simp only [List.append_nil, List.singleton_append]

theorem traceSolve_congr {vars : List TypeVar} {cs' : List Constraint}
    (own : ∀ v ∈ vars, constraintsOn v cs' = constraintsOn v cs) :
    traceSolve L cs' vars = traceSolve L cs vars := by
  rw [traceSolve_eq_chain, traceSolve_eq_chain]
  congr 1
  exact List.map_congr_left fun v member => by rw [own v member]

end Alone

section Results

variable {L : Lattice} {vars : List TypeVar} {cs : List Constraint} {rs : List Result}

theorem solve_eq_ok_iff_alone : solve L vars cs = .ok rs ↔
    rs.length = vars.length ∧ ∀ (i : Nat) v r, vars[i]? = some v → rs[i]? = some r →
      solve L [v] (constraintsOn v cs) = .ok [r] := by
  have alone (v : TypeVar) (r : Result) : solve L [v] (constraintsOn v cs) = .ok [r] ↔
      resolve L v (constraintsOn v cs) = .ok r := by
    rw [solve_alone]
    cases resolve L v (constraintsOn v cs) <;> simp [Except.map]
  simp only [solve_eq_ok_iff, alone, List.forall₂_iff_get, List.getElem?_eq_some_iff,
    List.get_eq_getElem]
  constructor
  · rintro ⟨lengths, each⟩
    refine ⟨lengths.symm, ?_⟩
    rintro i v r ⟨inside, rfl⟩ ⟨inside', rfl⟩
    exact each i inside inside'
  · rintro ⟨lengths, each⟩
    exact ⟨lengths.symm, fun i inside inside' => each i _ _ ⟨inside, rfl⟩ ⟨inside', rfl⟩⟩

theorem observations_traceSolve (solved : solve L vars cs = .ok rs) :
    observations (traceSolve L cs vars).events =
      rs.zip (vars.map fun v => (constraintsOn v cs).length) := by
  have each := solve_eq_ok_iff.mp solved
  clear solved
  rw [traceSolve]
  induction each with
  | nil => rfl
  | @cons v r vars rs resolved others ih =>
      have first := observations_traceResolve resolved
      have outcome : (traceResolve L v (constraintsOn v cs)).outcome = .ok r :=
        (outcome_traceResolve ..).trans resolved
      have rest : (traceEach L (.ofConstraints cs) vars).outcome = .ok rs :=
        (outcome_traceSolve ..).trans (solve_eq_ok_iff.mpr others)
      simp only [traceEach, Traced.andThen, Buckets.on_ofConstraints, outcome, rest,
        observations_append, first, ih]
      simp [observations]

end Results

/-- Variables are solved as each of them is by itself, under its own constraints in their order:
    the same happens on the way, there is one result for each and its observer is told how many
    constraints it has itself. Constraints on other variables have no effect. -/
theorem solve_independent (L : Lattice) (vars : List TypeVar) (cs : List Constraint) :
    (∀ rs, solve L vars cs = .ok rs ↔ rs.length = vars.length ∧ ∀ (i : Nat) v r,
      vars[i]? = some v → rs[i]? = some r → solve L [v] (cs.filter (·.var = v)) = .ok [r]) ∧
    (∀ rs, solve L vars cs = .ok rs → observations (traceSolve L cs vars).events =
      rs.zip (vars.map fun v => (cs.filter (·.var = v)).length)) ∧
    (L.Total → ∃ rs, solve L vars cs = .ok rs) ∧
    traceSolve L cs vars = .chain (vars.map fun v => traceSolve L (cs.filter (·.var = v)) [v]) ∧
    (∀ cs', (∀ v ∈ vars, cs'.filter (·.var = v) = cs.filter (·.var = v)) →
      solve L vars cs' = solve L vars cs ∧ traceSolve L cs' vars = traceSolve L cs vars) := by
  refine ⟨fun rs => solve_eq_ok_iff_alone, fun rs => observations_traceSolve, fun total => ?_,
    traceSolve_eq_chain L cs vars, fun cs' own => ?_⟩
  · exact exists_solve_of_resolve fun v _ => total.exists_resolve v (constraintsOn v cs)
  · have same := traceSolve_congr L cs own
    exact ⟨by rw [← outcome_traceSolve, same, outcome_traceSolve], same⟩

open Sample in
/-- Two numbers that agree in their low 32 bits, one of them asked for twice, a negative one, and
    constraints on a variable that nobody asks for. -/
theorem solve_independent_colliding :
    let low : TypeVar := ⟨1⟩
    let high : TypeVar := ⟨4294967297⟩
    let minus : TypeVar := ⟨-1⟩
    let vars := [low, high, minus, low]
    let cs : List Constraint := [⟨low, .lower, some (one Builtin.bool)⟩,
      ⟨high, .upper, some (one Builtin.str)⟩, ⟨⟨7⟩, .lower, some (one Builtin.str)⟩,
      ⟨low, .lower, some (one Builtin.bool)⟩, ⟨high, .lower, some (one Builtin.int)⟩]
    (low.hash = high.hash ∧ Lattice.flat.Total) ∧ ∃ rs, solve .flat vars cs = .ok rs ∧
      (∀ r, rs[3]? = some r → solve .flat [low] (cs.filter (·.var = low)) = .ok [r]) ∧
      observations (traceSolve .flat cs vars).events = rs.zip [2, 2, 0, 2] := by
  intro low high minus vars cs
  obtain ⟨alone, observed, total, -, -⟩ := solve_independent .flat vars cs
  obtain ⟨rs, solved⟩ := total Lattice.total_flat
  have counts : (vars.map fun v => (cs.filter (·.var = v)).length) = [2, 2, 0, 2] := by decide
  refine ⟨⟨by decide, Lattice.total_flat⟩, rs, solved, fun r fourth => ?_, ?_⟩
  · exact ((alone rs).mp solved).2 3 low r rfl fourth
  · rw [observed rs solved, counts]

end TypeBounds
