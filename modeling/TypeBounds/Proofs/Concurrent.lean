import TypeBounds.Report
import TypeBounds.Proofs.Pool
import TypeBounds.Proofs.Solution

/-! # Solving several variables at a time changes nothing

What happens on the way does not change what solving comes to, and each variable that is
solved is observed once. So a pool that has an answer has the results of solving the
variables one after another, or was cancelled and has none, whatever the schedule.
-/

namespace TypeBounds

@[simp]
theorem Traced.outcome_andThen {α β : Type} (first : Traced α) (next : α → Traced β) :
    (first.andThen next).outcome = first.outcome.bind fun a => (next a).outcome := by
  unfold andThen
  cases first.outcome <;> rfl

theorem Bounds.outcome_traceAll (L : Lattice) (b : Bounds) (cs : List Constraint) :
    (b.traceAll L cs).outcome = cs.foldlM (add L) b := by
  induction cs generalizing b with
  | nil => rfl
  | cons c cs ih => simp only [traceAll, Traced.outcome_andThen, ih, List.foldlM_cons]; rfl

theorem outcome_traceResolve (L : Lattice) (v : TypeVar) (cs : List Constraint) :
    (traceResolve L v cs).outcome = resolve L v cs := by
  simp only [traceResolve, Traced.outcome_andThen, Bounds.outcome_traceAll]
  rfl

theorem outcome_traceSolve (L : Lattice) (cs : List Constraint) (vars : List TypeVar) :
    (traceSolve L cs vars).outcome = solve L vars cs := by
  rw [solve_eq_mapM, traceSolve]
  induction vars with
  | nil => rfl
  | cons v vars ih =>
      simp only [traceEach, Traced.outcome_andThen, outcome_traceResolve, ih,
        Buckets.on_ofConstraints, List.mapM_cons]
      rfl

/-- What observers are told. -/
def observations (events : List Event) : List (Result × Nat) := events.filterMap (·.observation?)

theorem observations_append (before after : List Event) :
    observations (before ++ after) = observations before ++ observations after :=
  List.filterMap_append ..

theorem Bounds.observations_addEvents (b : Bounds) (c : Constraint) :
    observations (b.addEvents c) = [] := by
  unfold addEvents
  cases c.direction with
  | lower => cases b.lower <;> rfl
  | upper => cases b.upper <;> rfl
  | unknown => rfl

theorem Bounds.observations_traceAll (L : Lattice) (b : Bounds) (cs : List Constraint) :
    observations (b.traceAll L cs).events = [] := by
  induction cs generalizing b with
  | nil => rfl
  | cons c cs ih =>
      simp only [traceAll, Traced.andThen]
      cases b.add L c with
      | error => exact observations_addEvents b c
      | ok next => simp only [observations_append, observations_addEvents, ih, List.append_nil]

theorem Bounds.observations_verdictEvents (v : TypeVar) (b : Bounds)
    (verdict : Except Undefined Verdict) : observations (b.verdictEvents v verdict) = [] := by
  unfold verdictEvents
  split
  · rfl
  · split <;> rfl

theorem observations_traceResolve {L : Lattice} {v : TypeVar} {cs : List Constraint} {r : Result}
    (resolved : resolve L v cs = .ok r) :
    observations (traceResolve L v cs).events = [(r, cs.length)] := by
  obtain ⟨b, verdict, bounds, given, rfl⟩ := resolve_eq_ok_iff.mp resolved
  have bounded : (Bounds.none.traceAll L cs).outcome = .ok b :=
    (Bounds.outcome_traceAll ..).trans bounds
  simp only [traceResolve, Traced.andThen, bounded, given, observations_append,
    Bounds.observations_traceAll, Bounds.observations_verdictEvents, List.nil_append]
  rfl

theorem flatMap_observations {L : Lattice} {cs : List Constraint} {vars : List TypeVar}
    {rs : List Result} (solved : solve L vars cs = .ok rs) :
    (vars.flatMap fun v => observations (traceResolve L v (constraintsOn v cs)).events) =
      rs.map fun r => (r, (constraintsOn r.var cs).length) := by
  have each := solve_eq_ok_iff.mp solved
  clear solved
  induction each with
  | nil => rfl
  | cons resolved _ ih =>
      rw [List.flatMap_cons, List.map_cons, ih, observations_traceResolve resolved]
      obtain ⟨b, verdict, -, -, rfl⟩ := resolve_eq_ok_iff.mp resolved
      rfl

theorem flatMap_range_getElem? {α β : Type} (xs : List α) (f : α → List β) :
    ((List.range xs.length).flatMap fun i => (xs[i]?.map f).getD []) = xs.flatMap f := by
  induction xs with
  | nil => rfl
  | cons x xs ih => simp [List.range_succ_eq_map, List.flatMap_map, ih]

namespace Pool

section Trace

variable {L : Lattice} {cs : List Constraint} {vars : List TypeVar} {p : Pool}

theorem outcome_trace_of_done (done : p.answer? = some (.done p.reported))
    (all : p.reported.Perm (List.range vars.length)) :
    (p.trace L cs vars).outcome = (solve L vars cs).map some := by
  have work : ((vars.map fun v => traceResolve L v (constraintsOn v cs)).map (·.outcome)) =
      vars.map fun v => resolve L v (constraintsOn v cs) := by
    simp only [List.map_map, Function.comp_def, outcome_traceResolve]
  have filled : (filledSlots (vars.map fun v => resolve L v (constraintsOn v cs))
      p.reported).filterMap id = vars.map fun v => resolve L v (constraintsOn v cs) := by
    rw [filledSlots_of_perm (by simpa using all), List.filterMap_map]
    exact List.filterMap_some
  simp only [trace, done, Buckets.on_ofConstraints, work, filled, List.mapM_map, solve_eq_mapM]
  rfl

theorem observations_trace (p : Pool) :
    observations (p.trace L cs vars).events =
      p.reported.flatMap fun i =>
        (vars[i]?.map fun v => observations (traceResolve L v (constraintsOn v cs)).events).getD [] := by
  have events : (p.trace L cs vars).events = p.reported.flatMap fun i =>
      (vars[i]?.map fun v => (traceResolve L v (constraintsOn v cs)).events).getD [] := by
    simp only [trace, Buckets.on_ofConstraints, List.getElem?_map, Option.map_map,
      Function.comp_def]
    split <;> rfl
  rw [events, observations, List.filterMap_flatMap]
  congr 1
  funext i
  cases vars[i]? <;> rfl

theorem observations_trace_perm {rs : List Result} (all : p.reported.Perm (List.range vars.length))
    (solved : solve L vars cs = .ok rs) :
    (observations (p.trace L cs vars).events).Perm
      (rs.map fun r => (r, (constraintsOn r.var cs).length)) := by
  rw [observations_trace, ← flatMap_observations solved, ← flatMap_range_getElem? vars]
  exact all.flatMap_right _

end Trace

/-- Solving variables with a pool that has an answer gives all results or none. -/
structure AllOrNothing (L : Lattice) (cs : List Constraint) (vars : List TypeVar) (p : Pool) :
    Prop where
  /-- Cancelled work is interrupted and gives no results. -/
  nothing : p.cancelled →
    p.answer? = some .interrupted ∧ (p.trace L cs vars).outcome = .ok none
  /-- Other work leaves no slot empty and gives the results of solving in order. -/
  all : p.cancelled = false →
    p.answer? = some (.done p.reported) ∧ filledSlots vars p.reported = vars.map some ∧
      (p.trace L cs vars).outcome = (solve L vars cs).map some
  /-- Every variable is observed once for each of its positions, with its own constraints. -/
  observed : p.cancelled = false → ∀ rs, solve L vars cs = .ok rs →
    (observations (p.trace L cs vars).events).Perm
      (rs.map fun r => (r, (constraintsOn r.var cs).length))

theorem Sound.allOrNothing {L : Lattice} {cs : List Constraint} {vars : List TypeVar} {plan : Plan}
    {p : Pool} (sound : p.Sound plan) (size : plan.size = vars.length)
    (answered : p.answer?.isSome) : p.AllOrNothing L cs vars := by
  have answer := sound.answer_eq answered
  have reported := sound.reported_perm answered
  rw [size] at reported
  refine ⟨fun cancelled => ?_, fun kept => ?_, fun kept rs solved => ?_⟩
  · rw [cancelled, if_pos rfl] at answer
    exact ⟨answer, by simp [trace, answer]⟩
  · rw [kept, if_neg Bool.false_ne_true] at answer
    exact ⟨answer, filledSlots_of_perm (reported kept),
      outcome_trace_of_done answer (reported kept)⟩
  · exact observations_trace_perm (reported kept) solved

end Pool

namespace Report

theorem outcome_ofPoolTrace {problem : Problem} {traced : PoolTrace}
    (agree : traced.outcome = (solve .nominal problem.vars problem.constraints).map some) :
    (ofPoolTrace problem traced).outcome = (solving problem 1 false).outcome := by
  simp only [ofPoolTrace, agree, solving, outcome_traceSolve]
  cases solve .nominal problem.vars problem.constraints <;> rfl

/-- How many variables are solved at a time makes no difference. -/
theorem outcome_solving (problem : Problem) (concurrency : Int) :
    (solving problem concurrency false).outcome = (solving problem 1 false).outcome := by
  by_cases one : concurrency = 0 ∨ concurrency = 1
  · simp [solving, one]
  · obtain ⟨schedule, outside, ran, answered⟩ :=
      Pool.run_spec ⟨problem.vars.length, concurrency.toNat, none⟩ false
    have kept : (Pool.run ⟨problem.vars.length, concurrency.toNat, none⟩ false).cancelled = false := by
      have cancelled := (Pool.cancelled_steps ran).2
      simpa [Pool.start, outside] using cancelled
    have sound := (Pool.sound_start false).steps ran
    rw [solving, if_neg one]
    exact outcome_ofPoolTrace ((sound.allOrNothing rfl answered).all kept).2.2

end Report

/-- Whatever the schedule, a pool comes to an end, is interrupted exactly if the work was
    cancelled, and otherwise gives what solving the variables in order gives; so the report on a
    problem is the same for every schedule and every number of variables at a time. -/
theorem Pool.all_or_nothing {L : Lattice} {cs : List Constraint} {vars : List TypeVar} {limit : Nat}
    {cancelAt : Option Nat} {cancelled : Bool} {schedule : List PoolAction} {p : Pool}
    (ran : (start cancelled).steps? ⟨vars.length, limit, cancelAt⟩ schedule = some p) :
    schedule.countP (· ≠ .cancel) ≤ 4 * vars.length + 2 ∧
    (p.answer? = none →
      ∃ action, action ≠ .cancel ∧ (p.step? ⟨vars.length, limit, cancelAt⟩ action).isSome) ∧
    (p.cancelled ↔ cancelled ∨ .cancel ∈ schedule ∨
      ∃ n, cancelAt = some n ∧ 0 < n ∧ n ≤ p.reported.length) ∧
    (p.answer?.isSome → p.AllOrNothing L cs vars) ∧
    (p.answer?.isSome → p.cancelled = false → ∀ problem : Problem,
      problem.vars = vars → problem.constraints = cs → ∀ concurrency,
        (Report.ofPoolTrace problem (p.trace .nominal cs vars)).outcome =
          (Report.solving problem concurrency false).outcome) := by
  have sound := (sound_start cancelled).steps ran
  refine ⟨?_, fun unanswered => ?_, (cancelled_steps ran).2, sound.allOrNothing rfl, ?_⟩
  · have bound := (sound_start cancelled).remaining_steps ran
    exact Nat.le_trans (Nat.le_of_add_left_le bound) (remaining_start_le _ cancelled)
  · obtain ⟨action, next, -, own, step⟩ := sound.exists_step unanswered
    exact ⟨action, own, by simp [step?_eq_some_iff.mpr step]⟩
  · rintro answered kept problem rfl rfl concurrency
    rw [Report.outcome_solving problem concurrency]
    exact Report.outcome_ofPoolTrace ((sound.allOrNothing rfl answered).all kept).2.2

open Sample in
/-- Three positions done out of order, two at a time, and a cancellation that no task notices. -/
theorem Pool.all_or_nothing_three :
    let vars := [⟨0⟩, ⟨1⟩, ⟨0⟩]
    let cs := [⟨⟨0⟩, .lower, some (one Builtin.int)⟩, ⟨⟨1⟩, .upper, some (one intList)⟩]
    let done : Pool := ⟨3, false, true, [], [], [1, 0, 2], false, false, false⟩
    let cut : Pool := ⟨1, false, true, [], [], [0], true, true, false⟩
    ((start false).steps? ⟨vars.length, 2, none⟩ [.commit, .hand, .commit, .hand, .check 1, .check 0,
        .finish 1, .commit, .hand, .finish 0, .check 2, .close, .finish 2] = some done ∧
      done.AllOrNothing .nominal cs vars) ∧
    ((start false).steps? ⟨vars.length, 2, none⟩ [.commit, .hand, .cancel, .check 0, .halt,
        .finish 0, .close] = some cut ∧
      cut.AllOrNothing .nominal cs vars) := by
  intro vars cs done cut
  have ran : (start false).steps? ⟨vars.length, 2, none⟩ [.commit, .hand, .commit, .hand, .check 1,
      .check 0, .finish 1, .commit, .hand, .finish 0, .check 2, .close, .finish 2] = some done := by
    decide
  have ranUntil : (start false).steps? ⟨vars.length, 2, none⟩ [.commit, .hand, .cancel, .check 0,
      .halt, .finish 0, .close] = some cut := by
    decide
  obtain ⟨-, -, -, doneAll, -⟩ := all_or_nothing ran
  obtain ⟨-, -, -, cutNone, -⟩ := all_or_nothing ranUntil
  exact ⟨⟨ran, doneAll rfl⟩, ranUntil, cutNone rfl⟩

end TypeBounds
