import TypeBounds.Proofs.Concurrent
import Mathlib.Data.List.Lattice

/-! # Cancelled work stops promptly

Where a cancellation is known at once, no task begins after it. So what is reported later
are the tasks that were at work when it came, and there is one fewer of those than there
may be tasks, since the report that cancels comes from a task as well. It does not matter
that a position may be committed to by then and is handed out afterwards: its task is
refused.
-/

namespace TypeBounds.Pool

variable {plan : Plan} {p q : Pool} {action : PoolAction} {schedule : List PoolAction}

/-- Nothing happens between a cancellation and the pool's knowing of it. -/
def heeds (p : Pool) (action : PoolAction) : Bool :=
  !p.cancelled || p.halted || action = .halt

/-- The state after a schedule, if all its actions were possible and cancellations were known
    at once. -/
def promptSteps? (plan : Plan) (p : Pool) (schedule : List PoolAction) : Option Pool :=
  schedule.foldlM (fun p action => if p.heeds action then p.step? plan action else none) p

theorem promptSteps?_cons : p.promptSteps? plan (action :: schedule) = some q ↔
    ∃ next, p.heeds action ∧ Step plan p action next ∧
      next.promptSteps? plan schedule = some q := by
  simp only [← step?_eq_some_iff, promptSteps?, List.foldlM_cons, Option.bind_eq_bind,
    Option.bind_eq_some_iff, Option.ite_none_right_eq_some, and_assoc]

theorem steps?_of_promptSteps? (ran : p.promptSteps? plan schedule = some q) :
    p.steps? plan schedule = some q := by
  induction schedule generalizing p with
  | nil => exact ran
  | cons action schedule ih =>
      obtain ⟨next, -, step, rest⟩ := promptSteps?_cons.mp ran
      exact steps?_cons.mpr ⟨next, step, ih rest⟩

theorem promptSteps?_concat {last : Pool} (ran : p.promptSteps? plan schedule = some q)
    (heeds : q.heeds action) (step : Step plan q action last) :
    p.promptSteps? plan (schedule ++ [action]) = some last := by
  induction schedule generalizing p with
  | nil =>
      cases ran
      exact promptSteps?_cons.mpr ⟨last, heeds, step, rfl⟩
  | cons first schedule ih =>
      obtain ⟨next, heedsFirst, firstStep, rest⟩ := promptSteps?_cons.mp ran
      exact promptSteps?_cons.mpr ⟨next, heedsFirst, firstStep, ih rest⟩

/-- What every step keeps that heeds cancellations, a whole schedule keeps. -/
theorem invariant_of_promptSteps? {Inv : Pool → Prop} (ran : p.promptSteps? plan schedule = some q)
    (holds : Inv p) (keeps : ∀ {p q : Pool} {action : PoolAction}, Inv p → p.heeds action →
      Step plan p action q → Inv q) : Inv q := by
  induction schedule generalizing p with
  | nil => cases ran; exact holds
  | cons action schedule ih =>
      obtain ⟨next, heeds, step, rest⟩ := promptSteps?_cons.mp ran
      exact ih rest (keeps holds heeds step)

theorem heeds_turn (p : Pool) (plan : Plan) : p.heeds (p.turn plan) := by
  by_cases news : p.cancelled ∧ p.halted = false
  · simp [heeds, turn, news]
  · have quiet : p.cancelled = false ∨ p.halted = true := by grind
    simp only [heeds]
    rcases quiet with kept | halted
    · simp [kept]
    · simp [halted]

theorem turn_ne_cancel (p : Pool) (plan : Plan) : p.turn plan ≠ .cancel := by
  unfold turn
  split
  · nofun
  · split
    · nofun
    · nofun
    · split
      · nofun
      · split <;> nofun

theorem runFor_prompt (plan : Plan) (turns : Nat) (p : Pool) :
    ∃ schedule, .cancel ∉ schedule ∧
      p.promptSteps? plan schedule = some (p.runFor plan turns) := by
  induction turns generalizing p with
  | zero => exact ⟨[], by simp, rfl⟩
  | succ turns ih =>
      rw [runFor]
      split
      · exact ⟨[], by simp, rfl⟩
      · split
        · rename_i next taken
          obtain ⟨schedule, outside, rest⟩ := ih next
          exact ⟨p.turn plan :: schedule, by simp [outside, Ne.symm (p.turn_ne_cancel plan)],
            promptSteps?_cons.mpr
              ⟨next, p.heeds_turn plan, step?_eq_some_iff.mp taken, rest⟩⟩
        · exact ⟨[], by simp, rfl⟩

theorem exists_prompt_run (plan : Plan) (cancelled : Bool) :
    ∃ schedule, .cancel ∉ schedule ∧
      (start cancelled).promptSteps? plan schedule = some (run plan cancelled) ∧
        (run plan cancelled).answer?.isSome := by
  obtain ⟨schedule, outside, ran⟩ := runFor_prompt plan (4 * plan.size + 2) (start cancelled)
  obtain ⟨-, -, -, answered⟩ := run_spec plan cancelled
  exact ⟨schedule, outside, ran, answered⟩

/-- No more tasks than allowed; before the work is cancelled fewer than `n` positions are
    reported, and afterwards the tasks at work do not bring the reports to more than allowed. -/
structure Curbed (plan : Plan) (n : Nat) (p : Pool) : Prop where
  tasks : p.waiting.length + p.working.length ≤ plan.limit
  before : p.cancelled = false → p.reported.length < n
  after : p.cancelled → p.reported.length + p.working.length < n + plan.limit

theorem Curbed.step {n : Nat} (limited : 0 < plan.limit) (at' : plan.cancelAt = some n)
    (curbed : p.Curbed plan n) (heeds : p.heeds action) (step : Step plan p action q) :
    q.Curbed plan n := by
  obtain ⟨tasks, before, after⟩ := curbed
  cases step with
  | cancel =>
      refine ⟨tasks, nofun, fun _ => ?_⟩
      cases cancelled : p.cancelled with
      | true => exact after cancelled
      | false =>
          have few := before cancelled
          show p.reported.length + p.working.length < n + plan.limit
          omega
  | halt | commit | close => exact ⟨tasks, before, after⟩
  | hand _ room =>
      refine ⟨?_, before, after⟩
      have free : p.tasks < plan.limit := by simpa [hasRoom, Nat.ne_of_gt limited] using room
      simp only [Pool.tasks] at free
      simp only [List.length_append, List.length_singleton]
      omega
  | refuse waiting =>
      refine ⟨?_, before, after⟩
      simp only [List.length_erase_of_mem waiting]
      omega
  | begin waiting running =>
      have kept : p.cancelled = false := by simpa [Pool.heeds, running] using heeds
      have present := List.length_pos_of_mem waiting
      refine ⟨?_, before, fun cancelled => ?_⟩
      · simp only [List.length_erase_of_mem waiting, List.length_append, List.length_singleton]
        omega
      · cases kept.symm.trans cancelled
  | finish working =>
      have present := List.length_pos_of_mem working
      have fewer := List.length_erase_of_mem working
      refine ⟨?_, fun kept => ?_, fun cancelled => ?_⟩
      · simp only [fewer]
        omega
      · simp only [at', List.length_append, List.length_singleton, Bool.or_eq_false_iff,
          beq_eq_false_iff_ne, ne_eq, Option.some.injEq] at kept ⊢
        have few := before kept.1
        omega
      · simp only [at', List.length_append, List.length_singleton, Bool.or_eq_true, beq_iff_eq,
          Option.some.injEq, fewer] at cancelled ⊢
        rcases cancelled with already | now
        · have bound := after already
          omega
        · omega

theorem curbed_start {n : Nat} (positive : 0 < n) : (start false).Curbed plan n :=
  ⟨Nat.zero_le _, fun _ => positive, nofun⟩

/-- The positions that wait, are at work or are reported. -/
def held (p : Pool) : List Nat := p.waiting ++ p.working ++ p.reported

theorem held_step (placed : p.held.Subperm (List.range p.handed)) (step : Step plan p action q) :
    q.held.Subperm (List.range q.handed) := by
  cases step with
  | cancel | halt | commit | close => exact placed
  | hand =>
      have moved : (p.waiting ++ [p.handed] ++ p.working ++ p.reported).Perm
          (p.held ++ [p.handed]) := by
        have last : ([p.handed] ++ (p.working ++ p.reported)).Perm
            (p.working ++ p.reported ++ [p.handed]) := List.perm_append_comm
        simpa only [held, List.append_assoc] using last.append_left p.waiting
      have more := (List.subperm_append_right [p.handed]).mpr placed
      rw [List.range_succ]
      exact moved.subperm.trans more
  | @refuse i =>
      have fewer : (p.waiting.erase i ++ p.working ++ p.reported).Sublist p.held :=
        (List.erase_sublist.append_right p.working).append_right p.reported
      exact fewer.subperm.trans placed
  | @begin i waiting =>
      have moved : (p.waiting.erase i ++ (p.working ++ [i])).Perm (p.waiting ++ p.working) :=
        perm_move waiting
      exact (moved.append_right p.reported).subperm.trans placed
  | @finish i working =>
      have moved : (p.working.erase i ++ (p.reported ++ [i])).Perm (p.working ++ p.reported) :=
        perm_move working
      rw [held, List.append_assoc] at placed ⊢
      exact (moved.append_left p.waiting).subperm.trans placed

/-- With one task at a time positions are reported in order, until the pool is halted. -/
structure InOrder (p : Pool) : Prop where
  tasks : p.waiting.length + p.working.length ≤ 1
  begun : p.reported ++ p.working = List.range (p.reported.length + p.working.length)
  handed : p.halted = false → p.reported ++ p.working ++ p.waiting = List.range p.handed

theorem InOrder.reported_eq (ordered : p.InOrder) :
    p.reported = List.range p.reported.length := by
  have cut := congrArg (List.take p.reported.length) ordered.begun
  rw [List.take_left, List.take_range, Nat.min_eq_left (Nat.le_add_right ..)] at cut
  exact cut

theorem eq_of_mem_waiting {i : Nat} (tasks : p.waiting.length + p.working.length ≤ 1)
    (waiting : i ∈ p.waiting) : p.waiting = [i] ∧ p.working = [] := by
  have present := List.length_pos_of_mem waiting
  obtain ⟨j, only⟩ := List.length_eq_one_iff.mp (show p.waiting.length = 1 by omega)
  obtain rfl := List.mem_singleton.mp (only ▸ waiting)
  exact ⟨only, List.length_eq_zero_iff.mp (by omega)⟩

theorem eq_of_mem_working {i : Nat} (tasks : p.waiting.length + p.working.length ≤ 1)
    (working : i ∈ p.working) : p.working = [i] ∧ p.waiting = [] := by
  have present := List.length_pos_of_mem working
  obtain ⟨j, only⟩ := List.length_eq_one_iff.mp (show p.working.length = 1 by omega)
  obtain rfl := List.mem_singleton.mp (only ▸ working)
  exact ⟨only, List.length_eq_zero_iff.mp (by omega)⟩

theorem InOrder.step (single : plan.limit = 1) (ordered : p.InOrder) (step : Step plan p action q) :
    q.InOrder := by
  obtain ⟨tasks, begun, handed⟩ := ordered
  cases step with
  | cancel | commit | close => exact ⟨tasks, begun, handed⟩
  | halt => exact ⟨tasks, begun, nofun⟩
  | hand _ room =>
      have idle : p.tasks = 0 := by simpa [hasRoom, single] using room
      obtain ⟨waiting, working⟩ := tasks_eq_zero_iff.mp idle
      refine ⟨by simp [waiting, working], begun, fun running => ?_⟩
      have all := handed running
      rw [waiting, List.append_nil] at all
      simp only [waiting, List.nil_append, all, List.range_succ]
  | refuse waiting halted =>
      obtain ⟨only, idle⟩ := eq_of_mem_waiting tasks waiting
      refine ⟨by simp [only, idle], begun, fun running => ?_⟩
      cases halted.symm.trans running
  | begin waiting running =>
      obtain ⟨only, idle⟩ := eq_of_mem_waiting tasks waiting
      have all := handed running
      rw [only, idle, List.append_nil] at all
      have length := congrArg List.length all
      simp only [List.length_append, List.length_singleton, List.length_range] at length
      refine ⟨by simp [only, idle], ?_, fun _ => ?_⟩
      · simpa [idle, length] using all
      · simpa [only, idle] using all
  | finish working =>
      obtain ⟨only, none⟩ := eq_of_mem_working tasks working
      refine ⟨by simp [only, none], ?_, fun running => ?_⟩
      · simpa [only] using begun
      · simpa [only, none] using handed running

/-- A pool over cancelled work reports nothing. -/
structure Idle (p : Pool) : Prop where
  halted : p.halted
  working : p.working = []
  reported : p.reported = []

theorem Idle.step (idle : p.Idle) (step : Step plan p action q) : q.Idle := by
  obtain ⟨halted, none, nothing⟩ := idle
  cases step with
  | begin _ running => cases halted.symm.trans running
  | finish working => simp [none] at working
  | _ => exact ⟨by simp [halted], none, nothing⟩

section Observed

variable {L : Lattice} {cs : List Constraint} {vars : List TypeVar}

theorem observations_of_error {v : TypeVar} {e : Undefined} (failed : resolve L v cs = .error e) :
    observations (traceResolve L v cs).events = [] := by
  have bounded : (Bounds.none.traceAll L cs).outcome = Bounds.ofConstraints L cs :=
    Bounds.outcome_traceAll ..
  cases bounds : Bounds.ofConstraints L cs with
  | error e' =>
      simp only [traceResolve, Traced.andThen, bounded, bounds, Bounds.observations_traceAll]
  | ok b =>
      cases given : b.verdict L with
      | ok verdict =>
          rw [resolve_eq_ok_iff.mpr ⟨b, verdict, bounds, given, rfl⟩] at failed
          cases failed
      | error e' =>
          simp only [traceResolve, Traced.andThen, bounded, bounds, given, observations_append,
            Bounds.observations_traceAll, Bounds.observations_verdictEvents, List.append_nil]

theorem length_observations_le (v : TypeVar) :
    (observations (traceResolve L v cs).events).length ≤ 1 := by
  cases resolved : resolve L v cs with
  | ok r => rw [observations_traceResolve resolved]; exact Nat.le_refl 1
  | error e => rw [observations_of_error resolved]; exact Nat.zero_le 1

theorem length_observations_trace_le (p : Pool) :
    (observations (p.trace L cs vars).events).length ≤ p.reported.length := by
  rw [observations_trace]
  generalize p.reported = positions
  induction positions with
  | nil => exact Nat.le_refl 0
  | cons i positions ih =>
      rw [List.flatMap_cons, List.length_append, List.length_cons, Nat.add_comm]
      refine Nat.add_le_add ih ?_
      cases vars[i]? with
      | none => exact Nat.zero_le 1
      | some v => exact length_observations_le v

theorem observations_trace_of_range {n : Nat} {rs : List Result} (most : n ≤ vars.length)
    (first : p.reported = List.range n) (solved : solve L vars cs = .ok rs) :
    observations (p.trace L cs vars).events =
      (rs.take n).map fun r => (r, (constraintsOn r.var cs).length) := by
  have taken : solve L (vars.take n) cs = .ok (rs.take n) :=
    solve_eq_ok_iff.mpr (List.forall₂_take n (solve_eq_ok_iff.mp solved))
  have length : (vars.take n).length = n := by rw [List.length_take, Nat.min_eq_left most]
  rw [observations_trace, first, ← flatMap_observations taken,
    ← flatMap_range_getElem? (vars.take n), length]
  refine List.flatMap_congr fun i inside => ?_
  rw [List.getElem?_take_of_lt (List.mem_range.mp inside)]

end Observed

/-- What a cancellation at the `n`-th report leaves of the work. -/
structure Curtailed (L : Lattice) (cs : List Constraint) (vars : List TypeVar) (plan : Plan)
    (n : Nat) (schedule : List PoolAction) (p : Pool) : Prop where
  /-- Only the tasks that are at work already are still observed. -/
  few : (observations (p.trace L cs vars).events).length ≤ p.reported.length ∧
    p.reported.length ≤ n + plan.limit - 1
  once : p.reported.Nodup ∧ ∀ i ∈ p.reported, i < vars.length
  /-- There are no results in the end, whichever variable was the last. -/
  interrupted : p.answer?.isSome →
    p.answer? = some .interrupted ∧ (p.trace L cs vars).outcome = .ok none
  /-- The cancellation does come, unless somebody else cancels. -/
  reached : p.answer?.isSome → .cancel ∉ schedule → n ≤ p.reported.length
  /-- One task at a time is through with the first `n` positions then, and with no other. -/
  single : plan.limit = 1 → n ≤ p.reported.length → p.reported = List.range n ∧
    ∀ rs, solve L vars cs = .ok rs → observations (p.trace L cs vars).events =
      (rs.take n).map fun r => (r, (constraintsOn r.var cs).length)
  /-- The end comes, and nothing has to wait for it. -/
  ends : schedule.countP (· ≠ .cancel) ≤ 4 * vars.length + 2 ∧ (p.answer? = none →
    ∃ action q, action ≠ .cancel ∧
      (start false).promptSteps? plan (schedule ++ [action]) = some q)

section Curtailed

variable {L : Lattice} {cs : List Constraint} {vars : List TypeVar} {n : Nat}

theorem curtailed (size : plan.size = vars.length) (at' : plan.cancelAt = some n)
    (limited : 0 < plan.limit) (positive : 1 ≤ n) (most : n ≤ vars.length)
    (ran : (start false).promptSteps? plan schedule = some p) :
    Curtailed L cs vars plan n schedule p := by
  have steps := steps?_of_promptSteps? ran
  have start : (start false).Sound plan := sound_start false
  have sound := start.steps steps
  have curbed : p.Curbed plan n :=
    invariant_of_promptSteps? ran (curbed_start positive) (.step limited at')
  have placed : p.held.Subperm (List.range p.handed) :=
    invariant_of_promptSteps? ran List.nil_subperm fun placed _ step => held_step placed step
  have inside : p.reported.Subperm (List.range p.handed) :=
    (List.sublist_append_right (p.waiting ++ p.working) p.reported).subperm.trans placed
  have bound : p.reported.length ≤ n + plan.limit - 1 := by
    cases cancelled : p.cancelled with
    | true => have := curbed.after cancelled; omega
    | false => have := curbed.before cancelled; omega
  have cancelled (answered : p.answer?.isSome) : p.cancelled := by
    by_contra kept
    replace kept : p.cancelled = false := by simpa using kept
    have all := (sound.reported_perm answered kept).length_eq
    have few := curbed.before kept
    rw [List.length_range] at all
    omega
  refine ⟨⟨length_observations_trace_le p, bound⟩, ⟨?_, ?_⟩, ?_, ?_, ?_, ?_, ?_⟩
  · obtain ⟨sorted, perm, sublist⟩ := inside
    exact perm.nodup_iff.mp (sublist.nodup List.nodup_range)
  · intro i member
    have handed := List.mem_range.mp (inside.subset member)
    have most := sound.handed
    omega
  · intro answered
    exact (sound.allOrNothing size answered).nothing (cancelled answered)
  · intro answered outside
    rcases (cancelled_steps steps).2.mp (cancelled answered) with already | outer | ⟨m, eq, _, le⟩
    · cases already
    · exact absurd outer outside
    · rw [at'] at eq
      cases eq
      exact le
  · intro single enough
    have ordered : p.InOrder :=
      invariant_of_promptSteps? ran ⟨Nat.zero_le _, rfl, fun _ => rfl⟩
        fun ordered _ step => ordered.step single step
    have first : p.reported = List.range n := by
      have length : p.reported.length = n := by omega
      rw [ordered.reported_eq, length]
    exact ⟨first, fun rs => observations_trace_of_range most first⟩
  · have taken := start.remaining_steps steps
    have all := remaining_start_le plan false
    rw [size] at all
    omega
  · intro unanswered
    obtain ⟨action, q, turn, own, step⟩ := sound.exists_step unanswered
    exact ⟨action, q, own, promptSteps?_concat ran (turn ▸ p.heeds_turn plan) step⟩

end Curtailed

end TypeBounds.Pool

namespace TypeBounds

/-- A cancellation that is known at once stops the work: if it comes with the `n`-th report, at most
    the other tasks report after it, and a single task nothing at all; there are no results. Work
    that was cancelled before is not observed at all. The order in which a pool runs is one of
    those in which a cancellation is known at once. -/
theorem Pool.cancellation_stops (L : Lattice) (cs : List Constraint) (vars : List TypeVar) :
    (∀ (limit n : Nat) (schedule : List PoolAction) (p : Pool), 0 < limit → 1 ≤ n →
      n ≤ vars.length → (start false).promptSteps? ⟨vars.length, limit, some n⟩ schedule = some p →
        Curtailed L cs vars ⟨vars.length, limit, some n⟩ n schedule p) ∧
    (∀ (limit : Nat) (cancelAt : Option Nat) (schedule : List PoolAction) (p : Pool),
      (start true).promptSteps? ⟨vars.length, limit, cancelAt⟩ schedule = some p →
        p.reported = [] ∧ observations (p.trace L cs vars).events = [] ∧
          (p.answer?.isSome → p.answer? = some .interrupted)) ∧
    (∀ (limit : Nat) (cancelAt : Option Nat) (cancelled : Bool), ∃ schedule, .cancel ∉ schedule ∧
      (start cancelled).promptSteps? ⟨vars.length, limit, cancelAt⟩ schedule =
        some (run ⟨vars.length, limit, cancelAt⟩ cancelled) ∧
      (run ⟨vars.length, limit, cancelAt⟩ cancelled).answer?.isSome) := by
  refine ⟨fun limit n schedule p limited positive most ran =>
    curtailed rfl rfl limited positive most ran, fun limit cancelAt schedule p ran => ?_,
    fun limit cancelAt cancelled => exists_prompt_run _ cancelled⟩
  have idle : p.Idle :=
    invariant_of_promptSteps? ran ⟨rfl, rfl, rfl⟩ fun idle _ step => idle.step step
  have sound : p.Sound ⟨vars.length, limit, cancelAt⟩ :=
    (sound_start true).steps (steps?_of_promptSteps? ran)
  refine ⟨idle.reported, ?_, fun answered => ?_⟩
  · rw [observations_trace, idle.reported]
    rfl
  · rw [sound.answer_eq answered, sound.halted idle.halted, if_pos rfl]

open Sample in
/-- The last of three variables cancels the work of one task; and with two tasks the first report
    does, while the other task is at work and the third position is committed to. -/
theorem Pool.cancellation_stops_midway :
    let vars := [⟨0⟩, ⟨1⟩, ⟨0⟩]
    let cs := [⟨⟨0⟩, .lower, some (one Builtin.int)⟩, ⟨⟨1⟩, .upper, some (one intList)⟩]
    let last : Pool := ⟨3, false, true, [], [], [0, 1, 2], true, true, false⟩
    let cut : Pool := ⟨3, false, true, [], [], [1, 0], true, true, true⟩
    ((start false).promptSteps? ⟨vars.length, 1, some 3⟩ [.commit, .hand, .check 0, .finish 0,
        .commit, .hand, .check 1, .commit, .finish 1, .hand, .check 2, .finish 2, .halt, .close] =
          some last ∧
      last.reported = List.range 3 ∧ last.answer? = some .interrupted) ∧
    ((start false).promptSteps? ⟨vars.length, 2, some 1⟩ [.commit, .hand, .commit, .hand, .check 0,
        .check 1, .commit, .finish 1, .halt, .hand, .finish 0, .check 2, .close] = some cut ∧
      cut.reported.length = 1 + 2 - 1 ∧ cut.reported.Nodup ∧ cut.answer? = some .interrupted ∧
        (cut.trace .nominal cs vars).outcome = .ok none) := by
  intro vars cs last cut
  have alone : (start false).promptSteps? ⟨vars.length, 1, some 3⟩ [.commit, .hand, .check 0,
      .finish 0, .commit, .hand, .check 1, .commit, .finish 1, .hand, .check 2, .finish 2, .halt,
      .close] = some last := by
    decide
  have blocked : (start false).promptSteps? ⟨vars.length, 2, some 1⟩ [.commit, .hand, .commit,
      .hand, .check 0, .check 1, .commit, .finish 1, .halt, .hand, .finish 0, .check 2, .close] =
        some cut := by
    decide
  obtain ⟨curtails, -, -⟩ := cancellation_stops .nominal cs vars
  have first := curtails 1 3 _ last (by decide) (by decide) (by decide) alone
  have second := curtails 2 1 _ cut (by decide) (by decide) (by decide) blocked
  exact ⟨⟨alone, (first.single rfl (by decide)).1, (first.interrupted rfl).1⟩, blocked, rfl,
    second.once.1, second.interrupted rfl⟩

end TypeBounds
