import TypeBounds.Variable.Pool
import Mathlib.Data.List.Perm.Basic

/-! # Every schedule of a pool

A schedule is a list of actions, each of them possible when it happens. Under every
schedule a position is handed out once, and then waits, is at work or is reported, unless
a task was refused; and only cancelled work is refused. So a pool with an answer has
reported all positions or was cancelled. No schedule gets stuck before there is an
answer, and none is long.
-/

namespace TypeBounds.Pool

/-- The state after a schedule, if all its actions were possible. -/
def steps? (plan : Plan) (p : Pool) (schedule : List PoolAction) : Option Pool :=
  schedule.foldlM (step? plan) p

/-- What each action needs and does. A task that looks is refused or begins. -/
inductive Step (plan : Plan) (p : Pool) : PoolAction → Pool → Prop where
  | cancel : Step plan p .cancel { p with cancelled := true }
  | halt (cancelled : p.cancelled) (running : p.halted = false) :
      Step plan p .halt { p with halted := true }
  | commit (opened : p.closed = false) (free : p.committed = false) (running : p.halted = false)
      (left : p.handed < plan.size) : Step plan p .commit { p with committed := true }
  | hand (committed : p.committed) (room : p.hasRoom plan) :
      Step plan p .hand
        { p with handed := p.handed + 1, committed := false, waiting := p.waiting ++ [p.handed] }
  | close (opened : p.closed = false) (free : p.committed = false)
      (ended : p.halted ∨ p.handed = plan.size) : Step plan p .close { p with closed := true }
  | refuse {i : Nat} (waiting : i ∈ p.waiting) (halted : p.halted) :
      Step plan p (.check i) { p with waiting := p.waiting.erase i, refused := true }
  | begin {i : Nat} (waiting : i ∈ p.waiting) (running : p.halted = false) :
      Step plan p (.check i) { p with waiting := p.waiting.erase i, working := p.working ++ [i] }
  | finish {i : Nat} (working : i ∈ p.working) :
      Step plan p (.finish i) { p with
        working := p.working.erase i
        reported := p.reported ++ [i]
        cancelled := p.cancelled || plan.cancelAt == some (p.reported ++ [i]).length }

variable {plan : Plan} {p q : Pool} {action : PoolAction} {schedule : List PoolAction}

theorem step?_eq_some_iff : p.step? plan action = some q ↔ Step plan p action q := by
  constructor
  · intro done
    cases action with
    | cancel => cases done; exact .cancel
    | halt =>
        simp only [step?, Option.ite_none_right_eq_some, Bool.and_eq_true, Bool.not_eq_true',
          Option.some.injEq] at done
        obtain ⟨⟨cancelled, running⟩, rfl⟩ := done
        exact .halt cancelled running
    | commit =>
        simp only [step?, Option.ite_none_right_eq_some, Bool.and_eq_true, Bool.not_eq_true',
          decide_eq_true_eq, Option.some.injEq] at done
        obtain ⟨⟨⟨⟨opened, free⟩, running⟩, left⟩, rfl⟩ := done
        exact .commit opened free running left
    | hand =>
        simp only [step?, Option.ite_none_right_eq_some, Bool.and_eq_true, Option.some.injEq] at done
        obtain ⟨⟨committed, room⟩, rfl⟩ := done
        exact .hand committed room
    | close =>
        simp only [step?, Option.ite_none_right_eq_some, Bool.and_eq_true, Bool.not_eq_true',
          Bool.or_eq_true, beq_iff_eq, Option.some.injEq] at done
        obtain ⟨⟨⟨opened, free⟩, ended⟩, rfl⟩ := done
        exact .close opened free ended
    | check i =>
        simp only [step?, Option.ite_none_right_eq_some, List.contains_iff_mem] at done
        obtain ⟨waiting, done⟩ := done
        split at done
        next halted => cases done; exact .refuse waiting halted
        next running => cases done; exact .begin waiting (Bool.eq_false_iff.mpr running)
    | finish i =>
        simp only [step?, Option.ite_none_right_eq_some, List.contains_iff_mem,
          Option.some.injEq] at done
        obtain ⟨working, rfl⟩ := done
        exact .finish working
  · intro step
    cases step with
    | cancel => rfl
    | _ => simp_all [step?]

theorem steps?_cons :
    p.steps? plan (action :: schedule) = some q ↔
      ∃ next, Step plan p action next ∧ next.steps? plan schedule = some q := by
  simp only [← step?_eq_some_iff, steps?, List.foldlM_cons, Option.bind_eq_bind,
    Option.bind_eq_some_iff]

/-- What is true of a pool under every schedule. -/
structure Sound (plan : Plan) (p : Pool) : Prop where
  handed : p.handed ≤ plan.size
  committed : p.committed → p.closed = false ∧ p.handed < plan.size
  closed : p.closed → p.halted ∨ p.handed = plan.size
  halted : p.halted → p.cancelled
  refused : p.refused → p.halted
  /-- No position that was handed out got lost or came twice. -/
  positions : p.refused = false →
    (p.waiting ++ p.working ++ p.reported).Perm (List.range p.handed)

theorem sound_start (cancelled : Bool) : (start cancelled).Sound plan where
  handed := Nat.zero_le _
  committed := nofun
  closed := nofun
  halted := id
  refused := nofun
  positions _ := .nil

theorem perm_move {i : Nat} {source target : List Nat} (member : i ∈ source) :
    (source.erase i ++ (target ++ [i])).Perm (source ++ target) := by
  rw [← List.append_assoc]
  have last : (source.erase i ++ target ++ [i]).Perm (i :: source.erase i ++ target) :=
    List.perm_append_singleton ..
  exact last.trans ((List.perm_cons_erase member).symm.append_right target)

theorem Sound.step (sound : p.Sound plan) (step : Step plan p action q) : q.Sound plan := by
  obtain ⟨handed, committed, closed, halted, refused, positions⟩ := sound
  cases step with
  | cancel => exact ⟨handed, committed, closed, fun _ => rfl, refused, positions⟩
  | halt cancelled =>
      exact ⟨handed, committed, fun _ => .inl rfl, fun _ => cancelled, fun _ => rfl, positions⟩
  | commit opened _ _ left =>
      exact ⟨handed, fun _ => ⟨opened, left⟩, closed, halted, refused, positions⟩
  | hand isCommitted =>
      obtain ⟨opened, left⟩ := committed isCommitted
      refine ⟨left, nofun, fun isClosed => ?_, halted, refused, fun kept => ?_⟩
      · cases opened.symm.trans isClosed
      · rw [List.range_succ, List.append_assoc, List.append_assoc]
        have before := (positions kept).append_right [p.handed]
        rw [List.append_assoc, List.append_assoc, ← List.append_assoc p.working] at before
        exact (List.perm_append_comm.append_left p.waiting).trans before
  | close _ free ended =>
      exact ⟨handed, fun isCommitted => (by cases free.symm.trans isCommitted), fun _ => ended,
        halted, refused, positions⟩
  | refuse _ isHalted => exact ⟨handed, committed, closed, halted, fun _ => isHalted, nofun⟩
  | begin waiting =>
      refine ⟨handed, committed, closed, halted, refused, fun kept => ?_⟩
      exact ((perm_move waiting).append_right p.reported).trans (positions kept)
  | finish working =>
      refine ⟨handed, committed, closed, fun isHalted => ?_, refused, fun kept => ?_⟩
      · simp [halted isHalted]
      · have before := positions kept
        rw [List.append_assoc] at before ⊢
        exact ((perm_move working).append_left p.waiting).trans before

theorem Sound.steps (sound : p.Sound plan) (ran : p.steps? plan schedule = some q) :
    q.Sound plan := by
  induction schedule generalizing p with
  | nil => cases ran; exact sound
  | cons action schedule ih =>
      obtain ⟨next, step, rest⟩ := steps?_cons.mp ran
      exact ih (sound.step step) rest

/-- The most actions that can still happen, not counting cancellations from outside. -/
def remaining (plan : Plan) (p : Pool) : Nat :=
  (4 * (plan.size - p.handed) - p.committed.toNat) + 2 * p.waiting.length + p.working.length +
    (!p.closed).toNat + (!p.halted).toNat

theorem Sound.remaining_step (sound : p.Sound plan) (step : Step plan p action q) :
    q.remaining plan + (if action = .cancel then 0 else 1) ≤ p.remaining plan := by
  cases step with
  | cancel => exact Nat.le_refl _
  | halt _ running => simp [remaining, running]
  | commit _ free _ left =>
      simp only [remaining, free, Bool.toNat_true, Bool.toNat_false, reduceCtorEq, ↓reduceIte]
      omega
  | hand isCommitted =>
      have left := (sound.committed isCommitted).2
      simp only [remaining, isCommitted, List.length_append, List.length_singleton,
        Bool.toNat_true, Bool.toNat_false, reduceCtorEq, ↓reduceIte]
      omega
  | close opened =>
      simp only [remaining, opened, Bool.not_true, Bool.not_false, Bool.toNat_true,
        Bool.toNat_false, reduceCtorEq, ↓reduceIte]
      omega
  | refuse waiting =>
      have present := List.length_pos_of_mem waiting
      simp only [remaining, List.length_erase_of_mem waiting, reduceCtorEq, ↓reduceIte]
      omega
  | begin waiting =>
      have present := List.length_pos_of_mem waiting
      simp only [remaining, List.length_erase_of_mem waiting, List.length_append,
        List.length_singleton, reduceCtorEq, ↓reduceIte]
      omega
  | finish working =>
      have present := List.length_pos_of_mem working
      simp only [remaining, List.length_erase_of_mem working, reduceCtorEq, ↓reduceIte]
      omega

theorem Sound.remaining_steps (sound : p.Sound plan) (ran : p.steps? plan schedule = some q) :
    q.remaining plan + schedule.countP (· ≠ .cancel) ≤ p.remaining plan := by
  induction schedule generalizing p with
  | nil => cases ran; exact Nat.le_refl _
  | cons action schedule ih =>
      obtain ⟨next, step, rest⟩ := steps?_cons.mp ran
      have first := sound.remaining_step step
      have later := ih (sound.step step) rest
      rw [List.countP_cons]
      split at first <;> simp_all <;> omega

theorem tasks_eq_zero_iff : p.tasks = 0 ↔ p.waiting = [] ∧ p.working = [] := by
  simp [tasks]

theorem answer?_isSome_iff : p.answer?.isSome ↔ p.closed ∧ p.waiting = [] ∧ p.working = [] := by
  simp [answer?, tasks_eq_zero_iff]

/-- A pool without an answer is not stuck: whoever has the turn can take it. -/
theorem Sound.exists_step (sound : p.Sound plan) (unanswered : p.answer? = none) :
    ∃ action q, p.turn plan = action ∧ action ≠ .cancel ∧ Step plan p action q := by
  by_cases news : p.cancelled ∧ p.halted = false
  · exact ⟨.halt, _, by simp [turn, news], by simp, .halt news.1 news.2⟩
  match working : p.working, waiting : p.waiting with
  | i :: _, _ =>
      exact ⟨.finish i, _, by simp [turn, news, working], by simp, .finish (by simp [working])⟩
  | [], i :: _ =>
      have turn : p.turn plan = .check i := by simp [turn, news, working, waiting]
      cases halted : p.halted with
      | true => exact ⟨.check i, _, turn, by simp, .refuse (by simp [waiting]) halted⟩
      | false => exact ⟨.check i, _, turn, by simp, .begin (by simp [waiting]) halted⟩
  | [], [] =>
      have opened : p.closed = false := by
        by_contra closed
        have answered := answer?_isSome_iff.mpr ⟨by simpa using closed, waiting, working⟩
        simp [unanswered] at answered
      cases committed : p.committed with
      | true =>
          have room : p.hasRoom plan := by
            simp only [hasRoom, tasks_eq_zero_iff.mpr ⟨waiting, working⟩, Bool.or_eq_true, beq_iff_eq,
              decide_eq_true_eq]
            omega
          exact ⟨.hand, _, by simp [turn, news, working, waiting, committed], by simp,
            .hand committed room⟩
      | false =>
          by_cases ended : p.halted ∨ p.handed = plan.size
          · exact ⟨.close, _, by simp [turn, news, working, waiting, committed, ended], by simp,
              .close opened committed ended⟩
          · have more : p.halted = false ∧ p.handed ≠ plan.size := by simpa using ended
            exact ⟨.commit, _, by simp [turn, news, working, waiting, committed, ended], by simp,
              .commit opened committed more.1 (by have := sound.handed; omega)⟩

theorem Sound.runFor {turns : Nat} (sound : p.Sound plan) (enough : p.remaining plan ≤ turns) :
    ∃ schedule, .cancel ∉ schedule ∧ p.steps? plan schedule = some (p.runFor plan turns) ∧
      (p.runFor plan turns).answer?.isSome := by
  induction turns generalizing p with
  | zero =>
      cases answered : p.answer? with
      | some answer => exact ⟨[], by simp, rfl, by simp [Pool.runFor, answered]⟩
      | none =>
          obtain ⟨action, next, -, own, step⟩ := sound.exists_step answered
          have less := sound.remaining_step step
          rw [if_neg own] at less
          omega
  | succ turns ih =>
      cases answered : p.answer? with
      | some answer =>
          exact ⟨[], by simp, by simp [Pool.runFor, answered, steps?], by simp [Pool.runFor, answered]⟩
      | none =>
          obtain ⟨action, next, turn, own, step⟩ := sound.exists_step answered
          have less := sound.remaining_step step
          rw [if_neg own] at less
          obtain ⟨schedule, outside, ran, done⟩ := ih (sound.step step) (by omega)
          rw [Pool.runFor, answered, turn, step?_eq_some_iff.mpr step]
          exact ⟨action :: schedule, by simp [Ne.symm own, outside],
            steps?_cons.mpr ⟨next, step, ran⟩, done⟩

theorem remaining_start_le (plan : Plan) (cancelled : Bool) :
    (start cancelled).remaining plan ≤ 4 * plan.size + 2 := by
  cases cancelled <;> simp [remaining, start]

/-- The chosen order is one of the schedules, and comes to an end. -/
theorem run_spec (plan : Plan) (cancelled : Bool) :
    ∃ schedule, .cancel ∉ schedule ∧
      (start cancelled).steps? plan schedule = some (run plan cancelled) ∧
        (run plan cancelled).answer?.isSome :=
  (sound_start cancelled).runFor (remaining_start_le plan cancelled)

theorem cancelled_step (step : Step plan p action q) :
    p.reported.length ≤ q.reported.length ∧
      (q.cancelled ↔ p.cancelled ∨ action = .cancel ∨
        ∃ n, plan.cancelAt = some n ∧ p.reported.length < n ∧ n ≤ q.reported.length) := by
  have still {n : Nat} : ¬ (p.reported.length < n ∧ n ≤ p.reported.length) := by omega
  cases step with
  | cancel => simp
  | finish =>
      simp only [List.length_append, List.length_singleton, Bool.or_eq_true, beq_iff_eq,
        reduceCtorEq, false_or]
      refine ⟨by omega, or_congr_right ⟨fun now => ⟨_, now, by omega, by omega⟩, ?_⟩⟩
      rintro ⟨n, now, after, before⟩
      obtain rfl : n = p.reported.length + 1 := by omega
      exact now
  | _ => simp [still]

theorem cancelled_steps (ran : p.steps? plan schedule = some q) :
    p.reported.length ≤ q.reported.length ∧
      (q.cancelled ↔ p.cancelled ∨ .cancel ∈ schedule ∨
        ∃ n, plan.cancelAt = some n ∧ p.reported.length < n ∧ n ≤ q.reported.length) := by
  induction schedule generalizing p with
  | nil =>
      cases ran
      have still {n : Nat} : ¬ (q.reported.length < n ∧ n ≤ q.reported.length) := by omega
      simp [still]
  | cons action schedule ih =>
      obtain ⟨next, step, rest⟩ := steps?_cons.mp ran
      obtain ⟨grown, first⟩ := cancelled_step step
      obtain ⟨grown', later⟩ := ih rest
      refine ⟨by omega, ?_⟩
      rw [later, first, List.mem_cons]
      constructor
      · rintro ((before | now | ⟨n, at', more, most⟩) | outside | ⟨n, at', more, most⟩)
        · exact .inl before
        · exact .inr (.inl (.inl now.symm))
        · exact .inr (.inr ⟨n, at', more, by omega⟩)
        · exact .inr (.inl (.inr outside))
        · exact .inr (.inr ⟨n, at', by omega, most⟩)
      · rintro (before | (now | outside) | ⟨n, at', more, most⟩)
        · exact .inl (.inl before)
        · exact .inl (.inr (.inl now.symm))
        · exact .inr (.inl outside)
        · rcases Nat.lt_or_ge next.reported.length n with ahead | reached
          · exact .inr (.inr ⟨n, at', ahead, most⟩)
          · exact .inl (.inr (.inr ⟨n, at', more, reached⟩))

theorem Sound.undisturbed (sound : p.Sound plan) (kept : p.cancelled = false) :
    p.halted = false ∧ p.refused = false := by
  have running : p.halted = false := by
    by_contra halted
    simp [sound.halted (by simpa using halted)] at kept
  refine ⟨running, ?_⟩
  by_contra refused
  simp [sound.refused (by simpa using refused)] at running

/-- Nothing but a cancellation keeps a pool from being done. -/
theorem Sound.answer_eq (sound : p.Sound plan) (answered : p.answer?.isSome) :
    p.answer? = some (if p.cancelled then .interrupted else .done p.reported) := by
  obtain ⟨closed, waiting, working⟩ := answer?_isSome_iff.mp answered
  have idle := tasks_eq_zero_iff.mpr ⟨waiting, working⟩
  cases cancelled : p.cancelled with
  | true => simp [answer?, closed, idle, cancelled]
  | false => simp [answer?, closed, idle, cancelled, (sound.undisturbed cancelled).2]

theorem Sound.reported_perm (sound : p.Sound plan) (answered : p.answer?.isSome)
    (kept : p.cancelled = false) : p.reported.Perm (List.range plan.size) := by
  obtain ⟨closed, waiting, working⟩ := answer?_isSome_iff.mp answered
  obtain ⟨running, accepted⟩ := sound.undisturbed kept
  have all : p.handed = plan.size := (sound.closed closed).resolve_left (by simp [running])
  simpa [waiting, working, all] using sound.positions accepted

end TypeBounds.Pool

namespace TypeBounds

theorem filledSlots_of_perm {α : Type} {work : List α} {reported : List Nat}
    (all : reported.Perm (List.range work.length)) : filledSlots work reported = work.map some := by
  apply List.ext_getElem
  · simp [filledSlots]
  · intro i _ inside
    have present : i ∈ reported := all.mem_iff.mpr (by simpa using inside)
    simp [filledSlots, present]

end TypeBounds
