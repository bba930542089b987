import TypeBounds.Proofs.Independence
import TypeBounds.Proofs.Numerals

/-! # Tallies count every observation once

A tally is added to one observation at a time. Each of them raises the counter of its
labels and one bucket, and so all the cumulative buckets whose ends are not below it. What
the text says is therefore how many observations there are of each kind, whatever the order
in which they came; and the orders in which a pool reports its variables are no exception.
-/

namespace TypeBounds

section Entries

variable {κ α : Type} [DecidableEq κ] (key : κ) (f : Option α → α) (entries : List (κ × α))

theorem map_fst_alterEntry : (alterEntry key f entries).map (·.1) =
    if key ∈ entries.map (·.1) then entries.map (·.1) else entries.map (·.1) ++ [key] := by
  induction entries with
  | nil => simp [alterEntry]
  | cons entry rest ih =>
      obtain ⟨k, a⟩ := entry
      by_cases here : k = key
      · simp [alterEntry, here]
      · simp only [alterEntry, if_neg here, List.map_cons, ih, List.mem_cons, Ne.symm here,
          false_or]
        split <;> rfl

theorem mem_alterEntry {entry : κ × α} (member : entry ∈ alterEntry key f entries) :
    entry ∈ entries ∨ ∃ before, entry = (key, f before) := by
  induction entries with
  | nil =>
      obtain rfl : entry = (key, f none) := by simpa [alterEntry] using member
      exact .inr ⟨none, rfl⟩
  | cons first rest ih =>
      obtain ⟨k, a⟩ := first
      rw [alterEntry] at member
      split at member
      next here =>
        rcases List.mem_cons.mp member with rfl | later
        · exact .inr ⟨some a, by rw [here]⟩
        · exact .inl (List.mem_cons_of_mem _ later)
      next =>
        rcases List.mem_cons.mp member with rfl | later
        · exact .inl List.mem_cons_self
        · exact (ih later).imp_left (List.mem_cons_of_mem _)

theorem foldr_alterEntry (entries : List (κ × Nat)) :
    (alterEntry key (fun count => count.getD 0 + 1) entries).foldr (fun e n => (e.2 : Int) + n) 0 =
      entries.foldr (fun e n => (e.2 : Int) + n) 0 + 1 := by
  induction entries with
  | nil => simp [alterEntry]
  | cons first rest ih =>
      rw [alterEntry]
      split
      next =>
        simp only [List.foldr_cons, Option.getD_some]
        omega
      next =>
        simp only [List.foldr_cons, ih]
        omega

variable {key entries}

theorem nodup_alterEntry (distinct : (entries.map (·.1)).Nodup) :
    ((alterEntry key f entries).map (·.1)).Nodup := by
  rw [map_fst_alterEntry]
  split
  next => exact distinct
  next new =>
    rw [List.nodup_append]
    refine ⟨distinct, by simp, fun k member k' last => ?_⟩
    rw [List.mem_singleton.mp last]
    exact ne_of_mem_of_not_mem member new

theorem mem_iff_lookup (distinct : (entries.map (·.1)).Nodup) {a : α} :
    (key, a) ∈ entries ↔ entries.lookup key = some a := by
  induction entries with
  | nil => simp
  | cons first rest ih =>
      obtain ⟨k, b⟩ := first
      rw [List.map_cons, List.nodup_cons] at distinct
      by_cases here : key = k
      · have only : (key, a) ∉ rest := fun member =>
          distinct.1 (here ▸ List.mem_map_of_mem (f := (·.1)) member)
        simp [here, eq_comm, here ▸ only]
      · simp [List.lookup_cons, here, beq_false_of_ne here, ih distinct.2]

end Entries

namespace Tally

theorem map_fst_fill (n : Int) (buckets : List (Int × Nat)) :
    (fill n buckets).map (·.1) = buckets.map (·.1) := by
  induction buckets with
  | nil => rfl
  | cons bucket rest ih =>
      rw [fill]
      split
      next => rfl
      next => rw [List.map_cons, List.map_cons, ih]

theorem map_fst_cumulative (below : Nat) (buckets : List (Int × Nat)) :
    (cumulative below buckets).map (·.1) = buckets.map (·.1) := by
  induction buckets generalizing below with
  | nil => rfl
  | cons bucket rest ih => rw [cumulative, List.map_cons, List.map_cons, ih]

theorem cumulative_add (below more : Nat) (buckets : List (Int × Nat)) :
    cumulative (below + more) buckets =
      (cumulative below buckets).map fun bucket => (bucket.1, bucket.2 + more) := by
  induction buckets generalizing below with
  | nil => rfl
  | cons bucket rest ih =>
      rw [cumulative, cumulative, List.map_cons, ← ih, Nat.add_right_comm]

/-- One more in a bucket is one more in every bucket whose end is not below the number. -/
theorem cumulative_fill (n : Int) {buckets : List (Int × Nat)}
    (sorted : (buckets.map (·.1)).Pairwise (· ≤ ·)) (below : Nat) :
    cumulative below (fill n buckets) = (cumulative below buckets).map fun bucket =>
      (bucket.1, bucket.2 + if n ≤ bucket.1 then 1 else 0) := by
  induction buckets generalizing below with
  | nil => rfl
  | cons bucket rest ih =>
      obtain ⟨bound, count⟩ := bucket
      rw [List.map_cons, List.pairwise_cons] at sorted
      rw [fill, cumulative, List.map_cons]
      split
      next inside =>
        rw [cumulative, ← Nat.add_assoc, cumulative_add]
        refine congrArg _ (List.map_congr_left fun larger member => ?_)
        have end' : larger.1 ∈ rest.map (·.1) := by
          rw [← map_fst_cumulative (below + count)]
          exact List.mem_map_of_mem member
        have above := sorted.1 _ end'
        rw [if_pos (by omega)]
      next outside => rw [cumulative, ih sorted.2, Nat.add_zero]

/-- How many constraints there are in all. -/
def total (os : List Observation) : Int := os.foldr (fun o n => o.constraints + n) 0

/-- What a tally of observations says. -/
structure Counts (t : Tally) (os : List Observation) : Prop where
  distinct : (t.byLabels.map (·.1)).Nodup
  positive : ∀ entry ∈ t.byLabels, 0 < entry.2
  byLabels : ∀ pair, (t.byLabels.lookup pair).getD 0 = os.countP (·.labels = pair)
  whole : t.byLabels.foldr (fun e n => (e.2 : Int) + n) 0 = os.length
  bounds : t.buckets.map (·.1) = bucketBounds
  buckets : cumulative 0 t.buckets =
    bucketBounds.map fun bound => (bound, os.countP (·.constraints ≤ bound))
  count : t.count = os.length
  sum : t.sum = total os

theorem total_concat (os : List Observation) (o : Observation) :
    total (os ++ [o]) = total os + o.constraints := by
  induction os with
  | nil => simp [total]
  | cons first os ih =>
      have unfolded : ∀ os, total (first :: os) = first.constraints + total os := fun _ => rfl
      rw [List.cons_append, unfolded, unfolded, ih]
      omega

theorem sorted_bucketBounds : bucketBounds.Pairwise (· ≤ ·) := by decide

theorem Counts.observe {t : Tally} {os : List Observation} (counts : t.Counts os)
    (o : Observation) : (t.observe o).Counts (os ++ [o]) where
  distinct := nodup_alterEntry _ counts.distinct
  positive entry member := by
    rcases mem_alterEntry _ _ _ member with old | ⟨before, rfl⟩
    · exact counts.positive entry old
    · exact Nat.succ_pos _
  byLabels pair := by
    simp only [Tally.observe, lookup_alterEntry, List.countP_append, ← counts.byLabels,
      List.countP_singleton]
    by_cases same : o.labels = pair
    · simp [same]
    · simp [same, Ne.symm same]
  whole := by simp [Tally.observe, foldr_alterEntry, counts.whole]
  bounds := (map_fst_fill _ _).trans counts.bounds
  buckets := by
    have sorted : (t.buckets.map (·.1)).Pairwise (· ≤ ·) := counts.bounds ▸ sorted_bucketBounds
    simp only [Tally.observe, cumulative_fill _ sorted, counts.buckets, List.map_map,
      List.countP_append, List.countP_singleton, Function.comp_def, decide_eq_true_eq]
  count := by simp [Tally.observe, counts.count]
  sum := by rw [total_concat, Tally.observe, counts.sum]

theorem counts_empty : empty.Counts [] where
  distinct := .nil
  positive := by simp [empty]
  byLabels pair := rfl
  whole := rfl
  bounds := rfl
  buckets := rfl
  count := rfl
  sum := rfl

theorem Counts.foldl {t : Tally} {before : List Observation} (counts : t.Counts before)
    (os : List Observation) : (os.foldl Tally.observe t).Counts (before ++ os) := by
  induction os generalizing t before with
  | nil => simpa using counts
  | cons o os ih => simpa using ih (counts.observe o)

theorem counts_ofObservations (os : List Observation) : (ofObservations os).Counts os :=
  counts_empty.foldl os

end Tally

theorem Labels.le_iff {a b : Labels} :
    a.le b ↔ a.outcome < b.outcome ∨ a.outcome = b.outcome ∧ a.reason ≤ b.reason := by
  simp [Labels.le]

theorem Labels.le_trans {a b c : Labels} (first : a.le b) (second : b.le c) : a.le c := by
  rw [Labels.le_iff] at *
  rcases first with before | ⟨same, first⟩
  · rcases second with before' | ⟨same', -⟩
    · exact .inl (String.lt_trans before before')
    · exact .inl (same' ▸ before)
  · rcases second with before' | ⟨same', second⟩
    · exact .inl (same ▸ before')
    · exact .inr ⟨same.trans same', String.le_trans first second⟩

theorem Labels.le_total (a b : Labels) : a.le b || b.le a := by
  rw [Bool.or_eq_true, Labels.le_iff, Labels.le_iff]
  by_cases before : a.outcome < b.outcome
  · exact .inl (.inl before)
  · by_cases after : b.outcome < a.outcome
    · exact .inr (.inl after)
    · have same := String.le_antisymm (String.not_lt.mp after) (String.not_lt.mp before)
      rcases String.le_total a.reason b.reason with le | le
      · exact .inl (.inr ⟨same, le⟩)
      · exact .inr (.inr ⟨same.symm, le⟩)

theorem Labels.le_antisymm {a b : Labels} (first : a.le b) (second : b.le a) : a = b := by
  rw [Labels.le_iff] at *
  rcases first with before | ⟨same, first⟩
  · rcases second with after | ⟨same, -⟩
    · exact absurd after (String.lt_asymm before)
    · exact absurd (same ▸ before) (String.lt_irrefl _)
  · rcases second with after | ⟨-, second⟩
    · exact absurd (same ▸ after) (String.lt_irrefl _)
    · obtain ⟨outcome, reason⟩ := a
      obtain ⟨outcome', reason'⟩ := b
      obtain rfl : outcome = outcome' := same
      obtain rfl : reason = reason' := String.le_antisymm first second
      rfl

theorem Family.lines_eq (f : Family) : f.lines =
    ["# HELP " ++ f.name ++ " " ++ f.about, "# TYPE " ++ f.name ++ " " ++ f.kind] ++
      f.figures.map Figure.text := rfl

theorem Family.filter_lines {f : Family}
    (named : ∀ figure ∈ f.figures, ∃ c, figure.name.toList.head? = some c ∧ c ≠ '#') :
    f.lines.filter (fun line => line.toList.head? ≠ some '#') = f.figures.map Figure.text := by
  have comments : ["# HELP " ++ f.name ++ " " ++ f.about,
      "# TYPE " ++ f.name ++ " " ++ f.kind].filter (fun line => line.toList.head? ≠ some '#') =
        [] := by
    simp
  rw [lines_eq, List.filter_append, comments, List.nil_append, List.filter_eq_self]
  intro line member
  obtain ⟨figure, inside, rfl⟩ := List.mem_map.mp member
  obtain ⟨c, first, other⟩ := named figure inside
  simp [Figure.text, toString, first, other]

namespace Tally

variable {t t' : Tally} {os os' : List Observation}

theorem Counts.mem_iff (counts : t.Counts os) {labels : Labels} {n : Nat} :
    (labels, n) ∈ t.byLabels ↔ 0 < n ∧ n = os.countP (·.labels = labels) := by
  rw [← counts.byLabels]
  constructor
  · intro member
    have found := (mem_iff_lookup counts.distinct).mp member
    exact ⟨counts.positive _ member, by rw [found, Option.getD_some]⟩
  · rintro ⟨positive, rfl⟩
    rw [mem_iff_lookup counts.distinct]
    cases found : t.byLabels.lookup labels with
    | none => simp [found] at positive
    | some n => rfl

theorem Counts.nodup (counts : t.Counts os) : t.byLabels.Nodup := by
  refine List.Pairwise.of_map (·.1) ?_ counts.distinct
  intro a b other same
  exact other (congrArg (·.1) same)

theorem pairwise_sorted (t : Tally) : t.sorted.Pairwise fun a b => a.1.le b.1 := by
  apply List.pairwise_mergeSort
  · intro a b c
    exact Labels.le_trans
  · intro a b
    exact Labels.le_total a.1 b.1

theorem sorted_perm (t : Tally) : t.sorted.Perm t.byLabels := List.mergeSort_perm ..

/-- Sorting leaves no choice, since no labels come twice. -/
theorem Counts.sorted_congr (counts : t.Counts os) (counts' : t'.Counts os') (perm : os.Perm os') :
    t.sorted = t'.sorted := by
  have same (entry : Labels × Nat) : entry ∈ t.byLabels ↔ entry ∈ t'.byLabels := by
    rw [counts.mem_iff, counts'.mem_iff, perm.countP_eq]
  have entries : t.byLabels.Perm t'.byLabels :=
    (List.perm_ext_iff_of_nodup counts.nodup counts'.nodup).mpr same
  refine List.Perm.eq_of_pairwise (fun a b first second le ge => ?_) t.pairwise_sorted
    t'.pairwise_sorted ((t.sorted_perm.trans entries).trans t'.sorted_perm.symm)
  have labels : a.1 = b.1 := Labels.le_antisymm le ge
  have count := (counts.mem_iff.mp (t.sorted_perm.mem_iff.mp first)).2
  have count' := (counts'.mem_iff.mp (t'.sorted_perm.mem_iff.mp second)).2
  rw [← perm.countP_eq, ← labels, ← count] at count'
  exact Prod.ext labels count'.symm

theorem Counts.histogram_congr (counts : t.Counts os) (counts' : t'.Counts os')
    (perm : os.Perm os') : t.histogram = t'.histogram := by
  have sum : total os = total os' :=
    perm.foldr_eq' (fun x _ y _ n => Int.add_left_comm y.constraints x.constraints n) 0
  simp only [histogram, counts.buckets, counts'.buckets, counts.count, counts'.count, counts.sum,
    counts'.sum, sum, perm.length_eq, perm.countP_eq]

theorem Counts.isEmpty_iff (counts : t.Counts os) : t.byLabels.isEmpty ↔ os = [] := by
  have whole := counts.whole
  rw [List.isEmpty_iff]
  constructor
  · intro none
    simpa [none, eq_comm] using whole
  · intro none
    refine List.eq_nil_iff_forall_not_mem.mpr fun entry member => ?_
    have counted := counts.mem_iff.mp member
    simp only [none, List.countP_nil] at counted
    omega

theorem Counts.lines_eq (counts : t.Counts os) :
    t.lines = t.histogram.lines ++ if os = [] then [] else t.counters.lines := by
  simp only [lines, families, counts.isEmpty_iff]
  split <;> simp

theorem Counts.lines_congr (counts : t.Counts os) (counts' : t'.Counts os') (perm : os.Perm os') :
    t.lines = t'.lines := by
  have counters : t.counters = t'.counters := by
    simp only [Tally.counters, counts.sorted_congr counts' perm]
  have none : os = [] ↔ os' = [] := by
    rw [← List.length_eq_zero_iff, perm.length_eq, List.length_eq_zero_iff]
  rw [counts.lines_eq, counts'.lines_eq, counts.histogram_congr counts' perm, counters]
  simp only [none]

theorem head?_name {f : Family} (member : f ∈ [t.histogram, t.counters]) :
    ∀ figure ∈ f.figures, ∃ c, figure.name.toList.head? = some c ∧ c ≠ '#' := by
  intro figure inside
  refine ⟨'t', ?_, by decide⟩
  simp only [List.mem_cons, List.not_mem_nil, or_false] at member
  rcases member with rfl | rfl
  · simp only [histogram, Figure.bucket, List.mem_append, List.mem_map, List.mem_cons,
      List.not_mem_nil, or_false] at inside
    rcases inside with ⟨_, -, rfl⟩ | rfl | rfl | rfl <;> simp
  · obtain ⟨_, -, rfl⟩ := List.mem_map.mp inside
    simp [Figure.counter]

theorem Counts.filter_lines (counts : t.Counts os) :
    t.lines.filter (fun line => line.toList.head? ≠ some '#') =
      (t.histogram.figures ++ t.counters.figures).map Figure.text := by
  have histogram := Family.filter_lines (head?_name (t := t) List.mem_cons_self)
  have counters := Family.filter_lines (head?_name (t := t) (.tail _ List.mem_cons_self))
  rw [counts.lines_eq, List.filter_append, histogram, List.map_append]
  split
  next none =>
    have unlabelled : t.byLabels = [] := List.isEmpty_iff.mp (counts.isEmpty_iff.mpr none)
    simp [Tally.counters, sorted, unlabelled]
  next => rw [counters]

theorem exists_number_text (f : Figure) : ∃ number d,
    f.text = f.name ++ Figure.labelsText f.labels ++ " " ++ number ∧
      Text.readDecimal? number.toList = some d ∧ d.Denotes f.value := by
  obtain ⟨d, read, denotes⟩ := Text.readDecimal?_shortestInt f.value
  exact ⟨_, d, rfl, read, denotes⟩

theorem ofEvents_eq (events : List Event) :
    ofEvents events = ofObservations ((observations events).map fun (r, n) => r.observation n) := by
  rw [ofEvents, observations, List.map_filterMap]

theorem Counts.figures_histogram (counts : t.Counts os) :
    t.histogram.figures =
      bucketBounds.map
        (fun bound => .bucket (toString bound) (os.countP (·.constraints ≤ bound))) ++
      [.bucket "+Inf" os.length,
        ⟨"tsolve_constraints_per_variable_sum", [], total os⟩,
        ⟨"tsolve_constraints_per_variable_count", [], os.length⟩] := by
  simp only [histogram, counts.buckets, counts.count, counts.sum, List.map_map, Function.comp_def]

/-- There is a counter for each pair of labels that came up, and no other. -/
theorem Counts.figures_counters (counts : t.Counts os) :
    ∃ pairs : List Labels, pairs.Pairwise (fun a b => a.le b ∧ a ≠ b) ∧
      (∀ labels, labels ∈ pairs ↔ ∃ o ∈ os, o.labels = labels) ∧
      t.counters.figures =
        pairs.map fun labels => .counter labels (os.countP (·.labels = labels)) := by
  have mem_iff {labels : Labels} {n : Nat} : (labels, n) ∈ t.sorted ↔
      0 < n ∧ n = os.countP (·.labels = labels) := by
    rw [t.sorted_perm.mem_iff, counts.mem_iff]
  refine ⟨t.sorted.map (·.1), ?_, fun labels => ?_, ?_⟩
  · have distinct : (t.sorted.map (·.1)).Nodup :=
      (t.sorted_perm.map _).nodup_iff.mpr counts.distinct
    exact (List.pairwise_map.mpr t.pairwise_sorted).and distinct
  · have some : (∃ o ∈ os, o.labels = labels) ↔ 0 < os.countP (·.labels = labels) := by
      simp [List.countP_pos_iff]
    rw [some, List.mem_map]
    constructor
    · intro ⟨entry, member, same⟩
      have counted := mem_iff.mp member
      rw [← same, ← counted.2]
      exact counted.1
    · intro positive
      exact ⟨(labels, _), mem_iff.mpr ⟨positive, rfl⟩, rfl⟩
  · simp only [counters, List.map_map]
    refine List.map_congr_left fun entry member => ?_
    rw [Function.comp_apply, ← (mem_iff.mp member).2]

theorem Counts.foldr_counters (counts : t.Counts os) :
    t.counters.figures.foldr (fun f n => f.value + n) 0 = (os.length : Int) := by
  simp only [counters, List.foldr_map, ← counts.whole]
  exact t.sorted_perm.foldr_eq' (fun x _ y _ n => Int.add_left_comm y.2 x.2 n) 0

end Tally

theorem observations_traceSolve_eq_map {L : Lattice} {cs : List Constraint} {vars : List TypeVar}
    {rs : List Result} (solved : solve L vars cs = .ok rs) :
    observations (traceSolve L cs vars).events =
      rs.map fun r => (r, (constraintsOn r.var cs).length) := by
  rw [observations_traceSolve solved]
  have each := solve_eq_ok_iff.mp solved
  clear solved
  induction each with
  | nil => rfl
  | cons resolved _ ih =>
      obtain ⟨b, verdict, -, -, rfl⟩ := resolve_eq_ok_iff.mp resolved
      rw [List.map_cons, List.zip_cons_cons, List.map_cons, ih]

theorem Pool.Sound.lines_tally {L : Lattice} {cs : List Constraint} {vars : List TypeVar}
    {rs : List Result} {plan : Plan} {p : Pool} {slots : List Nat} (sound : p.Sound plan)
    (size : plan.size = vars.length) (solved : solve L vars cs = .ok rs)
    (done : p.answer? = some (.done slots)) :
    (Tally.ofEvents (p.trace L cs vars).events).lines =
      (Tally.ofEvents (traceSolve L cs vars).events).lines := by
  have all : p.AllOrNothing L cs vars := sound.allOrNothing size (by rw [done]; rfl)
  have kept : p.cancelled = false := by
    cases cancelled : p.cancelled with
    | false => rfl
    | true => cases done.symm.trans (all.nothing cancelled).1
  have perm := all.observed kept rs solved
  rw [← observations_traceSolve_eq_map solved] at perm
  rw [Tally.ofEvents_eq, Tally.ofEvents_eq]
  exact (Tally.counts_ofObservations _).lines_congr (Tally.counts_ofObservations _) (perm.map _)

/-- Every observation is counted once: there is a counter for each pair of labels that came up, in
    the order of these, and each cumulative bucket has what is not above its end. The lines of the
    text that are no comments are these figures, with numbers from which they can be read. In what
    order observations come does not matter, and so neither does how variables are scheduled. -/
theorem Tally.counts_each_once (os : List Observation) :
    let t := ofObservations os
    (∃ pairs : List Labels, pairs.Pairwise (fun a b => a.le b ∧ a ≠ b) ∧
      (∀ labels, labels ∈ pairs ↔ ∃ o ∈ os, o.labels = labels) ∧
      t.counters.figures =
        pairs.map fun labels => .counter labels (os.countP (·.labels = labels))) ∧
    t.histogram.figures =
      bucketBounds.map
        (fun bound => .bucket (toString bound) (os.countP (·.constraints ≤ bound))) ++
      [.bucket "+Inf" os.length,
        ⟨"tsolve_constraints_per_variable_sum", [], total os⟩,
        ⟨"tsolve_constraints_per_variable_count", [], os.length⟩] ∧
    t.counters.figures.foldr (fun f n => f.value + n) 0 = (os.length : Int) ∧
    t.lines = t.histogram.lines ++ (if os = [] then [] else t.counters.lines) ∧
    (∀ f : Family, f.lines =
      ["# HELP " ++ f.name ++ " " ++ f.about, "# TYPE " ++ f.name ++ " " ++ f.kind] ++
        f.figures.map Figure.text) ∧
    t.lines.filter (fun line => line.toList.head? ≠ some '#') =
      (t.histogram.figures ++ t.counters.figures).map Figure.text ∧
    (∀ f : Figure, ∃ number d, f.text = f.name ++ Figure.labelsText f.labels ++ " " ++ number ∧
      Text.readDecimal? number.toList = some d ∧ d.Denotes f.value) ∧
    (∀ os', os.Perm os' → (ofObservations os').lines = t.lines) ∧
    (∀ L cs vars rs limit cancelAt cancelled schedule p slots, solve L vars cs = .ok rs →
      (Pool.start cancelled).steps? ⟨vars.length, limit, cancelAt⟩ schedule = some p →
      p.answer? = some (.done slots) →
      (ofEvents (p.trace L cs vars).events).lines =
        (ofEvents (traceSolve L cs vars).events).lines) := by
  intro t
  have counts : t.Counts os := counts_ofObservations os
  refine ⟨counts.figures_counters, counts.figures_histogram, counts.foldr_counters,
    counts.lines_eq, Family.lines_eq, counts.filter_lines, exists_number_text,
    fun os' perm => ?_, ?_⟩
  · exact (counts_ofObservations os').lines_congr counts perm.symm
  · intro L cs vars rs limit cancelAt cancelled schedule p slots solved ran done
    exact ((Pool.sound_start cancelled).steps ran).lines_tally rfl solved done

open Sample in
/-- Observations on both sides of the ends of buckets, and three variables of which two workers
    take the second before the first. -/
theorem Tally.counts_each_once_edges :
    let os : List Observation := [⟨.resolved, .none, 64⟩, ⟨.unsolvable, .boundConflict, 65⟩,
      ⟨.resolved, .none, -2⟩, ⟨.unknown 7, .none, 1⟩]
    let vars : List TypeVar := [⟨0⟩, ⟨1⟩, ⟨0⟩]
    let cs := [⟨⟨0⟩, .lower, some (one Builtin.int)⟩, ⟨⟨1⟩, .upper, some (one intList)⟩]
    let done : Pool := ⟨3, false, true, [], [], [1, 0, 2], false, false, false⟩
    (ofObservations os).histogram.figures =
      ([0, 1, 2, 4, 8, 16, 32, 64] : List Int).zipWith (fun bound n => .bucket (toString bound) n)
        [1, 2, 2, 2, 2, 2, 2, 3] ++
      [.bucket "+Inf" 4, ⟨"tsolve_constraints_per_variable_sum", [], 128⟩,
        ⟨"tsolve_constraints_per_variable_count", [], 4⟩] ∧
    (ofObservations os).lines.drop 10 =
      ["tsolve_constraints_per_variable_bucket\x7ble=\"+Inf\"\x7d 4",
        "tsolve_constraints_per_variable_sum 128", "tsolve_constraints_per_variable_count 4",
        "# HELP tsolve_variables_total Type variables solved, by outcome and reason.",
        "# TYPE tsolve_variables_total counter",
        "tsolve_variables_total\x7boutcome=\"Outcome(7)\",reason=\"none\"\x7d 1",
        "tsolve_variables_total\x7boutcome=\"resolved\",reason=\"none\"\x7d 2",
        "tsolve_variables_total\x7boutcome=\"unsolvable\",reason=\"bound conflict\"\x7d 1"] ∧
    (os.Perm os.reverse ∧ (ofObservations os.reverse).lines = (ofObservations os).lines) ∧
    (∃ rs, solve .flat vars cs = .ok rs) ∧
    (Pool.start false).steps? ⟨vars.length, 2, none⟩ [.commit, .hand, .commit, .hand, .check 1,
      .check 0, .finish 1, .commit, .hand, .finish 0, .check 2, .close, .finish 2] = some done ∧
    done.answer? = some (.done [1, 0, 2]) ∧
    (ofEvents (done.trace .flat cs vars).events).lines =
      (ofEvents (traceSolve .flat cs vars).events).lines := by
  intro os vars cs done
  have ran : (Pool.start false).steps? ⟨vars.length, 2, none⟩ [.commit, .hand, .commit, .hand,
      .check 1, .check 0, .finish 1, .commit, .hand, .finish 0, .check 2, .close, .finish 2] =
        some done := by
    decide
  obtain ⟨rs, solved⟩ : ∃ rs, solve .flat vars cs = .ok rs :=
    exists_solve_of_resolve fun v _ => Lattice.total_flat.exists_resolve v (constraintsOn v cs)
  obtain ⟨⟨pairs, sorted, mem_iff, counters⟩, histogram, -, text, families, -, -, permuted,
    scheduled⟩ := counts_each_once os
  obtain rfl : pairs =
      [⟨"Outcome(7)", "none"⟩, ⟨"resolved", "none"⟩, ⟨"unsolvable", "bound conflict"⟩] := by
    refine List.Perm.eq_of_pairwise (fun a b _ _ => Labels.le_antisymm) (sorted.imp And.left)
      (by decide) ?_
    refine (List.perm_ext_iff_of_nodup (sorted.imp And.right) (by decide)).mpr fun labels => ?_
    have came : os.map (·.labels) = [⟨"resolved", "none"⟩, ⟨"unsolvable", "bound conflict"⟩,
      ⟨"resolved", "none"⟩, ⟨"Outcome(7)", "none"⟩] := by decide
    rw [mem_iff, ← List.mem_map, came]
    simp only [List.mem_cons, List.not_mem_nil, or_false]
    tauto
  refine ⟨histogram, ?_, ⟨os.reverse_perm.symm, permuted _ os.reverse_perm.symm⟩, ⟨rs, solved⟩, ran,
    rfl, ?_⟩
  · rw [text, families, families, histogram, counters]
    decide +kernel
  · exact scheduled _ _ _ _ _ _ _ _ _ _ solved ran rfl

end TypeBounds
