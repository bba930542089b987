import TypeBounds.Proofs.Declaring
import TypeBounds.Proofs.Hierarchy
import Mathlib.Data.List.Induction

/-! # Rejected declarations have no effect

A declaration is taken in turn, on the universe that those before it have made. It either
adds its class and reports nothing, or reports something and leaves the universe as it
was. So the accepted declarations by themselves make the same universe, without a mistake,
and the builtin classes are what they were at every turn.
-/

namespace TypeBounds

namespace ClassDecl

/-- What is reported about a declaration on a universe. -/
def reports (u : Universe) (d : ClassDecl) : List Mistake :=
  match d.declare u with
  | .ok _ => []
  | .error ms => ms

/-- Each declaration with those before it, after some others. -/
def turnsAfter (before : List ClassDecl) : List ClassDecl → List (List ClassDecl × ClassDecl)
  | [] => []
  | d :: ds => (before, d) :: turnsAfter (before ++ [d]) ds

/-- Each declaration with those before it. -/
def turns (ds : List ClassDecl) : List (List ClassDecl × ClassDecl) := turnsAfter [] ds

/-- What is reported about a declaration at its turn. -/
def reportsAt (u : Universe) (turn : List ClassDecl × ClassDecl) : List Mistake :=
  turn.2.reports (declareClasses u turn.1).1

/-- The declarations about which nothing is reported at their turn. -/
def accepted (u : Universe) (ds : List ClassDecl) : List ClassDecl :=
  ((turns ds).filter fun turn => (reportsAt u turn).isEmpty).map (·.2)

theorem turnsAfter_concat (before ds : List ClassDecl) (d : ClassDecl) :
    turnsAfter before (ds ++ [d]) = turnsAfter before ds ++ [(before ++ ds, d)] := by
  induction ds generalizing before with
  | nil => simp [turnsAfter]
  | cons first ds ih => simp [turnsAfter, ih]

theorem turns_concat (ds : List ClassDecl) (d : ClassDecl) :
    turns (ds ++ [d]) = turns ds ++ [(ds, d)] := turnsAfter_concat [] ds d

theorem map_turns (ds : List ClassDecl) : (turns ds).map (·.2) = ds := by
  induction ds using List.reverseRecOn with
  | nil => rfl
  | append_singleton ds d ih => rw [turns_concat, List.map_append, ih]; rfl

theorem accepted_sublist (u : Universe) (ds : List ClassDecl) : (accepted u ds).Sublist ds := by
  have sublist : (accepted u ds).Sublist ((turns ds).map (·.2)) := List.filter_sublist.map _
  rwa [map_turns] at sublist

theorem accepted_concat (u : Universe) (ds : List ClassDecl) (d : ClassDecl) :
    accepted u (ds ++ [d]) =
      accepted u ds ++ if reportsAt u (ds, d) = [] then [d] else [] := by
  rw [accepted, turns_concat, List.filter_append, List.map_append]
  by_cases clean : reportsAt u (ds, d) = []
  · simp [accepted, clean]
  · simp [accepted, clean]

theorem reports_eq_nil_iff {u : Universe} {d : ClassDecl} :
    d.reports u = [] ↔ ∃ larger, d.declare u = .ok larger := by
  unfold reports
  cases declared : d.declare u with
  | ok larger => simp
  | error ms => simp [ne_nil_of_declare_eq_error declared]

theorem declare_of_reports {u : Universe} {d : ClassDecl} (reported : d.reports u ≠ []) :
    d.declare u = .error (d.reports u) := by
  unfold reports at reported ⊢
  cases declared : d.declare u with
  | ok larger => simp [declared] at reported
  | error ms => rfl

theorem size_of_declare {u larger : Universe} (grown : u.Grown) {d : ClassDecl}
    (declared : d.declare u = .ok larger) : larger.size = u.size + 1 := by
  obtain ⟨base, -, rfl⟩ := (declare_eq_ok_iff grown).mp declared
  exact (Universe.insertSorted_perm _ _).length_eq

end ClassDecl

open ClassDecl

theorem declareClasses_append (u : Universe) (before after : List ClassDecl) :
    declareClasses u (before ++ after) =
      let (middle, mistakes) := declareClasses u before
      let (last, later) := declareClasses middle after
      (last, mistakes ++ later) := by
  induction before generalizing u with
  | nil => rfl
  | cons d before ih =>
      cases declared : d.declare u with
      | ok larger => simp only [List.cons_append, declareClasses, declared, ih]
      | error ms => simp only [List.cons_append, declareClasses, declared, ih, List.append_assoc]

section Turn

variable {u : Universe} {ds : List ClassDecl} {d : ClassDecl}

theorem declareClasses_concat_of_ok {larger : Universe}
    (declared : d.declare (declareClasses u ds).1 = .ok larger) :
    declareClasses u (ds ++ [d]) = (larger, (declareClasses u ds).2) := by
  rw [declareClasses_append]
  simp [declareClasses, declared]

theorem declareClasses_concat_of_error {ms : List Mistake}
    (failed : d.declare (declareClasses u ds).1 = .error ms) :
    declareClasses u (ds ++ [d]) = ((declareClasses u ds).1, (declareClasses u ds).2 ++ ms) := by
  rw [declareClasses_append]
  simp [declareClasses, failed]

/-- A declaration leaves the universe as it was exactly if something is reported about it. -/
theorem declareClasses_concat_eq_iff (grown : (declareClasses u ds).1.Grown) :
    (declareClasses u (ds ++ [d])).1 = (declareClasses u ds).1 ↔
      reportsAt u (ds, d) ≠ [] := by
  constructor
  · intro same clean
    obtain ⟨larger, declared⟩ := reports_eq_nil_iff.mp clean
    have size := size_of_declare grown declared
    rw [declareClasses_concat_of_ok declared] at same
    rw [← same] at size
    exact absurd size (Nat.ne_of_lt (Nat.lt_succ_self _))
  · intro reported
    rw [declareClasses_concat_of_error (declare_of_reports reported)]

end Turn

theorem mistakes_declareClasses (u : Universe) (ds : List ClassDecl) :
    (declareClasses u ds).2 = (turns ds).flatMap (reportsAt u) := by
  induction ds using List.reverseRecOn with
  | nil => rfl
  | append_singleton ds d ih =>
      rw [turns_concat, List.flatMap_append, ← ih, List.flatMap_singleton]
      by_cases clean : reportsAt u (ds, d) = []
      · obtain ⟨larger, declared⟩ := reports_eq_nil_iff.mp clean
        rw [declareClasses_concat_of_ok declared, clean, List.append_nil]
      · rw [declareClasses_concat_of_error (declare_of_reports clean), reportsAt]

/-- What is accepted stands without what is rejected. -/
theorem declareClasses_accepted (u : Universe) (ds : List ClassDecl) :
    declareClasses u (accepted u ds) = ((declareClasses u ds).1, []) := by
  induction ds using List.reverseRecOn with
  | nil => rfl
  | append_singleton ds d ih =>
      rw [accepted_concat]
      split
      · rename_i clean
        obtain ⟨larger, declared⟩ := reports_eq_nil_iff.mp clean
        have again : d.declare (declareClasses u (accepted u ds)).1 = .ok larger := by
          rw [ih, declared]
        rw [declareClasses_concat_of_ok again, declareClasses_concat_of_ok declared, ih]
      · rename_i rejected
        rw [List.append_nil, ih, declareClasses_concat_of_error (declare_of_reports rejected)]

/-- Rejected declarations have no effect but their mistakes, which are reported in the order of
    the declarations. At every turn and in the end the builtin classes are what they were, so
    there are always anchors. -/
theorem rejected_without_effect (ds : List ClassDecl) :
    (accepted .builtin ds).Sublist ds ∧
    declareClasses .builtin (accepted .builtin ds) = ((declareClasses .builtin ds).1, []) ∧
    (declareClasses .builtin ds).2 = (turns ds).flatMap (reportsAt .builtin) ∧
    (∀ before d, (before, d) ∈ turns ds →
      ((declareClasses .builtin (before ++ [d])).1 = (declareClasses .builtin before).1 ↔
        reportsAt .builtin (before, d) ≠ []) ∧
      (declareClasses .builtin before).1.anchors = .ok Builtin.anchors) ∧
    (∀ c ∈ Builtin.classes, (declareClasses .builtin ds).1.lookup? c.name = some c) ∧
    (declareClasses .builtin ds).1.anchors = .ok Builtin.anchors := by
  have grown (ds : List ClassDecl) : (declareClasses .builtin ds).1.Grown :=
    (declareClasses_built .builtin).grown
  refine ⟨accepted_sublist .builtin ds, declareClasses_accepted .builtin ds,
    mistakes_declareClasses .builtin ds, fun before d _ => ?_, fun c builtin => ?_,
    (grown ds).anchors_eq⟩
  · exact ⟨declareClasses_concat_eq_iff (grown before), (grown before).anchors_eq⟩
  · exact Universe.holds_iff.mp ((grown ds).holds_builtin builtin)

namespace Sample

/-- A declaration on its own line. -/
def declaring (line : Int) (name : String) (params : Int) (base : String) (root : Bool) :
    ClassDecl :=
  ⟨name, params, base, root, ⟨line, 5⟩, ⟨⟨line, 20⟩, false⟩⟩

/-- One declaration for each way to fail, then some that have to do with those: a free name is
    taken after all, and there is a class below a rejected one, one below an accepted one and
    one that comes again. -/
def muddled : List ClassDecl :=
  [declaring 1 "int" 0 "" false, declaring 2 "stone" 0 "list[int]" true,
    declaring 3 "torn" 0 "list[" false, declaring 4 "lost" 0 "nowhere" false,
    declaring 5 "pair" 0 "(int, int)" false, declaring 6 "less" (-1) "" false,
    declaring 7 "torn" 0 "list[int]" false, declaring 8 "child" 0 "lost" false,
    declaring 9 "heir" 0 "torn" false, declaring 10 "torn" 0 "" false]

end Sample

open Sample in
theorem rejected_without_effect_muddled :
    (accepted .builtin muddled).map ClassDecl.name = ["torn", "heir"] ∧
    (declareClasses .builtin muddled).2.map (fun m => (m.position.line, m.fault.code)) =
      [(1, 5), (2, 7), (3, 1), (4, 2), (5, 7), (6, 7), (8, 2), (10, 5)] ∧
    declareClasses .builtin (accepted .builtin muddled) =
      ((declareClasses .builtin muddled).1, []) := by
  have evaluated : (accepted .builtin muddled).map ClassDecl.name = ["torn", "heir"] ∧
      (declareClasses .builtin muddled).2.map (fun m => (m.position.line, m.fault.code)) =
        [(1, 5), (2, 7), (3, 1), (4, 2), (5, 7), (6, 7), (8, 2), (10, 5)] := by
    decide +kernel
  obtain ⟨-, same, -⟩ := rejected_without_effect muddled
  exact ⟨evaluated.1, evaluated.2, same⟩

end TypeBounds
