import TypeBounds.Proofs.Bracketing
import TypeBounds.Proofs.Sketch

/-! # Nothing goes wrong where nothing is missing

On a sketch with nothing missing no operation goes wrong, however carelessly its classes were
put together, and it comes to what the operation on types comes to. Every step goes down to
parts of the two operands or of their bases, so the sizes of the operands bound the depth; and
before two lists are combined their lengths have been compared. With a missing operand the
operations on bounds say what happens, mishaps included.
-/

namespace TypeBounds

theorem Ty.sizeOf_pos (t : Ty) : 0 < sizeOf t := by
  cases t <;> simp +arith

theorem Ty.sizeOf_list_pos (ts : List Ty) : 0 < sizeOf ts := by
  cases ts <;> simp +arith

/-- Types up to a size are compared by their sketches. -/
def Sketch.Compares (below : Sketch → Sketch → Except Mishap Bool) (size : Nat) : Prop :=
  ∀ s t : Ty, sizeOf s + sizeOf t < size → below s.sketch t.sketch = .ok (s.isSubtype t)

theorem Ty.allSubtypes_of_length_ne {as bs : List Ty} (lengths : as.length ≠ bs.length) :
    Ty.allSubtypes as bs = false := by
  by_contra below
  exact lengths (Ty.length_eq_of_allSubtypes (by simpa using below))

section Comparing

variable {below : Sketch → Sketch → Except Mishap Bool} {size : Nat}
  (compares : Sketch.Compares below size)

include compares

theorem Ty.everyPair_sketch {as bs : List Ty} (lengths : as.length = bs.length)
    (small : sizeOf as + sizeOf bs ≤ size) :
    Sketch.everyPair below (as.map Ty.sketch) (bs.map Ty.sketch) = .ok (Ty.allSubtypes as bs) := by
  induction as generalizing bs with
  | nil =>
      cases bs with
      | nil => simp [Sketch.everyPair, Ty.allSubtypes]
      | cons => simp at lengths
  | cons a as ih =>
      cases bs with
      | nil => simp at lengths
      | cons b bs =>
          simp only [List.cons.sizeOf_spec] at small
          have first := compares a b (by omega)
          have rest := ih (by simpa using lengths) (by omega)
          rw [List.map_cons, List.map_cons, Sketch.everyPair, first, Ty.allSubtypes, rest]
          cases a.isSubtype b <;> rfl

theorem Ty.allSubtypes_sketch (as bs : List Ty) (small : sizeOf as + sizeOf bs ≤ size) :
    Sketch.allSubtypes below (as.map Ty.sketch) (bs.map Ty.sketch) =
      .ok (Ty.allSubtypes as bs) := by
  rw [Sketch.allSubtypes, List.length_map, List.length_map]
  split
  · rename_i lengths
    exact Ty.everyPair_sketch compares lengths small
  · rename_i lengths
    rw [Ty.allSubtypes_of_length_ne lengths]

theorem Instance.isSubtype_sketch {s t : Instance} (small : sizeOf s + sizeOf t ≤ size) :
    s.sketch.isSubtype below t.sketch = .ok (s.isSubtype t) := by
  simp only [SketchInstance.isSubtype, theClass_sketch, Class.name_sketch, name_sketch, view_sketch,
    hasBase_sketch, args_sketch, bind, Except.bind, pure, Except.pure]
  rw [Instance.isSubtype]
  cases seen : s.view? t.name with
  | none => rfl
  | some view =>
      have left := sizeOf_args_lt_of_view? seen
      have right := t.sizeOf_args_lt
      have named : s.view? t.cls.name = some view := seen
      simp only [named, Option.isSome_some, if_pos, Option.map_some, args_sketch]
      exact Ty.allSubtypes_sketch compares _ _ (by omega)

theorem Ty.compareStep_sketch :
    Sketch.Compares (Sketch.compareStep below) (size + 1) := by
  intro s t small
  have fallbacks (i j : Instance) (small : sizeOf i + sizeOf j + 2 < size) :
      below (.inst i.sketch) (.inst j.sketch) = .ok (i.isSubtype j) := by
    have parts := compares (.inst i) (.inst j) (by simp only [Ty.inst.sizeOf_spec]; omega)
    rwa [Ty.isSubtype] at parts
  unfold Sketch.compareStep
  rw [Ty.same_sketch]
  split
  · rename_i same
    rw [(Ty.subtypes_of_same same).1]
  · rename_i other
    cases s with
    | inst i =>
        cases t with
        | inst j =>
            simp only [Ty.inst.sizeOf_spec] at small
            rw [Ty.isSubtype]
            exact Instance.isSubtype_sketch compares (by omega)
        | callable | tuple | void | dynamic | bottom | error => simp [Ty.sketch, Ty.isSubtype]
    | callable params result fallback =>
        cases t with
        | inst j =>
            simp only [Ty.inst.sizeOf_spec, Ty.callable.sizeOf_spec] at small
            have positive := Ty.sizeOf_list_pos params
            rw [Ty.isSubtype]
            exact fallbacks fallback j (by omega)
        | callable params' result' fallback' =>
            simp only [Ty.callable.sizeOf_spec] at small
            have positive := Ty.sizeOf_list_pos params
            have ofParams := Ty.allSubtypes_sketch compares params' params (by omega)
            have ofResult := compares result result' (by omega)
            have ofFallback := fallbacks fallback fallback' (by omega)
            simp only [Ty.sketch, Ty.isSubtype, Ty.sketchAll_eq_map, List.length_map, ofParams,
              ofResult, ofFallback, bind, Except.bind, pure, Except.pure]
            split
            · cases Ty.allSubtypes params' params <;> cases result.isSubtype result' <;> rfl
            · rename_i lengths
              rw [Ty.allSubtypes_of_length_ne (Ne.symm lengths)]
              rfl
        | tuple | void | dynamic | bottom | error => simp [Ty.sketch, Ty.isSubtype]
    | tuple items fallback =>
        cases t with
        | inst j =>
            simp only [Ty.inst.sizeOf_spec, Ty.tuple.sizeOf_spec] at small
            have positive := Ty.sizeOf_list_pos items
            rw [Ty.isSubtype]
            exact fallbacks fallback j (by omega)
        | tuple items' fallback' =>
            simp only [Ty.tuple.sizeOf_spec] at small
            have positive := Ty.sizeOf_list_pos items
            have ofItems := Ty.allSubtypes_sketch compares items items' (by omega)
            have ofFallback := fallbacks fallback fallback' (by omega)
            simp only [Ty.sketch, Ty.isSubtype, Ty.sketchAll_eq_map, ofItems, ofFallback, bind,
              Except.bind, pure, Except.pure]
            cases Ty.allSubtypes items items' <;> rfl
        | callable | void | dynamic | bottom | error => simp [Ty.sketch, Ty.isSubtype]
    | void | dynamic | bottom | error =>
        cases t <;> simp_all [Ty.sketch, Ty.isSubtype, Ty.same]

end Comparing

theorem Ty.isSubtype_sketch (depth : Nat) :
    Sketch.Compares (Sketch.isSubtype depth) (depth + 1) := by
  induction depth with
  | zero =>
      intro s t small
      have positive := s.sizeOf_pos
      omega
  | succ depth ih => exact Ty.compareStep_sketch ih

/-- Types up to a size are combined by their sketches. -/
def Sketch.Combines (op : Sketch → Sketch → Except Mishap Sketch) (size : Nat)
    (f : Ty → Ty → Ty) : Prop :=
  ∀ s t : Ty, sizeOf s + sizeOf t < size → op s.sketch t.sketch = .ok (f s t).sketch

theorem Ty.joinAll_eq_zipWith (as bs : List Ty) : Ty.joinAll as bs = as.zipWith Ty.join bs := by
  induction as generalizing bs with
  | nil => simp [Ty.joinAll]
  | cons a as ih => cases bs <;> simp [Ty.joinAll, ih]

theorem Ty.meetAll_eq_zipWith (as bs : List Ty) : Ty.meetAll as bs = as.zipWith Ty.meet bs := by
  induction as generalizing bs with
  | nil => simp [Ty.meetAll]
  | cons a as ih => cases bs <;> simp [Ty.meetAll, ih]

theorem Ty.combineAll_sketch {op : Sketch → Sketch → Except Mishap Sketch} {f : Ty → Ty → Ty}
    {size : Nat} (combines : Sketch.Combines op size f) {as bs : List Ty}
    (lengths : as.length = bs.length) (small : sizeOf as + sizeOf bs ≤ size) :
    Sketch.combineAll op (as.map Ty.sketch) (bs.map Ty.sketch) =
      .ok ((as.zipWith f bs).map Ty.sketch) := by
  induction as generalizing bs with
  | nil => rfl
  | cons a as ih =>
      cases bs with
      | nil => simp at lengths
      | cons b bs =>
          simp only [List.cons.sizeOf_spec] at small
          have first := combines a b (by omega)
          have rest := ih (by simpa using lengths) (by omega)
          rw [List.map_cons, List.map_cons, Sketch.combineAll, first, rest]
          rfl

theorem Instance.joinUp_sketch (join : Sketch → Sketch → Except Mishap Sketch) (t : Instance)
    (chain : List Instance) :
    t.sketch.joinUp join (chain.map Instance.sketch) =
      (chain.findSome? fun a => (t.view? a.name).map fun view => (a, view)).elim (.ok .error)
        fun found => found.1.sketch.joinArgs join found.2.sketch := by
  induction chain with
  | nil => rfl
  | cons a rest ih =>
      simp only [List.map_cons, SketchInstance.joinUp, theClass_sketch, name_sketch, hasBase_sketch,
        view_sketch, Class.name_sketch, bind, Except.bind, List.findSome?_cons]
      cases seen : t.view? a.name with
      | none => simpa using ih
      | some view =>
          have named : t.view? a.cls.name = some view := seen
          simp [named]

theorem Ty.lesser_sketch {below : Sketch → Sketch → Except Mishap Bool} {size : Nat}
    (compares : Sketch.Compares below size) {s t : Ty} (small : sizeOf s + sizeOf t < size) :
    Sketch.lesser below s.sketch t.sketch = .ok (Ty.lesser s t).sketch := by
  rw [Sketch.lesser, compares s t small, compares t s (by omega), Ty.lesser]
  cases s.isSubtype t <;> cases t.isSubtype s <;> rfl

section Combining

variable {join meet : Sketch → Sketch → Except Mishap Sketch} {size : Nat}
  (joins : Sketch.Combines join size Ty.join) (meets : Sketch.Combines meet size Ty.meet)

include joins

theorem Instance.joinArgs_sketch (a view : Instance)
    (small : sizeOf a.args + sizeOf view.args ≤ size) :
    a.sketch.joinArgs join view.sketch =
      .ok (if a.args.length = view.args.length then
        Ty.inst ⟨a.cls, Ty.joinAll a.args view.args⟩ else .error).sketch := by
  simp only [SketchInstance.joinArgs, args_sketch, cls_sketch, List.length_map]
  by_cases lengths : a.args.length = view.args.length
  · have joined := Ty.combineAll_sketch joins lengths small
    rw [if_pos lengths.symm, if_pos lengths, joined, Ty.joinAll_eq_zipWith, Ty.sketch, sketch_eq]
    rfl
  · rw [if_neg (Ne.symm lengths), if_neg lengths]
    rfl

theorem Instance.join_sketch {s t : Instance} (small : sizeOf s + sizeOf t ≤ size) :
    s.sketch.join join t.sketch = .ok (s.join t).sketch := by
  rw [SketchInstance.join, ancestry_sketch]
  simp only [bind, Except.bind, joinUp_sketch]
  rw [← Instance.commonBase?, Instance.join]
  cases found : s.commonBase? t with
  | none => rfl
  | some pair =>
      have smaller := sizeOf_args_lt_of_commonBase? found
      exact Instance.joinArgs_sketch joins pair.1 pair.2 (by omega)

include meets

theorem Ty.joinStep_sketch : Sketch.Combines (Sketch.joinStep join meet) (size + 1) Ty.join := by
  intro s t small
  have fallbacks (i j : Instance) (small : sizeOf i + sizeOf j + 2 < size) :
      join (.inst i.sketch) (.inst j.sketch) = .ok (i.join j).sketch := by
    have parts := joins (.inst i) (.inst j) (by simp only [Ty.inst.sizeOf_spec]; omega)
    rwa [Ty.join] at parts
  cases s with
  | inst i =>
      cases t with
      | inst j =>
          simp only [Ty.inst.sizeOf_spec] at small
          rw [Ty.join]
          exact Instance.join_sketch joins (by omega)
      | callable params result fallback =>
          simp only [Ty.inst.sizeOf_spec, Ty.callable.sizeOf_spec] at small
          have positive := Ty.sizeOf_list_pos params
          rw [Ty.join]
          exact fallbacks fallback i (by omega)
      | tuple items fallback =>
          simp only [Ty.inst.sizeOf_spec, Ty.tuple.sizeOf_spec] at small
          have positive := Ty.sizeOf_list_pos items
          rw [Ty.join]
          exact fallbacks fallback i (by omega)
      | void | dynamic | bottom | error => simp only [Ty.join]; rfl
  | callable params result fallback =>
      have positive := Ty.sizeOf_list_pos params
      cases t with
      | inst j =>
          simp only [Ty.inst.sizeOf_spec, Ty.callable.sizeOf_spec] at small
          rw [Ty.join]
          exact fallbacks fallback j (by omega)
      | callable params' result' fallback' =>
          simp only [Ty.callable.sizeOf_spec] at small
          rw [Ty.join]
          simp only [Sketch.joinStep, Sketch.absorb, Ty.sketch, Ty.similar_sketch]
          split
          · rename_i similar
            have ofParams := Ty.combineAll_sketch meets (Ty.of_similar similar).1 (by omega)
            have ofResult := joins result result' (by omega)
            simp only [Ty.sketchAll_eq_map, ofParams, ofResult, Ty.meetAll_eq_zipWith, Ty.sketch]
            rfl
          · exact fallbacks fallback fallback' (by omega)
      | tuple items fallback' =>
          simp only [Ty.callable.sizeOf_spec, Ty.tuple.sizeOf_spec] at small
          rw [Ty.join]
          exact fallbacks fallback fallback' (by omega)
      | void | dynamic | bottom | error => simp only [Ty.join]; rfl
  | tuple items fallback =>
      have positive := Ty.sizeOf_list_pos items
      cases t with
      | inst j =>
          simp only [Ty.inst.sizeOf_spec, Ty.tuple.sizeOf_spec] at small
          rw [Ty.join]
          exact fallbacks fallback j (by omega)
      | callable params' result' fallback' =>
          simp only [Ty.callable.sizeOf_spec, Ty.tuple.sizeOf_spec] at small
          rw [Ty.join]
          exact fallbacks fallback fallback' (by omega)
      | tuple items' fallback' =>
          simp only [Ty.tuple.sizeOf_spec] at small
          rw [Ty.join]
          simp only [Sketch.joinStep, Sketch.absorb, Ty.sketch, Ty.similar_sketch]
          split
          · rename_i similar
            have ofItems := Ty.combineAll_sketch joins (Ty.of_similar similar).1 (by omega)
            simp only [Ty.sketchAll_eq_map, ofItems, Ty.joinAll_eq_zipWith, Ty.sketch]
            rfl
          · exact fallbacks fallback fallback' (by omega)
      | void | dynamic | bottom | error => simp only [Ty.join]; rfl
  | void | dynamic | bottom | error => cases t <;> simp only [Ty.join] <;> rfl

theorem Ty.meetStep_sketch {below : Sketch → Sketch → Except Mishap Bool}
    (compares : Sketch.Compares below (size + 1)) :
    Sketch.Combines (Sketch.meetStep join meet below) (size + 1) Ty.meet := by
  intro s t small
  have lesser := Ty.lesser_sketch compares small
  cases s with
  | inst i =>
      cases t with
      | inst j =>
          simp only [Ty.inst.sizeOf_spec] at small
          have left := i.sizeOf_args_lt
          have right := j.sizeOf_args_lt
          rw [Ty.meet]
          simp only [Sketch.meetStep, Sketch.absorb, Ty.sketch, Instance.name_sketch,
            Instance.args_sketch, List.length_map, Bool.and_eq_true, beq_iff_eq]
          split
          · rename_i alike
            have ofArgs := Ty.combineAll_sketch meets alike.2 (by omega)
            simp only [ofArgs, Ty.meetAll_eq_zipWith, Ty.sketch, Instance.sketch_eq]
            rfl
          · exact lesser
      | callable | tuple => simp only [Ty.meet]; exact lesser
      | void | dynamic | bottom | error => simp only [Ty.meet]; rfl
  | callable params result fallback =>
      cases t with
      | callable params' result' fallback' =>
          simp only [Ty.callable.sizeOf_spec] at small
          rw [Ty.meet]
          simp only [Sketch.meetStep, Sketch.absorb, Ty.sketch, Ty.similar_sketch]
          split
          · rename_i similar
            have ofParams := Ty.combineAll_sketch joins (Ty.of_similar similar).1 (by omega)
            have ofResult := meets result result' (by omega)
            simp only [Ty.sketchAll_eq_map, ofParams, ofResult, Ty.joinAll_eq_zipWith, Ty.sketch]
            rfl
          · exact lesser
      | inst | tuple => simp only [Ty.meet]; exact lesser
      | void | dynamic | bottom | error => simp only [Ty.meet]; rfl
  | tuple items fallback =>
      cases t with
      | tuple items' fallback' =>
          simp only [Ty.tuple.sizeOf_spec] at small
          rw [Ty.meet]
          simp only [Sketch.meetStep, Sketch.absorb, Ty.sketch, Ty.similar_sketch]
          split
          · rename_i similar
            have ofItems := Ty.combineAll_sketch meets (Ty.of_similar similar).1 (by omega)
            simp only [Ty.sketchAll_eq_map, ofItems, Ty.meetAll_eq_zipWith, Ty.sketch]
            rfl
          · exact lesser
      | inst | callable => simp only [Ty.meet]; exact lesser
      | void | dynamic | bottom | error => simp only [Ty.meet]; rfl
  | void | dynamic | bottom | error => cases t <;> simp only [Ty.meet] <;> rfl

end Combining

/-- At the depth of its operands' size, an operation comes to its result. -/
theorem Ty.extrema_sketch (depth : Nat) : Sketch.Combines (Sketch.join depth) depth Ty.join ∧
    Sketch.Combines (Sketch.meet depth) depth Ty.meet := by
  induction depth with
  | zero => exact ⟨nofun, nofun⟩
  | succ depth ih =>
      obtain ⟨joins, meets⟩ := ih
      exact ⟨Ty.joinStep_sketch joins meets,
        Ty.meetStep_sketch joins meets (Ty.isSubtype_sketch depth)⟩

/-- From some depth on there is this answer. -/
def Sketch.Settles {α : Type} (answer : Nat → Except Mishap α) (final : Except Mishap α) : Prop :=
  ∃ enough, ∀ depth, enough ≤ depth → answer depth = final

theorem Sketch.Settles.of_add {α : Type} {answer : Nat → Except Mishap α} {final : Except Mishap α}
    (steps : Nat) (each : ∀ depth, answer (depth + steps) = final) :
    Sketch.Settles answer final := by
  refine ⟨steps, fun depth deep => ?_⟩
  obtain ⟨further, rfl⟩ := Nat.exists_eq_add_of_le' deep
  exact each further

namespace Bound

theorem complete_sketch_iff {b : Bound} : b.sketch.complete ↔ b.isSome := by
  cases b with
  | none => simp [Bound.sketch, Sketch.complete]
  | some t => simp [Bound.sketch, t.complete_sketch]

theorem isSubtype_sketch (a b : Bound) : Sketch.Settles (Sketch.isSubtype · a.sketch b.sketch)
    ((a.isSubtype b).mapError Undefined.mishap) := by
  cases a with
  | some s =>
      cases b with
      | some t =>
          refine ⟨sizeOf s + sizeOf t, fun depth deep => ?_⟩
          exact Ty.isSubtype_sketch depth s t (by omega)
      | none => exact .of_add 1 fun depth => by cases s <;> rfl
  | none =>
      cases b with
      | some t => exact .of_add 1 fun depth => by cases t <;> rfl
      | none => exact .of_add 1 fun depth => rfl

theorem join_sketch (a b : Bound) : Sketch.Settles (Sketch.join · a.sketch b.sketch)
    (((a.join b).map Bound.sketch).mapError Undefined.mishap) := by
  cases a with
  | some s =>
      cases b with
      | some t =>
          refine ⟨sizeOf s + sizeOf t + 1, fun depth deep => ?_⟩
          exact (Ty.extrema_sketch depth).1 s t deep
      | none => exact .of_add 1 fun depth => by cases s <;> rfl
  | none =>
      cases b with
      | some t => exact .of_add 1 fun depth => by cases t <;> rfl
      | none => exact .of_add 1 fun depth => rfl

theorem meet_sketch (a b : Bound) : Sketch.Settles (Sketch.meet · a.sketch b.sketch)
    (((a.meet b).map Bound.sketch).mapError Undefined.mishap) := by
  cases a with
  | some s =>
      cases b with
      | some t =>
          refine ⟨sizeOf s + sizeOf t + 1, fun depth deep => ?_⟩
          exact (Ty.extrema_sketch depth).2 s t deep
      | none => exact .of_add 2 fun depth => by cases s <;> rfl
  | none =>
      cases b with
      | some t => exact .of_add 2 fun depth => by cases t <;> rfl
      | none => exact .of_add 2 fun depth => rfl

end Bound

theorem exists_solve_of_isSome (vars : List TypeVar) {cs : List Constraint}
    (present : ∀ c ∈ cs, c.target.isSome) : ∃ rs, solve .nominal vars cs = .ok rs := by
  refine exists_solve_of_resolve fun v _ => ?_
  have own : ∀ c ∈ constraintsOn v cs, c.target.isSome :=
    fun c member => present c (mem_constraintsOn.mp member).1
  have bounds := Bounds.ofConstraints_eq own
  obtain ⟨verdict, given⟩ := Bounds.verdict_total
    ⟨Bound.combined Ty.join (targetsFrom .lower (constraintsOn v cs)),
      Bound.combined Ty.meet (targetsFrom .upper (constraintsOn v cs))⟩
  exact ⟨_, resolve_eq_ok_iff.mpr ⟨_, verdict, bounds, given, rfl⟩⟩

/-- Where nothing is missing, joins, meets and comparisons come to an answer without a mishap, in
    which nothing is missing either, and constraints can be solved. On bounds they come to what
    the nominal lattice says, be it a mishap. -/
theorem Sketch.operations_settle :
    (∀ a b : Sketch, a.complete → b.complete →
      (∃ c, c.complete ∧ Settles (join · a b) (.ok c)) ∧
      (∃ c, c.complete ∧ Settles (meet · a b) (.ok c)) ∧
      ∃ below, Settles (isSubtype · a b) (.ok below)) ∧
    (∀ a b : Bound,
      Settles (join · a.sketch b.sketch)
        (((Lattice.nominal.join a b).map Bound.sketch).mapError Undefined.mishap) ∧
      Settles (meet · a.sketch b.sketch)
        (((Lattice.nominal.meet a b).map Bound.sketch).mapError Undefined.mishap) ∧
      Settles (isSubtype · a.sketch b.sketch)
        ((Lattice.nominal.isSubtype a b).mapError Undefined.mishap)) ∧
    ∀ (vars : List TypeVar) (cs : List Constraint), (∀ c ∈ cs, c.target.sketch.complete) →
      ∃ rs, solve .nominal vars cs = .ok rs := by
  refine ⟨fun a b left right => ?_, fun a b => ⟨a.join_sketch b, a.meet_sketch b,
    a.isSubtype_sketch b⟩, fun vars cs complete => ?_⟩
  · obtain ⟨s, rfl⟩ := Sketch.complete_iff.mp left
    obtain ⟨t, rfl⟩ := Sketch.complete_iff.mp right
    exact ⟨⟨_, (s.join t).complete_sketch, Bound.join_sketch (some s) (some t)⟩,
      ⟨_, (s.meet t).complete_sketch, Bound.meet_sketch (some s) (some t)⟩,
      ⟨_, Bound.isSubtype_sketch (some s) (some t)⟩⟩
  · refine exists_solve_of_isSome vars fun c member => ?_
    exact Bound.complete_sketch_iff.mp (complete c member)

namespace Sample

def pair : Class := ⟨20, "pair", 2, none⟩

/-- Called like its base, which it gives three arguments instead of two. -/
def oddPair : Class := ⟨21, "pair", 1, some ⟨pair, [one Builtin.int, .void, .dynamic]⟩⟩

/-- Another class of that name, over a list of nothing. -/
def listedPair : Class := ⟨22, "pair", 0, some ⟨Builtin.list, []⟩⟩

def careless : Ty :=
  .callable [.inst ⟨oddPair, []⟩, .inst ⟨listedPair, [.error, .void]⟩] .bottom ⟨pair, [.dynamic]⟩

def careless' : Ty :=
  .callable [.inst ⟨listedPair, []⟩, one rock] (one oddPair) ⟨oddPair, [.dynamic]⟩

/-- A list whose argument is missing. -/
def blank : Sketch := .inst ⟨some Builtin.list.sketch, [.absent]⟩

end Sample

open Sample in
theorem Sketch.operations_settle_careless :
    ((∃ c, c.complete ∧ Settles (join · careless.sketch careless'.sketch) (.ok c)) ∧
      (∃ c, c.complete ∧ Settles (meet · careless.sketch careless'.sketch) (.ok c)) ∧
      ∃ below, Settles (isSubtype · careless.sketch careless'.sketch) (.ok below)) ∧
    (∃ rs, solve .nominal [⟨0⟩]
      [⟨⟨0⟩, .lower, some careless⟩, ⟨⟨0⟩, .upper, some careless'⟩] = .ok rs) ∧
    blank.complete = false ∧ join 2 blank blank = .error (.join .absent .absent) :=
  ⟨operations_settle.1 careless.sketch careless'.sketch rfl rfl,
    operations_settle.2.2 _ _ (by simp [Bound.sketch, Ty.complete_sketch]), rfl, rfl⟩

end TypeBounds
