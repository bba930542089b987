import TypeBounds.Proofs.Associativity

/-! # When joins and meets commute

Two types have the same nearest common base from either side, so what is left to compare
are types that do not meet part by part: their meet is the lesser one, and only if each
is below the other does it matter which is asked first. Instances of two classes are
never below each other. Callables and tuples are if their fallbacks are, and fallbacks
are below each other without being the same where `dynamic` is in them.
-/

namespace TypeBounds

mutual
/-- Types without `dynamic` that are below each other are the same, even if there is `dynamic` in
    base arguments: these are compared in one direction only. -/
theorem Ty.eq_of_subtypes {u : Universe} (linked : u.Linked) {a b : Ty} (aFit : a.fits u .static)
    (bFit : b.fits u .static) (up : a.isSubtype b) (down : b.isSubtype a) : a = b := by
  match a, b with
  | .inst s, .inst t =>
      rw [Ty.isSubtype] at up down
      exact congrArg Ty.inst (Instance.eq_of_subtypes linked aFit bFit up down)
  | .callable params result fallback, .callable params' result' fallback' =>
      obtain ⟨aParams, aResult, aFallback, -⟩ := Ty.fits_callable_iff.mp aFit
      obtain ⟨bParams, bResult, bFallback, -⟩ := Ty.fits_callable_iff.mp bFit
      simp only [Ty.isSubtype, Bool.and_eq_true] at up down
      obtain ⟨⟨paramsDown, resultUp⟩, fallbackUp⟩ := up
      obtain ⟨⟨paramsUp, resultDown⟩, fallbackDown⟩ := down
      rw [Ty.eq_of_allSubtypes linked aParams bParams paramsUp paramsDown,
        Ty.eq_of_subtypes linked aResult bResult resultUp resultDown,
        Instance.eq_of_subtypes linked aFallback bFallback fallbackUp fallbackDown]
  | .tuple items fallback, .tuple items' fallback' =>
      obtain ⟨aItems, aFallback, -⟩ := Ty.fits_tuple_iff.mp aFit
      obtain ⟨bItems, bFallback, -⟩ := Ty.fits_tuple_iff.mp bFit
      simp only [Ty.isSubtype, Bool.and_eq_true] at up down
      rw [Ty.eq_of_allSubtypes linked aItems bItems up.1 down.1,
        Instance.eq_of_subtypes linked aFallback bFallback up.2 down.2]
  | .dynamic, _ => cases aFit
  | _, .dynamic => cases bFit
  | .void, .void | .bottom, .bottom | .error, .error => rfl
  | .inst _, .callable .. | .inst _, .tuple .. | .inst _, .void | .inst _, .bottom
  | .inst _, .error | .callable .., .tuple .. | .callable .., .void | .callable .., .bottom
  | .callable .., .error | .tuple .., .callable .. | .tuple .., .void | .tuple .., .bottom
  | .tuple .., .error | .void, .bottom | .void, .error | .error, .void | .error, .bottom
  | .void, .inst _ | .void, .callable .. | .void, .tuple .. | .error, .inst _
  | .error, .callable .. | .error, .tuple .. => simp [Ty.isSubtype] at up
  | .callable .., .inst _ | .tuple .., .inst _ | .bottom, .inst _ | .bottom, .callable ..
  | .bottom, .tuple .. | .bottom, .void | .bottom, .error => simp [Ty.isSubtype] at down
termination_by sizeOf a + sizeOf b

theorem Instance.eq_of_subtypes {u : Universe} (linked : u.Linked) {s t : Instance}
    (sFit : s.fits u .static) (tFit : t.fits u .static) (up : s.isSubtype t)
    (down : t.isSubtype s) : s = t := by
  obtain ⟨view, seen, args⟩ := Instance.isSubtype_iff.mp up
  obtain ⟨view', seen', args'⟩ := Instance.isSubtype_iff.mp down
  obtain ⟨sHeld, -, sArgs⟩ := Instance.fits_iff.mp sFit
  obtain ⟨tHeld, -, tArgs⟩ := Instance.fits_iff.mp tFit
  have names := Instance.name_eq_of_view?_of_view? linked sHeld tHeld seen seen'
  rw [← names, Instance.view?_self] at seen
  rw [names, Instance.view?_self] at seen'
  obtain rfl := Option.some.inj seen
  obtain rfl := Option.some.inj seen'
  have smaller := s.sizeOf_args_lt
  have smaller' := t.sizeOf_args_lt
  have sameArgs := Ty.eq_of_allSubtypes linked sArgs tArgs args args'
  have classes := Universe.eq_of_holds sHeld tHeld names
  cases s
  cases t
  exact (Instance.mk.injEq ..).mpr ⟨classes, sameArgs⟩
termination_by sizeOf s + sizeOf t

theorem Ty.eq_of_allSubtypes {u : Universe} (linked : u.Linked) {as bs : List Ty}
    (aFit : Ty.allFit u .static as) (bFit : Ty.allFit u .static bs)
    (up : Ty.allSubtypes as bs) (down : Ty.allSubtypes bs as) : as = bs := by
  match as, bs with
  | [], [] => rfl
  | [], _ :: _ | _ :: _, [] => simp [Ty.allSubtypes] at up
  | a :: as, b :: bs =>
      obtain ⟨aHead, aTail⟩ := Ty.allFit_cons_iff.mp aFit
      obtain ⟨bHead, bTail⟩ := Ty.allFit_cons_iff.mp bFit
      simp only [Ty.allSubtypes, Bool.and_eq_true] at up down
      rw [Ty.eq_of_subtypes linked aHead bHead up.1 down.1,
        Ty.eq_of_allSubtypes linked aTail bTail up.2 down.2]
termination_by sizeOf as + sizeOf bs
end

mutual
/-- Well-formed, with `dynamic` in no fallback. -/
def Ty.isSteady (u : Universe) : Ty → Bool
  | .inst i => i.isSteady u
  | .callable params result fallback =>
      Ty.allSteady u params && result.isSteady u && fallback.fits u .static
  | .tuple items fallback => Ty.allSteady u items && fallback.fits u .static
  | .void | .dynamic | .bottom | .error => true

def Instance.isSteady (u : Universe) : Instance → Bool
  | ⟨c, args⟩ => u.holds c && (args.length : Int) == c.arity && Ty.allSteady u args

def Ty.allSteady (u : Universe) : List Ty → Bool
  | [] => true
  | t :: ts => t.isSteady u && Ty.allSteady u ts
end

/-- The base of every class is steady. -/
def Universe.Steady (u : Universe) : Prop :=
  ∀ {c b}, u.holds c → c.base = some b → b.isSteady u

section Steady

variable {u : Universe} {params items ts : List Ty} {result t : Ty} {fallback i : Instance}

theorem Ty.isSteady_callable_iff : (Ty.callable params result fallback).isSteady u ↔
    Ty.allSteady u params ∧ result.isSteady u ∧ fallback.fits u .static := by
  simp [Ty.isSteady, and_assoc]

theorem Ty.isSteady_tuple_iff : (Ty.tuple items fallback).isSteady u ↔
    Ty.allSteady u items ∧ fallback.fits u .static := by
  simp [Ty.isSteady]

theorem Instance.isSteady_iff : i.isSteady u ↔ i.Headed u ∧ Ty.allSteady u i.args := by
  cases i
  simp [Instance.isSteady, Headed]

theorem Ty.allSteady_cons_iff :
    Ty.allSteady u (t :: ts) ↔ t.isSteady u ∧ Ty.allSteady u ts := by
  simp [Ty.allSteady]

end Steady

mutual
theorem Ty.isSteady_of_fits {u : Universe} (grown : u.Grown) {d : Dialect}
    (calm : d.dynamic = false ∨ d.anyFallback = false) {t : Ty} (fit : t.fits u d) :
    t.isSteady u := by
  have steady {fallback anchor : Instance} (ofFallback : fallback.fits u d)
      (held : anchor.fits u .static) (anchored : d.anyFallback ∨ fallback = anchor) :
      fallback.fits u .static := by
    rcases calm with static | strict
    · have wider : d.Within .static := by simp [Dialect.Within, Dialect.static, Dialect.any, static]
      exact Instance.fits_mono wider (fun _ held => held) ofFallback
    · rw [anchored.resolve_left (by simp [strict])]
      exact held
  cases t with
  | inst i => exact Instance.isSteady_of_fits grown calm fit
  | callable params result fallback =>
      obtain ⟨ofParams, ofResult, ofFallback, anchored⟩ := Ty.fits_callable_iff.mp fit
      exact Ty.isSteady_callable_iff.mpr
        ⟨Ty.allSteady_of_allFit grown (d := d.opposite) calm ofParams,
          Ty.isSteady_of_fits grown calm ofResult, steady ofFallback grown.anchors_fit.1 anchored⟩
  | tuple items fallback =>
      obtain ⟨ofItems, ofFallback, anchored⟩ := Ty.fits_tuple_iff.mp fit
      exact Ty.isSteady_tuple_iff.mpr
        ⟨Ty.allSteady_of_allFit grown calm ofItems, steady ofFallback grown.anchors_fit.2 anchored⟩
  | void | dynamic | bottom | error => rfl

theorem Instance.isSteady_of_fits {u : Universe} (grown : u.Grown) {d : Dialect}
    (calm : d.dynamic = false ∨ d.anyFallback = false) {i : Instance} (fit : i.fits u d) :
    i.isSteady u := by
  have headed := Instance.headed_of_fits fit
  cases i with
  | mk c args =>
      exact Instance.isSteady_iff.mpr
        ⟨headed, Ty.allSteady_of_allFit grown calm (Instance.fits_iff.mp fit).2.2⟩

theorem Ty.allSteady_of_allFit {u : Universe} (grown : u.Grown) {d : Dialect}
    (calm : d.dynamic = false ∨ d.anyFallback = false) {ts : List Ty} (fit : Ty.allFit u d ts) :
    Ty.allSteady u ts := by
  cases ts with
  | nil => rfl
  | cons t ts =>
      obtain ⟨head, tail⟩ := Ty.allFit_cons_iff.mp fit
      exact Ty.allSteady_cons_iff.mpr
        ⟨Ty.isSteady_of_fits grown calm head, Ty.allSteady_of_allFit grown calm tail⟩
end

theorem Instance.isSteady_of_static {u : Universe} (grown : u.Grown) {i : Instance}
    (fit : i.fits u .static) : i.isSteady u :=
  Instance.isSteady_of_fits grown (.inl rfl) fit

theorem Universe.Built.steady {u : Universe} {d : Dialect} {roots : Bool}
    (built : u.Built d roots) (calm : d.dynamic = false ∨ d.anyFallback = false) : u.Steady := by
  intro c b held above
  exact Instance.isSteady_of_fits built.grown calm (built.lawful.base held above)

theorem Instance.isSteady_of_view? {u : Universe} (bases : u.Steady) {s v : Instance}
    {n : String} (steady : s.isSteady u) (seen : s.view? n = some v) : v.isSteady u := by
  have ofBases : ∀ {c : Class}, u.holds c → ∀ i ∈ c.bases, i.isSteady u := by
    intro c held i above
    fun_induction Class.bases c with
    | case1 => simp at above
    | case2 serial name arity c args ih =>
        rcases List.mem_cons.mp above with rfl | further
        · exact bases held rfl
        · exact ih (isSteady_iff.mp (bases held rfl)).1.1 further
  rcases List.mem_cons.mp (mem_ancestry_of_view? seen) with rfl | above
  · exact steady
  · exact ofBases (isSteady_iff.mp steady).1.1 v above

theorem Ty.lesser_comm {a b : Ty} (once : a.isSubtype b → b.isSubtype a → a = b) :
    Ty.lesser a b = Ty.lesser b a := by
  unfold Ty.lesser
  by_cases up : a.isSubtype b
  · by_cases down : b.isSubtype a
    · rw [once up down]
    · rw [if_pos up, if_neg down, if_pos up]
  · by_cases down : b.isSubtype a
    · rw [if_neg up, if_pos down, if_pos down]
    · rw [if_neg up, if_neg down, if_neg down, if_neg up]

theorem Ty.similar_iff_of_static {u : Universe} (linked : u.Linked) {items items' : List Ty}
    {fallback fallback' : Instance} (fit : fallback.fits u .static)
    (fit' : fallback'.fits u .static) :
    Ty.similar items items' fallback fallback' ↔
      items.length = items'.length ∧ fallback = fallback' := by
  simp only [Ty.similar, Bool.and_eq_true, beq_iff_eq]
  refine and_congr_right fun _ => ⟨fun same => ?_, ?_⟩
  · obtain ⟨up, down⟩ := Instance.subtypes_of_same same
    exact Instance.eq_of_subtypes linked fit fit' up down
  · rintro rfl
    exact fallback.same_refl

theorem Ty.similar_comm {u : Universe} (linked : u.Linked) {items items' : List Ty}
    {fallback fallback' : Instance} (fit : fallback.fits u .static)
    (fit' : fallback'.fits u .static) :
    Ty.similar items items' fallback fallback' = Ty.similar items' items fallback' fallback := by
  rw [Bool.eq_iff_iff, similar_iff_of_static linked fit fit', similar_iff_of_static linked fit' fit,
    eq_comm, eq_comm (a := fallback)]

mutual
theorem Ty.join_comm {u : Universe} (grown : u.Grown) (bases : u.Steady) {a b : Ty}
    (aSteady : a.isSteady u) (bSteady : b.isSteady u) : a.join b = b.join a := by
  match a, b with
  | .inst s, .inst t =>
      rw [Ty.join, Ty.join]
      exact Instance.join_comm grown bases aSteady bSteady
  | .callable params result fallback, .callable params' result' fallback' =>
      obtain ⟨aParams, aResult, aFallback⟩ := Ty.isSteady_callable_iff.mp aSteady
      obtain ⟨bParams, bResult, bFallback⟩ := Ty.isSteady_callable_iff.mp bSteady
      rw [Ty.join, Ty.join, Ty.similar_comm grown.linked bFallback aFallback,
        Ty.meetAll_comm grown bases aParams bParams, Ty.join_comm grown bases aResult bResult]
      split
      · rename_i similar
        rw [((Ty.similar_iff_of_static grown.linked aFallback bFallback).mp similar).2]
      · exact Instance.join_comm grown bases (Instance.isSteady_of_static grown aFallback)
          (Instance.isSteady_of_static grown bFallback)
  | .tuple items fallback, .tuple items' fallback' =>
      obtain ⟨aItems, aFallback⟩ := Ty.isSteady_tuple_iff.mp aSteady
      obtain ⟨bItems, bFallback⟩ := Ty.isSteady_tuple_iff.mp bSteady
      rw [Ty.join, Ty.join, Ty.similar_comm grown.linked bFallback aFallback,
        Ty.joinAll_comm grown bases aItems bItems]
      split
      · rename_i similar
        rw [((Ty.similar_iff_of_static grown.linked aFallback bFallback).mp similar).2]
      · exact Instance.join_comm grown bases (Instance.isSteady_of_static grown aFallback)
          (Instance.isSteady_of_static grown bFallback)
  | .callable _ _ s, .tuple _ t =>
      have aFallback := (Ty.isSteady_callable_iff.mp aSteady).2.2
      have bFallback := (Ty.isSteady_tuple_iff.mp bSteady).2
      rw [Ty.join, Ty.join]
      exact Instance.join_comm grown bases (Instance.isSteady_of_static grown aFallback)
        (Instance.isSteady_of_static grown bFallback)
  | .tuple _ s, .callable _ _ t =>
      have aFallback := (Ty.isSteady_tuple_iff.mp aSteady).2
      have bFallback := (Ty.isSteady_callable_iff.mp bSteady).2.2
      rw [Ty.join, Ty.join]
      exact Instance.join_comm grown bases (Instance.isSteady_of_static grown aFallback)
        (Instance.isSteady_of_static grown bFallback)
  | .inst s, .callable _ _ t | .inst s, .tuple _ t | .callable _ _ s, .inst t
  | .tuple _ s, .inst t => rw [Ty.join, Ty.join]
  | .dynamic, b | .void, b | .bottom, b | .error, b => cases b <;> simp [Ty.join]
  | a, .dynamic | a, .void | a, .bottom | a, .error => cases a <;> simp [Ty.join]
termination_by sizeOf a + sizeOf b

theorem Instance.join_comm {u : Universe} (grown : u.Grown) (bases : u.Steady) {s t : Instance}
    (sSteady : s.isSteady u) (tSteady : t.isSteady u) : s.join t = t.join s := by
  obtain ⟨sHeaded, -⟩ := Instance.isSteady_iff.mp sSteady
  obtain ⟨tHeaded, -⟩ := Instance.isSteady_iff.mp tSteady
  rcases Instance.nearest_or_apart grown.linked sHeaded.1 t with ⟨a, view, nearest⟩ | apart
  · have swapped := nearest.symm grown.linked sHeaded.1 tHeaded.1
    have aSteady := Instance.isSteady_of_view? bases sSteady nearest.left
    have viewSteady := Instance.isSteady_of_view? bases tSteady nearest.right
    have aArgs := (Instance.isSteady_iff.mp aSteady).2
    have viewArgs := (Instance.isSteady_iff.mp viewSteady).2
    have smaller := Instance.sizeOf_args_lt_of_view? nearest.left
    have smaller' := Instance.sizeOf_args_lt_of_view? nearest.right
    rw [nearest.join_eq grown.linked sHeaded tHeaded,
      swapped.join_eq grown.linked tHeaded sHeaded, Instance.joined, Instance.joined,
      nearest.cls_eq grown.linked sHeaded.1 tHeaded.1, Ty.joinAll_comm grown bases aArgs viewArgs]
  · rw [Instance.join_eq_error apart, Instance.join_eq_error fun left right => apart right left]
termination_by sizeOf s + sizeOf t

theorem Ty.joinAll_comm {u : Universe} (grown : u.Grown) (bases : u.Steady) {as bs : List Ty}
    (aSteady : Ty.allSteady u as) (bSteady : Ty.allSteady u bs) :
    Ty.joinAll as bs = Ty.joinAll bs as := by
  match as, bs with
  | [], [] | [], _ :: _ | _ :: _, [] => simp [Ty.joinAll]
  | a :: as, b :: bs =>
      obtain ⟨aHead, aTail⟩ := Ty.allSteady_cons_iff.mp aSteady
      obtain ⟨bHead, bTail⟩ := Ty.allSteady_cons_iff.mp bSteady
      rw [Ty.joinAll, Ty.joinAll, Ty.join_comm grown bases aHead bHead,
        Ty.joinAll_comm grown bases aTail bTail]
termination_by sizeOf as + sizeOf bs

theorem Ty.meet_comm {u : Universe} (grown : u.Grown) (bases : u.Steady) {a b : Ty}
    (aSteady : a.isSteady u) (bSteady : b.isSteady u) : a.meet b = b.meet a := by
  match a, b with
  | .inst s, .inst t =>
      obtain ⟨sHeaded, sArgs⟩ := Instance.isSteady_iff.mp aSteady
      obtain ⟨tHeaded, tArgs⟩ := Instance.isSteady_iff.mp bSteady
      by_cases names : s.name = t.name
      · have classes := Universe.eq_of_holds sHeaded.1 tHeaded.1 names
        have lengths := sHeaded.length_eq tHeaded classes
        have smaller := s.sizeOf_args_lt
        have smaller' := t.sizeOf_args_lt
        simp [Ty.meet, names, lengths, classes, Ty.meetAll_comm grown bases sArgs tArgs]
      · simp only [Ty.meet, names, Ne.symm names, beq_eq_false_iff_ne.mpr, ne_eq,
          not_false_eq_true, Bool.false_and, Bool.false_eq_true, if_false]
        apply Ty.lesser_comm
        intro up down
        rw [Ty.isSubtype, Instance.isSubtype_iff] at up down
        obtain ⟨_, seen, -⟩ := up
        obtain ⟨_, seen', -⟩ := down
        have same := Instance.name_eq_of_view?_of_view? grown.linked sHeaded.1 tHeaded.1 seen seen'
        exact absurd same names
  | .callable params result fallback, .callable params' result' fallback' =>
      obtain ⟨aParams, aResult, aFallback⟩ := Ty.isSteady_callable_iff.mp aSteady
      obtain ⟨bParams, bResult, bFallback⟩ := Ty.isSteady_callable_iff.mp bSteady
      rw [Ty.meet, Ty.meet, Ty.similar_comm grown.linked bFallback aFallback,
        Ty.joinAll_comm grown bases aParams bParams, Ty.meet_comm grown bases aResult bResult]
      split
      · rename_i similar
        rw [((Ty.similar_iff_of_static grown.linked aFallback bFallback).mp similar).2]
      · rename_i other
        apply Ty.lesser_comm
        intro up down
        simp only [Ty.isSubtype, Bool.and_eq_true] at up down
        exact absurd ((Ty.similar_iff_of_static grown.linked aFallback bFallback).mpr
          ⟨Ty.length_eq_of_allSubtypes down.1.1,
            Instance.eq_of_subtypes grown.linked aFallback bFallback up.2 down.2⟩) other
  | .tuple items fallback, .tuple items' fallback' =>
      obtain ⟨aItems, aFallback⟩ := Ty.isSteady_tuple_iff.mp aSteady
      obtain ⟨bItems, bFallback⟩ := Ty.isSteady_tuple_iff.mp bSteady
      rw [Ty.meet, Ty.meet, Ty.similar_comm grown.linked bFallback aFallback,
        Ty.meetAll_comm grown bases aItems bItems]
      split
      · rename_i similar
        rw [((Ty.similar_iff_of_static grown.linked aFallback bFallback).mp similar).2]
      · rename_i other
        apply Ty.lesser_comm
        intro up down
        simp only [Ty.isSubtype, Bool.and_eq_true] at up down
        exact absurd ((Ty.similar_iff_of_static grown.linked aFallback bFallback).mpr
          ⟨Ty.length_eq_of_allSubtypes up.1,
            Instance.eq_of_subtypes grown.linked aFallback bFallback up.2 down.2⟩) other
  | .inst _, .callable .. | .inst _, .tuple .. | .callable .., .inst _ | .callable .., .tuple ..
  | .tuple .., .inst _ | .tuple .., .callable .. =>
      simp only [Ty.meet]
      apply Ty.lesser_comm
      simp [Ty.isSubtype]
  | .dynamic, b | .void, b | .bottom, b | .error, b => cases b <;> simp [Ty.meet]
  | a, .dynamic | a, .void | a, .bottom | a, .error => cases a <;> simp [Ty.meet]
termination_by sizeOf a + sizeOf b

theorem Ty.meetAll_comm {u : Universe} (grown : u.Grown) (bases : u.Steady) {as bs : List Ty}
    (aSteady : Ty.allSteady u as) (bSteady : Ty.allSteady u bs) :
    Ty.meetAll as bs = Ty.meetAll bs as := by
  match as, bs with
  | [], [] | [], _ :: _ | _ :: _, [] => simp [Ty.meetAll]
  | a :: as, b :: bs =>
      obtain ⟨aHead, aTail⟩ := Ty.allSteady_cons_iff.mp aSteady
      obtain ⟨bHead, bTail⟩ := Ty.allSteady_cons_iff.mp bSteady
      rw [Ty.meetAll, Ty.meetAll, Ty.meet_comm grown bases aHead bHead,
        Ty.meetAll_comm grown bases aTail bTail]
termination_by sizeOf as + sizeOf bs
end

/-- Whether it does not matter in which order two types over the anchors are combined. -/
def Universe.Commutative (u : Universe) (op : Ty → Ty → Ty) : Prop :=
  ∀ a b : Ty, a.fits u .anchored → b.fits u .anchored → (op a b).same (op b a)

theorem Universe.Built.commutative {u : Universe} {d : Dialect} {roots : Bool}
    (built : u.Built d roots) (calm : d.dynamic = false ∨ d.anyFallback = false) :
    u.Commutative Ty.join ∧ u.Commutative Ty.meet := by
  have bases : u.Steady := built.steady calm
  have steady : ∀ {t : Ty}, t.fits u .anchored → t.isSteady u :=
    Ty.isSteady_of_fits built.grown (.inr rfl)
  constructor
  · intro a b aFit bFit
    rw [Ty.join_comm built.grown bases (steady aFit) (steady bFit)]
    exact Ty.same_refl _
  · intro a b aFit bFit
    rw [Ty.meet_comm built.grown bases (steady aFit) (steady bFit)]
    exact Ty.same_refl _

namespace Sample

/-- The empty tuple, where it may stand in for a list. -/
def emptyList (t : Ty) : Ty := .tuple [] ⟨Builtin.list, [t]⟩

/-- Lists of functions that take the empty tuple. -/
def sinks (serial : Nat) (name : String) (t : Ty) : Class :=
  ⟨serial, name, 0, some ⟨Builtin.list, [function (emptyList t) .bottom]⟩⟩

def anySinks : Class := sinks 10 "anysinks" .dynamic

def noneSinks : Class := sinks 11 "nonesinks" .bottom

def sinkWorld : Universe := (Universe.builtin.insert anySinks).insert noneSinks

theorem sinks_fit {u : Universe} {d : Dialect} (grown : u.Grown) (free : d.anyFallback) {t : Ty}
    (fit : t.fits u d.opposite) :
    Instance.fits u d ⟨Builtin.list, [function (emptyList t) .bottom]⟩ := by
  have list : ∀ {e : Dialect} {t : Ty}, t.fits u e → Instance.fits u e ⟨Builtin.list, [t]⟩ :=
    grown.filled_fits (grown.holds_builtin (by simp [Builtin.classes]))
  have empty : (emptyList t).fits u d.opposite :=
    Ty.fits_tuple_iff.mpr ⟨rfl, list fit, .inl free⟩
  exact list (Ty.fits_callable_iff.mpr
    ⟨Ty.allFit_cons_iff.mpr ⟨empty, rfl⟩, rfl, grown.anchors_fit.1, .inr rfl⟩)

theorem built_sinkWorld {d : Dialect} (live : d.dynamic) (free : d.anyFallback) :
    sinkWorld.Built d true := by
  have anys : Universe.Built d true (Universe.builtin.insert anySinks) := by
    refine Universe.Built.builtin.add anySinks rfl (by decide) (.inr rfl) ?_
    rintro b ⟨⟩
    exact sinks_fit .builtin free live
  refine anys.add noneSinks rfl (by decide) (.inr rfl) ?_
  rintro b ⟨⟩
  exact sinks_fit anys.grown free rfl

theorem join_sinks :
    ((one anySinks).fits sinkWorld .anchored ∧ (one noneSinks).fits sinkWorld .anchored) ∧
      (one anySinks).join (one noneSinks) = listOf (function (emptyList .dynamic) .bottom) ∧
        (one noneSinks).join (one anySinks) = listOf (function (emptyList .bottom) .bottom) := by
  decide +kernel

theorem not_same_sinks : ¬ ((one anySinks).join (one noneSinks)).same
    ((one noneSinks).join (one anySinks)) := by
  rw [join_sinks.2.1, join_sinks.2.2]
  simp [listOf, function, emptyList, Ty.same, Instance.same, Ty.sameAll]

end Sample

open Sample in
/-- The parameter of the meet of two functions is the join of theirs. -/
theorem Universe.Commutative.join_of_meet {u : Universe} (grown : u.Grown)
    (meets : u.Commutative Ty.meet) : u.Commutative Ty.join := by
  intro a b aFit bFit
  have fit : ∀ {t : Ty}, t.fits u .anchored → (function t .bottom).fits u .anchored := fun fit =>
    Ty.fits_callable_iff.mpr
      ⟨Ty.allFit_cons_iff.mpr ⟨fit, rfl⟩, rfl, grown.anchors_fit.1, .inr rfl⟩
  have met : ∀ s t, (function s .bottom).meet (function t .bottom) =
      function (s.join t) .bottom := by
    intro s t
    simp [function, Builtin.callable_meet, Ty.bottom_meet, Ty.joinAll]
  have same := meets _ _ (fit aFit) (fit bFit)
  rw [met, met] at same
  simp only [function, Ty.same, Ty.sameAll, Bool.and_eq_true] at same
  exact same.1.1.1

/-- Joins commute in every universe with base arguments of a dialect exactly if the dialect does
    without `dynamic` or without fallbacks other than the anchors, and so do meets. -/
theorem Dialect.commutative_iff (d : Dialect) :
    ((∀ u : Universe, u.Built d true → u.Commutative Ty.join) ↔
        d.dynamic = false ∨ d.anyFallback = false) ∧
      ((∀ u : Universe, u.Built d true → u.Commutative Ty.meet) ↔
        d.dynamic = false ∨ d.anyFallback = false) := by
  have wild (joins : ∀ u : Universe, u.Built d true → u.Commutative Ty.join) :
      d.dynamic = false ∨ d.anyFallback = false := by
    by_contra wild
    rw [not_or, Bool.not_eq_false, Bool.not_eq_false] at wild
    obtain ⟨fit, fit'⟩ := Sample.join_sinks.1
    exact Sample.not_same_sinks (joins _ (Sample.built_sinkWorld wild.1 wild.2) _ _ fit fit')
  refine ⟨⟨wild, fun calm u built => (built.commutative calm).1⟩, ?_,
    fun calm u built => (built.commutative calm).2⟩
  intro meets
  exact wild fun u built => (meets u built).join_of_meet built.grown

open Sample in
/-- Over the anchors, but with base arguments over other fallbacks: functions that take the empty
    tuple as a list of anything, and functions that take it as a list of nothing. -/
theorem join_not_commutative_sinks :
    (sinkWorld.Built .any true ∧ (one anySinks).fits sinkWorld .anchored ∧
        (one noneSinks).fits sinkWorld .anchored) ∧
      ¬ ((one anySinks).join (one noneSinks)).same ((one noneSinks).join (one anySinks)) :=
  ⟨⟨built_sinkWorld rfl rfl, join_sinks.1⟩, not_same_sinks⟩

end TypeBounds
