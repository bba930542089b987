import TypeBounds.Proofs.Closure
import TypeBounds.Proofs.Order

/-! # Bounds shape by shape

What is above two types, or below them both, by their shapes. Types of one shape are
bounded part by part, given that their parts are. Types of different shapes meet only
above their nominal types; and below them there is nothing but `bottom` unless one is
below the other, so that a comparison settles their meet.
-/

namespace TypeBounds

/-- The nominal type that a type may stand in for. -/
def Ty.nominal? : Ty → Option Instance
  | .inst i => some i
  | .callable _ _ fallback => some fallback
  | .tuple _ fallback => some fallback
  | _ => none

/-- Nominal, or the cap of the order. -/
def Ty.Upper (c : Ty) : Prop := (∃ t, c = .inst t) ∨ c = .error

theorem Ty.nominal_fits {u : Universe} {d : Dialect} {a : Ty} {s : Instance} (fit : a.fits u d)
    (nominal : a.nominal? = some s) : s.fits u d := by
  cases a <;> simp only [Ty.nominal?, Option.some.injEq, reduceCtorEq] at nominal
  · exact nominal ▸ fit
  · exact nominal ▸ (Ty.fits_callable_iff.mp fit).2.2.1
  · exact nominal ▸ (Ty.fits_tuple_iff.mp fit).2.1

theorem Instance.upper_of_below {s : Instance} {c : Ty} (below : Ty.Below true (.inst s) c) :
    c.Upper := by
  cases below with
  | inst => exact .inl ⟨_, rfl⟩
  | capped => exact .inr rfl

theorem Ty.below_inst_iff {a : Ty} {t : Instance} :
    Ty.Below true a (.inst t) ↔
      a = .bottom ∨ ∃ s, a.nominal? = some s ∧ Ty.Below true (.inst s) (.inst t) := by
  constructor
  · intro below
    cases below with
    | bottom => exact .inl rfl
    | inst seen args => exact .inr ⟨_, rfl, .inst seen args⟩
    | callableInst ofFallback | tupleInst ofFallback => exact .inr ⟨_, rfl, ofFallback⟩
  · rintro (rfl | ⟨s, nominal, below⟩)
    · exact .bottom _
    · cases a <;> simp only [Ty.nominal?, Option.some.injEq, reduceCtorEq] at nominal
      · exact nominal ▸ below
      · exact .callableInst (nominal ▸ below)
      · exact .tupleInst (nominal ▸ below)

theorem Ty.below_upper_iff {a c : Ty} {s : Instance} (nominal : a.nominal? = some s)
    (upper : c.Upper) : Ty.Below true a c ↔ Ty.Below true (.inst s) c := by
  rcases upper with ⟨t, rfl⟩ | rfl
  · rw [Ty.below_inst_iff, nominal]
    have proper : a ≠ .bottom := by
      rintro rfl
      cases nominal
    simp [proper]
  · exact iff_of_true (.capped _ rfl) (.capped _ rfl)

theorem Ty.below_upper_iff_and {a b j c : Ty} {s : Instance} (joined : j.nominal? = some s)
    (left : a.nominal? = some s) (right : b.nominal? = some s) (upper : c.Upper) :
    Ty.Below true j c ↔ Ty.Below true a c ∧ Ty.Below true b c := by
  rw [Ty.below_upper_iff joined upper, Ty.below_upper_iff left upper,
    Ty.below_upper_iff right upper, and_self_iff]

theorem Ty.Below.of_error {a c : Ty} (below : Ty.Below true .error c) : Ty.Below true a c := by
  cases below with
  | error | capped => exact .capped a rfl

theorem Ty.Below.of_bottom {a c : Ty} (below : Ty.Below true c .bottom) : Ty.Below true c a := by
  cases below with
  | bottom => exact .bottom a

/-- Types without common bounds of their own shapes are joined through their nominal types. -/
theorem Ty.join_nominal_iff {a b c : Ty} {s t : Instance} (aNominal : a.nominal? = some s)
    (bNominal : b.nominal? = some t)
    (joined : Ty.Below true (s.join t) c ↔ Ty.Below true (.inst s) c ∧ Ty.Below true (.inst t) c)
    (apart : Ty.Below true a c → Ty.Below true b c → c.Upper) :
    Ty.Below true (s.join t) c ↔ Ty.Below true a c ∧ Ty.Below true b c := by
  constructor
  · intro below
    have upper := Instance.upper_of_below (joined.mp below).1
    rwa [Ty.below_upper_iff aNominal upper, Ty.below_upper_iff bNominal upper, ← joined]
  · rintro ⟨left, right⟩
    have upper := apart left right
    rw [Ty.below_upper_iff aNominal upper] at left
    rw [Ty.below_upper_iff bNominal upper] at right
    exact joined.mpr ⟨left, right⟩

theorem Ty.similar_iff {items items' : List Ty} {fallback fallback' anchor : Instance}
    (left : fallback = anchor) (right : fallback' = anchor) :
    fallback = fallback' ∧
      (Ty.similar items items' fallback fallback' ↔ items.length = items'.length) := by
  subst left right
  simp [Ty.similar, Instance.same_refl]

theorem Ty.similar_callables_iff {u : Universe} {d : Dialect} {params params' : List Ty}
    {result result' : Ty} {fallback fallback' : Instance} (strict : ¬ d.anyFallback)
    (aFit : (Ty.callable params result fallback).fits u d)
    (bFit : (Ty.callable params' result' fallback').fits u d) :
    fallback = fallback' ∧
      (Ty.similar params params' fallback fallback' ↔ params.length = params'.length) :=
  Ty.similar_iff ((Ty.fits_callable_iff.mp aFit).2.2.2.resolve_left strict)
    ((Ty.fits_callable_iff.mp bFit).2.2.2.resolve_left strict)

theorem Ty.similar_tuples_iff {u : Universe} {d : Dialect} {items items' : List Ty}
    {fallback fallback' : Instance} (strict : ¬ d.anyFallback)
    (aFit : (Ty.tuple items fallback).fits u d) (bFit : (Ty.tuple items' fallback').fits u d) :
    fallback = fallback' ∧
      (Ty.similar items items' fallback fallback' ↔ items.length = items'.length) :=
  Ty.similar_iff ((Ty.fits_tuple_iff.mp aFit).2.2.resolve_left strict)
    ((Ty.fits_tuple_iff.mp bFit).2.2.resolve_left strict)

theorem Ty.below_callable_iff {params params' : List Ty} {result result' : Ty}
    {fallback fallback' : Instance} :
    Ty.Below true (.callable params result fallback) (.callable params' result' fallback') ↔
      List.Forall₂ (Ty.Below true) params' params ∧ Ty.Below true result result' ∧
        Ty.Below true (.inst fallback) (.inst fallback') := by
  constructor
  · intro below
    cases below with
    | callable ofParams ofResult ofFallback => exact ⟨ofParams, ofResult, ofFallback⟩
  · rintro ⟨ofParams, ofResult, ofFallback⟩
    exact .callable ofParams ofResult ofFallback

theorem Ty.below_tuple_iff {items items' : List Ty} {fallback fallback' : Instance} :
    Ty.Below true (.tuple items fallback) (.tuple items' fallback') ↔
      List.Forall₂ (Ty.Below true) items items' ∧
        Ty.Below true (.inst fallback) (.inst fallback') := by
  constructor
  · intro below
    cases below with
    | tuple ofItems ofFallback => exact ⟨ofItems, ofFallback⟩
  · rintro ⟨ofItems, ofFallback⟩
    exact .tuple ofItems ofFallback

/-- Comparing two types settles their meet: a common lower bound other than `bottom` is there
    only when one of them is below the other. -/
structure Ty.Settled (u : Universe) (a b : Ty) : Prop where
  up : a.isSubtype b ↔ Ty.Below true a b
  down : b.isSubtype a ↔ Ty.Below true b a
  common : ∀ c, c.fits u .anchored → Ty.Below true c a → Ty.Below true c b →
    c = .bottom ∨ Ty.Below true a b ∨ Ty.Below true b a

theorem Ty.Settled.symm {u : Universe} {a b : Ty} (settled : Ty.Settled u a b) :
    Ty.Settled u b a where
  up := settled.down
  down := settled.up
  common c fit right left := (settled.common c fit left right).imp_right Or.symm

theorem Ty.Settled.below_lesser_iff {u : Universe} {a b c : Ty} (settled : Ty.Settled u a b)
    (lawful : u.Lawful .any) (aFit : a.fits u .any) (bFit : b.fits u .any)
    (cFit : c.fits u .anchored) :
    Ty.Below true c (Ty.lesser a b) ↔ Ty.Below true c a ∧ Ty.Below true c b := by
  have cFit' := Ty.fits_widen (Dialect.within_any _) cFit
  unfold Ty.lesser
  split
  · rename_i up
    have le := settled.up.mp up
    exact (and_iff_left_of_imp fun below => below.trans lawful cFit' aFit bFit le).symm
  · rename_i notUp
    split
    · rename_i down
      have le := settled.down.mp down
      exact (and_iff_right_of_imp fun below => below.trans lawful cFit' bFit aFit le).symm
    · rename_i notDown
      constructor
      · intro below
        cases below with
        | bottom => exact ⟨.bottom a, .bottom b⟩
      · rintro ⟨left, right⟩
        rcases settled.common c cFit left right with rfl | up | down
        · exact .bottom _
        · exact absurd (settled.up.mpr up) notUp
        · exact absurd (settled.down.mpr down) notDown

theorem Ty.length_eq_of_allSubtypes {as bs : List Ty} (below : Ty.allSubtypes as bs) :
    as.length = bs.length := by
  induction as generalizing bs with
  | nil => cases bs <;> simp_all [Ty.allSubtypes]
  | cons a as ih =>
      cases bs with
      | nil => simp [Ty.allSubtypes] at below
      | cons b bs =>
          rw [Ty.allSubtypes, Bool.and_eq_true] at below
          simp [ih below.2]

theorem Ty.Settled.of_apart {u : Universe} {a b : Ty} (aFit : a.fits u .lowered)
    (bFit : b.fits u .lowered) (notUp : ¬ a.isSubtype b) (notDown : ¬ b.isSubtype a)
    (proper : a ≠ .bottom) (proper' : b ≠ .bottom)
    (apart : ∀ c, Ty.Below true c a → Ty.Below true c b → c = .bottom) : Ty.Settled u a b where
  up := iff_of_false notUp fun below => proper (apart a (.refl true rfl aFit) below)
  down := iff_of_false notDown fun below => proper' (apart b below (.refl true rfl bFit))
  common c _ left right := .inl (apart c left right)

theorem Ty.comparable_plain {u : Universe} (lawful : u.Lawful .plain) :
    Dialect.Comparable u true .plain .lowered where
  left := lawful
  right := lawful.widen (Dialect.plain_within _)
  leftFree := rfl
  rightFree := rfl
  uncapped _ := ⟨rfl, rfl⟩

section Settled

variable {u : Universe} (lawful : u.Lawful .plain)

include lawful

/-- Between different classes only base arguments are compared, and these are plain. -/
theorem Instance.isSubtype_iff_below_of_ne {s t : Instance} (sFit : s.fits u .lowered)
    (tFit : t.fits u .lowered) (other : s.name ≠ t.name) :
    s.isSubtype t ↔ Ty.Below true (.inst s) (.inst t) := by
  rw [Instance.isSubtype_iff, Instance.below_iff]
  refine exists_congr fun view => and_congr_right fun seen => ?_
  have viewFit := fits_of_mem_bases lawful (fits_iff.mp sFit).1 (mem_bases_of_view? seen other)
  exact Ty.allSubtypes_iff_below (Ty.comparable_plain lawful) (fits_iff.mp viewFit).2.2
    (fits_iff.mp tFit).2.2

theorem Instance.below_of_views {i s t v w : Instance} (iHeld : u.holds i.cls)
    (sHeld : u.holds s.cls) (left : i.view? s.name = some v) (between : v.view? t.name = some w)
    (args : List.Forall₂ (Ty.Below true) w.args t.args) (other : s.name ≠ t.name) :
    Ty.Below true (.inst s) (.inst t) := by
  have classes := cls_eq_of_view? lawful.linked iHeld sHeld left
  rw [view?_congr classes (by rwa [name, classes])] at between
  exact .inst between args

theorem Ty.Settled.inst {s t : Instance} (sFit : s.fits u .lowered) (tFit : t.fits u .lowered)
    (other : s.name ≠ t.name) : Ty.Settled u (.inst s) (.inst t) where
  up := by
    rw [Ty.isSubtype]
    exact Instance.isSubtype_iff_below_of_ne lawful sFit tFit other
  down := by
    rw [Ty.isSubtype]
    exact Instance.isSubtype_iff_below_of_ne lawful tFit sFit other.symm
  common c cFit left right := by
    rcases Ty.below_inst_iff.mp left with rfl | ⟨i, nominal, below⟩
    · exact .inl rfl
    rcases Ty.below_inst_iff.mp right with rfl | ⟨i', nominal', below'⟩
    · exact .inl rfl
    obtain rfl := Option.some.inj (nominal.symm.trans nominal')
    obtain ⟨v, seen, args⟩ := Instance.below_iff.mp below
    obtain ⟨w, seen', args'⟩ := Instance.below_iff.mp below'
    have iHeld : u.holds i.cls := (Instance.fits_iff.mp (Ty.nominal_fits cFit nominal)).1
    have sHeld := (Instance.fits_iff.mp sFit).1
    have tHeld := (Instance.fits_iff.mp tFit).1
    rcases Instance.view?_total lawful.linked iHeld seen seen' with between | between
    · exact .inr (.inl (Instance.below_of_views lawful iHeld sHeld seen between args' other))
    · exact .inr (.inr (Instance.below_of_views lawful iHeld tHeld seen' between args other.symm))

theorem Ty.Settled.fallback {a : Ty} {fallback t : Instance} (nominal : a.nominal? = some fallback)
    (fit : fallback.fits u .plain) (tFit : t.fits u .lowered)
    (test : a.isSubtype (.inst t) = fallback.isSubtype t) (notDown : ¬ (Ty.inst t).isSubtype a)
    (notBelow : ¬ Ty.Below true (.inst t) a)
    (lower : ∀ c, c.fits u .anchored → Ty.Below true c a →
      c = .bottom ∨ c.nominal? = some fallback) : Ty.Settled u a (.inst t) where
  up := by
    rw [test, Ty.below_upper_iff nominal (.inl ⟨t, rfl⟩)]
    exact Instance.isSubtype_iff_below (Ty.comparable_plain lawful) fit tFit
  down := iff_of_false notDown notBelow
  common c cFit left right := by
    rcases lower c cFit left with rfl | sameNominal
    · exact .inl rfl
    · have upper : (Ty.inst t).Upper := .inl ⟨t, rfl⟩
      rw [Ty.below_upper_iff sameNominal upper, ← Ty.below_upper_iff nominal upper] at right
      exact .inr (.inl right)

theorem Ty.Settled.callable_inst {params : List Ty} {result : Ty} {fallback t : Instance}
    (fit : (Ty.callable params result fallback).fits u .lowered) (tFit : t.fits u .lowered) :
    Ty.Settled u (.callable params result fallback) (.inst t) := by
  obtain rfl : fallback = Builtin.anchors.function :=
    (Ty.fits_callable_iff.mp fit).2.2.2.resolve_left (by decide)
  refine .fallback lawful rfl lawful.function tFit (by rw [Ty.isSubtype]) (by simp [Ty.isSubtype])
    (by rintro ⟨⟩) ?_
  intro c cFit below
  cases below with
  | bottom => exact .inl rfl
  | callable =>
      have anchor := (Ty.fits_callable_iff.mp cFit).2.2.2.resolve_left (by decide)
      exact .inr (congrArg some anchor)

theorem Ty.Settled.tuple_inst {items : List Ty} {fallback t : Instance}
    (fit : (Ty.tuple items fallback).fits u .lowered) (tFit : t.fits u .lowered) :
    Ty.Settled u (.tuple items fallback) (.inst t) := by
  obtain rfl : fallback = Builtin.anchors.tuple :=
    (Ty.fits_tuple_iff.mp fit).2.2.resolve_left (by decide)
  refine .fallback lawful rfl lawful.tuple tFit (by rw [Ty.isSubtype]) (by simp [Ty.isSubtype])
    (by rintro ⟨⟩) ?_
  intro c cFit below
  cases below with
  | bottom => exact .inl rfl
  | tuple =>
      have anchor := (Ty.fits_tuple_iff.mp cFit).2.2.resolve_left (by decide)
      exact .inr (congrArg some anchor)

end Settled

theorem Ty.Settled.callable {u : Universe} {params params' : List Ty} {result result' : Ty}
    {fallback fallback' : Instance} (aFit : (Ty.callable params result fallback).fits u .lowered)
    (bFit : (Ty.callable params' result' fallback').fits u .lowered)
    (lengths : params.length ≠ params'.length) :
    Ty.Settled u (.callable params result fallback) (.callable params' result' fallback') := by
  refine .of_apart aFit bFit ?_ ?_ (by simp) (by simp) ?_
  · intro below
    simp only [Ty.isSubtype, Bool.and_eq_true] at below
    exact lengths (Ty.length_eq_of_allSubtypes below.1.1).symm
  · intro below
    simp only [Ty.isSubtype, Bool.and_eq_true] at below
    exact lengths (Ty.length_eq_of_allSubtypes below.1.1)
  · intro c left right
    cases left with
    | bottom => rfl
    | callable ofParams =>
        cases right with
        | callable ofParams' =>
            exact absurd (ofParams.length_eq.trans ofParams'.length_eq.symm) lengths

theorem Ty.Settled.tuple {u : Universe} {items items' : List Ty} {fallback fallback' : Instance}
    (aFit : (Ty.tuple items fallback).fits u .lowered)
    (bFit : (Ty.tuple items' fallback').fits u .lowered) (lengths : items.length ≠ items'.length) :
    Ty.Settled u (.tuple items fallback) (.tuple items' fallback') := by
  refine .of_apart aFit bFit ?_ ?_ (by simp) (by simp) ?_
  · intro below
    simp only [Ty.isSubtype, Bool.and_eq_true] at below
    exact lengths (Ty.length_eq_of_allSubtypes below.1)
  · intro below
    simp only [Ty.isSubtype, Bool.and_eq_true] at below
    exact lengths (Ty.length_eq_of_allSubtypes below.1).symm
  · intro c left right
    cases left with
    | bottom => rfl
    | tuple ofItems =>
        cases right with
        | tuple ofItems' =>
            exact absurd (ofItems.length_eq.symm.trans ofItems'.length_eq) lengths

theorem Ty.Settled.callable_tuple {u : Universe} {params items : List Ty} {result : Ty}
    {fallback fallback' : Instance} (aFit : (Ty.callable params result fallback).fits u .lowered)
    (bFit : (Ty.tuple items fallback').fits u .lowered) :
    Ty.Settled u (.callable params result fallback) (.tuple items fallback') := by
  refine .of_apart aFit bFit (by simp [Ty.isSubtype]) (by simp [Ty.isSubtype]) (by simp) (by simp) ?_
  intro c left right
  cases left with
  | bottom => rfl
  | callable => cases right

theorem Ty.callable_join_iff {u : Universe} {params params' : List Ty} {result result' c : Ty}
    {fallback fallback' : Instance} (anchors : fallback = fallback') (cFit : c.fits u .anchored)
    (ofParams : ∀ {cs}, Ty.allFit u .anchored cs →
      (List.Forall₂ (Ty.Below true) cs (Ty.meetAll params params') ↔
        List.Forall₂ (Ty.Below true) cs params ∧ List.Forall₂ (Ty.Below true) cs params'))
    (ofResult : ∀ {c : Ty}, c.fits u .anchored →
      (Ty.Below true (result.join result') c ↔ Ty.Below true result c ∧ Ty.Below true result' c)) :
    Ty.Below true (.callable (Ty.meetAll params params') (result.join result') fallback') c ↔
      Ty.Below true (.callable params result fallback) c ∧
        Ty.Below true (.callable params' result' fallback') c := by
  subst anchors
  cases c with
  | callable params'' result'' fallback'' =>
      obtain ⟨cParams, cResult, -, -⟩ := Ty.fits_callable_iff.mp cFit
      rw [Ty.below_callable_iff, Ty.below_callable_iff, Ty.below_callable_iff, ofParams cParams,
        ofResult cResult]
      tauto
  | inst t => exact Ty.below_upper_iff_and rfl rfl rfl (.inl ⟨t, rfl⟩)
  | error => exact Ty.below_upper_iff_and rfl rfl rfl (.inr rfl)
  | tuple | void | dynamic | bottom => exact iff_of_false (by rintro ⟨⟩) (by rintro ⟨⟨⟩, _⟩)

theorem Ty.tuple_join_iff {u : Universe} {items items' : List Ty} {c : Ty}
    {fallback fallback' : Instance} (anchors : fallback = fallback') (cFit : c.fits u .anchored)
    (ofItems : ∀ {cs}, Ty.allFit u .anchored cs →
      (List.Forall₂ (Ty.Below true) (Ty.joinAll items items') cs ↔
        List.Forall₂ (Ty.Below true) items cs ∧ List.Forall₂ (Ty.Below true) items' cs)) :
    Ty.Below true (.tuple (Ty.joinAll items items') fallback') c ↔
      Ty.Below true (.tuple items fallback) c ∧ Ty.Below true (.tuple items' fallback') c := by
  subst anchors
  cases c with
  | tuple items'' fallback'' =>
      obtain ⟨cItems, -, -⟩ := Ty.fits_tuple_iff.mp cFit
      rw [Ty.below_tuple_iff, Ty.below_tuple_iff, Ty.below_tuple_iff, ofItems cItems]
      tauto
  | inst t => exact Ty.below_upper_iff_and rfl rfl rfl (.inl ⟨t, rfl⟩)
  | error => exact Ty.below_upper_iff_and rfl rfl rfl (.inr rfl)
  | callable | void | dynamic | bottom => exact iff_of_false (by rintro ⟨⟩) (by rintro ⟨⟨⟩, _⟩)

theorem Instance.below_met_args_iff {u : Universe} (lawful : u.Lawful .plain) {s t : Instance}
    {c : Ty} (names : s.name = t.name) (cFit : c.fits u .anchored)
    (ofArgs : ∀ {cs}, Ty.allFit u .anchored cs →
      (List.Forall₂ (Ty.Below true) cs (Ty.meetAll s.args t.args) ↔
        List.Forall₂ (Ty.Below true) cs s.args ∧ List.Forall₂ (Ty.Below true) cs t.args)) :
    Ty.Below true c (.inst ⟨s.cls, Ty.meetAll s.args t.args⟩) ↔
      Ty.Below true c (.inst s) ∧ Ty.Below true c (.inst t) := by
  have anchored := lawful.widen (Dialect.plain_within .anchored)
  cases nominal : c.nominal? with
  | none => rw [Ty.below_inst_iff, Ty.below_inst_iff, Ty.below_inst_iff, nominal]; simp
  | some i =>
      have joined : Instance.name ⟨s.cls, Ty.meetAll s.args t.args⟩ = t.name := names
      rw [Ty.below_upper_iff nominal (.inl ⟨_, rfl⟩), Ty.below_upper_iff nominal (.inl ⟨_, rfl⟩),
        Ty.below_upper_iff nominal (.inl ⟨_, rfl⟩), below_iff, below_iff, below_iff, joined, names]
      cases seen : i.view? t.name with
      | none => simp
      | some view =>
          have viewFit := fits_of_view? anchored (Ty.nominal_fits cFit nominal) seen
          simp [ofArgs (fits_iff.mp viewFit).2.2]

theorem Ty.callable_meet_iff {u : Universe} {params params' : List Ty} {result result' c : Ty}
    {fallback fallback' : Instance} (anchors : fallback = fallback') (cFit : c.fits u .anchored)
    (ofParams : ∀ {cs}, Ty.allFit u .anchored cs →
      (List.Forall₂ (Ty.Below true) (Ty.joinAll params params') cs ↔
        List.Forall₂ (Ty.Below true) params cs ∧ List.Forall₂ (Ty.Below true) params' cs))
    (ofResult : ∀ {c : Ty}, c.fits u .anchored →
      (Ty.Below true c (result.meet result') ↔ Ty.Below true c result ∧ Ty.Below true c result')) :
    Ty.Below true c (.callable (Ty.joinAll params params') (result.meet result') fallback) ↔
      Ty.Below true c (.callable params result fallback) ∧
        Ty.Below true c (.callable params' result' fallback') := by
  subst anchors
  cases c with
  | callable params'' result'' fallback'' =>
      obtain ⟨cParams, cResult, -, -⟩ := Ty.fits_callable_iff.mp cFit
      rw [Ty.below_callable_iff, Ty.below_callable_iff, Ty.below_callable_iff, ofParams cParams,
        ofResult cResult]
      tauto
  | bottom => exact iff_of_true (.bottom _) ⟨.bottom _, .bottom _⟩
  | inst | tuple | void | dynamic | error => exact iff_of_false (by rintro ⟨⟩) (by rintro ⟨⟨⟩, _⟩)

theorem Ty.tuple_meet_iff {u : Universe} {items items' : List Ty} {c : Ty}
    {fallback fallback' : Instance} (anchors : fallback = fallback') (cFit : c.fits u .anchored)
    (ofItems : ∀ {cs}, Ty.allFit u .anchored cs →
      (List.Forall₂ (Ty.Below true) cs (Ty.meetAll items items') ↔
        List.Forall₂ (Ty.Below true) cs items ∧ List.Forall₂ (Ty.Below true) cs items')) :
    Ty.Below true c (.tuple (Ty.meetAll items items') fallback) ↔
      Ty.Below true c (.tuple items fallback) ∧ Ty.Below true c (.tuple items' fallback') := by
  subst anchors
  cases c with
  | tuple items'' fallback'' =>
      obtain ⟨cItems, -, -⟩ := Ty.fits_tuple_iff.mp cFit
      rw [Ty.below_tuple_iff, Ty.below_tuple_iff, Ty.below_tuple_iff, ofItems cItems]
      tauto
  | bottom => exact iff_of_true (.bottom _) ⟨.bottom _, .bottom _⟩
  | inst | callable | void | dynamic | error =>
      exact iff_of_false (by rintro ⟨⟩) (by rintro ⟨⟨⟩, _⟩)

theorem Ty.upper_of_callables {params params' : List Ty} {result result' c : Ty}
    {fallback fallback' : Instance} (lengths : params.length ≠ params'.length)
    (left : Ty.Below true (.callable params result fallback) c)
    (right : Ty.Below true (.callable params' result' fallback') c) : c.Upper := by
  cases left with
  | capped => exact .inr rfl
  | callableInst => exact .inl ⟨_, rfl⟩
  | callable ofParams =>
      cases right with
      | callable ofParams' =>
          exact absurd (ofParams.length_eq.symm.trans ofParams'.length_eq) lengths

theorem Ty.upper_of_tuples {items items' : List Ty} {c : Ty} {fallback fallback' : Instance}
    (lengths : items.length ≠ items'.length) (left : Ty.Below true (.tuple items fallback) c)
    (right : Ty.Below true (.tuple items' fallback') c) : c.Upper := by
  cases left with
  | capped => exact .inr rfl
  | tupleInst => exact .inl ⟨_, rfl⟩
  | tuple ofItems =>
      cases right with
      | tuple ofItems' => exact absurd (ofItems.length_eq.trans ofItems'.length_eq.symm) lengths

theorem Ty.upper_of_callable_tuple {params items : List Ty} {result c : Ty}
    {fallback fallback' : Instance} (left : Ty.Below true (.callable params result fallback) c)
    (right : Ty.Below true (.tuple items fallback') c) : c.Upper := by
  cases left with
  | capped => exact .inr rfl
  | callableInst => exact .inl ⟨_, rfl⟩
  | callable => cases right

/-- The nearest common base with joined arguments is below whatever is above both sides. -/
theorem Instance.commonBase_join_iff {u : Universe} (lawful : u.Lawful .plain)
    {s t a view : Instance} {c : Ty} (sHeld : u.holds s.cls) (tHeld : u.holds t.cls)
    (found : s.commonBase? t = some (a, view)) (cFit : c.fits u .anchored)
    (ofArgs : ∀ {cs}, Ty.allFit u .anchored cs →
      (List.Forall₂ (Ty.Below true) (Ty.joinAll a.args view.args) cs ↔
        List.Forall₂ (Ty.Below true) a.args cs ∧ List.Forall₂ (Ty.Below true) view.args cs)) :
    Ty.Below true (.inst ⟨a.cls, Ty.joinAll a.args view.args⟩) c ↔
      Ty.Below true (.inst s) c ∧ Ty.Below true (.inst t) c := by
  have left := view?_commonBase_left found
  have right := view?_commonBase_right found
  have classes := cls_eq_of_commonBase? lawful.linked sHeld tHeld found
  cases c with
  | inst r =>
      by_cases here : a.name = r.name
      · have self : Instance.view? ⟨a.cls, Ty.joinAll a.args view.args⟩ r.name =
            some ⟨a.cls, Ty.joinAll a.args view.args⟩ := here ▸ view?_self _
        rw [here] at left right
        simp [below_iff, self, left, right, ofArgs (fits_iff.mp cFit).2.2]
      · have joined : Instance.view? ⟨a.cls, Ty.joinAll a.args view.args⟩ r.name =
            a.view? r.name := view?_congr rfl here
        have other : view.view? r.name = a.view? r.name :=
          view?_congr classes (by rwa [name, classes])
        rw [below_iff, below_iff, below_iff, joined]
        constructor
        · rintro ⟨w, seen, args⟩
          exact ⟨⟨w, view?_trans lawful.linked sHeld left seen, args⟩,
            ⟨w, view?_trans lawful.linked tHeld right (other ▸ seen), args⟩⟩
        · rintro ⟨⟨v, fromLeft, args⟩, ⟨w, fromRight, -⟩⟩
          exact ⟨v, commonBase?_nearest lawful.linked sHeld found fromLeft fromRight, args⟩
  | error => exact iff_of_true (.capped _ rfl) ⟨.capped _ rfl, .capped _ rfl⟩
  | callable | tuple | void | dynamic | bottom =>
      exact iff_of_false (by rintro ⟨⟩) (by rintro ⟨⟨⟩, _⟩)

end TypeBounds
