import TypeBounds.Proofs.Shapes

/-! # Joins and meets are extremal

Over a lawful universe a join is the least upper bound in the capped order and a
meet the greatest lower bound. Both are shown at once, as equivalences for an
arbitrary third type: a part of a callable changes sides, and the equivalence for
joins turns into the one for meets there.
-/

namespace TypeBounds

mutual
/-- A join is the least upper bound in the capped order. -/
theorem Ty.join_below_iff {u : Universe} (lawful : u.Lawful .plain) {a b c : Ty}
    (aFit : a.fits u .raised) (bFit : b.fits u .raised) (cFit : c.fits u .anchored) :
    Ty.Below true (a.join b) c ↔ Ty.Below true a c ∧ Ty.Below true b c := by
  match a, b with
  | .inst s, .inst t =>
      rw [Ty.join]
      exact Instance.join_below_iff lawful aFit bFit cFit
  | .inst s, .callable params result fallback =>
      have fallbackFit := (Ty.fits_callable_iff.mp bFit).2.2.1
      rw [Ty.join, and_comm]
      exact Ty.join_nominal_iff rfl rfl (Instance.join_below_iff lawful fallbackFit aFit cFit)
        fun _ below => Instance.upper_of_below below
  | .inst s, .tuple items fallback =>
      have fallbackFit := (Ty.fits_tuple_iff.mp bFit).2.1
      rw [Ty.join, and_comm]
      exact Ty.join_nominal_iff rfl rfl (Instance.join_below_iff lawful fallbackFit aFit cFit)
        fun _ below => Instance.upper_of_below below
  | .callable params result fallback, .inst t =>
      have fallbackFit := (Ty.fits_callable_iff.mp aFit).2.2.1
      rw [Ty.join]
      exact Ty.join_nominal_iff rfl rfl (Instance.join_below_iff lawful fallbackFit bFit cFit)
        fun _ below => Instance.upper_of_below below
  | .tuple items fallback, .inst t =>
      have fallbackFit := (Ty.fits_tuple_iff.mp aFit).2.1
      rw [Ty.join]
      exact Ty.join_nominal_iff rfl rfl (Instance.join_below_iff lawful fallbackFit bFit cFit)
        fun _ below => Instance.upper_of_below below
  | .callable params result fallback, .tuple items fallback' =>
      have aFallback := (Ty.fits_callable_iff.mp aFit).2.2.1
      have bFallback := (Ty.fits_tuple_iff.mp bFit).2.1
      rw [Ty.join]
      exact Ty.join_nominal_iff rfl rfl (Instance.join_below_iff lawful aFallback bFallback cFit)
        Ty.upper_of_callable_tuple
  | .tuple items fallback, .callable params result fallback' =>
      have aFallback := (Ty.fits_tuple_iff.mp aFit).2.1
      have bFallback := (Ty.fits_callable_iff.mp bFit).2.2.1
      rw [Ty.join]
      exact Ty.join_nominal_iff rfl rfl (Instance.join_below_iff lawful aFallback bFallback cFit)
        fun left right => Ty.upper_of_callable_tuple right left
  | .callable params result fallback, .callable params' result' fallback' =>
      obtain ⟨aParams, aResult, aFallback, -⟩ := Ty.fits_callable_iff.mp aFit
      obtain ⟨bParams, bResult, bFallback, -⟩ := Ty.fits_callable_iff.mp bFit
      obtain ⟨anchors, lengths⟩ := Ty.similar_callables_iff (by decide) aFit bFit
      rw [Ty.join]
      split
      · rename_i similar
        exact Ty.callable_join_iff anchors cFit
          (Ty.below_meetAll_iff lawful (lengths.mp similar) aParams bParams)
          (Ty.join_below_iff lawful aResult bResult)
      · rename_i dissimilar
        exact Ty.join_nominal_iff rfl rfl (Instance.join_below_iff lawful aFallback bFallback cFit)
          (Ty.upper_of_callables (mt lengths.mpr dissimilar))
  | .tuple items fallback, .tuple items' fallback' =>
      obtain ⟨aItems, aFallback, -⟩ := Ty.fits_tuple_iff.mp aFit
      obtain ⟨bItems, bFallback, -⟩ := Ty.fits_tuple_iff.mp bFit
      obtain ⟨anchors, lengths⟩ := Ty.similar_tuples_iff (by decide) aFit bFit
      rw [Ty.join]
      split
      · rename_i similar
        exact Ty.tuple_join_iff anchors cFit
          (Ty.joinAll_below_iff lawful (lengths.mp similar) aItems bItems)
      · rename_i dissimilar
        exact Ty.join_nominal_iff rfl rfl (Instance.join_below_iff lawful aFallback bFallback cFit)
          (Ty.upper_of_tuples (mt lengths.mpr dissimilar))
  | .void, _ | .dynamic, _ => cases aFit
  | _, .void | _, .dynamic => cases bFit
  | .bottom, b =>
      have other : b ≠ .void := by rintro rfl; cases bFit
      rw [Ty.bottom_join other]
      exact (and_iff_right (.bottom c)).symm
  | a, .bottom =>
      have other : a ≠ .void := by rintro rfl; cases aFit
      rw [Ty.join_bottom other]
      exact (and_iff_left (.bottom c)).symm
  | .error, b =>
      have other : b ≠ .dynamic := by rintro rfl; cases bFit
      rw [Ty.absorbing_join.error_left b other]
      exact (and_iff_left_of_imp .of_error).symm
  | a, .error =>
      have other : a ≠ .dynamic := by rintro rfl; cases aFit
      rw [Ty.absorbing_join.error_right a other]
      exact (and_iff_right_of_imp .of_error).symm
termination_by sizeOf a + sizeOf b

theorem Instance.join_below_iff {u : Universe} (lawful : u.Lawful .plain) {s t : Instance} {c : Ty}
    (sFit : s.fits u .raised) (tFit : t.fits u .raised) (cFit : c.fits u .anchored) :
    Ty.Below true (s.join t) c ↔ Ty.Below true (.inst s) c ∧ Ty.Below true (.inst t) c := by
  have sHeld := (Instance.fits_iff.mp sFit).1
  have tHeld := (Instance.fits_iff.mp tFit).1
  have raised := lawful.widen (Dialect.plain_within .raised)
  rw [Instance.join]
  split
  · rename_i absent
    constructor
    · exact fun below => ⟨below.of_error, below.of_error⟩
    · rintro ⟨left, right⟩
      rcases Instance.upper_of_below left with ⟨r, rfl⟩ | rfl
      · obtain ⟨v, fromLeft, -⟩ := Instance.below_iff.mp left
        obtain ⟨w, fromRight, -⟩ := Instance.below_iff.mp right
        exact (Instance.commonBase?_eq_none absent fromLeft fromRight).elim
      · exact .error
  · rename_i a view found
    have argsLt := Instance.sizeOf_args_lt_of_commonBase? found
    have baseFit := Instance.fits_of_mem_ancestry raised sFit
      (Instance.commonBase?_eq_some found).1
    have viewFit := Instance.fits_of_view? raised tFit (Instance.view?_commonBase_right found)
    obtain ⟨-, baseCount, baseArgs⟩ := Instance.fits_iff.mp baseFit
    obtain ⟨-, viewCount, viewArgs⟩ := Instance.fits_iff.mp viewFit
    rw [Instance.cls_eq_of_commonBase? lawful.linked sHeld tHeld found] at viewCount
    have lengths : a.args.length = view.args.length := by omega
    rw [if_pos lengths]
    exact Instance.commonBase_join_iff lawful sHeld tHeld found cFit
      (Ty.joinAll_below_iff lawful lengths baseArgs viewArgs)
termination_by sizeOf s + sizeOf t

theorem Ty.joinAll_below_iff {u : Universe} (lawful : u.Lawful .plain) {as bs cs : List Ty}
    (lengths : as.length = bs.length) (aFit : Ty.allFit u .raised as)
    (bFit : Ty.allFit u .raised bs) (cFit : Ty.allFit u .anchored cs) :
    List.Forall₂ (Ty.Below true) (Ty.joinAll as bs) cs ↔
      List.Forall₂ (Ty.Below true) as cs ∧ List.Forall₂ (Ty.Below true) bs cs := by
  match as, bs, cs with
  | [], [], _ => simp [Ty.joinAll]
  | a :: as, b :: bs, [] => simp [Ty.joinAll]
  | a :: as, b :: bs, c :: cs =>
      obtain ⟨aHead, aTail⟩ := Ty.allFit_cons_iff.mp aFit
      obtain ⟨bHead, bTail⟩ := Ty.allFit_cons_iff.mp bFit
      obtain ⟨cHead, cTail⟩ := Ty.allFit_cons_iff.mp cFit
      rw [Ty.joinAll, List.forall₂_cons, List.forall₂_cons, List.forall₂_cons,
        Ty.join_below_iff lawful aHead bHead cHead,
        Ty.joinAll_below_iff lawful (Nat.succ.inj lengths) aTail bTail cTail]
      tauto
termination_by sizeOf as + sizeOf bs

/-- A meet is the greatest lower bound. -/
theorem Ty.below_meet_iff {u : Universe} (lawful : u.Lawful .plain) {a b c : Ty}
    (aFit : a.fits u .lowered) (bFit : b.fits u .lowered) (cFit : c.fits u .anchored) :
    Ty.Below true c (a.meet b) ↔ Ty.Below true c a ∧ Ty.Below true c b := by
  have loose := lawful.widen (Dialect.within_any _)
  have aLoose := Ty.fits_widen (Dialect.within_any _) aFit
  have bLoose := Ty.fits_widen (Dialect.within_any _) bFit
  have compared := fun settled : Ty.Settled u a b =>
    settled.below_lesser_iff loose aLoose bLoose cFit
  match a, b with
  | .inst s, .inst t =>
      obtain ⟨sHeld, sCount, sArgs⟩ := Instance.fits_iff.mp aFit
      obtain ⟨tHeld, tCount, tArgs⟩ := Instance.fits_iff.mp bFit
      rw [Ty.meet]
      split
      · rename_i alike
        obtain ⟨names, lengths⟩ : s.name = t.name ∧ s.args.length = t.args.length := by
          simpa using alike
        have argsLt := s.sizeOf_args_lt
        have argsLt' := t.sizeOf_args_lt
        exact Instance.below_met_args_iff lawful names cFit
          (Ty.below_meetAll_iff lawful lengths sArgs tArgs)
      · rename_i unlike
        refine compared (.inst lawful aFit bFit ?_)
        intro names
        have classes := Universe.eq_of_holds sHeld tHeld names
        have lengths : s.args.length = t.args.length := by
          rw [classes] at sCount
          omega
        simp [names, lengths] at unlike
  | .callable params result fallback, .callable params' result' fallback' =>
      obtain ⟨aParams, aResult, -, -⟩ := Ty.fits_callable_iff.mp aFit
      obtain ⟨bParams, bResult, -, -⟩ := Ty.fits_callable_iff.mp bFit
      obtain ⟨anchors, lengths⟩ := Ty.similar_callables_iff (by decide) aFit bFit
      rw [Ty.meet]
      split
      · rename_i similar
        exact Ty.callable_meet_iff anchors cFit
          (Ty.joinAll_below_iff lawful (lengths.mp similar) aParams bParams)
          (Ty.below_meet_iff lawful aResult bResult)
      · rename_i dissimilar
        exact compared (.callable aFit bFit (mt lengths.mpr dissimilar))
  | .tuple items fallback, .tuple items' fallback' =>
      obtain ⟨aItems, -, -⟩ := Ty.fits_tuple_iff.mp aFit
      obtain ⟨bItems, -, -⟩ := Ty.fits_tuple_iff.mp bFit
      obtain ⟨anchors, lengths⟩ := Ty.similar_tuples_iff (by decide) aFit bFit
      rw [Ty.meet]
      split
      · rename_i similar
        exact Ty.tuple_meet_iff anchors cFit
          (Ty.below_meetAll_iff lawful (lengths.mp similar) aItems bItems)
      · rename_i dissimilar
        exact compared (.tuple aFit bFit (mt lengths.mpr dissimilar))
  | .inst _, .callable .. =>
      simp only [Ty.meet]
      exact compared (Ty.Settled.callable_inst lawful bFit aFit).symm
  | .inst _, .tuple .. =>
      simp only [Ty.meet]
      exact compared (Ty.Settled.tuple_inst lawful bFit aFit).symm
  | .callable .., .inst _ =>
      simp only [Ty.meet]
      exact compared (.callable_inst lawful aFit bFit)
  | .tuple .., .inst _ =>
      simp only [Ty.meet]
      exact compared (.tuple_inst lawful aFit bFit)
  | .callable .., .tuple .. =>
      simp only [Ty.meet]
      exact compared (.callable_tuple aFit bFit)
  | .tuple .., .callable .. =>
      simp only [Ty.meet]
      exact compared (Ty.Settled.callable_tuple bFit aFit).symm
  | .void, _ | .dynamic, _ | .error, _ => cases aFit
  | _, .void | _, .dynamic | _, .error => cases bFit
  | .bottom, b =>
      have live : b ≠ .void ∧ b ≠ .dynamic ∧ b ≠ .error := by
        refine ⟨?_, ?_, ?_⟩ <;> · rintro rfl; cases bFit
      rw [Ty.bottom_meet live.1 live.2.1 live.2.2]
      exact (and_iff_left_of_imp .of_bottom).symm
  | a, .bottom =>
      have live : a ≠ .void ∧ a ≠ .dynamic ∧ a ≠ .error := by
        refine ⟨?_, ?_, ?_⟩ <;> · rintro rfl; cases aFit
      rw [Ty.meet_bottom live.1 live.2.1 live.2.2]
      exact (and_iff_right_of_imp .of_bottom).symm
termination_by sizeOf a + sizeOf b

theorem Ty.below_meetAll_iff {u : Universe} (lawful : u.Lawful .plain) {as bs cs : List Ty}
    (lengths : as.length = bs.length) (aFit : Ty.allFit u .lowered as)
    (bFit : Ty.allFit u .lowered bs) (cFit : Ty.allFit u .anchored cs) :
    List.Forall₂ (Ty.Below true) cs (Ty.meetAll as bs) ↔
      List.Forall₂ (Ty.Below true) cs as ∧ List.Forall₂ (Ty.Below true) cs bs := by
  match as, bs, cs with
  | [], [], _ => simp [Ty.meetAll]
  | a :: as, b :: bs, [] => simp [Ty.meetAll]
  | a :: as, b :: bs, c :: cs =>
      obtain ⟨aHead, aTail⟩ := Ty.allFit_cons_iff.mp aFit
      obtain ⟨bHead, bTail⟩ := Ty.allFit_cons_iff.mp bFit
      obtain ⟨cHead, cTail⟩ := Ty.allFit_cons_iff.mp cFit
      rw [Ty.meetAll, List.forall₂_cons, List.forall₂_cons, List.forall₂_cons,
        Ty.below_meet_iff lawful aHead bHead cHead,
        Ty.below_meetAll_iff lawful (Nat.succ.inj lengths) aTail bTail cTail]
      tauto
termination_by sizeOf as + sizeOf bs
end

section Plain

variable {u : Universe}

theorem Dialect.joinable_plain (lawful : u.Lawful .plain) (rooted : u.Rooted) :
    Dialect.plain.Joinable u :=
  ⟨lawful, rfl, .inr rooted⟩

theorem Dialect.joinable_raised (lawful : u.Lawful .plain) : Dialect.raised.Joinable u :=
  ⟨lawful.widen (Dialect.plain_within _), rfl, .inl rfl⟩

theorem Ty.isSubtype_iff_of_plain (lawful : u.Lawful .plain) {a b : Ty} (aPlain : a.fits u .plain)
    (bPlain : b.fits u .plain) : a.isSubtype b ↔ Ty.Below true a b :=
  Ty.isSubtype_iff_below (Ty.comparable_plain lawful) aPlain
    (Ty.fits_widen (Dialect.plain_within _) bPlain)

theorem Ty.isSubtype_refl_of_plain (lawful : u.Lawful .plain) {a : Ty} (plain : a.fits u .plain) :
    a.isSubtype a :=
  (Ty.isSubtype_iff_of_plain lawful plain plain).mpr (.refl true rfl plain)

theorem Ty.isSubtype_trans_of_plain (lawful : u.Lawful .plain) {a b c : Ty}
    (aPlain : a.fits u .plain) (bPlain : b.fits u .plain) (cPlain : c.fits u .plain)
    (first : a.isSubtype b) (second : b.isSubtype c) : a.isSubtype c := by
  rw [Ty.isSubtype_iff_of_plain lawful aPlain bPlain] at first
  rw [Ty.isSubtype_iff_of_plain lawful bPlain cPlain] at second
  rw [Ty.isSubtype_iff_of_plain lawful aPlain cPlain]
  have loose {t : Ty} (plain : t.fits u .plain) : t.fits u .any :=
    Ty.fits_widen (Dialect.plain_within _) plain
  exact first.trans (lawful.widen (Dialect.plain_within _)) (loose aPlain) (loose bPlain)
    (loose cPlain) second

variable (lawful : u.Lawful .plain) (rooted : u.Rooted) {a b c : Ty} (aPlain : a.fits u .plain)
  (bPlain : b.fits u .plain)

include lawful rooted aPlain bPlain

theorem Ty.join_plain : (a.join b).fits u .plain :=
  Ty.join_fits (Dialect.joinable_plain lawful rooted) aPlain bPlain

theorem Ty.meet_plain : (a.meet b).fits u .plain :=
  Ty.meet_fits (Dialect.joinable_plain lawful rooted) aPlain bPlain

variable (cPlain : c.fits u .plain)

include cPlain

theorem Ty.join_isSubtype_iff : (a.join b).isSubtype c ↔ a.isSubtype c ∧ b.isSubtype c := by
  rw [Ty.isSubtype_iff_of_plain lawful (Ty.join_plain lawful rooted aPlain bPlain) cPlain,
    Ty.isSubtype_iff_of_plain lawful aPlain cPlain, Ty.isSubtype_iff_of_plain lawful bPlain cPlain]
  exact Ty.join_below_iff lawful (Ty.fits_widen (Dialect.plain_within _) aPlain)
    (Ty.fits_widen (Dialect.plain_within _) bPlain) (Ty.fits_widen (Dialect.plain_within _) cPlain)

theorem Ty.isSubtype_meet_iff : c.isSubtype (a.meet b) ↔ c.isSubtype a ∧ c.isSubtype b := by
  rw [Ty.isSubtype_iff_of_plain lawful cPlain (Ty.meet_plain lawful rooted aPlain bPlain),
    Ty.isSubtype_iff_of_plain lawful cPlain aPlain, Ty.isSubtype_iff_of_plain lawful cPlain bPlain]
  exact Ty.below_meet_iff lawful (Ty.fits_widen (Dialect.plain_within _) aPlain)
    (Ty.fits_widen (Dialect.plain_within _) bPlain) (Ty.fits_widen (Dialect.plain_within _) cPlain)

end Plain

/-- Below one root, joins and meets of plain types are plain and extremal in the order that the
    subtype test decides. -/
theorem Universe.Built.extremal {u : Universe} (built : u.Built .plain false) {a b c : Ty}
    (aPlain : a.fits u .plain) (bPlain : b.fits u .plain) (cPlain : c.fits u .plain) :
    (a.join b).fits u .plain ∧ (a.meet b).fits u .plain ∧
      ((a.join b).isSubtype c ↔ a.isSubtype c ∧ b.isSubtype c) ∧
        (c.isSubtype (a.meet b) ↔ c.isSubtype a ∧ c.isSubtype b) :=
  ⟨Ty.join_plain built.lawful built.rooted aPlain bPlain,
    Ty.meet_plain built.lawful built.rooted aPlain bPlain,
    Ty.join_isSubtype_iff built.lawful built.rooted aPlain bPlain cPlain,
    Ty.isSubtype_meet_iff built.lawful built.rooted aPlain bPlain cPlain⟩

open Sample in
/-- Functions on a subclass of the lists of integers and on lists of booleans: their join takes
    what both take, and a class stands for its base. -/
theorem extremal_world :
    let a := function (one intList) (listOf (one Builtin.bool))
    let b := function (listOf (one Builtin.bool)) (one intList)
    let c := function .bottom (listOf (one Builtin.int))
    (world.Built .plain false ∧ a.fits world .plain ∧ b.fits world .plain ∧ c.fits world .plain) ∧
      (a.join b).fits world .plain ∧ (a.meet b).fits world .plain ∧
        ((a.join b).isSubtype c ↔ a.isSubtype c ∧ b.isSubtype c) ∧
          (c.isSubtype (a.meet b) ↔ c.isSubtype a ∧ c.isSubtype b) := by
  intro a b c
  have plain : ∀ t ∈ [a, b, c], t.fits world .plain := by decide +kernel
  have aPlain : a.fits world .plain := plain a (by simp)
  have bPlain : b.fits world .plain := plain b (by simp)
  have cPlain : c.fits world .plain := plain c (by simp)
  exact ⟨⟨built_world, aPlain, bPlain, cPlain⟩, built_world.extremal aPlain bPlain cPlain⟩

end TypeBounds
