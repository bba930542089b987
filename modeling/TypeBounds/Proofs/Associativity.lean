import TypeBounds.Proofs.Meeting
import TypeBounds.Proofs.PartialOrder

/-! # When joins and meets are associative

Of two types that do not meet part by part the lesser one is their meet, and which is
the lesser is found by comparing base arguments. With `dynamic` around, such a
comparison is not transitive, and then it matters which two of three types meet first.
Joins and meets are associative on all types exactly if there is nothing to compare:
if base arguments are `dynamic` or `bottom`, which are below everything.
-/

namespace TypeBounds

theorem Ty.Absorbing.assoc {op : Ty → Ty → Ty} (absorbing : Ty.Absorbing op) {a b c : Ty}
    (special : ∃ t ∈ [a, b, c], t = .dynamic ∨ t = .error ∨ t = .void) :
    op (op a b) c = op a (op b c) := by
  by_cases aLive : a = .dynamic
  · simp only [aLive, absorbing.dynamic_left]
  by_cases bLive : b = .dynamic
  · simp only [bLive, absorbing.dynamic_left, absorbing.dynamic_right]
  by_cases cLive : c = .dynamic
  · simp only [cLive, absorbing.dynamic_right]
  have left := absorbing.live a b aLive bLive
  have right := absorbing.live b c bLive cLive
  by_cases aSound : a = .error
  · rw [aSound, absorbing.error_left b bLive, absorbing.error_left c cLive,
      absorbing.error_left _ right]
  by_cases bSound : b = .error
  · rw [bSound, absorbing.error_right a aLive, absorbing.error_left c cLive,
      absorbing.error_right a aLive]
  by_cases cSound : c = .error
  · rw [cSound, absorbing.error_right _ left, absorbing.error_right b bLive,
      absorbing.error_right a aLive]
  by_cases aVoid : a = .void
  · by_cases bVoid : b = .void
    · by_cases cVoid : c = .void
      · rw [aVoid, bVoid, cVoid, absorbing.void]
      · rw [aVoid, bVoid, absorbing.void, absorbing.void_left c cLive cVoid,
          absorbing.error_right _ (by simp)]
    · rw [aVoid, absorbing.void_left b bLive bVoid, absorbing.error_left c cLive,
        absorbing.void_left _ right (absorbing.solid b c bVoid)]
  · by_cases bVoid : b = .void
    · rw [bVoid, absorbing.void_right a aLive aVoid, absorbing.error_left c cLive]
      by_cases cVoid : c = .void
      · rw [cVoid, absorbing.void, absorbing.void_right a aLive aVoid]
      · rw [absorbing.void_left c cLive cVoid, absorbing.error_right a aLive]
    · have cVoid : c = .void := by
        simpa [aLive, bLive, cLive, aSound, bSound, cSound, aVoid, bVoid] using special
      rw [cVoid, absorbing.void_right _ left (absorbing.solid a b aVoid),
        absorbing.void_right b bLive bVoid, absorbing.error_right a aLive]

theorem Ty.Ordinary.eq_bottom_or_nominal {t : Ty} (ordinary : t.Ordinary) :
    t = .bottom ∨ ∃ s, t.nominal? = some s := by
  cases t with
  | inst | callable | tuple => exact .inr ⟨_, rfl⟩
  | bottom => exact .inl rfl
  | void | dynamic | error => simp [Ordinary] at ordinary

theorem Ty.Ordinary.meet {a b : Ty} (left : a.Ordinary) (right : b.Ordinary) :
    (a.meet b).Ordinary := by
  refine ⟨Ty.absorbing_meet.solid a b left.1, Ty.absorbing_meet.live a b left.2.1 right.2.1, ?_⟩
  obtain ⟨aVoid, -, aSound⟩ := left
  obtain ⟨bVoid, -, bSound⟩ := right
  cases a <;> cases b <;> simp_all only [Ty.meet, ne_eq] <;> grind [Ty.lesser_eq]

theorem Ty.Ordinary.bottom_meet {t : Ty} (ordinary : t.Ordinary) : Ty.bottom.meet t = .bottom :=
  Ty.bottom_meet ordinary.1 ordinary.2.1 ordinary.2.2

theorem Ty.Ordinary.meet_bottom {t : Ty} (ordinary : t.Ordinary) : t.meet .bottom = .bottom :=
  Ty.meet_bottom ordinary.1 ordinary.2.1 ordinary.2.2

theorem Ty.join_assoc_of_bottom {a b c : Ty} (present : .bottom ∈ [a, b, c])
    (aOrdinary : a.Ordinary) (bOrdinary : b.Ordinary) (cOrdinary : c.Ordinary) :
    (a.join b).join c = a.join (b.join c) := by
  simp only [List.mem_cons, List.not_mem_nil, or_false] at present
  rcases present with rfl | rfl | rfl
  · rw [Ty.bottom_join bOrdinary.1, Ty.bottom_join (Ty.absorbing_join.solid b c bOrdinary.1)]
  · rw [Ty.join_bottom aOrdinary.1, Ty.bottom_join cOrdinary.1]
  · rw [Ty.join_bottom (Ty.absorbing_join.solid a b aOrdinary.1), Ty.join_bottom bOrdinary.1]

theorem Ty.meet_assoc_of_bottom {a b c : Ty} (present : .bottom ∈ [a, b, c])
    (aOrdinary : a.Ordinary) (bOrdinary : b.Ordinary) (cOrdinary : c.Ordinary) :
    (a.meet b).meet c = a.meet (b.meet c) := by
  simp only [List.mem_cons, List.not_mem_nil, or_false] at present
  rcases present with rfl | rfl | rfl
  · rw [bOrdinary.bottom_meet, cOrdinary.bottom_meet, (bOrdinary.meet cOrdinary).bottom_meet]
  · rw [aOrdinary.meet_bottom, cOrdinary.bottom_meet, aOrdinary.meet_bottom]
  · rw [(aOrdinary.meet bOrdinary).meet_bottom, bOrdinary.meet_bottom, aOrdinary.meet_bottom]

/-- Special types and `bottom` never depend on which two meet or join first. -/
theorem Ty.Absorbing.assoc_of_nominal {op : Ty → Ty → Ty} (absorbing : Ty.Absorbing op)
    (ofBottom : ∀ {a b c : Ty}, .bottom ∈ [a, b, c] → a.Ordinary → b.Ordinary → c.Ordinary →
      op (op a b) c = op a (op b c)) {a b c : Ty}
    (ofNominal : ∀ {s t r}, a.nominal? = some s → b.nominal? = some t → c.nominal? = some r →
      op (op a b) c = op a (op b c)) : op (op a b) c = op a (op b c) := by
  by_cases special : ∃ t ∈ [a, b, c], t = .dynamic ∨ t = .error ∨ t = .void
  · exact absorbing.assoc special
  · have ordinary : ∀ t ∈ [a, b, c], t.Ordinary := by
      intro t member
      refine ⟨?_, ?_, ?_⟩ <;>
      · intro eq
        exact special ⟨t, member, by simp [eq]⟩
    have aOrdinary := ordinary a (by simp)
    have bOrdinary := ordinary b (by simp)
    have cOrdinary := ordinary c (by simp)
    by_cases bottom : .bottom ∈ [a, b, c]
    · exact ofBottom bottom aOrdinary bOrdinary cOrdinary
    · simp only [List.mem_cons, List.not_mem_nil, or_false, not_or] at bottom
      obtain ⟨s, ofA⟩ := aOrdinary.eq_bottom_or_nominal.resolve_left (Ne.symm bottom.1)
      obtain ⟨t, ofB⟩ := bOrdinary.eq_bottom_or_nominal.resolve_left (Ne.symm bottom.2.1)
      obtain ⟨r, ofC⟩ := cOrdinary.eq_bottom_or_nominal.resolve_left (Ne.symm bottom.2.2)
      exact ofNominal ofA ofB ofC

section Bare

variable {u : Universe} (linked : u.Linked) {s t : Instance} (sHeaded : s.Headed u)
  (bare : ∀ {n v}, s.view? n = some v → v.args = [])

include linked sHeaded bare

theorem Instance.join_comm_of_bare (tHeaded : t.Headed u) : s.join t = t.join s := by
  rcases nearest_or_apart linked sHeaded.1 t with ⟨a, view, nearest⟩ | apart
  · have classes := nearest.cls_eq linked sHeaded.1 tHeaded.1
    have swapped := nearest.symm linked sHeaded.1 tHeaded.1
    have empty : ∀ ts, Ty.joinAll [] ts = Ty.joinAll ts [] := by
      intro ts
      cases ts <;> simp [Ty.joinAll]
    rw [nearest.join_eq linked sHeaded tHeaded, swapped.join_eq linked tHeaded sHeaded, joined,
      joined, bare nearest.left, classes, empty]
  · rw [join_eq_error apart, join_eq_error fun left right => apart right left]

theorem Instance.join_self_of_bare : s.join s = .inst s := by
  have nearest : Nearest s s s s := .of_view? s.view?_self
  have args := bare s.view?_self
  rw [nearest.join_eq linked sHeaded sHeaded, joined, args, Ty.joinAll]
  · cases s
    cases args
    rfl
  · simp

end Bare

theorem Instance.headed_join {u : Universe} (linked : u.Linked) {s t : Instance}
    (sHeaded : s.Headed u) (tHeaded : t.Headed u) :
    s.join t = .error ∨ ∃ j, s.join t = .inst j ∧ j.Headed u := by
  rcases nearest_or_apart linked sHeaded.1 t with ⟨a, view, nearest⟩ | apart
  · exact .inr ⟨_, nearest.join_eq linked sHeaded tHeaded,
      nearest.headed_joined linked sHeaded tHeaded⟩
  · exact .inl (join_eq_error apart)

namespace Ty

theorem Matching.symm {a b : Ty} (matching : a.Matching b) : b.Matching a := by
  cases a <;> cases b <;> simp_all [Matching]

theorem Matching.trans {a b c : Ty} (first : a.Matching b) (second : b.Matching c) :
    a.Matching c := by
  cases a <;> cases b <;> cases c <;> simp_all [Matching]

section Headed

variable {u : Universe} {a b c : Ty} {s t r : Instance} (aHeaded : a.Headed u)
  (bHeaded : b.Headed u) (cHeaded : c.Headed u)

include aHeaded bHeaded

theorem Matching.join (matching : a.Matching b) :
    (a.join b).Matching b ∧ (a.join b).Headed u ∧ a.nominal? = b.nominal? ∧
      (a.join b).nominal? = b.nominal? := by
  cases a with
  | callable params result fallback =>
      cases b with
      | callable params' result' fallback' =>
          have lengths : params.length = params'.length := matching
          rw [Ty.join, if_pos ((Ty.similar_iff aHeaded bHeaded).2.mpr lengths)]
          refine ⟨?_, bHeaded, congrArg some (Eq.trans aHeaded (Eq.symm bHeaded)), rfl⟩
          show (Ty.meetAll params params').length = params'.length
          rw [Ty.length_meetAll, lengths, Nat.min_self]
      | inst | tuple | void | dynamic | bottom | error => cases matching
  | tuple items fallback =>
      cases b with
      | tuple items' fallback' =>
          have lengths : items.length = items'.length := matching
          rw [Ty.join, if_pos ((Ty.similar_iff aHeaded bHeaded).2.mpr lengths)]
          refine ⟨?_, bHeaded, congrArg some (Eq.trans aHeaded (Eq.symm bHeaded)), rfl⟩
          show (Ty.joinAll items items').length = items'.length
          rw [Ty.length_joinAll, lengths, Nat.min_self]
      | inst | callable | void | dynamic | bottom | error => cases matching
  | inst | void | dynamic | bottom | error => cases matching

variable (lawful : u.Lawful .anchored) (ofA : a.nominal? = some s) (ofB : b.nominal? = some t)
  (ofC : c.nominal? = some r)

include lawful ofA ofB

theorem join_eq_nominal (other : ¬ a.Matching b) : a.join b = s.join t := by
  have sHeaded := aHeaded.of_nominal lawful ofA
  have tHeaded := bHeaded.of_nominal lawful ofB
  cases a with
  | inst =>
      cases ofA
      cases b with
      | inst =>
          cases ofB
          rw [Ty.join]
      | callable =>
          cases ofB
          rw [Ty.join]
          exact Instance.join_comm_of_bare lawful.linked tHeaded (bare_of_anchor (.inl bHeaded))
            sHeaded
      | tuple =>
          cases ofB
          rw [Ty.join]
          exact Instance.join_comm_of_bare lawful.linked tHeaded (bare_of_anchor (.inr bHeaded))
            sHeaded
      | void | dynamic | bottom | error => cases ofB
  | callable =>
      cases ofA
      cases b with
      | inst | tuple =>
          cases ofB
          rw [Ty.join]
      | callable =>
          cases ofB
          rw [Ty.join, if_neg fun similar =>
            other ((Ty.similar_iff aHeaded bHeaded).2.mp similar)]
      | void | dynamic | bottom | error => cases ofB
  | tuple =>
      cases ofA
      cases b with
      | inst | callable =>
          cases ofB
          rw [Ty.join]
      | tuple =>
          cases ofB
          rw [Ty.join, if_neg fun similar =>
            other ((Ty.similar_iff aHeaded bHeaded).2.mp similar)]
      | void | dynamic | bottom | error => cases ofB
  | void | dynamic | bottom | error => cases ofA

theorem Matching.anchor (matching : a.Matching b) : s = t ∧ t.join t = .inst t := by
  have tHeaded := bHeaded.of_nominal lawful ofB
  obtain ⟨-, -, nominals, -⟩ := matching.join aHeaded bHeaded
  have bare : ∀ {n v}, t.view? n = some v → v.args = [] := by
    cases b with
    | callable =>
        cases ofB
        exact bare_of_anchor (.inl bHeaded)
    | tuple =>
        cases ofB
        exact bare_of_anchor (.inr bHeaded)
    | inst | void | dynamic | bottom | error => cases a <;> cases matching
  rw [ofA, ofB] at nominals
  exact ⟨Option.some.inj nominals, Instance.join_self_of_bare lawful.linked tHeaded bare⟩

include cHeaded ofC

theorem join_join_left (other : ¬ (a.Matching b ∧ b.Matching c)) :
    (a.join b).join c = (s.join t).join (.inst r) := by
  have sHeaded := aHeaded.of_nominal lawful ofA
  have tHeaded := bHeaded.of_nominal lawful ofB
  by_cases matching : a.Matching b
  · obtain ⟨kind, headed, -, nominal⟩ := matching.join aHeaded bHeaded
    obtain ⟨rfl, self⟩ := matching.anchor aHeaded bHeaded lawful ofA ofB
    rw [join_eq_nominal headed cHeaded lawful (nominal.trans ofB) ofC
      fun also => other ⟨matching, kind.symm.trans also⟩, self, Ty.join]
  · rw [join_eq_nominal aHeaded bHeaded lawful ofA ofB matching]
    rcases Instance.headed_join lawful.linked sHeaded tHeaded with failed | ⟨j, joined, headed⟩
    · have live : c ≠ .dynamic := by
        rintro rfl
        cases ofC
      rw [failed, absorbing_join.error_left c live, absorbing_join.error_left _ (by simp)]
    · rw [joined, join_eq_nominal (a := .inst j) headed cHeaded lawful rfl ofC (by simp [Matching]),
        Ty.join]

theorem join_join_right (other : ¬ (a.Matching b ∧ b.Matching c)) :
    a.join (b.join c) = (Ty.inst s).join (t.join r) := by
  have tHeaded := bHeaded.of_nominal lawful ofB
  have rHeaded := cHeaded.of_nominal lawful ofC
  by_cases matching : b.Matching c
  · obtain ⟨kind, headed, -, nominal⟩ := matching.join bHeaded cHeaded
    obtain ⟨rfl, self⟩ := matching.anchor bHeaded cHeaded lawful ofB ofC
    rw [join_eq_nominal aHeaded headed lawful ofA (nominal.trans ofC)
      fun also => other ⟨also.trans (kind.trans matching.symm), matching⟩, self, Ty.join]
  · rw [join_eq_nominal bHeaded cHeaded lawful ofB ofC matching]
    rcases Instance.headed_join lawful.linked tHeaded rHeaded with failed | ⟨j, joined, headed⟩
    · have live : a ≠ .dynamic := by
        rintro rfl
        cases ofA
      rw [failed, absorbing_join.error_right a live, absorbing_join.error_right _ (by simp)]
    · rw [joined, join_eq_nominal (b := .inst j) aHeaded headed lawful ofA rfl
        (by cases a <;> simp [Matching]), Ty.join]

end Headed

end Ty

theorem Ty.sizeOf_nominal_lt {t : Ty} {s : Instance} (nominal : t.nominal? = some s) :
    sizeOf s < sizeOf t := by
  cases t <;> cases nominal <;> simp +arith

namespace Builtin

variable {params params' items items' : List Ty} {result result' : Ty}

theorem callable_join (lengths : params.length = params'.length) :
    (Ty.callable params result anchors.function).join (.callable params' result' anchors.function) =
      .callable (Ty.meetAll params params') (result.join result') anchors.function := by
  simp [Ty.join, Ty.similar, lengths, Instance.same_refl]

theorem tuple_join (lengths : items.length = items'.length) :
    (Ty.tuple items anchors.tuple).join (.tuple items' anchors.tuple) =
      .tuple (Ty.joinAll items items') anchors.tuple := by
  simp [Ty.join, Ty.similar, lengths, Instance.same_refl]

theorem callable_meet (lengths : params.length = params'.length) :
    (Ty.callable params result anchors.function).meet (.callable params' result' anchors.function) =
      .callable (Ty.joinAll params params') (result.meet result') anchors.function := by
  simp [Ty.meet, Ty.similar, lengths, Instance.same_refl]

theorem tuple_meet (lengths : items.length = items'.length) :
    (Ty.tuple items anchors.tuple).meet (.tuple items' anchors.tuple) =
      .tuple (Ty.meetAll items items') anchors.tuple := by
  simp [Ty.meet, Ty.similar, lengths, Instance.same_refl]

end Builtin

theorem Instance.meet_of_name_eq {s t : Instance} (names : s.name = t.name)
    (lengths : s.args.length = t.args.length) :
    (Ty.inst s).meet (.inst t) = .inst ⟨s.cls, Ty.meetAll s.args t.args⟩ := by
  simp [Ty.meet, names, lengths]

mutual
theorem Ty.join_assoc {u : Universe} (lawful : u.Lawful .anchored) (loose : u.Loose) {a b c : Ty}
    (aFit : a.fits u .anchored) (bFit : b.fits u .anchored) (cFit : c.fits u .anchored) :
    (a.join b).join c = a.join (b.join c) := by
  apply Ty.absorbing_join.assoc_of_nominal Ty.join_assoc_of_bottom
  intro s t r ofA ofB ofC
  have aHeaded := Ty.headed_of_fits aFit ofA
  have bHeaded := Ty.headed_of_fits bFit ofB
  have cHeaded := Ty.headed_of_fits cFit ofC
  by_cases matching : a.Matching b ∧ b.Matching c
  · match a, b, c with
    | .callable ps x f, .callable qs y g, .callable rs z h =>
        obtain ⟨psFit, xFit, -⟩ := Ty.fits_callable_iff.mp aFit
        obtain ⟨qsFit, yFit, -⟩ := Ty.fits_callable_iff.mp bFit
        obtain ⟨rsFit, zFit, -⟩ := Ty.fits_callable_iff.mp cFit
        obtain rfl : f = Builtin.anchors.function := aHeaded
        obtain rfl : g = Builtin.anchors.function := bHeaded
        obtain rfl : h = Builtin.anchors.function := cHeaded
        have first : ps.length = qs.length := matching.1
        have second : qs.length = rs.length := matching.2
        rw [Builtin.callable_join first, Builtin.callable_join second,
          Builtin.callable_join (by simp [Ty.length_meetAll, first, second]),
          Builtin.callable_join (by simp [Ty.length_meetAll, first, second]),
          Ty.meetAll_assoc lawful loose psFit qsFit rsFit,
          Ty.join_assoc lawful loose xFit yFit zFit]
    | .tuple ps f, .tuple qs g, .tuple rs h =>
        obtain ⟨psFit, -⟩ := Ty.fits_tuple_iff.mp aFit
        obtain ⟨qsFit, -⟩ := Ty.fits_tuple_iff.mp bFit
        obtain ⟨rsFit, -⟩ := Ty.fits_tuple_iff.mp cFit
        obtain rfl : f = Builtin.anchors.tuple := aHeaded
        obtain rfl : g = Builtin.anchors.tuple := bHeaded
        obtain rfl : h = Builtin.anchors.tuple := cHeaded
        have first : ps.length = qs.length := matching.1
        have second : qs.length = rs.length := matching.2
        rw [Builtin.tuple_join first, Builtin.tuple_join second,
          Builtin.tuple_join (by simp [Ty.length_joinAll, first, second]),
          Builtin.tuple_join (by simp [Ty.length_joinAll, first, second]),
          Ty.joinAll_assoc lawful loose psFit qsFit rsFit]
  · have sFit := Ty.nominal_fits aFit ofA
    have tFit := Ty.nominal_fits bFit ofB
    have rFit := Ty.nominal_fits cFit ofC
    rw [Ty.join_join_left aHeaded bHeaded cHeaded lawful ofA ofB ofC matching,
      Ty.join_join_right aHeaded bHeaded cHeaded lawful ofA ofB ofC matching]
    apply Instance.join_assoc_of_args lawful.linked loose (Instance.headed_of_fits sFit)
      (Instance.headed_of_fits tFit) (Instance.headed_of_fits rFit)
    intro n x y z sSees tSees rSees
    have xFit := (Instance.fits_iff.mp (Instance.fits_of_view? lawful sFit sSees)).2.2
    have yFit := (Instance.fits_iff.mp (Instance.fits_of_view? lawful tFit tSees)).2.2
    have zFit := (Instance.fits_iff.mp (Instance.fits_of_view? lawful rFit rSees)).2.2
    have xLt := (Instance.sizeOf_args_lt_of_view? sSees).trans (Ty.sizeOf_nominal_lt ofA)
    have yLt := (Instance.sizeOf_args_lt_of_view? tSees).trans (Ty.sizeOf_nominal_lt ofB)
    have zLt := (Instance.sizeOf_args_lt_of_view? rSees).trans (Ty.sizeOf_nominal_lt ofC)
    exact Ty.joinAll_assoc lawful loose xFit yFit zFit
termination_by sizeOf a + sizeOf b + sizeOf c

theorem Ty.joinAll_assoc {u : Universe} (lawful : u.Lawful .anchored) (loose : u.Loose)
    {as bs cs : List Ty} (aFit : Ty.allFit u .anchored as) (bFit : Ty.allFit u .anchored bs)
    (cFit : Ty.allFit u .anchored cs) :
    Ty.joinAll (Ty.joinAll as bs) cs = Ty.joinAll as (Ty.joinAll bs cs) := by
  match as, bs, cs with
  | [], _, _ | _ :: _, [], _ | _ :: _, _ :: _, [] => simp [Ty.joinAll]
  | a :: as, b :: bs, c :: cs =>
      obtain ⟨aHead, aTail⟩ := Ty.allFit_cons_iff.mp aFit
      obtain ⟨bHead, bTail⟩ := Ty.allFit_cons_iff.mp bFit
      obtain ⟨cHead, cTail⟩ := Ty.allFit_cons_iff.mp cFit
      simp only [Ty.joinAll, Ty.join_assoc lawful loose aHead bHead cHead,
        Ty.joinAll_assoc lawful loose aTail bTail cTail]
termination_by sizeOf as + sizeOf bs + sizeOf cs

theorem Ty.meet_assoc {u : Universe} (lawful : u.Lawful .anchored) (loose : u.Loose) {a b c : Ty}
    (aFit : a.fits u .anchored) (bFit : b.fits u .anchored) (cFit : c.fits u .anchored) :
    (a.meet b).meet c = a.meet (b.meet c) := by
  apply Ty.absorbing_meet.assoc_of_nominal Ty.meet_assoc_of_bottom
  intro s t r ofA ofB ofC
  have aHeaded := Ty.headed_of_fits aFit ofA
  have bHeaded := Ty.headed_of_fits bFit ofB
  have cHeaded := Ty.headed_of_fits cFit ofC
  apply Ty.meet_assoc_of_parts lawful loose aHeaded bHeaded cHeaded
  intro alike alike'
  match a, b, c with
  | .inst s, .inst t, .inst r =>
      obtain ⟨sHeld, -, sFit⟩ := Instance.fits_iff.mp aFit
      obtain ⟨tHeld, -, tFit⟩ := Instance.fits_iff.mp bFit
      obtain ⟨rHeld, -, rFit⟩ := Instance.fits_iff.mp cFit
      have names : s.name = t.name := alike
      have names' : t.name = r.name := alike'
      have first := aHeaded.length_eq bHeaded (Universe.eq_of_holds sHeld tHeld names)
      have second := bHeaded.length_eq cHeaded (Universe.eq_of_holds tHeld rHeld names')
      have sLt := s.sizeOf_args_lt
      have tLt := t.sizeOf_args_lt
      have rLt := r.sizeOf_args_lt
      rw [Instance.meet_of_name_eq names first, Instance.meet_of_name_eq names' second,
        Instance.meet_of_name_eq (s := ⟨s.cls, _⟩) (names.trans names')
          (by simp [Ty.length_meetAll, first, second]),
        Instance.meet_of_name_eq (t := ⟨t.cls, _⟩) names
          (by simp [Ty.length_meetAll, first, second]),
        Ty.meetAll_assoc lawful loose sFit tFit rFit]
  | .callable ps x f, .callable qs y g, .callable rs z h =>
      obtain ⟨psFit, xFit, -⟩ := Ty.fits_callable_iff.mp aFit
      obtain ⟨qsFit, yFit, -⟩ := Ty.fits_callable_iff.mp bFit
      obtain ⟨rsFit, zFit, -⟩ := Ty.fits_callable_iff.mp cFit
      obtain rfl : f = Builtin.anchors.function := aHeaded
      obtain rfl : g = Builtin.anchors.function := bHeaded
      obtain rfl : h = Builtin.anchors.function := cHeaded
      have first : ps.length = qs.length := alike
      have second : qs.length = rs.length := alike'
      rw [Builtin.callable_meet first, Builtin.callable_meet second,
        Builtin.callable_meet (by simp [Ty.length_joinAll, first, second]),
        Builtin.callable_meet (by simp [Ty.length_joinAll, first, second]),
        Ty.joinAll_assoc lawful loose psFit qsFit rsFit, Ty.meet_assoc lawful loose xFit yFit zFit]
  | .tuple ps f, .tuple qs g, .tuple rs h =>
      obtain ⟨psFit, -⟩ := Ty.fits_tuple_iff.mp aFit
      obtain ⟨qsFit, -⟩ := Ty.fits_tuple_iff.mp bFit
      obtain ⟨rsFit, -⟩ := Ty.fits_tuple_iff.mp cFit
      obtain rfl : f = Builtin.anchors.tuple := aHeaded
      obtain rfl : g = Builtin.anchors.tuple := bHeaded
      obtain rfl : h = Builtin.anchors.tuple := cHeaded
      have first : ps.length = qs.length := alike
      have second : qs.length = rs.length := alike'
      rw [Builtin.tuple_meet first, Builtin.tuple_meet second,
        Builtin.tuple_meet (by simp [Ty.length_meetAll, first, second]),
        Builtin.tuple_meet (by simp [Ty.length_meetAll, first, second]),
        Ty.meetAll_assoc lawful loose psFit qsFit rsFit]
termination_by sizeOf a + sizeOf b + sizeOf c

theorem Ty.meetAll_assoc {u : Universe} (lawful : u.Lawful .anchored) (loose : u.Loose)
    {as bs cs : List Ty} (aFit : Ty.allFit u .anchored as) (bFit : Ty.allFit u .anchored bs)
    (cFit : Ty.allFit u .anchored cs) :
    Ty.meetAll (Ty.meetAll as bs) cs = Ty.meetAll as (Ty.meetAll bs cs) := by
  match as, bs, cs with
  | [], _, _ | _ :: _, [], _ | _ :: _, _ :: _, [] => simp [Ty.meetAll]
  | a :: as, b :: bs, c :: cs =>
      obtain ⟨aHead, aTail⟩ := Ty.allFit_cons_iff.mp aFit
      obtain ⟨bHead, bTail⟩ := Ty.allFit_cons_iff.mp bFit
      obtain ⟨cHead, cTail⟩ := Ty.allFit_cons_iff.mp cFit
      simp only [Ty.meetAll, Ty.meet_assoc lawful loose aHead bHead cHead,
        Ty.meetAll_assoc lawful loose aTail bTail cTail]
termination_by sizeOf as + sizeOf bs + sizeOf cs
end

theorem Ty.allSubtypes_replicate_iff {ts : List Ty} {t : Ty} {n : Nat} (count : ts.length = n) :
    Ty.allSubtypes ts (List.replicate n t) ↔ ∀ x ∈ ts, x.isSubtype t := by
  induction ts generalizing n with
  | nil =>
      cases count
      simp [Ty.allSubtypes]
  | cons x ts ih =>
      cases count
      simp [List.replicate_succ, Ty.allSubtypes, ih rfl]

theorem Ty.meetAll_replicate (n : Nat) (s t : Ty) :
    Ty.meetAll (List.replicate n s) (List.replicate n t) = List.replicate n (s.meet t) := by
  induction n with
  | zero => simp [Ty.meetAll]
  | succ n ih => simp [List.replicate_succ, Ty.meetAll, ih]

theorem Ty.isSubtype_bottom_iff {t : Ty} : t.isSubtype .bottom ↔ t = .dynamic ∨ t = .bottom := by
  cases t <;> simp [Ty.isSubtype]

theorem Instance.view?_base {s b : Instance} (above : s.cls.base = some b)
    (other : s.name ≠ b.name) : s.view? b.name = some b := by
  obtain ⟨⟨serial, name, arity, base⟩, args⟩ := s
  obtain ⟨c, bArgs⟩ := b
  cases above
  simp [view?, ancestry, Class.bases, other]

theorem Universe.Grown.filled_isSubtype_iff {u : Universe} (grown : u.Grown) {c : Class}
    {b : Instance} (held : u.holds c) (above : c.base = some b) (s t : Ty) :
    (Ty.inst (c.filled s)).isSubtype (.inst (b.cls.filled t)) ↔ ∀ x ∈ b.args, x.isSubtype t := by
  have count : b.args.length = b.cls.arity.toNat := by
    have total := (grown.base_held held above).2.1
    omega
  have seen : (c.filled s).view? b.cls.name = some b :=
    Instance.view?_base above (grown.base_held held above).2.2
  rw [Ty.isSubtype, Instance.isSubtype_iff, ← Ty.allSubtypes_replicate_iff count]
  constructor
  · rintro ⟨v, seen', below⟩
    obtain rfl := Option.some.inj (seen.symm.trans seen')
    exact below
  · intro below
    exact ⟨b, seen, below⟩

/-- A class meets its base filled with `dynamic` in itself, but if that base meets one filled
    with `bottom` first the base arguments count. -/
theorem Universe.Grown.loose_of_assoc {u : Universe} (grown : u.Grown) {c : Class} {b : Instance}
    (held : u.holds c) (above : c.base = some b)
    (associative : ((((Ty.inst (c.filled .bottom)).meet (.inst (b.cls.filled .dynamic))).meet
        (.inst (b.cls.filled .bottom))).isEquivalent
      ((Ty.inst (c.filled .bottom)).meet
        ((Ty.inst (b.cls.filled .dynamic)).meet (.inst (b.cls.filled .bottom)))))) :
    ∀ x ∈ b.args, x = .dynamic ∨ x = .bottom := by
  have other := (grown.base_held held above).2.2
  have apart : ∀ s t, (Ty.inst (c.filled s)).meet (.inst (b.cls.filled t)) =
      Ty.lesser (.inst (c.filled s)) (.inst (b.cls.filled t)) := by
    intro s t
    simp [Ty.meet, Class.filled, Instance.name, other]
  have below : (Ty.inst (c.filled .bottom)).isSubtype (.inst (b.cls.filled .dynamic)) := by
    refine (grown.filled_isSubtype_iff held above _ _).mpr fun x _ => ?_
    cases x <;> simp [Ty.isSubtype]
  have first : (Ty.inst (c.filled .bottom)).meet (.inst (b.cls.filled .dynamic)) =
      .inst (c.filled .bottom) := by
    rw [apart, Ty.lesser, if_pos below]
  have second : (Ty.inst (b.cls.filled .dynamic)).meet (.inst (b.cls.filled .bottom)) =
      .inst (b.cls.filled .dynamic) := by
    simp [Ty.meet, Class.filled, Instance.name, Ty.meetAll_replicate]
  rw [first, second, first, Ty.isEquivalent, Bool.and_eq_true, apart] at associative
  have down : (Ty.inst (c.filled .bottom)).isSubtype (.inst (b.cls.filled .bottom)) := by
    by_contra notBelow
    have up := associative.2
    rw [Ty.lesser, if_neg notBelow] at up
    split at up
    · exact notBelow up
    · simp [Ty.isSubtype] at up
  intro x member
  exact Ty.isSubtype_bottom_iff.mp ((grown.filled_isSubtype_iff held above _ _).mp down x member)

/-- Whether it does not matter for three types that can be written which two are combined first. -/
def Universe.Associative (u : Universe) (op : Ty → Ty → Ty) : Prop :=
  ∀ a b c : Ty, a.fits u .written → b.fits u .written → c.fits u .written →
    (op (op a b) c).isEquivalent (op a (op b c))

theorem Universe.associative_of_eq {u : Universe} {op : Ty → Ty → Ty}
    (assoc : ∀ {a b c : Ty}, a.fits u .anchored → b.fits u .anchored → c.fits u .anchored →
      op (op a b) c = op a (op b c)) : u.Associative op := by
  intro a b c aFit bFit cFit
  have wider : Dialect.written.Within .anchored := by decide
  rw [assoc (Ty.fits_widen wider aFit) (Ty.fits_widen wider bFit) (Ty.fits_widen wider cFit)]
  exact Ty.isEquivalent_refl _

theorem Universe.Associative.loose {u : Universe} (grown : u.Grown)
    (meets : u.Associative Ty.meet) : u.Loose := by
  intro c b held above
  have baseHeld := (grown.base_held held above).1
  apply grown.loose_of_assoc held above
  exact meets _ _ _ (grown.filled_fits held rfl) (grown.filled_fits baseHeld rfl)
    (grown.filled_fits baseHeld rfl)

open Sample in
/-- The parameter of the join of two functions is the meet of theirs. -/
theorem Universe.Associative.meet_of_join {u : Universe} (grown : u.Grown)
    (joins : u.Associative Ty.join) : u.Associative Ty.meet := by
  intro a b c aFit bFit cFit
  have fit : ∀ {t : Ty}, t.fits u .written → (function t .bottom).fits u .written := fun fit =>
    Ty.fits_callable_iff.mpr
      ⟨Ty.allFit_cons_iff.mpr ⟨fit, rfl⟩, rfl, grown.anchors_fit.1, .inr rfl⟩
  have joined : ∀ s t, (function s .bottom).join (function t .bottom) =
      function (s.meet t) .bottom := by
    intro s t
    simp [function, Builtin.callable_join, Ty.bottom_join, Ty.meetAll]
  have equivalent := joins _ _ _ (fit aFit) (fit bFit) (fit cFit)
  rw [joined, joined, joined, joined] at equivalent
  simp only [function, Ty.isEquivalent, Ty.isSubtype, Ty.allSubtypes, Bool.and_eq_true]
    at equivalent ⊢
  obtain ⟨⟨⟨up, -⟩, -⟩, ⟨down, -⟩, -⟩ := equivalent
  exact ⟨down.1, up.1⟩

/-- Joins are associative exactly if base arguments are `dynamic` or `bottom`, and so are meets. -/
theorem Universe.Grown.associative_iff {u : Universe} (grown : u.Grown) :
    (u.Associative Ty.join ↔ u.Loose) ∧ (u.Associative Ty.meet ↔ u.Loose) := by
  refine ⟨⟨?_, ?_⟩, ?_, ?_⟩
  · intro joins
    exact (joins.meet_of_join grown).loose grown
  · intro loose
    exact associative_of_eq (Ty.join_assoc (grown.lawful_of_loose loose) loose)
  · intro meets
    exact meets.loose grown
  · intro loose
    exact associative_of_eq (Ty.meet_assoc (grown.lawful_of_loose loose) loose)

open Sample in
theorem associative_iff_worlds :
    (Universe.builtin.Grown ∧ Universe.builtin.Associative Ty.join ∧
        Universe.builtin.Associative Ty.meet) ∧
      world.Grown ∧ ¬ world.Associative Ty.join ∧ ¬ world.Associative Ty.meet := by
  have loose : Universe.builtin.Loose := by
    intro c b held above
    have all : ∀ c ∈ Builtin.classes, ∀ b ∈ c.base, b.args = [] := by decide
    simp [all c (Universe.mem_of_holds_builtin held) b above]
  have strict : ¬ world.Loose := by
    intro loose
    have args := loose intList _ (Universe.holds_iff.mpr rfl) rfl
    simp at args
  have built : world.Built .plain true := built_world
  obtain ⟨joins, meets⟩ := Universe.Grown.associative_iff .builtin
  obtain ⟨joins', meets'⟩ := built.grown.associative_iff
  exact ⟨⟨.builtin, joins.mpr loose, meets.mpr loose⟩, built.grown, mt joins'.mp strict,
    mt meets'.mp strict⟩

open Sample in
theorem meet_not_associative_intList :
    let a := one intList
    let b := listOf .dynamic
    let c := listOf .bottom
    (world.Grown ∧ ∀ t ∈ [a, b, c], t.fits world .written) ∧
      (a.meet b).meet c = .bottom ∧ a.meet (b.meet c) = a ∧
        ¬ ((a.meet b).meet c).isEquivalent (a.meet (b.meet c)) := by
  intro a b c
  have built : world.Built .plain true := built_world
  have evaluated : (∀ t ∈ [a, b, c], t.fits world .written) ∧ (a.meet b).meet c = .bottom ∧
      a.meet (b.meet c) = a ∧ ¬ ((a.meet b).meet c).isEquivalent (a.meet (b.meet c)) := by
    decide +kernel
  exact ⟨⟨built.grown, evaluated.1⟩, evaluated.2⟩

end TypeBounds
