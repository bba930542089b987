import TypeBounds.Proofs.PartialOrder

/-! # What `dynamic` stands for

An occurrence of `dynamic` stands for some type without it, each occurrence for one of
its own. One type is below another exactly if the two can be filled in so that the
first is below the second in the order on types without `dynamic`. The arguments of
bases have nothing to fill in, so it does not matter what a class makes of its own
arguments on the way to its bases.
-/

namespace TypeBounds

/-- The second type is the first one with a well-formed type without `dynamic` put for each
    `dynamic` in it. -/
inductive Ty.Filled (u : Universe) : Ty → Ty → Prop where
  | dynamic {t : Ty} (fit : t.fits u .static) : Filled u .dynamic t
  | inst {c : Class} {args args' : List Ty} (ofArgs : List.Forall₂ (Filled u) args args') :
      Filled u (.inst ⟨c, args⟩) (.inst ⟨c, args'⟩)
  | callable {params params' : List Ty} {result result' : Ty} {fallback fallback' : Instance}
      (ofParams : List.Forall₂ (Filled u) params params') (ofResult : Filled u result result')
      (ofFallback : Filled u (.inst fallback) (.inst fallback')) :
      Filled u (.callable params result fallback) (.callable params' result' fallback')
  | tuple {items items' : List Ty} {fallback fallback' : Instance}
      (ofItems : List.Forall₂ (Filled u) items items')
      (ofFallback : Filled u (.inst fallback) (.inst fallback')) :
      Filled u (.tuple items fallback) (.tuple items' fallback')
  | void : Filled u .void .void
  | bottom : Filled u .bottom .bottom
  | error : Filled u .error .error

theorem Instance.filled_iff {u : Universe} {s t : Instance} :
    Ty.Filled u (.inst s) (.inst t) ↔ s.cls = t.cls ∧ List.Forall₂ (Ty.Filled u) s.args t.args := by
  constructor
  · intro filled
    cases filled with
    | inst ofArgs => exact ⟨rfl, ofArgs⟩
  · rintro ⟨classes, ofArgs⟩
    cases s
    cases t
    cases classes
    exact .inst ofArgs

mutual
theorem Ty.exists_filled (u : Universe) (t : Ty) : ∃ t', Ty.Filled u t t' := by
  cases t with
  | inst i =>
      obtain ⟨i', filled⟩ := Instance.exists_filled u i
      exact ⟨_, filled⟩
  | callable params result fallback =>
      obtain ⟨params', ofParams⟩ := Ty.exists_allFilled u params
      obtain ⟨result', ofResult⟩ := Ty.exists_filled u result
      obtain ⟨fallback', ofFallback⟩ := Instance.exists_filled u fallback
      exact ⟨_, .callable ofParams ofResult ofFallback⟩
  | tuple items fallback =>
      obtain ⟨items', ofItems⟩ := Ty.exists_allFilled u items
      obtain ⟨fallback', ofFallback⟩ := Instance.exists_filled u fallback
      exact ⟨_, .tuple ofItems ofFallback⟩
  | void => exact ⟨_, .void⟩
  | dynamic => exact ⟨.bottom, .dynamic rfl⟩
  | bottom => exact ⟨_, .bottom⟩
  | error => exact ⟨_, .error⟩

theorem Instance.exists_filled (u : Universe) (i : Instance) :
    ∃ i', Ty.Filled u (.inst i) (.inst i') := by
  cases i with
  | mk c args =>
      obtain ⟨args', ofArgs⟩ := Ty.exists_allFilled u args
      exact ⟨⟨c, args'⟩, .inst ofArgs⟩

theorem Ty.exists_allFilled (u : Universe) (ts : List Ty) :
    ∃ ts', List.Forall₂ (Ty.Filled u) ts ts' := by
  cases ts with
  | nil => exact ⟨[], .nil⟩
  | cons t ts =>
      obtain ⟨t', head⟩ := Ty.exists_filled u t
      obtain ⟨ts', tail⟩ := Ty.exists_allFilled u ts
      exact ⟨t' :: ts', .cons head tail⟩
end

mutual
theorem Ty.Filled.fits {u : Universe} {t t' : Ty} (fit : t.fits u .any)
    (filled : Ty.Filled u t t') : t'.fits u .static := by
  cases filled with
  | dynamic fit => exact fit
  | inst ofArgs => exact Instance.filled_fits fit (.inst ofArgs)
  | callable ofParams ofResult ofFallback =>
      obtain ⟨params, result, fallback, -⟩ := Ty.fits_callable_iff.mp fit
      exact Ty.fits_callable_iff.mpr ⟨Ty.Filled.allFit params ofParams,
        Ty.Filled.fits result ofResult, Instance.filled_fits fallback ofFallback, .inl rfl⟩
  | tuple ofItems ofFallback =>
      obtain ⟨items, fallback, -⟩ := Ty.fits_tuple_iff.mp fit
      exact Ty.fits_tuple_iff.mpr ⟨Ty.Filled.allFit items ofItems,
        Instance.filled_fits fallback ofFallback, .inl rfl⟩
  | void | bottom | error => rfl
termination_by sizeOf t

theorem Instance.filled_fits {u : Universe} {i i' : Instance} (fit : i.fits u .any)
    (filled : Ty.Filled u (.inst i) (.inst i')) : i'.fits u .static := by
  obtain ⟨classes, ofArgs⟩ := Instance.filled_iff.mp filled
  obtain ⟨held, count, args⟩ := Instance.fits_iff.mp fit
  have smaller := i.sizeOf_args_lt
  refine Instance.fits_iff.mpr ⟨classes ▸ held, ?_, Ty.Filled.allFit args ofArgs⟩
  rw [← classes, ← ofArgs.length_eq, count]
termination_by sizeOf i

theorem Ty.Filled.allFit {u : Universe} {ts ts' : List Ty} (fit : Ty.allFit u .any ts)
    (filled : List.Forall₂ (Ty.Filled u) ts ts') : Ty.allFit u .static ts' := by
  cases filled with
  | nil => rfl
  | cons head tail =>
      obtain ⟨headFit, tailFit⟩ := Ty.allFit_cons_iff.mp fit
      exact Ty.allFit_cons_iff.mpr
        ⟨Ty.Filled.fits headFit head, Ty.Filled.allFit tailFit tail⟩
termination_by sizeOf ts
end

mutual
theorem Ty.filled_iff_eq {u : Universe} {t t' : Ty} (fit : t.fits u .static) :
    Ty.Filled u t t' ↔ t = t' := by
  cases t with
  | inst i =>
      have ofInstance (i' : Instance) : Ty.Filled u (.inst i) (.inst i') ↔ i = i' :=
        Instance.filled_iff_eq fit
      constructor
      · intro filled
        cases filled with
        | inst ofArgs => exact congrArg Ty.inst ((ofInstance _).mp (.inst ofArgs))
      · rintro rfl
        exact (ofInstance i).mpr rfl
  | callable params result fallback =>
      obtain ⟨paramsFit, resultFit, fallbackFit, -⟩ := Ty.fits_callable_iff.mp fit
      constructor
      · intro filled
        cases filled with
        | callable ofParams ofResult ofFallback =>
            rw [(Ty.allFilled_iff_eq paramsFit).mp ofParams,
              (Ty.filled_iff_eq resultFit).mp ofResult,
              (Instance.filled_iff_eq fallbackFit).mp ofFallback]
      · rintro rfl
        exact .callable ((Ty.allFilled_iff_eq paramsFit).mpr rfl)
          ((Ty.filled_iff_eq resultFit).mpr rfl) ((Instance.filled_iff_eq fallbackFit).mpr rfl)
  | tuple items fallback =>
      obtain ⟨itemsFit, fallbackFit, -⟩ := Ty.fits_tuple_iff.mp fit
      constructor
      · intro filled
        cases filled with
        | tuple ofItems ofFallback =>
            rw [(Ty.allFilled_iff_eq itemsFit).mp ofItems,
              (Instance.filled_iff_eq fallbackFit).mp ofFallback]
      · rintro rfl
        exact .tuple ((Ty.allFilled_iff_eq itemsFit).mpr rfl)
          ((Instance.filled_iff_eq fallbackFit).mpr rfl)
  | dynamic => cases fit
  | void | bottom | error =>
      constructor
      · rintro ⟨⟩
        rfl
      · rintro rfl
        constructor

theorem Instance.filled_iff_eq {u : Universe} {i i' : Instance} (fit : i.fits u .static) :
    Ty.Filled u (.inst i) (.inst i') ↔ i = i' := by
  cases i
  cases i'
  rw [Instance.filled_iff, Ty.allFilled_iff_eq (Instance.fits_iff.mp fit).2.2, Instance.mk.injEq]

theorem Ty.allFilled_iff_eq {u : Universe} {ts ts' : List Ty} (fit : Ty.allFit u .static ts) :
    List.Forall₂ (Ty.Filled u) ts ts' ↔ ts = ts' := by
  cases ts with
  | nil => simp [eq_comm]
  | cons t ts =>
      obtain ⟨head, tail⟩ := Ty.allFit_cons_iff.mp fit
      cases ts' with
      | nil => simp
      | cons t' ts' =>
          rw [List.forall₂_cons, Ty.filled_iff_eq head, Ty.allFilled_iff_eq tail, List.cons.injEq]
end

/-- An instance has the same views before and after it is filled in. Their arguments are filled in
    too: those of its own class as they were, those of its bases because nothing is to fill in. -/
theorem Instance.view?_filled {u : Universe} (lawful : u.Lawful .static) {s s' : Instance}
    (held : u.holds s.cls) (filled : Ty.Filled u (.inst s) (.inst s')) (n : String) :
    (s.view? n = none ∧ s'.view? n = none) ∨ ∃ view view', s.view? n = some view ∧
      s'.view? n = some view' ∧ List.Forall₂ (Ty.Filled u) view.args view'.args := by
  obtain ⟨classes, ofArgs⟩ := Instance.filled_iff.mp filled
  by_cases own : s.name = n
  · have own' : s'.name = n := by rw [← own, Instance.name, Instance.name, classes]
    exact .inr ⟨s, s', own ▸ s.view?_self, own' ▸ s'.view?_self, ofArgs⟩
  · have same := Instance.view?_congr classes own
    cases seen : s.view? n with
    | none => exact .inl ⟨rfl, same ▸ seen⟩
    | some view =>
        have above := Instance.mem_bases_of_view? seen own
        have fit := Instance.fits_of_mem_bases lawful held above
        exact .inr ⟨view, view, rfl, same ▸ seen,
          (Ty.allFilled_iff_eq (Instance.fits_iff.mp fit).2.2).mpr rfl⟩

mutual
theorem Ty.isSubtype_of_filled {u : Universe} (lawful : u.Lawful .static) {a b a' b' : Ty}
    (aFit : a.fits u .any) (bFit : b.fits u .any) (left : Ty.Filled u a a')
    (right : Ty.Filled u b b') (below : a'.isSubtype b') : a.isSubtype b := by
  cases left with
  | dynamic => simp [Ty.isSubtype]
  | bottom => exact Ty.bottom_isSubtype b
  | void | error => cases right <;> simp_all [Ty.isSubtype]
  | inst ofArgs =>
      cases right with
      | inst ofArgs' =>
          rw [Ty.isSubtype] at below ⊢
          exact Instance.isSubtype_of_filled lawful aFit bFit (.inst ofArgs) (.inst ofArgs') below
      | dynamic => simp only [Ty.isSubtype]
      | _ => simp only [Ty.isSubtype, Bool.false_eq_true] at below
  | callable ofParams ofResult ofFallback =>
      obtain ⟨aParams, aResult, aFallback, -⟩ := Ty.fits_callable_iff.mp aFit
      cases right with
      | callable ofParams' ofResult' ofFallback' =>
          obtain ⟨bParams, bResult, bFallback, -⟩ := Ty.fits_callable_iff.mp bFit
          simp only [Ty.isSubtype, Bool.and_eq_true] at below ⊢
          exact ⟨⟨Ty.allSubtypes_of_filled lawful bParams aParams ofParams' ofParams below.1.1,
            Ty.isSubtype_of_filled lawful aResult bResult ofResult ofResult' below.1.2⟩,
            Instance.isSubtype_of_filled lawful aFallback bFallback ofFallback ofFallback' below.2⟩
      | inst ofArgs' =>
          rw [Ty.isSubtype] at below ⊢
          exact Instance.isSubtype_of_filled lawful aFallback bFit ofFallback (.inst ofArgs') below
      | dynamic => simp only [Ty.isSubtype]
      | _ => simp only [Ty.isSubtype, Bool.false_eq_true] at below
  | tuple ofItems ofFallback =>
      obtain ⟨aItems, aFallback, -⟩ := Ty.fits_tuple_iff.mp aFit
      cases right with
      | tuple ofItems' ofFallback' =>
          obtain ⟨bItems, bFallback, -⟩ := Ty.fits_tuple_iff.mp bFit
          simp only [Ty.isSubtype, Bool.and_eq_true] at below ⊢
          exact ⟨Ty.allSubtypes_of_filled lawful aItems bItems ofItems ofItems' below.1,
            Instance.isSubtype_of_filled lawful aFallback bFallback ofFallback ofFallback' below.2⟩
      | inst ofArgs' =>
          rw [Ty.isSubtype] at below ⊢
          exact Instance.isSubtype_of_filled lawful aFallback bFit ofFallback (.inst ofArgs') below
      | dynamic => simp only [Ty.isSubtype]
      | _ => simp only [Ty.isSubtype, Bool.false_eq_true] at below
termination_by sizeOf a + sizeOf b

theorem Instance.isSubtype_of_filled {u : Universe} (lawful : u.Lawful .static)
    {s t s' t' : Instance} (sFit : s.fits u .any) (tFit : t.fits u .any)
    (left : Ty.Filled u (.inst s) (.inst s')) (right : Ty.Filled u (.inst t) (.inst t'))
    (below : s'.isSubtype t') : s.isSubtype t := by
  obtain ⟨classes, ofArgs⟩ := Instance.filled_iff.mp right
  obtain ⟨seenAs, found, args⟩ := Instance.isSubtype_iff.mp below
  rw [Instance.name, ← classes, ← Instance.name] at found
  rcases Instance.view?_filled lawful (Instance.fits_iff.mp sFit).1 left t.name with
    ⟨-, absent⟩ | ⟨view, view', seen, seen', ofView⟩
  · rw [absent] at found
    cases found
  · obtain rfl := Option.some.inj (seen'.symm.trans found)
    have smaller := Instance.sizeOf_args_lt_of_view? seen
    have smaller' := t.sizeOf_args_lt
    have viewFit :=
      Instance.fits_of_view? (lawful.widen (Dialect.within_any .static)) sFit seen
    exact Instance.isSubtype_iff.mpr ⟨view, seen, Ty.allSubtypes_of_filled lawful
      (Instance.fits_iff.mp viewFit).2.2 (Instance.fits_iff.mp tFit).2.2 ofView ofArgs args⟩
termination_by sizeOf s + sizeOf t

theorem Ty.allSubtypes_of_filled {u : Universe} (lawful : u.Lawful .static)
    {as bs as' bs' : List Ty} (aFit : Ty.allFit u .any as) (bFit : Ty.allFit u .any bs)
    (left : List.Forall₂ (Ty.Filled u) as as') (right : List.Forall₂ (Ty.Filled u) bs bs')
    (below : Ty.allSubtypes as' bs') : Ty.allSubtypes as bs := by
  cases left with
  | nil => cases right <;> simp_all [Ty.allSubtypes]
  | cons head tail =>
      cases right with
      | nil => simp [Ty.allSubtypes] at below
      | cons head' tail' =>
          obtain ⟨aHead, aTail⟩ := Ty.allFit_cons_iff.mp aFit
          obtain ⟨bHead, bTail⟩ := Ty.allFit_cons_iff.mp bFit
          simp only [Ty.allSubtypes, Bool.and_eq_true] at below ⊢
          exact ⟨Ty.isSubtype_of_filled lawful aHead bHead head head' below.1,
            Ty.allSubtypes_of_filled lawful aTail bTail tail tail' below.2⟩
termination_by sizeOf as + sizeOf bs
end

mutual
/-- What is below another type stays below it when both are filled in suitably. -/
theorem Ty.exists_filled_isSubtype {u : Universe} (lawful : u.Lawful .static) {a b : Ty}
    (aFit : a.fits u .any) (bFit : b.fits u .any) (below : a.isSubtype b) :
    ∃ a' b', Ty.Filled u a a' ∧ Ty.Filled u b b' ∧ a'.isSubtype b' := by
  match a, b with
  | .dynamic, b =>
      obtain ⟨b', right⟩ := Ty.exists_filled u b
      exact ⟨.bottom, b', .dynamic rfl, right, Ty.bottom_isSubtype b'⟩
  | a, .dynamic =>
      obtain ⟨a', left⟩ := Ty.exists_filled u a
      exact ⟨a', a', left, .dynamic (left.fits aFit), a'.isSubtype_refl⟩
  | .bottom, b =>
      obtain ⟨b', right⟩ := Ty.exists_filled u b
      exact ⟨.bottom, b', .bottom, right, Ty.bottom_isSubtype b'⟩
  | .inst s, .inst t =>
      rw [Ty.isSubtype] at below
      obtain ⟨s', t', left, right, filled⟩ :=
        Instance.exists_filled_isSubtype lawful aFit bFit below
      exact ⟨_, _, left, right, by rwa [Ty.isSubtype]⟩
  | .callable params result fallback, .callable params' result' fallback' =>
      obtain ⟨aParams, aResult, aFallback, -⟩ := Ty.fits_callable_iff.mp aFit
      obtain ⟨bParams, bResult, bFallback, -⟩ := Ty.fits_callable_iff.mp bFit
      simp only [Ty.isSubtype, Bool.and_eq_true] at below
      obtain ⟨ps', ps, right, left, ofParams⟩ :=
        Ty.exists_allFilled_allSubtypes lawful bParams aParams below.1.1
      obtain ⟨r, r', left', right', ofResult⟩ :=
        Ty.exists_filled_isSubtype lawful aResult bResult below.1.2
      obtain ⟨f, f', left'', right'', ofFallback⟩ :=
        Instance.exists_filled_isSubtype lawful aFallback bFallback below.2
      refine ⟨_, _, .callable left left' left'', .callable right right' right'', ?_⟩
      simp only [Ty.isSubtype, ofParams, ofResult, ofFallback, Bool.and_self]
  | .callable params result fallback, .inst t =>
      obtain ⟨-, -, aFallback, -⟩ := Ty.fits_callable_iff.mp aFit
      rw [Ty.isSubtype] at below
      obtain ⟨f, t', left, right, ofFallback⟩ :=
        Instance.exists_filled_isSubtype lawful aFallback bFit below
      obtain ⟨ps, ofParams⟩ := Ty.exists_allFilled u params
      obtain ⟨r, ofResult⟩ := Ty.exists_filled u result
      exact ⟨_, _, .callable ofParams ofResult left, right, by rwa [Ty.isSubtype]⟩
  | .tuple items fallback, .tuple items' fallback' =>
      obtain ⟨aItems, aFallback, -⟩ := Ty.fits_tuple_iff.mp aFit
      obtain ⟨bItems, bFallback, -⟩ := Ty.fits_tuple_iff.mp bFit
      simp only [Ty.isSubtype, Bool.and_eq_true] at below
      obtain ⟨is, is', left, right, ofItems⟩ :=
        Ty.exists_allFilled_allSubtypes lawful aItems bItems below.1
      obtain ⟨f, f', left', right', ofFallback⟩ :=
        Instance.exists_filled_isSubtype lawful aFallback bFallback below.2
      refine ⟨_, _, .tuple left left', .tuple right right', ?_⟩
      simp only [Ty.isSubtype, ofItems, ofFallback, Bool.and_self]
  | .tuple items fallback, .inst t =>
      obtain ⟨-, aFallback, -⟩ := Ty.fits_tuple_iff.mp aFit
      rw [Ty.isSubtype] at below
      obtain ⟨f, t', left, right, ofFallback⟩ :=
        Instance.exists_filled_isSubtype lawful aFallback bFit below
      obtain ⟨is, ofItems⟩ := Ty.exists_allFilled u items
      exact ⟨_, _, .tuple ofItems left, right, by rwa [Ty.isSubtype]⟩
  | .void, .void => exact ⟨_, _, .void, .void, below⟩
  | .error, .error => exact ⟨_, _, .error, .error, below⟩
  | .inst _, .callable .. | .inst _, .tuple .. | .inst _, .void | .inst _, .bottom
  | .inst _, .error | .callable .., .tuple .. | .callable .., .void | .callable .., .bottom
  | .callable .., .error | .tuple .., .callable .. | .tuple .., .void | .tuple .., .bottom
  | .tuple .., .error | .void, .inst _ | .void, .callable .. | .void, .tuple .. | .void, .bottom
  | .void, .error | .error, .inst _ | .error, .callable .. | .error, .tuple .. | .error, .void
  | .error, .bottom => simp only [Ty.isSubtype, Bool.false_eq_true] at below
termination_by sizeOf a + sizeOf b

theorem Instance.exists_filled_isSubtype {u : Universe} (lawful : u.Lawful .static)
    {s t : Instance} (sFit : s.fits u .any) (tFit : t.fits u .any) (below : s.isSubtype t) :
    ∃ s' t', Ty.Filled u (.inst s) (.inst s') ∧ Ty.Filled u (.inst t) (.inst t') ∧
      s'.isSubtype t' := by
  obtain ⟨view, seen, args⟩ := Instance.isSubtype_iff.mp below
  have smaller := Instance.sizeOf_args_lt_of_view? seen
  have smaller' := t.sizeOf_args_lt
  have viewFit := Instance.fits_of_view? (lawful.widen (Dialect.within_any .static)) sFit seen
  obtain ⟨vs, ts, left, right, filled⟩ := Ty.exists_allFilled_allSubtypes lawful
    (Instance.fits_iff.mp viewFit).2.2 (Instance.fits_iff.mp tFit).2.2 args
  have ofTarget : Ty.Filled u (.inst t) (.inst ⟨t.cls, ts⟩) := Instance.filled_iff.mpr ⟨rfl, right⟩
  by_cases names : s.name = t.name
  · rw [← names, Instance.view?_self] at seen
    obtain rfl := Option.some.inj seen
    exact ⟨⟨s.cls, vs⟩, _, Instance.filled_iff.mpr ⟨rfl, left⟩, ofTarget,
      Instance.isSubtype_of_name_eq names filled⟩
  · obtain ⟨s', ofSource⟩ := Instance.exists_filled u s
    have above := Instance.mem_bases_of_view? seen names
    have fit := Instance.fits_of_mem_bases lawful (Instance.fits_iff.mp sFit).1 above
    obtain rfl := (Ty.allFilled_iff_eq (Instance.fits_iff.mp fit).2.2).mp left
    have same := Instance.view?_congr (Instance.filled_iff.mp ofSource).1 names
    exact ⟨s', _, ofSource, ofTarget,
      Instance.isSubtype_iff.mpr ⟨view, same.symm.trans seen, filled⟩⟩
termination_by sizeOf s + sizeOf t

theorem Ty.exists_allFilled_allSubtypes {u : Universe} (lawful : u.Lawful .static)
    {as bs : List Ty} (aFit : Ty.allFit u .any as) (bFit : Ty.allFit u .any bs)
    (below : Ty.allSubtypes as bs) :
    ∃ as' bs', List.Forall₂ (Ty.Filled u) as as' ∧ List.Forall₂ (Ty.Filled u) bs bs' ∧
      Ty.allSubtypes as' bs' := by
  match as, bs with
  | [], [] => exact ⟨[], [], .nil, .nil, below⟩
  | [], _ :: _ | _ :: _, [] => simp [Ty.allSubtypes] at below
  | a :: as, b :: bs =>
      obtain ⟨aHead, aTail⟩ := Ty.allFit_cons_iff.mp aFit
      obtain ⟨bHead, bTail⟩ := Ty.allFit_cons_iff.mp bFit
      simp only [Ty.allSubtypes, Bool.and_eq_true] at below
      obtain ⟨a', b', left, right, head⟩ := Ty.exists_filled_isSubtype lawful aHead bHead below.1
      obtain ⟨as', bs', lefts, rights, tail⟩ :=
        Ty.exists_allFilled_allSubtypes lawful aTail bTail below.2
      refine ⟨_, _, .cons left lefts, .cons right rights, ?_⟩
      simp only [Ty.allSubtypes, head, tail, Bool.and_self]
termination_by sizeOf as + sizeOf bs
end

/-- Over any number of roots and bases without `dynamic`, the subtype test on all types holds
    exactly where the types can be filled in so that it holds for types without `dynamic`. -/
theorem Universe.Built.isSubtype_iff_filled {u : Universe} (built : u.Built .static true) {a b : Ty}
    (aFit : a.fits u .any) (bFit : b.fits u .any) :
    a.isSubtype b ↔ ∃ a' b', (Ty.Filled u a a' ∧ a'.fits u .static) ∧
      (Ty.Filled u b b' ∧ b'.fits u .static) ∧ a'.isSubtype b' := by
  constructor
  · intro below
    obtain ⟨a', b', left, right, filled⟩ :=
      Ty.exists_filled_isSubtype built.lawful aFit bFit below
    exact ⟨a', b', ⟨left, left.fits aFit⟩, ⟨right, right.fits bFit⟩, filled⟩
  · rintro ⟨a', b', ⟨left, -⟩, ⟨right, -⟩, filled⟩
    exact Ty.isSubtype_of_filled built.lawful aFit bFit left right filled

open Sample in
/-- Callables with `dynamic` in parameters, results and fallbacks of both. -/
theorem isSubtype_iff_filled_rockyWorld :
    let a : Ty := .callable [listOf .dynamic, .dynamic] (one intList)
      ⟨Builtin.dict, [.dynamic, one rock]⟩
    let b : Ty := .callable [one intList, .void] (listOf .dynamic)
      ⟨Builtin.dict, [one Builtin.str, .dynamic]⟩
    (rockyWorld.Built .static true ∧ a.fits rockyWorld .any ∧ b.fits rockyWorld .any) ∧
      a.isSubtype b ∧ ∃ a' b', (Ty.Filled rockyWorld a a' ∧ a'.fits rockyWorld .static) ∧
        (Ty.Filled rockyWorld b b' ∧ b'.fits rockyWorld .static) ∧ a'.isSubtype b' := by
  intro a b
  have built := built_rockyWorld.widen (Dialect.plain_within .static)
  have fit : a.fits rockyWorld .any ∧ b.fits rockyWorld .any := by decide +kernel
  have below : a.isSubtype b := by cbv
  exact ⟨⟨built, fit⟩, below, (built.isSubtype_iff_filled fit.1 fit.2).mp below⟩

end TypeBounds
