import TypeBounds.Proofs.Associativity
import TypeBounds.Proofs.Solution

/-! # Which verdict a variable gets

The verdict on a variable is settled by looking at its targets two at a time. Special
types decide by their presence. Of the others, those that bound the variable from below
have a join exactly if their classes descend from one root: a join stays below the root
of its operands, so nothing that is combined in between changes which roots there are.
Meets always exist.
-/

namespace TypeBounds

/-- The class at the end of the chain of bases. -/
def Class.root : Class → Class
  | ⟨serial, name, arity, none⟩ => ⟨serial, name, arity, none⟩
  | ⟨_, _, _, some ⟨c, _⟩⟩ => c.root

/-- The root of a nominal type, and of a callable or a tuple that of its fallback. -/
def Ty.root? (t : Ty) : Option Class := t.nominal?.map (·.cls.root)

theorem Class.root_of_mem_bases {c : Class} {i : Instance} (above : i ∈ c.bases) :
    i.cls.root = c.root := by
  fun_induction Class.bases c with
  | case1 => simp at above
  | case2 serial name arity c args ih =>
      rcases List.mem_cons.mp above with rfl | further
      · rw [Class.root]
      · rw [ih further, Class.root]

theorem Class.root_mem (c : Class) : c.root = c ∨ ∃ i ∈ c.bases, i.cls = c.root := by
  fun_induction Class.bases c with
  | case1 => exact .inl rfl
  | case2 serial name arity c args ih =>
      right
      rw [Class.root]
      rcases ih with self | ⟨i, above, root⟩
      · exact ⟨_, List.mem_cons_self, self.symm⟩
      · exact ⟨i, List.mem_cons_of_mem _ above, root⟩

namespace Instance

theorem root_of_mem_ancestry {s v : Instance} (member : v ∈ s.ancestry) :
    v.cls.root = s.cls.root := by
  rcases List.mem_cons.mp member with rfl | above
  · rfl
  · exact Class.root_of_mem_bases above

theorem exists_view?_root (s : Instance) : ∃ v, s.view? s.cls.root.name = some v := by
  have found : (s.view? s.cls.root.name).isSome := by
    rcases s.cls.root_mem with self | ⟨i, above, root⟩
    · exact List.find?_isSome.mpr ⟨s, s.mem_ancestry_self, by simp [name, self]⟩
    · exact List.find?_isSome.mpr ⟨i, List.mem_cons_of_mem _ above, by simp [name, root]⟩
  exact Option.isSome_iff_exists.mp found

theorem name_eq_of_same {s t : Instance} (same : s.same t) : s.name = t.name := by
  cases s
  cases t
  simp only [Instance.same, Bool.and_eq_true, beq_iff_eq] at same
  exact same.1

section Linked

variable {u : Universe} (linked : u.Linked) {s t : Instance} (sHeaded : s.Headed u)
  (tHeaded : t.Headed u)

include linked sHeaded tHeaded

theorem root_eq_of_view? {n : String} {v w : Instance} (left : s.view? n = some v)
    (right : t.view? n = some w) : s.cls.root = t.cls.root := by
  have classes : v.cls = w.cls := Universe.eq_of_holds (sHeaded.of_view? linked left).1
    (tHeaded.of_view? linked right).1 ((name_eq_of_view? left).trans (name_eq_of_view? right).symm)
  rw [← root_of_mem_ancestry (mem_ancestry_of_view? left), classes,
    root_of_mem_ancestry (mem_ancestry_of_view? right)]

theorem join_of_root_ne (apart : s.cls.root ≠ t.cls.root) : s.join t = .error :=
  join_eq_error fun left right => apart (root_eq_of_view? linked sHeaded tHeaded left right)

theorem join_of_root_eq (roots : s.cls.root = t.cls.root) :
    ∃ j, s.join t = .inst j ∧ j.Headed u ∧ j.cls.root = s.cls.root := by
  rcases nearest_or_apart linked sHeaded.1 t with ⟨a, view, nearest⟩ | apart
  · have root : a.cls.root = s.cls.root :=
      root_of_mem_ancestry (mem_ancestry_of_view? nearest.left)
    exact ⟨_, nearest.join_eq linked sHeaded tHeaded,
      nearest.headed_joined linked sHeaded tHeaded, root⟩
  · obtain ⟨v, left⟩ := s.exists_view?_root
    obtain ⟨w, right⟩ := t.exists_view?_root
    exact (apart left (roots ▸ right)).elim

end Linked

end Instance

/-- `bottom`, or a type with a class as the universe has it. -/
def Ty.Grounded (u : Universe) (t : Ty) : Prop :=
  t = .bottom ∨ ∃ s, t.nominal? = some s ∧ s.Headed u

/-- Types below different roots. -/
def Ty.Divided (ts : List Ty) : Prop :=
  ∃ a ∈ ts, ∃ b ∈ ts, ∃ r r', a.root? = some r ∧ b.root? = some r' ∧ r ≠ r'

/-- Types that have no join. -/
def Ty.Unjoinable (ts : List Ty) : Prop := Ty.Failing ts ∨ Ty.Divided ts

theorem Ty.grounded_of_fits {u : Universe} {t : Ty} (fit : t.fits u .any)
    (ordinary : t.Ordinary) : t.Grounded u := by
  rcases ordinary.eq_bottom_or_nominal with bottom | ⟨s, nominal⟩
  · exact .inl bottom
  · exact .inr ⟨s, nominal, Instance.headed_of_fits (Ty.nominal_fits fit nominal)⟩

theorem Ty.Grounded.eq_bottom_iff {u : Universe} {t : Ty} (grounded : t.Grounded u) :
    t = .bottom ↔ t.root? = none := by
  rcases grounded with rfl | ⟨s, nominal, -⟩
  · exact iff_of_true rfl rfl
  · refine iff_of_false ?_ (by simp [root?, nominal])
    rintro rfl
    cases nominal

theorem Ty.Grounded.ordinary {u : Universe} {t : Ty} (grounded : t.Grounded u) : t.Ordinary := by
  rcases grounded with rfl | ⟨s, nominal, -⟩
  · simp [Ordinary]
  · refine ⟨?_, ?_, ?_⟩ <;>
    · rintro rfl
      cases nominal

theorem Ty.join_cases {a b : Ty} {s t : Instance} (ofA : a.nominal? = some s)
    (ofB : b.nominal? = some t) :
    a.join b = s.join t ∨ a.join b = t.join s ∨ s.same t ∧ (a.join b).nominal? = some t := by
  cases a with
  | inst =>
      cases ofA
      cases b with
      | inst =>
          cases ofB
          exact .inl (by rw [Ty.join])
      | callable | tuple =>
          cases ofB
          exact .inr (.inl (by rw [Ty.join]))
      | void | dynamic | bottom | error => cases ofB
  | callable params result =>
      cases ofA
      cases b with
      | inst | tuple =>
          cases ofB
          exact .inl (by rw [Ty.join])
      | callable params' result' =>
          cases ofB
          rw [Ty.join]
          split
          next similar => exact .inr (.inr ⟨(Bool.and_eq_true_iff.mp similar).2, rfl⟩)
          next => exact .inl rfl
      | void | dynamic | bottom | error => cases ofB
  | tuple items =>
      cases ofA
      cases b with
      | inst | callable =>
          cases ofB
          exact .inl (by rw [Ty.join])
      | tuple items' =>
          cases ofB
          rw [Ty.join]
          split
          next similar => exact .inr (.inr ⟨(Bool.and_eq_true_iff.mp similar).2, rfl⟩)
          next => exact .inl rfl
      | void | dynamic | bottom | error => cases ofB
  | void | dynamic | bottom | error => cases ofA

theorem Ty.Divided.of_roots {ts ts' : List Ty} (divided : Ty.Divided ts)
    (roots : ∀ a ∈ ts, ∀ r, a.root? = some r → ∃ b ∈ ts', b.root? = some r) : Ty.Divided ts' := by
  obtain ⟨a, aMember, b, bMember, r, r', ofA, ofB, apart⟩ := divided
  obtain ⟨a', aMember', ofA'⟩ := roots a aMember r ofA
  obtain ⟨b', bMember', ofB'⟩ := roots b bMember r' ofB
  exact ⟨a', aMember', b', bMember', r, r', ofA', ofB', apart⟩

section Joins

variable {u : Universe} (linked : u.Linked)

include linked

/-- A join of types below one root is below that root; types below different roots have none. -/
theorem Ty.Grounded.join {a b : Ty} (left : a.Grounded u) (right : b.Grounded u) :
    Ty.Divided [a, b] ∧ a.join b = .error ∨
      (a.join b).Grounded u ∧
        ∀ r, (a.join b).root? = some r ↔ a.root? = some r ∨ b.root? = some r := by
  rcases left with rfl | ⟨s, ofA, sHeaded⟩
  · right
    rw [Ty.bottom_join right.ordinary.1]
    exact ⟨right, by simp [root?, nominal?]⟩
  rcases right with rfl | ⟨t, ofB, tHeaded⟩
  · right
    have solid : a ≠ .void := by
      rintro rfl
      cases ofA
    rw [Ty.join_bottom solid]
    exact ⟨.inr ⟨s, ofA, sHeaded⟩, by simp [root?, nominal?]⟩
  have rootA : a.root? = some s.cls.root := by simp [root?, ofA]
  have rootB : b.root? = some t.cls.root := by simp [root?, ofB]
  have joins := Ty.join_cases ofA ofB
  by_cases roots : s.cls.root = t.cls.root
  · right
    obtain ⟨i, nominal, headed, root⟩ :
        ∃ i, (a.join b).nominal? = some i ∧ i.Headed u ∧ i.cls.root = s.cls.root := by
      rcases joins with eq | eq | ⟨-, nominal⟩
      · obtain ⟨i, joined, rest⟩ := Instance.join_of_root_eq linked sHeaded tHeaded roots
        exact ⟨i, by rw [eq, joined, nominal?], rest⟩
      · obtain ⟨i, joined, headed, root⟩ :=
          Instance.join_of_root_eq linked tHeaded sHeaded roots.symm
        exact ⟨i, by rw [eq, joined, nominal?], headed, root.trans roots.symm⟩
      · exact ⟨t, nominal, tHeaded, roots.symm⟩
    have rootJoin : (a.join b).root? = some s.cls.root := by simp [root?, nominal, root]
    exact ⟨.inr ⟨i, nominal, headed⟩, by simp [rootA, rootB, rootJoin, roots]⟩
  · left
    refine ⟨⟨a, by simp, b, by simp, _, _, rootA, rootB, roots⟩, ?_⟩
    rcases joins with eq | eq | ⟨same, -⟩
    · rw [eq, Instance.join_of_root_ne linked sHeaded tHeaded roots]
    · rw [eq, Instance.join_of_root_ne linked tHeaded sHeaded (Ne.symm roots)]
    · have classes := Universe.eq_of_holds sHeaded.1 tHeaded.1 (Instance.name_eq_of_same same)
      exact (roots (congrArg Class.root classes)).elim

/-- What is joined on the way changes neither which roots there are nor whether they differ. -/
theorem Ty.foldl_join_grounded {t : Ty} {ts : List Ty} (grounded : ∀ x ∈ t :: ts, x.Grounded u) :
    Ty.Divided (t :: ts) ∧ ts.foldl Ty.join t = .error ∨
      (ts.foldl Ty.join t).Grounded u ∧
        ∀ r, (ts.foldl Ty.join t).root? = some r ↔ ∃ x ∈ t :: ts, x.root? = some r := by
  induction ts generalizing t with
  | nil => exact .inr ⟨by simpa using grounded, by simp⟩
  | cons b ts ih =>
      simp only [List.forall_mem_cons] at grounded
      obtain ⟨left, right, later⟩ := grounded
      rcases left.join linked right with ⟨divided, failed⟩ | ⟨joined, roots⟩
      · have absent : .dynamic ∉ Ty.error :: ts := by
          simp only [List.mem_cons, reduceCtorEq, false_or]
          exact fun member => (later _ member).ordinary.2.1 rfl
        refine .inl ⟨divided.of_roots fun x member r root => ⟨x, ?_, root⟩, ?_⟩
        · simp only [List.mem_cons, List.not_mem_nil, or_false] at member ⊢
          tauto
        · rw [List.foldl_cons, failed, Ty.absorbing_join.foldl_failing absent (.inl (by simp))]
      · have kept (r : Class) : (∃ x ∈ t.join b :: ts, x.root? = some r) ↔
            ∃ x ∈ t :: b :: ts, x.root? = some r := by
          simp only [List.exists_mem_cons_iff, roots, or_assoc]
        rcases ih (List.forall_mem_cons.mpr ⟨joined, later⟩) with ⟨divided, failed⟩ | ⟨fold, rest⟩
        · refine .inl ⟨divided.of_roots fun x member r root => ?_, failed⟩
          exact (kept r).mp ⟨x, member, root⟩
        · exact .inr ⟨fold, fun r => (rest r).trans (kept r)⟩

end Joins

theorem Ty.Absorbing.foldl_live {op : Ty → Ty → Ty} (absorbing : Ty.Absorbing op) {t : Ty}
    {ts : List Ty} (absent : .dynamic ∉ t :: ts) : ts.foldl op t ≠ .dynamic := by
  simp only [List.mem_cons, not_or] at absent
  refine List.foldlRecOn ts op (motive := (· ≠ .dynamic)) (Ne.symm absent.1) ?_
  exact fun s live x member => absorbing.live s x live fun eq => absent.2 (eq ▸ member)

theorem Ty.foldl_meet_eq_error_iff {t : Ty} {ts : List Ty} (absent : .dynamic ∉ t :: ts) :
    ts.foldl Ty.meet t = .error ↔ Ty.Failing (t :: ts) := by
  rcases Ty.failing_or_void_or_ordinary absent with failing | ⟨sound, void | ordinary⟩
  · exact iff_of_true (Ty.absorbing_meet.foldl_failing absent failing) failing
  · exact iff_of_false (by simp [Ty.absorbing_meet.foldl_void void]) sound
  · rw [List.forall_mem_cons] at ordinary
    refine iff_of_false (List.foldlRecOn ts Ty.meet (motive := Ty.Ordinary) ordinary.1 ?_).2.2 sound
    exact fun s left x member => left.meet (ordinary.2 x member)

section Targets

variable {u : Universe} (linked : u.Linked) {t : Ty} {ts : List Ty}
  (fit : ∀ x ∈ t :: ts, x.fits u .any) (absent : .dynamic ∉ t :: ts)

include linked fit absent

theorem Ty.foldl_join_eq_error_iff : ts.foldl Ty.join t = .error ↔ Ty.Unjoinable (t :: ts) := by
  rcases Ty.failing_or_void_or_ordinary absent with failing | ⟨sound, void | ordinary⟩
  · exact iff_of_true (Ty.absorbing_join.foldl_failing absent failing) (.inl failing)
  · refine iff_of_false (by simp [Ty.absorbing_join.foldl_void void]) ?_
    rintro (failing | ⟨a, member, -, -, r, -, root, -⟩)
    · exact sound failing
    · simp [void a member, Ty.root?, Ty.nominal?] at root
  · have grounded x member := Ty.grounded_of_fits (fit x member) (ordinary x member)
    rcases Ty.foldl_join_grounded linked grounded with ⟨divided, failed⟩ | ⟨fold, roots⟩
    · exact iff_of_true failed (.inr divided)
    · refine iff_of_false fold.ordinary.2.2 ?_
      rintro (failing | ⟨a, aMember, b, bMember, r, r', ofA, ofB, apart⟩)
      · exact sound failing
      · have eq := ((roots r).mpr ⟨a, aMember, ofA⟩).symm.trans ((roots r').mpr ⟨b, bMember, ofB⟩)
        exact apart (Option.some.inj eq)

theorem Ty.foldl_join_eq_bottom_iff :
    ts.foldl Ty.join t = .bottom ↔ ∀ x ∈ t :: ts, x = .bottom := by
  constructor
  · intro bottom
    rcases Ty.failing_or_void_or_ordinary absent with failing | ⟨-, void | ordinary⟩
    · simp [Ty.absorbing_join.foldl_failing absent failing] at bottom
    · simp [Ty.absorbing_join.foldl_void void] at bottom
    · have grounded x member := Ty.grounded_of_fits (fit x member) (ordinary x member)
      rcases Ty.foldl_join_grounded linked grounded with ⟨-, failed⟩ | ⟨-, roots⟩
      · simp [failed] at bottom
      · intro x member
        rw [(grounded x member).eq_bottom_iff, Option.eq_none_iff_forall_ne_some]
        intro r root
        have rooted := (roots r).mpr ⟨x, member, root⟩
        rw [bottom] at rooted
        cases rooted
  · intro bottoms
    rw [List.forall_mem_cons] at bottoms
    refine List.foldlRecOn ts Ty.join (motive := (· = .bottom)) bottoms.1 ?_
    rintro s rfl x member
    rw [bottoms.2 x member, Ty.bottom_join (by simp)]

end Targets

theorem Ty.isSubtype_error_iff {t : Ty} (live : t ≠ .dynamic) :
    t.isSubtype .error ↔ t = .bottom ∨ t = .error := by
  cases t <;> simp_all [Ty.isSubtype]

theorem Ty.error_isSubtype_iff {t : Ty} (live : t ≠ .dynamic) :
    Ty.error.isSubtype t ↔ t = .error := by
  cases t <;> simp_all [Ty.isSubtype]

/-- The verdict on a variable of which no target is `dynamic`. A side that fails is blamed on the
    lattice if nothing stands against it; otherwise the sides conflict, unless `bottom` is asked
    to be below the failure. -/
structure Verdict.Balanced (lowers uppers : List Ty) (verdict : Verdict) : Prop where
  latticeFailure : verdict = .unsolvable .latticeFailure ↔
    lowers = [] ∧ Ty.Failing uppers ∨ uppers = [] ∧ Ty.Unjoinable lowers ∨
      lowers ≠ [] ∧ uppers ≠ [] ∧ Ty.Unjoinable lowers ∧ Ty.Failing uppers
  lowerFailed : uppers ≠ [] → Ty.Unjoinable lowers → ¬ Ty.Failing uppers →
    verdict = .unsolvable .boundConflict
  upperFailed : lowers ≠ [] → ¬ Ty.Unjoinable lowers → Ty.Failing uppers →
    verdict = if ∀ x ∈ lowers, x = .bottom then .resolved .bottom else .unsolvable .boundConflict
  fromBelow : uppers = [] → ¬ Ty.Unjoinable lowers → ∀ l ∈ Bound.combined Ty.join lowers,
    verdict = .resolved l
  fromAbove : lowers = [] → ¬ Ty.Failing uppers → ∀ h ∈ Bound.combined Ty.meet uppers,
    verdict = .resolved h
  between : ¬ Ty.Unjoinable lowers → ¬ Ty.Failing uppers →
    ∀ l ∈ Bound.combined Ty.join lowers, ∀ h ∈ Bound.combined Ty.meet uppers,
      verdict = if l.isSubtype h then .resolved l else .unsolvable .boundConflict

/-- The verdict on a variable as its targets from below and from above decide it. -/
structure Verdict.Classified (lowers uppers : List Ty) (verdict : Verdict) : Prop where
  unconstrained : verdict = .unconstrained ↔ lowers = [] ∧ uppers = []
  dynamic : verdict = .resolved .dynamic ↔ .dynamic ∈ lowers ∨ .dynamic ∈ uppers
  balanced : .dynamic ∉ lowers → .dynamic ∉ uppers → verdict.Balanced lowers uppers

theorem Ty.not_failing_nil : ¬ Ty.Failing [] := by simp [Ty.Failing]

theorem Ty.not_unjoinable_nil : ¬ Ty.Unjoinable [] := by
  simp [Ty.Unjoinable, Ty.Failing, Ty.Divided]

theorem Bound.combined_eq_dynamic_iff {op : Ty → Ty → Ty} (absorbing : Ty.Absorbing op)
    {ts : List Ty} : Bound.combined op ts = some .dynamic ↔ .dynamic ∈ ts := by
  cases ts with
  | nil => simp [Bound.combined]
  | cons t ts =>
      simp only [Bound.combined, Option.some.injEq]
      exact ⟨fun fold => by_contra fun absent => absorbing.foldl_live absent fold,
        absorbing.foldl_dynamic⟩

theorem Bound.ne_nil_of_combined {op : Ty → Ty → Ty} {ts : List Ty} {t : Ty}
    (combined : Bound.combined op ts = some t) : ts ≠ [] := by
  rintro rfl
  cases combined

theorem Bounds.settle_eq (t : Ty) :
    settle t = if t = .error then .unsolvable .latticeFailure else .resolved t := by
  cases t <;> simp [settle]

theorem Bounds.settle_ne_unconstrained (t : Ty) : settle t ≠ .unconstrained := by
  cases t <;> simp [settle]

theorem Bounds.settle_ne_dynamic {t : Ty} (live : t ≠ .dynamic) :
    settle t ≠ .resolved .dynamic := by
  cases t <;> simp_all [settle]

section Sides

variable {lowers uppers : List Ty}

theorem Verdict.Balanced.unconstrained : Verdict.unconstrained.Balanced [] [] where
  latticeFailure := by simp [Ty.not_failing_nil, Ty.not_unjoinable_nil]
  lowerFailed some := (some rfl).elim
  upperFailed some := (some rfl).elim
  fromBelow := by simp [Bound.combined]
  fromAbove := by simp [Bound.combined]
  between := by simp [Bound.combined]

theorem Verdict.Balanced.of_upper {h : Ty} (combined : Bound.combined Ty.meet uppers = some h)
    (failed : h = .error ↔ Ty.Failing uppers) : (Bounds.settle h).Balanced [] uppers := by
  have present := Bound.ne_nil_of_combined combined
  rw [Bounds.settle_eq]
  refine ⟨?_, ?_, ?_, ?_, ?_, ?_⟩
  · simp [← failed, present]
  · exact fun _ unjoinable => (Ty.not_unjoinable_nil unjoinable).elim
  · exact fun some => (some rfl).elim
  · exact fun none => (present none).elim
  · intro _ sound h' eq
    obtain rfl := Option.some.inj (combined.symm.trans eq)
    rw [if_neg (mt failed.mp sound)]
  · rintro - - l ⟨⟩

theorem Verdict.Balanced.of_lower {l : Ty} (combined : Bound.combined Ty.join lowers = some l)
    (failed : l = .error ↔ Ty.Unjoinable lowers) : (Bounds.settle l).Balanced lowers [] := by
  have present := Bound.ne_nil_of_combined combined
  rw [Bounds.settle_eq]
  refine ⟨?_, ?_, ?_, ?_, ?_, ?_⟩
  · simp [← failed, present]
  · exact fun some => (some rfl).elim
  · exact fun _ _ failing => (Ty.not_failing_nil failing).elim
  · intro _ sound l' eq
    obtain rfl := Option.some.inj (combined.symm.trans eq)
    rw [if_neg (mt failed.mp sound)]
  · exact fun none => (present none).elim
  · rintro - - l' - h ⟨⟩

theorem Verdict.Balanced.of_both {l h : Ty} (lower : Bound.combined Ty.join lowers = some l)
    (upper : Bound.combined Ty.meet uppers = some h) (live : l ≠ .dynamic) (live' : h ≠ .dynamic)
    (failed : l = .error ↔ Ty.Unjoinable lowers) (failed' : h = .error ↔ Ty.Failing uppers)
    (bottom : l = .bottom ↔ ∀ x ∈ lowers, x = .bottom) :
    (if l.isSubtype h then Bounds.settle l else .unsolvable .boundConflict).Balanced
      lowers uppers := by
  have present := Bound.ne_nil_of_combined lower
  have present' := Bound.ne_nil_of_combined upper
  rw [Bounds.settle_eq]
  refine ⟨?_, ?_, ?_, ?_, ?_, ?_⟩
  · simp only [present, present', ← failed, ← failed', false_and, ne_eq, not_false_eq_true,
      true_and, false_or]
    constructor
    · intro blamed
      split at blamed
      next below =>
        have broken : l = .error := by
          by_contra sound
          simp [sound] at blamed
        exact ⟨broken, (Ty.error_isSubtype_iff live').mp (broken ▸ below)⟩
      next => cases blamed
    · rintro ⟨rfl, rfl⟩
      simp [Ty.isSubtype]
  · intro _ failing sound
    rw [failed.mpr failing, if_neg]
    rw [Ty.error_isSubtype_iff live']
    exact mt failed'.mp sound
  · intro _ sound failing
    have solid := mt failed.mp sound
    simp only [failed'.mpr failing, Ty.isSubtype_error_iff live, solid, or_false, ↓reduceIte,
      ← bottom]
    split
    next eq => rw [eq]
    next => rfl
  · exact fun none => (present' none).elim
  · exact fun none => (present none).elim
  · intro sound _ l' eq h' eq'
    obtain rfl := Option.some.inj (lower.symm.trans eq)
    obtain rfl := Option.some.inj (upper.symm.trans eq')
    rw [if_neg (mt failed.mp sound)]

end Sides

section Targets

variable {u : Universe} (linked : u.Linked) {lowers uppers : List Ty}
  (fit : ∀ x ∈ lowers, x.fits u .any)

include linked fit

theorem Bounds.verdict_balanced (absent : .dynamic ∉ lowers) (absent' : .dynamic ∉ uppers) :
    ∃ verdict, Bounds.verdict .nominal ⟨Bound.combined Ty.join lowers,
        Bound.combined Ty.meet uppers⟩ = .ok verdict ∧
      (verdict = .unconstrained ↔ lowers = [] ∧ uppers = []) ∧
      verdict ≠ .resolved .dynamic ∧ verdict.Balanced lowers uppers := by
  cases lowers with
  | nil =>
      cases uppers with
      | nil => exact ⟨.unconstrained, rfl, by simp, by simp, .unconstrained⟩
      | cons t ts =>
          have live := Ty.absorbing_meet.foldl_live absent'
          exact ⟨_, Bounds.verdict_of_upper live, by simp [settle_ne_unconstrained],
            settle_ne_dynamic live, .of_upper rfl (Ty.foldl_meet_eq_error_iff absent')⟩
  | cons s ss =>
      have failed := Ty.foldl_join_eq_error_iff linked fit absent
      have live := Ty.absorbing_join.foldl_live absent
      cases uppers with
      | nil =>
          exact ⟨_, Bounds.verdict_of_lower live, by simp [settle_ne_unconstrained],
            settle_ne_dynamic live, .of_lower rfl failed⟩
      | cons t ts =>
          have live' := Ty.absorbing_meet.foldl_live absent'
          refine ⟨_, Bounds.verdict_of_both live live', ?_, ?_,
            .of_both rfl rfl live live' failed (Ty.foldl_meet_eq_error_iff absent')
              (Ty.foldl_join_eq_bottom_iff linked fit absent)⟩
          · split <;> simp [settle_ne_unconstrained]
          · split
            next => exact settle_ne_dynamic live
            next => simp

theorem Bounds.verdict_classified :
    ∃ verdict, Bounds.verdict .nominal ⟨Bound.combined Ty.join lowers,
      Bound.combined Ty.meet uppers⟩ = .ok verdict ∧ verdict.Classified lowers uppers := by
  by_cases dynamic : .dynamic ∈ lowers ∨ .dynamic ∈ uppers
  · refine ⟨.resolved .dynamic, ?_, ?_⟩
    · simp [verdict, Bound.combined_eq_dynamic_iff, Ty.absorbing_join, Ty.absorbing_meet, dynamic]
    · refine ⟨?_, by simp [dynamic], fun absent absent' => (dynamic.elim absent absent').elim⟩
      simp only [reduceCtorEq, false_iff]
      rintro ⟨rfl, rfl⟩
      simp at dynamic
  · rw [not_or] at dynamic
    obtain ⟨verdict, given, unconstrained, live, balanced⟩ :=
      Bounds.verdict_balanced linked fit dynamic.1 dynamic.2
    exact ⟨verdict, given, unconstrained, by simp [live, dynamic], fun _ _ => balanced⟩

end Targets

/-- Solving succeeds whatever kinds of types bound the variables and however many roots there are,
    and which verdict each variable gets can be told from its targets two at a time. -/
theorem Universe.Grown.solve_classified {u : Universe} (grown : u.Grown) {vars : List TypeVar}
    {cs : List Constraint} (targets : ∀ c ∈ cs, c.var ∈ vars → c.target.any (·.fits u .any)) :
    ∃ rs, solve .nominal vars cs = .ok rs ∧
      List.Forall₂ (fun v r => r.var = v ∧ r.verdict.Classified
        (targetsFrom .lower (constraintsOn v cs)) (targetsFrom .upper (constraintsOn v cs)))
        vars rs := by
  apply exists_solve
  intro v asked
  have given : ∀ c ∈ constraintsOn v cs, c.target.any (·.fits u .any) := by
    intro c member
    obtain ⟨inside, rfl⟩ := mem_constraintsOn.mp member
    exact targets c inside asked
  obtain ⟨verdict, judged, classified⟩ :=
    Bounds.verdict_classified grown.linked fun x => of_mem_targetsFrom given
  have bounds := Bounds.ofConstraints_eq fun c => isSome_target given
  exact ⟨_, resolve_eq_ok_iff.mpr ⟨_, _, bounds, judged, rfl⟩, rfl, classified⟩

open Sample in
/-- A callable and a class below another root, `bottom` below a failure, and `dynamic` among types
    that fail. -/
theorem solve_classified_rockyWorld :
    let vars := [⟨0⟩, ⟨1⟩, ⟨2⟩]
    let cs := [⟨⟨0⟩, .lower, some (function .void (one Builtin.int))⟩, ⟨⟨1⟩, .lower, some .bottom⟩,
      ⟨⟨0⟩, .lower, some (one rock)⟩, ⟨⟨2⟩, .upper, some .error⟩, ⟨⟨1⟩, .upper, some .void⟩,
      ⟨⟨1⟩, .upper, some (listOf .dynamic)⟩, ⟨⟨2⟩, .lower, some .dynamic⟩]
    (rockyWorld.Grown ∧ ∀ c ∈ cs, c.var ∈ vars → c.target.any (·.fits rockyWorld .any)) ∧
      ∃ rs, solve .nominal vars cs = .ok rs ∧
        List.Forall₂ (fun v r => r.var = v ∧ r.verdict.Classified
          (targetsFrom .lower (constraintsOn v cs)) (targetsFrom .upper (constraintsOn v cs)))
          vars rs := by
  intro vars cs
  have targets : ∀ c ∈ cs, c.var ∈ vars → c.target.any (·.fits rockyWorld .any) := by
    decide +kernel
  exact ⟨⟨built_rockyWorld.grown, targets⟩, built_rockyWorld.grown.solve_classified targets⟩

end TypeBounds
