import TypeBounds.Proofs.Closure

/-! # Joining three instances

Which base of two instances is the nearest common one is settled by what the instances
are seen as. Where the arguments of bases are `dynamic` or `bottom`, of three instances
any two may be joined first.
-/

namespace TypeBounds

/-- The arguments of bases are `dynamic` or `bottom`. -/
def Universe.Loose (u : Universe) : Prop :=
  ∀ c b, u.holds c → c.base = some b → ∀ x ∈ b.args, x = .dynamic ∨ x = .bottom

theorem Ty.allFit_of_loose {u : Universe} {ts : List Ty}
    (loose : ∀ x ∈ ts, x = .dynamic ∨ x = .bottom) : Ty.allFit u .anchored ts := by
  induction ts with
  | nil => rfl
  | cons t ts ih =>
      rw [List.forall_mem_cons] at loose
      refine Ty.allFit_cons_iff.mpr ⟨?_, ih loose.2⟩
      rcases loose.1 with rfl | rfl <;> rfl

theorem Universe.Grown.lawful_of_loose {u : Universe} (grown : u.Grown) (loose : u.Loose) :
    u.Lawful .anchored where
  base {c b} held above := by
    obtain ⟨baseHeld, count, -⟩ := grown.base_held held above
    exact Instance.fits_iff.mpr ⟨baseHeld, count, Ty.allFit_of_loose (loose c b held above)⟩
  function := grown.anchors_fit.1
  tuple := grown.anchors_fit.2

namespace Instance

/-- Of a class of the universe, with as many arguments as it takes. -/
def Headed (u : Universe) (i : Instance) : Prop :=
  u.holds i.cls ∧ (i.args.length : Int) = i.cls.arity

theorem headed_of_fits {u : Universe} {d : Dialect} {i : Instance} (fit : i.fits u d) :
    i.Headed u := by
  obtain ⟨held, count, -⟩ := fits_iff.mp fit
  exact ⟨held, count⟩

theorem Headed.length_eq {u : Universe} {s t : Instance} (sHeaded : s.Headed u)
    (tHeaded : t.Headed u) (classes : s.cls = t.cls) : s.args.length = t.args.length := by
  have left := sHeaded.2
  have right := tHeaded.2
  rw [classes] at left
  omega

/-- The nearest common base of `s` and `t`, as it is seen from either. -/
structure Nearest (s t a view : Instance) : Prop where
  left : s.view? a.name = some a
  right : t.view? a.name = some view
  below : ∀ {n v w}, s.view? n = some v → t.view? n = some w → a.view? n = some v

/-- The class of `a` with the joined arguments of both instances. -/
def joined (a view : Instance) : Instance := ⟨a.cls, Ty.joinAll a.args view.args⟩

theorem view?_joined_of_ne {a view : Instance} {n : String} (other : a.name ≠ n) :
    (joined a view).view? n = a.view? n :=
  view?_congr rfl other

theorem join_eq_joined {s t a view : Instance} (found : s.commonBase? t = some (a, view))
    (lengths : a.args.length = view.args.length) : s.join t = .inst (joined a view) := by
  rw [Instance.join]
  split
  · rename_i absent
    rw [found] at absent
    cases absent
  · rename_i common
    rw [found] at common
    obtain ⟨rfl, rfl⟩ := Prod.mk.inj (Option.some.inj common)
    rw [if_pos lengths, joined]

theorem Nearest.of_view? {s t view : Instance} (seen : t.view? s.name = some view) :
    Nearest s t s view where
  left := s.view?_self
  right := seen
  below sees _ := sees

section Linked

variable {u : Universe} (linked : u.Linked) {s t a b view w : Instance}

include linked

theorem Headed.of_view? {n : String} (headed : s.Headed u) (seen : s.view? n = some view) :
    view.Headed u := by
  rcases List.mem_cons.mp (mem_ancestry_of_view? seen) with rfl | above
  · exact headed
  · exact linked_of_mem_bases linked headed.1 above

theorem commonBase?_eq_some_iff (sHeld : u.holds s.cls) :
    s.commonBase? t = some (a, view) ↔ Nearest s t a view := by
  constructor
  · intro found
    exact ⟨view?_commonBase_left found, view?_commonBase_right found,
      commonBase?_nearest linked sHeld found⟩
  · intro nearest
    cases found : s.commonBase? t with
    | none => exact (commonBase?_eq_none found nearest.left nearest.right).elim
    | some pair =>
        obtain ⟨a', view'⟩ := pair
        have left := view?_commonBase_left found
        have right := view?_commonBase_right found
        have down := nearest.below left right
        have up := commonBase?_nearest linked sHeld found nearest.left nearest.right
        have aHeld := holds_of_mem_ancestry linked sHeld (mem_ancestry_of_view? nearest.left)
        have aHeld' := holds_of_mem_ancestry linked sHeld (mem_ancestry_of_view? left)
        have names := name_eq_of_view?_of_view? linked aHeld aHeld' down up
        rw [← names, nearest.left] at left
        rw [← names, nearest.right] at right
        rw [Option.some.inj left, Option.some.inj right]

theorem nearest_or_apart (sHeld : u.holds s.cls) (t : Instance) :
    (∃ a view, Nearest s t a view) ∨
      ∀ {n v w}, s.view? n = some v → t.view? n = some w → False := by
  cases found : s.commonBase? t with
  | none => exact .inr (commonBase?_eq_none found)
  | some pair => exact .inl ⟨_, _, (commonBase?_eq_some_iff linked sHeld).mp found⟩

theorem Nearest.cls_eq (sHeld : u.holds s.cls) (tHeld : u.holds t.cls)
    (nearest : Nearest s t a view) : view.cls = a.cls :=
  cls_eq_of_view? linked tHeld
    (holds_of_mem_ancestry linked sHeld (mem_ancestry_of_view? nearest.left)) nearest.right

theorem Nearest.symm (sHeld : u.holds s.cls) (tHeld : u.holds t.cls)
    (nearest : Nearest s t a view) : Nearest t s view a := by
  have classes := nearest.cls_eq linked sHeld tHeld
  have names : view.name = a.name := name_eq_of_view? nearest.right
  refine ⟨names ▸ nearest.right, names ▸ nearest.left, ?_⟩
  intro n v w fromRight fromLeft
  by_cases here : view.name = n
  · rw [← here, names, nearest.right] at fromRight
    rw [← here, view?_self, Option.some.inj fromRight]
  · have seen := nearest.below fromLeft fromRight
    rw [← view?_congr classes here] at seen
    rw [seen, ← view?_trans linked tHeld nearest.right seen, fromRight]

/-- Apart from its own class a joined base is seen as the base is from either side. -/
theorem Nearest.view?_joined (sHeld : u.holds s.cls) (tHeld : u.holds t.cls)
    (nearest : Nearest s t a view) {n : String} {v : Instance} (other : a.name ≠ n)
    (seen : (joined a view).view? n = some v) : s.view? n = some v ∧ t.view? n = some v := by
  have classes := nearest.cls_eq linked sHeld tHeld
  rw [view?_joined_of_ne other] at seen
  have seen' := seen
  rw [view?_congr classes.symm other] at seen'
  exact ⟨view?_trans linked sHeld nearest.left seen, view?_trans linked tHeld nearest.right seen'⟩

theorem Nearest.sees (sHeld : u.holds s.cls) (tHeld : u.holds t.cls) (nearest : Nearest s t a view)
    {n : String} {v : Instance} (seen : (joined a view).view? n = some v) :
    (∃ x, s.view? n = some x) ∧ ∃ y, t.view? n = some y := by
  by_cases here : a.name = n
  · exact ⟨⟨a, here ▸ nearest.left⟩, ⟨view, here ▸ nearest.right⟩⟩
  · obtain ⟨left, right⟩ := nearest.view?_joined linked sHeld tHeld here seen
    exact ⟨⟨v, left⟩, ⟨v, right⟩⟩

theorem Nearest.length_eq (sHeaded : s.Headed u) (tHeaded : t.Headed u)
    (nearest : Nearest s t a view) : a.args.length = view.args.length :=
  (sHeaded.of_view? linked nearest.left).length_eq (tHeaded.of_view? linked nearest.right)
    (nearest.cls_eq linked sHeaded.1 tHeaded.1).symm

theorem Nearest.headed_joined (sHeaded : s.Headed u) (tHeaded : t.Headed u)
    (nearest : Nearest s t a view) : (joined a view).Headed u := by
  obtain ⟨held, count⟩ := sHeaded.of_view? linked nearest.left
  have lengths := nearest.length_eq linked sHeaded tHeaded
  refine ⟨held, ?_⟩
  rw [joined, Ty.length_joinAll, ← lengths, Nat.min_self, count]

theorem Nearest.join_eq (sHeaded : s.Headed u) (tHeaded : t.Headed u)
    (nearest : Nearest s t a view) : s.join t = .inst (joined a view) :=
  join_eq_joined ((commonBase?_eq_some_iff linked sHeaded.1).mpr nearest)
    (nearest.length_eq linked sHeaded tHeaded)

end Linked

theorem join_eq_error {s t : Instance}
    (apart : ∀ {n v w}, s.view? n = some v → t.view? n = some w → False) : s.join t = .error := by
  rw [Instance.join]
  split
  · rfl
  · rename_i a view common
    obtain ⟨member, right⟩ := commonBase?_eq_some common
    have found : (s.view? a.name).isSome := List.find?_isSome.mpr ⟨a, member, by simp⟩
    obtain ⟨v, left⟩ := Option.isSome_iff_exists.mp found
    exact (apart left right).elim

theorem loose_of_mem_bases {u : Universe} (linked : u.Linked) (loose : u.Loose)
    {c : Class} {i : Instance} (held : u.holds c) (above : i ∈ c.bases) :
    ∀ x ∈ i.args, x = .dynamic ∨ x = .bottom := by
  fun_induction Class.bases c with
  | case1 => simp at above
  | case2 serial name arity c args ih =>
      rcases List.mem_cons.mp above with rfl | further
      · exact loose _ _ held rfl
      · exact ih (linked held rfl).1 further

theorem loose_of_view? {u : Universe} (linked : u.Linked) (loose : u.Loose)
    {s v : Instance} {n : String} (held : u.holds s.cls) (seen : s.view? n = some v)
    (other : s.name ≠ n) : ∀ x ∈ v.args, x = .dynamic ∨ x = .bottom :=
  loose_of_mem_bases linked loose held (mem_bases_of_view? seen other)

end Instance

theorem Ty.joinAll_loose_left {xs ys : List Ty} (loose : ∀ x ∈ xs, x = .dynamic ∨ x = .bottom) :
    Ty.joinAll xs (Ty.joinAll xs ys) = Ty.joinAll xs ys := by
  induction xs generalizing ys with
  | nil => simp [Ty.joinAll]
  | cons x xs ih =>
      rw [List.forall_mem_cons] at loose
      cases ys with
      | nil => simp [Ty.joinAll]
      | cons y ys =>
          have head : x.join (x.join y) = x.join y := by
            rcases loose.1 with rfl | rfl
            · simp only [Ty.absorbing_join.dynamic_left]
            · cases y <;> simp [Ty.join]
          simp only [Ty.joinAll, head, ih loose.2]

theorem Ty.joinAll_loose_right {xs ys : List Ty} (loose : ∀ x ∈ xs, x = .dynamic ∨ x = .bottom) :
    Ty.joinAll (Ty.joinAll ys xs) xs = Ty.joinAll ys xs := by
  induction xs generalizing ys with
  | nil => cases ys <;> simp [Ty.joinAll]
  | cons x xs ih =>
      rw [List.forall_mem_cons] at loose
      cases ys with
      | nil => simp [Ty.joinAll]
      | cons y ys =>
          have head : (y.join x).join x = y.join x := by
            rcases loose.1 with rfl | rfl
            · simp only [Ty.absorbing_join.dynamic_right]
            · cases y <;> simp [Ty.join]
          simp only [Ty.joinAll, head, ih loose.2]

namespace Instance

section Three

variable {u : Universe} (linked : u.Linked) (loose : u.Loose) {s t r a v b w : Instance}
  (sHeaded : s.Headed u) (tHeaded : t.Headed u) (rHeaded : r.Headed u)
  (first : Nearest s t a v) (second : Nearest t r b w)

include linked sHeaded tHeaded rHeaded first second

theorem join_assoc_of_same (names : a.name = b.name)
    (args : Ty.joinAll (Ty.joinAll a.args v.args) w.args =
      Ty.joinAll a.args (Ty.joinAll v.args w.args)) :
    (joined a v).join r = s.join (joined b w) := by
  have same : v = b := Option.some.inj (first.right.symm.trans (names ▸ second.left))
  subst same
  have left : Nearest (joined a v) r (joined a v) w := .of_view? (names ▸ second.right)
  have right : Nearest (joined v w) s (joined v w) a := .of_view? (names ▸ first.left)
  have jHeaded := first.headed_joined linked sHeaded tHeaded
  have kHeaded := second.headed_joined linked tHeaded rHeaded
  rw [left.join_eq linked jHeaded rHeaded,
    (right.symm linked kHeaded.1 sHeaded.1).join_eq linked sHeaded kHeaded]
  simp only [joined, args]

include loose

/-- The first pair meets below the second: the base they share is above both. -/
theorem join_assoc_of_below (other : a.name ≠ b.name) (seen : v.view? b.name = some b) :
    (joined a v).join r = s.join (joined b w) := by
  have classes := first.cls_eq linked sHeaded.1 tHeaded.1
  have jHeaded := first.headed_joined linked sHeaded tHeaded
  have kHeaded := second.headed_joined linked tHeaded rHeaded
  have vName : v.name = a.name := name_eq_of_view? first.right
  have aSees : a.view? b.name = some b := by
    rwa [view?_congr classes (vName ▸ other)] at seen
  have sSees : s.view? b.name = some b := view?_trans linked sHeaded.1 first.left aSees
  have left : Nearest (joined a v) r b w := by
    refine ⟨?_, second.right, ?_⟩
    · rwa [view?_joined_of_ne other]
    · intro n x y fromJoined fromRight
      by_cases here : a.name = n
      · subst here
        have back := second.below first.right fromRight
        have vHeld := (tHeaded.of_view? linked first.right).1
        have bHeld := (tHeaded.of_view? linked second.left).1
        exact absurd (vName ▸ name_eq_of_view?_of_view? linked vHeld bHeld seen (vName ▸ back))
          other
      · exact second.below
          (first.view?_joined linked sHeaded.1 tHeaded.1 here fromJoined).2 fromRight
  have right : Nearest (joined b w) s (joined b w) b := .of_view? sSees
  have looseArgs := loose_of_view? linked loose (tHeaded.of_view? linked first.right).1 seen
    (vName ▸ other)
  rw [left.join_eq linked jHeaded rHeaded,
    (right.symm linked kHeaded.1 sHeaded.1).join_eq linked sHeaded kHeaded]
  simp only [joined, Ty.joinAll_loose_left looseArgs]

theorem join_assoc_of_above (other : a.name ≠ b.name) (seen : b.view? a.name = some v) :
    (joined a v).join r = s.join (joined b w) := by
  have classes := second.cls_eq linked tHeaded.1 rHeaded.1
  have jHeaded := first.headed_joined linked sHeaded tHeaded
  have kHeaded := second.headed_joined linked tHeaded rHeaded
  have vName : v.name = a.name := name_eq_of_view? first.right
  have wName : w.name = b.name := name_eq_of_view? second.right
  have wSees : w.view? a.name = some v := by
    rwa [view?_congr classes (wName ▸ other.symm)]
  have rSees : r.view? a.name = some v := view?_trans linked rHeaded.1 second.right wSees
  have left : Nearest (joined a v) r (joined a v) v := .of_view? rSees
  have right : Nearest s (joined b w) a v := by
    refine ⟨first.left, ?_, ?_⟩
    · rwa [view?_joined_of_ne other.symm]
    · intro n x y fromLeft fromJoined
      by_cases here : b.name = n
      · subst here
        have back := first.below fromLeft second.left
        have classes' := first.cls_eq linked sHeaded.1 tHeaded.1
        rw [← view?_congr classes' (vName ▸ other)] at back
        have vHeld := (tHeaded.of_view? linked first.right).1
        have bHeld := (tHeaded.of_view? linked second.left).1
        exact absurd (vName ▸ name_eq_of_view?_of_view? linked vHeld bHeld back (vName ▸ seen))
          other
      · exact first.below fromLeft
          (second.view?_joined linked tHeaded.1 rHeaded.1 here fromJoined).1
  have looseArgs := loose_of_view? linked loose (tHeaded.of_view? linked second.left).1 seen
    other.symm
  rw [left.join_eq linked jHeaded rHeaded, right.join_eq linked sHeaded kHeaded]
  simp only [joined, Ty.joinAll_loose_right looseArgs]

end Three

/-- Any two of three instances may be joined first, if this is so for their arguments. -/
theorem join_assoc_of_args {u : Universe} (linked : u.Linked) (loose : u.Loose)
    {s t r : Instance} (sHeaded : s.Headed u) (tHeaded : t.Headed u) (rHeaded : r.Headed u)
    (args : ∀ {n a v w}, s.view? n = some a → t.view? n = some v → r.view? n = some w →
      Ty.joinAll (Ty.joinAll a.args v.args) w.args =
        Ty.joinAll a.args (Ty.joinAll v.args w.args)) :
    (s.join t).join (.inst r) = (Ty.inst s).join (t.join r) := by
  rcases nearest_or_apart linked sHeaded.1 t with ⟨a, v, first⟩ | apart
  · have jHeaded := first.headed_joined linked sHeaded tHeaded
    rw [first.join_eq linked sHeaded tHeaded, Ty.join]
    rcases nearest_or_apart linked tHeaded.1 r with ⟨b, w, second⟩ | apart
    · rw [second.join_eq linked tHeaded rHeaded, Ty.join]
      by_cases names : a.name = b.name
      · apply join_assoc_of_same linked sHeaded tHeaded rHeaded first second names
        exact args first.left first.right (names ▸ second.right)
      · rcases view?_total linked tHeaded.1 first.right second.left with seen | seen
        · exact join_assoc_of_below linked loose sHeaded tHeaded rHeaded first second names seen
        · exact join_assoc_of_above linked loose sHeaded tHeaded rHeaded first second names seen
    · rw [join_eq_error apart, Ty.absorbing_join.error_right _ (by simp)]
      apply join_eq_error
      intro n x y fromJoined fromRight
      obtain ⟨-, z, seen⟩ := first.sees linked sHeaded.1 tHeaded.1 fromJoined
      exact apart seen fromRight
  · rw [join_eq_error apart, Ty.absorbing_join.error_left _ (by simp)]
    rcases nearest_or_apart linked tHeaded.1 r with ⟨b, w, second⟩ | apart'
    · rw [second.join_eq linked tHeaded rHeaded, Ty.join]
      symm
      apply join_eq_error
      intro n x y fromLeft fromJoined
      obtain ⟨⟨z, seen⟩, -⟩ := second.sees linked tHeaded.1 rHeaded.1 fromJoined
      exact apart fromLeft seen
    · rw [join_eq_error apart', Ty.absorbing_join.error_right _ (by simp)]

end Instance

end TypeBounds
