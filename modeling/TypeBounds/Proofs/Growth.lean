import TypeBounds.Proofs.WellFormed

/-! # Universes grown from the builtin one

A universe grows by one class at a time. Adding a class keeps all the others, so
the base of each class is well-formed in every universe that comes later; and when
each new class has a base, `object` is above them all.
-/

namespace TypeBounds

namespace Universe

/-- Universes reached from the builtin one by adding classes with any serial numbers, the
    base arguments being of the dialect. Unless there may be more `roots`, each of
    the classes has a base. -/
inductive Built (d : Dialect) (roots : Bool) : Universe → Prop where
  | builtin : Built d roots builtin
  | define {u larger : Universe} {c : Class} {serial : Nat} {name : String} {arity : Int}
      {base : Option Instance} (smaller : Built d roots u) (based : roots ∨ base.isSome)
      (arguments : ∀ b, base = some b → Ty.allFit u d b.args)
      (defined : u.defineAs serial name arity base = .ok (larger, c)) : Built d roots larger

/-- Universes reached from the builtin one by adding classes, whatever their base arguments. -/
inductive Grown : Universe → Prop where
  | builtin : Grown builtin
  | define {u larger : Universe} {c : Class} {serial : Nat} {name : String} {arity : Int}
      {base : Option Instance} (smaller : Grown u)
      (defined : u.defineAs serial name arity base = .ok (larger, c)) : Grown larger

theorem Built.grown {d : Dialect} {roots : Bool} {u : Universe} (built : u.Built d roots) :
    u.Grown := by
  induction built with
  | builtin => exact .builtin
  | define _ _ _ defined ih => exact .define ih defined

/-- The base of every class is well-formed, and so are the fallbacks. -/
structure Lawful (d : Dialect) (u : Universe) : Prop where
  base : ∀ {c b}, u.holds c → c.base = some b → b.fits u d
  function : Builtin.anchors.function.fits u d
  tuple : Builtin.anchors.tuple.fits u d

/-- The universe holds the class of every base, and the base has as many arguments as it takes. -/
def Linked (u : Universe) : Prop :=
  ∀ {c b}, u.holds c → c.base = some b → u.holds b.cls ∧ (b.args.length : Int) = b.cls.arity

/-- Every class is `object` or has it among its bases. -/
def Rooted (u : Universe) : Prop := ∀ c, u.holds c → c.hasBase "object"

theorem Lawful.widen {d e : Dialect} {u : Universe} (lawful : u.Lawful d) (wider : d.Within e) :
    u.Lawful e where
  base held above := Instance.fits_mono wider (fun _ held => held) (lawful.base held above)
  function := Instance.fits_mono wider (fun _ held => held) lawful.function
  tuple := Instance.fits_mono wider (fun _ held => held) lawful.tuple

theorem Lawful.linked {d : Dialect} {u : Universe} (lawful : u.Lawful d) : u.Linked := by
  intro c b held above
  obtain ⟨baseHeld, count, -⟩ := Instance.fits_iff.mp (lawful.base held above)
  exact ⟨baseHeld, count⟩

theorem lookup_insertSorted {name : String} {c : Class} {entries : List (String × Class)}
    (n : String) (fresh : entries.lookup name = none) :
    (insertSorted (name, c) entries).lookup n =
      if n = name then some c else entries.lookup n := by
  have front (rest : List (String × Class)) :
      ((name, c) :: rest).lookup n = if n = name then some c else rest.lookup n := by
    by_cases same : n = name
    · simp [same]
    · simp [List.lookup_cons, same, beq_false_of_ne same]
  induction entries with
  | nil => exact front []
  | cons first rest ih =>
      obtain ⟨k, d⟩ := first
      rw [List.lookup_cons] at fresh
      split at fresh
      · cases fresh
      · rename_i other
        rw [insertSorted]
        split
        · exact front _
        · rw [List.lookup_cons, ih fresh, List.lookup_cons]
          by_cases same : n = name
          · simp [same, other]
          · simp [same]

theorem lookup?_insert {u : Universe} {c : Class} (n : String) (fresh : u.lookup? c.name = none) :
    (u.insert c).lookup? n = if n = c.name then some c else u.lookup? n :=
  lookup_insertSorted n fresh

theorem mem_of_lookup? {u : Universe} {n : String} {c : Class} (known : u.lookup? n = some c) :
    c ∈ u.classes ∧ c.name = n := by
  obtain ⟨before, after, entries, -⟩ := List.lookup_eq_some_iff.mp known
  have member : (n, c) ∈ u.entries := by simp [entries]
  exact ⟨List.mem_map_of_mem (f := (·.2)) member, u.named _ member⟩

theorem checkBase_eq_ok_iff {u : Universe} (name : String) {b : Instance} :
    u.checkBase name b = .ok () ↔ u.holds b.cls ∧ (b.args.length : Int) = b.cls.arity := by
  rw [holds_iff, checkBase, Instance.name]
  split
  · rename_i absent
    simp [absent]
  · rename_i known found
    rw [found, Option.some.injEq]
    split
    · rename_i same
      subst same
      split <;> simp_all
    · simp_all

/-- When adding a class succeeds, and what comes of it. -/
theorem defineAs_eq_ok_iff {u larger : Universe} {c : Class} {serial : Nat} {name : String}
    {arity : Int} {base : Option Instance} :
    u.defineAs serial name arity base = .ok (larger, c) ↔
      u.lookup? name = none ∧ 0 ≤ arity ∧
        (∀ b, base = some b → u.holds b.cls ∧ (b.args.length : Int) = b.cls.arity) ∧
          c = ⟨serial, name, arity, base⟩ ∧ larger = u.insert c := by
  unfold defineAs
  split
  · rename_i taken
    simp [Option.isSome_iff_ne_none.mp taken]
  · rename_i free
    have fresh : u.lookup? name = none := by simpa using free
    split
    · rename_i negative
      simp [Int.not_le.mpr negative]
    · rename_i natural
      have count : 0 ≤ arity := by omega
      have answer (made : Class) : (Except.ok (u.insert made, made) :
          Except DefineError (Universe × Class)) = .ok (larger, c) ↔
            c = made ∧ larger = u.insert c := by
        constructor
        · rintro ⟨⟩
          exact ⟨rfl, rfl⟩
        · rintro ⟨rfl, rfl⟩
          rfl
      cases base with
      | none => simpa [fresh, count] using answer ⟨serial, name, arity, none⟩
      | some b =>
          simp only [fresh, count, true_and, Option.some.injEq, forall_eq']
          rw [← checkBase_eq_ok_iff name]
          cases u.checkBase name b with
          | error _ => simp [Except.map]
          | ok _ => simpa [Except.map] using answer ⟨serial, name, arity, some b⟩

section Define

variable {u larger : Universe} {c : Class} {serial : Nat} {name : String} {arity : Int}
  {base : Option Instance} (defined : u.defineAs serial name arity base = .ok (larger, c))

include defined

theorem lookup?_define (n : String) :
    larger.lookup? n = if n = name then some c else u.lookup? n := by
  obtain ⟨fresh, -, -, rfl, rfl⟩ := defineAs_eq_ok_iff.mp defined
  exact lookup?_insert n fresh

theorem holds_define_of_holds (e : Class) (held : u.holds e) : larger.holds e := by
  have fresh := (defineAs_eq_ok_iff.mp defined).1
  rw [holds_iff] at held ⊢
  rw [lookup?_define defined, if_neg, held]
  rintro rfl
  rw [fresh] at held
  cases held

theorem holds_of_holds_define {e : Class} (held : larger.holds e) : e = c ∨ u.holds e := by
  rw [holds_iff, lookup?_define defined] at held
  split at held
  · exact .inl (Option.some.inj held).symm
  · exact .inr (holds_iff.mpr held)

theorem Lawful.define {d : Dialect} (lawful : u.Lawful d)
    (arguments : ∀ b, base = some b → Ty.allFit u d b.args) : larger.Lawful d := by
  have kept := holds_define_of_holds defined
  have grown := fun i => Instance.fits_mono (i := i) (Dialect.Within.refl d) kept
  refine ⟨?_, grown _ lawful.function, grown _ lawful.tuple⟩
  intro e b held above
  rcases holds_of_holds_define defined held with rfl | old
  · obtain ⟨-, -, known, rfl, -⟩ := defineAs_eq_ok_iff.mp defined
    obtain ⟨baseHeld, count⟩ := known b above
    exact grown b (Instance.fits_iff.mpr ⟨baseHeld, count, arguments b above⟩)
  · exact grown b (lawful.base old above)

theorem Linked.define (linked : u.Linked) : larger.Linked := by
  intro e b held above
  have kept := holds_define_of_holds defined
  rcases holds_of_holds_define defined held with rfl | old
  · obtain ⟨-, -, known, rfl, -⟩ := defineAs_eq_ok_iff.mp defined
    obtain ⟨baseHeld, count⟩ := known b above
    exact ⟨kept b.cls baseHeld, count⟩
  · obtain ⟨baseHeld, count⟩ := linked old above
    exact ⟨kept b.cls baseHeld, count⟩

theorem Rooted.define (rooted : u.Rooted) (based : base.isSome) : larger.Rooted := by
  intro e held
  rcases holds_of_holds_define defined held with rfl | old
  · obtain ⟨b, rfl⟩ := Option.isSome_iff_exists.mp based
    obtain ⟨-, -, known, rfl, -⟩ := defineAs_eq_ok_iff.mp defined
    have above : "object" ∈ b.cls.ancestors := by
      simpa [Class.hasBase] using rooted b.cls (known b rfl).1
    cases b
    simp [Class.hasBase, Class.ancestors, above]
  · exact rooted e old

end Define

theorem holds_of_mem_classes {c : Class} (member : c ∈ Builtin.classes) : builtin.holds c := by
  have all : ∀ c ∈ Builtin.classes, builtin.lookup? c.name = some c := by
    simp only [Builtin.classes, List.forall_mem_cons]
    exact ⟨rfl, rfl, rfl, rfl, rfl, rfl, rfl, rfl, rfl, rfl, by simp⟩
  exact holds_iff.mpr (all c member)

theorem mem_of_holds_builtin {c : Class} (held : builtin.holds c) : c ∈ Builtin.classes := by
  have classes : builtin.classes = Builtin.classes := by
    simp [builtin, ofSorted, Universe.classes, Function.comp_def]
  exact classes ▸ (mem_of_lookup? (holds_iff.mp held)).1

theorem bare_fits {c : Class} (member : c ∈ Builtin.classes) (bare : c.arity = 0) (d : Dialect) :
    Instance.fits builtin d ⟨c, []⟩ :=
  Instance.fits_iff.mpr ⟨holds_of_mem_classes member, bare.symm, rfl⟩

theorem lawful_builtin (d : Dialect) : builtin.Lawful d := by
  refine ⟨?_, bare_fits (by simp [Builtin.classes]) rfl d,
    bare_fits (by simp [Builtin.classes]) rfl d⟩
  intro c b held above
  have member : c ∈ Builtin.classes := mem_of_holds_builtin held
  have shape : ∀ c ∈ Builtin.classes, ∀ b, c.base = some b →
      b = ⟨Builtin.object, []⟩ ∨ b = ⟨Builtin.int, []⟩ := by
    simp [Builtin.classes, Builtin.belowObject, Builtin.object, Builtin.typeType, Builtin.tuple,
      Builtin.function, Builtin.int, Builtin.float, Builtin.str, Builtin.list, Builtin.dict,
      Builtin.bool]
  rcases shape c member b above with rfl | rfl
  · exact bare_fits (by simp [Builtin.classes]) rfl d
  · exact bare_fits (by simp [Builtin.classes]) rfl d

theorem rooted_builtin : builtin.Rooted := by
  intro c held
  have member : c ∈ Builtin.classes := mem_of_holds_builtin held
  have all : ∀ c ∈ Builtin.classes, c.hasBase "object" := by decide
  exact all c member

theorem Built.lawful {d : Dialect} {roots : Bool} {u : Universe} (built : u.Built d roots) :
    u.Lawful d := by
  induction built with
  | builtin => exact lawful_builtin d
  | define _ _ arguments defined ih => exact ih.define defined arguments

theorem Built.widen {d e : Dialect} {roots : Bool} {u : Universe} (built : u.Built d roots)
    (wider : d.Within e) : u.Built e roots := by
  induction built with
  | builtin => exact .builtin
  | define _ based arguments defined ih =>
      refine .define ih based ?_ defined
      intro b above
      exact Ty.allFit_mono wider (fun _ held => held) (arguments b above)

theorem Built.rooted {d : Dialect} {u : Universe} (built : u.Built d false) : u.Rooted := by
  induction built with
  | builtin => exact rooted_builtin
  | define _ based _ defined ih => exact ih.define defined (based.resolve_left (by simp))

namespace Grown

variable {u : Universe} (grown : u.Grown)

include grown

theorem holds_builtin {c : Class} (member : c ∈ Builtin.classes) : u.holds c := by
  induction grown with
  | builtin => exact holds_of_mem_classes member
  | define _ defined ih => exact holds_define_of_holds defined c ih

theorem arity_nonneg {c : Class} (held : u.holds c) : 0 ≤ c.arity := by
  induction grown with
  | builtin =>
      have all : ∀ c ∈ Builtin.classes, 0 ≤ c.arity := by decide
      exact all c (mem_of_holds_builtin held)
  | define _ defined ih =>
      rcases holds_of_holds_define defined held with rfl | old
      · obtain ⟨-, natural, -, rfl, -⟩ := defineAs_eq_ok_iff.mp defined
        exact natural
      · exact ih old

theorem linked : u.Linked := by
  induction grown with
  | builtin => exact (lawful_builtin .plain).linked
  | define _ defined ih => exact Linked.define defined ih

/-- The universe holds the base of a class, which is another one and has as many arguments as
    it takes. -/
theorem base_held {c : Class} {b : Instance} (held : u.holds c) (above : c.base = some b) :
    u.holds b.cls ∧ (b.args.length : Int) = b.cls.arity ∧ c.name ≠ b.cls.name := by
  obtain ⟨baseHeld, count⟩ := grown.linked held above
  refine ⟨baseHeld, count, fun names => ?_⟩
  obtain rfl := eq_of_holds held baseHeld names
  rcases b with ⟨⟨serial, name, arity, base⟩, args⟩
  have sizes := congrArg sizeOf above
  simp only [Option.some.sizeOf_spec, Instance.mk.sizeOf_spec, Class.mk.sizeOf_spec] at sizes
  omega

end Grown

theorem Built.add {d : Dialect} {roots : Bool} {u : Universe} (built : u.Built d roots) (c : Class)
    (fresh : u.lookup? c.name = none) (arity : 0 ≤ c.arity) (based : roots ∨ c.base.isSome)
    (fit : ∀ b ∈ c.base, b.fits u d) : Built d roots (u.insert c) := by
  cases c
  refine .define built based (fun b above => (Instance.fits_iff.mp (fit b above)).2.2)
    (defineAs_eq_ok_iff.mpr ⟨fresh, arity, ?_, rfl, rfl⟩)
  intro b above
  obtain ⟨held, count, -⟩ := Instance.fits_iff.mp (fit b above)
  exact ⟨held, count⟩

end Universe

/-- A class with all its arguments alike. -/
def Class.filled (c : Class) (t : Ty) : Instance := ⟨c, List.replicate c.arity.toNat t⟩

theorem Ty.allFit_replicate {u : Universe} {d : Dialect} {t : Ty} (n : Nat) (fit : t.fits u d) :
    Ty.allFit u d (List.replicate n t) := by
  induction n with
  | zero => rfl
  | succ n ih => exact Ty.allFit_cons_iff.mpr ⟨fit, ih⟩

theorem Universe.Grown.filled_fits {u : Universe} {d : Dialect} (grown : u.Grown) {c : Class}
    {t : Ty} (held : u.holds c) (fit : t.fits u d) : (c.filled t).fits u d := by
  refine Instance.fits_iff.mpr ⟨held, ?_, Ty.allFit_replicate _ fit⟩
  have natural := grown.arity_nonneg held
  rw [Class.filled, List.length_replicate, Int.toNat_of_nonneg natural]

theorem Universe.Grown.anchors_fit {u : Universe} {d : Dialect} (grown : u.Grown) :
    Builtin.anchors.function.fits u d ∧ Builtin.anchors.tuple.fits u d := by
  have function : u.holds Builtin.function := grown.holds_builtin (by simp [Builtin.classes])
  have tuple : u.holds Builtin.tuple := grown.holds_builtin (by simp [Builtin.classes])
  exact ⟨grown.filled_fits (t := .bottom) function rfl, grown.filled_fits (t := .bottom) tuple rfl⟩

namespace Sample

/-- Lists of integers. -/
def intList : Class := ⟨10, "intlist", 0, some ⟨Builtin.list, [.inst ⟨Builtin.int, []⟩]⟩⟩

def world : Universe := Universe.builtin.insert intList

theorem built_world {roots : Bool} : world.Built .plain roots := by
  have list : Universe.builtin.holds Builtin.list :=
    Universe.holds_of_mem_classes (by simp [Builtin.classes])
  have int : Instance.fits Universe.builtin .plain ⟨Builtin.int, []⟩ :=
    Universe.bare_fits (by simp [Builtin.classes]) rfl _
  have fit : ∀ b ∈ intList.base, b.fits Universe.builtin .plain := by
    rintro b ⟨⟩
    exact Instance.fits_iff.mpr ⟨list, rfl, Ty.allFit_cons_iff.mpr ⟨int, rfl⟩⟩
  exact (Universe.Built.builtin (d := .plain)).add intList rfl (by decide) (.inr rfl) fit

/-- A root besides `object`. -/
def rock : Class := ⟨11, "rock", 0, none⟩

def rockyWorld : Universe := world.insert rock

theorem built_rockyWorld : rockyWorld.Built .plain true :=
  built_world.add rock (by decide) (by decide) (.inl rfl) (by simp [rock])

/-- A type that takes no arguments. -/
def one (c : Class) : Ty := .inst ⟨c, []⟩

def listOf (t : Ty) : Ty := .inst ⟨Builtin.list, [t]⟩

def function (param result : Ty) : Ty := .callable [param] result Builtin.anchors.function

end Sample

end TypeBounds
