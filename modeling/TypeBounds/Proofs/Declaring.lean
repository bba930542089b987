import TypeBounds.Proofs.Faults

/-! # Declaring classes and variables

A declaration adds its class exactly if the name is free, the number of parameters is not
negative and the base it asks for can be had. The bases are what type expressions say, so
the universe that comes of declarations has them well-formed. Variables are declared under
the names of their nodes exactly if no two nodes have one name.
-/

namespace TypeBounds

open Yaml (Node)

/-- The base that a declaration asks for. -/
inductive ClassDecl.Asks (u : Universe) (d : ClassDecl) : Option Instance → Prop where
  | root (root : d.root) (unnamed : d.base = "") : Asks u d none
  | object (based : d.root = false) (unnamed : d.base = "") :
      Asks u d (some Builtin.anchors.object)
  | named {e : TypeExpr} {i : Instance} (based : d.root = false) (named : d.base ≠ "")
      (read : TypeExpr.read d.base = .ok e)
      (means : e.resolve (.over u) d.baseAt = ⟨.inst i, []⟩) : Asks u d (some i)

/-- A declaration adds its class to a universe. -/
structure ClassDecl.Adds (u : Universe) (d : ClassDecl) (base : Option Instance) : Prop where
  free : u.lookup? d.name = none
  params : 0 ≤ d.params
  asks : d.Asks u base

/-- The class of a declaration with a base. -/
def ClassDecl.made (u : Universe) (d : ClassDecl) (base : Option Instance) : Class :=
  ⟨u.size, d.name, d.params, base⟩

/-- All declarations add their classes, each to what those before it have made of the universe. -/
inductive Universe.Declares : Universe → List ClassDecl → Universe → Prop where
  | nil {u : Universe} : Declares u [] u
  | cons {u last : Universe} {d : ClassDecl} {ds : List ClassDecl} {base : Option Instance}
      (adds : d.Adds u base) (others : Declares (u.insert (d.made u base)) ds last) :
      Declares u (d :: ds) last

/-- What is wrong about the base of a declaration. -/
inductive ClassDecl.BaseMistake (u : Universe) (d : ClassDecl) : Mistake → Prop where
  | root (root : d.root) (named : d.base ≠ "") :
      BaseMistake u d (d.invalid "a root class cannot have a base")
  | unread {e : ReadError} (based : d.root = false) (named : d.base ≠ "")
      (read : TypeExpr.read d.base = .error e) : BaseMistake u d (e.mistake d.baseAt d.base)
  | unresolved {e : TypeExpr} {m : Mistake} (based : d.root = false) (named : d.base ≠ "")
      (read : TypeExpr.read d.base = .ok e) (mistaken : e.HasMistake (.over u) d.baseAt m) :
      BaseMistake u d m
  | noClass {e : TypeExpr} {t : Ty} (based : d.root = false) (named : d.base ≠ "")
      (read : TypeExpr.read d.base = .ok e) (means : e.resolve (.over u) d.baseAt = ⟨t, []⟩)
      (other : ∀ i, t ≠ .inst i) :
      BaseMistake u d (d.invalid ("base '" ++ t.text ++ "' is not a class"))

/-- What is wrong about a declaration. -/
inductive ClassDecl.HasMistake (u : Universe) (d : ClassDecl) : Mistake → Prop where
  | taken {c : Class} (known : u.lookup? d.name = some c) :
      HasMistake u d ⟨d.position, .duplicateClass d.name⟩
  | base {m : Mistake} (free : u.lookup? d.name = none) (mistaken : d.BaseMistake u m) :
      HasMistake u d m
  | params {base : Option Instance} (free : u.lookup? d.name = none) (asks : d.Asks u base)
      (negative : d.params < 0) : HasMistake u d (d.invalid
        ("class '" ++ d.name ++ "' cannot have " ++ toString d.params ++ " type parameters"))

/-- What declarations make of a universe: those with mistakes are left out. -/
inductive Universe.Keeps : Universe → List ClassDecl → Universe → Prop where
  | nil {u : Universe} : Keeps u [] u
  | adds {u last : Universe} {d : ClassDecl} {ds : List ClassDecl} {base : Option Instance}
      (adds : d.Adds u base) (others : Keeps (u.insert (d.made u base)) ds last) :
      Keeps u (d :: ds) last
  | skips {u last : Universe} {d : ClassDecl} {ds : List ClassDecl} {m : Mistake}
      (mistaken : d.HasMistake u m) (others : Keeps u ds last) : Keeps u (d :: ds) last

namespace ClassDecl

theorem resolveBase_eq_ok_iff {u : Universe} {d : ClassDecl} {i : Instance} :
    d.resolveBase u = .ok i ↔ ∃ e, TypeExpr.read d.base = .ok e ∧
      e.resolve (.over u) d.baseAt = ⟨.inst i, []⟩ := by
  unfold resolveBase
  cases TypeExpr.read d.base with
  | error e => simp
  | ok e =>
      simp only [Except.ok.injEq, exists_eq_left']
      rcases e.resolve (.over u) d.baseAt with ⟨type, mistakes⟩
      cases mistakes with
      | nil => cases type <;> simp
      | cons => simp

section

variable {u : Universe} (grown : u.Grown) {d : ClassDecl} {base : Option Instance}

include grown

theorem chooseBase_eq_ok_iff : d.chooseBase u = .ok base ↔ d.Asks u base := by
  unfold chooseBase
  constructor
  · intro chosen
    split at chosen
    · rename_i root
      split at chosen
      · rename_i unnamed
        cases chosen
        exact .root root (String.isEmpty_iff.mp unnamed)
      · cases chosen
    · rename_i based
      replace based : d.root = false := by simpa using based
      split at chosen
      · rename_i unnamed
        rw [grown.scope_over] at chosen
        cases chosen
        exact .object based (String.isEmpty_iff.mp unnamed)
      · rename_i named
        cases resolved : d.resolveBase u with
        | error ms => simp [resolved, Except.map] at chosen
        | ok i =>
            obtain ⟨e, read, means⟩ := resolveBase_eq_ok_iff.mp resolved
            rw [resolved] at chosen
            cases chosen
            exact .named based (fun empty => named (String.isEmpty_iff.mpr empty)) read means
  · rintro (⟨root, unnamed⟩ | ⟨based, unnamed⟩ | ⟨based, named, read, means⟩)
    · simp [root, unnamed]
    · simp [based, unnamed, grown.scope_over]
    · have resolved := resolveBase_eq_ok_iff.mpr ⟨_, read, means⟩
      simp [based, named, resolved, Except.map]

theorem Asks.fits {b : Instance} (asks : d.Asks u (some b)) : b.fits u .written := by
  cases asks with
  | object =>
      have held : u.holds Builtin.object := grown.holds_builtin (by simp [Builtin.classes])
      exact Instance.fits_iff.mpr ⟨held, rfl, rfl⟩
  | named _ _ read means =>
      rw [grown.scope_over] at means
      have written := TypeExpr.resolve_written grown (TypeExpr.isSpelled_of_read read)
        (congrArg Resolved.mistakes means)
      rw [means] at written
      exact written.1

/-- A declaration adds its class exactly if its base can be had; the universe has no objection
    of its own then. -/
theorem declare_eq_ok_iff {larger : Universe} : d.declare u = .ok larger ↔
    ∃ base, d.Adds u base ∧ larger = u.insert (d.made u base) := by
  constructor
  · intro declared
    unfold declare at declared
    split at declared
    · cases declared
    · cases chosen : d.chooseBase u with
      | error ms => simp [chosen, bind, Except.bind] at declared
      | ok base =>
          cases defined : u.define d.name d.params base with
          | error e => simp [chosen, defined, bind, Except.bind, throw, throwThe,
              MonadExceptOf.throw] at declared
          | ok pair =>
              simp only [chosen, defined, bind, Except.bind, pure, Except.pure,
                Except.ok.injEq] at declared
              obtain ⟨free, params, -, made, last⟩ := Universe.defineAs_eq_ok_iff.mp defined
              refine ⟨base, ⟨free, params, (chooseBase_eq_ok_iff grown).mp chosen⟩, ?_⟩
              rw [← declared, last, made, ClassDecl.made]
  · rintro ⟨base, ⟨free, params, asks⟩, rfl⟩
    have chosen := (chooseBase_eq_ok_iff grown).mpr asks
    have known : ∀ b, base = some b → u.holds b.cls ∧ (b.args.length : Int) = b.cls.arity := by
      rintro b rfl
      obtain ⟨held, count, -⟩ := Instance.fits_iff.mp (asks.fits grown)
      exact ⟨held, count⟩
    have defined : u.define d.name d.params base = .ok (_, d.made u base) :=
      Universe.defineAs_eq_ok_iff.mpr ⟨free, params, known, rfl, rfl⟩
    simp [declare, free, chosen, defined, bind, Except.bind, pure, Except.pure]

theorem Adds.built (built : u.Built .written true) (adds : d.Adds u base) :
    (u.insert (d.made u base)).Built .written true := by
  refine built.add (d.made u base) adds.free adds.params (.inl rfl) ?_
  rintro b above
  obtain rfl : base = some b := above
  exact adds.asks.fits grown

end

section Failing

variable {u : Universe} {d : ClassDecl} {m : Mistake}

theorem resolveBase_of_other {e : TypeExpr} {t : Ty} (read : TypeExpr.read d.base = .ok e)
    (means : e.resolve (.over u) d.baseAt = ⟨t, []⟩) (other : ∀ i, t ≠ .inst i) :
    d.resolveBase u = .error [d.invalid ("base '" ++ t.text ++ "' is not a class")] := by
  cases t with
  | inst i => exact absurd rfl (other i)
  | _ => simp only [resolveBase, read, means, List.isEmpty_nil, if_true]; rfl

theorem resolveBase_of_mistakes {e : TypeExpr} (read : TypeExpr.read d.base = .ok e)
    (wrong : (e.resolve (.over u) d.baseAt).mistakes ≠ []) :
    d.resolveBase u = .error (e.resolve (.over u) d.baseAt).mistakes := by
  simp [resolveBase, read, wrong]

theorem exists_resolveBase_error_iff (based : d.root = false) (named : d.base ≠ "") :
    (∃ ms, d.resolveBase u = .error ms ∧ m ∈ ms) ↔ d.BaseMistake u m := by
  constructor
  · rintro ⟨ms, failed, member⟩
    cases read : TypeExpr.read d.base with
    | error e =>
        simp only [resolveBase, read, Except.error.injEq] at failed
        subst failed
        obtain rfl := List.mem_singleton.mp member
        exact .unread based named read
    | ok e =>
        by_cases clean : (e.resolve (.over u) d.baseAt).mistakes = []
        · have means : e.resolve (.over u) d.baseAt = ⟨(e.resolve (.over u) d.baseAt).type, []⟩ :=
            congrArg (Resolved.mk _) clean
          have other : ∀ i, (e.resolve (.over u) d.baseAt).type ≠ .inst i := by
            intro i inst
            rw [inst] at means
            cases failed.symm.trans (resolveBase_eq_ok_iff.mpr ⟨e, read, means⟩)
          cases failed.symm.trans (resolveBase_of_other read means other)
          obtain rfl := List.mem_singleton.mp member
          exact .noClass based named read means other
        · cases failed.symm.trans (resolveBase_of_mistakes read clean)
          exact .unresolved based named read ((e.mem_mistakes_iff _ _).mp member)
  · rintro (⟨root, -⟩ | ⟨-, -, read⟩ | ⟨-, -, read, mistaken⟩ | ⟨-, -, read, means, other⟩)
    · simp [based] at root
    · exact ⟨_, by simp only [resolveBase, read], List.mem_singleton_self _⟩
    · have member := (TypeExpr.mem_mistakes_iff _ _ _).mpr mistaken
      exact ⟨_, resolveBase_of_mistakes read (List.ne_nil_of_mem member), member⟩
    · exact ⟨_, resolveBase_of_other read means other, List.mem_singleton_self _⟩

theorem exists_chooseBase_error_iff :
    (∃ ms, d.chooseBase u = .error ms ∧ m ∈ ms) ↔ d.BaseMistake u m := by
  by_cases named : d.base = ""
  · refine iff_of_false ?_ ?_
    · rintro ⟨ms, failed, -⟩
      cases root : d.root <;> simp [chooseBase, root, named] at failed
    · rintro (⟨-, named'⟩ | ⟨-, named', -⟩ | ⟨-, named', -, -⟩ | ⟨-, named', -, -, -⟩) <;>
        exact named' named
  · cases root : d.root with
    | true =>
        constructor
        · rintro ⟨ms, failed, member⟩
          simp only [chooseBase, root, named, String.isEmpty_iff, if_true, if_false,
            Except.error.injEq] at failed
          subst failed
          obtain rfl := List.mem_singleton.mp member
          exact .root root named
        · rintro (⟨-, -⟩ | ⟨based, -, -⟩ | ⟨based, -, -, -⟩ | ⟨based, -, -, -, -⟩)
          · exact ⟨_, by simp [chooseBase, root, named], List.mem_singleton_self _⟩
          all_goals simp [root] at based
    | false =>
        rw [← exists_resolveBase_error_iff root named]
        have chosen : d.chooseBase u = (d.resolveBase u).map some := by
          simp [chooseBase, root, named]
        rw [chosen]
        cases d.resolveBase u <;> simp [Except.map]

/-- A declaration fails with what is wrong about it. The universe has no objection of its own but
    to the number of parameters. -/
theorem exists_declare_error_iff (grown : u.Grown) :
    (∃ ms, d.declare u = .error ms ∧ m ∈ ms) ↔ d.HasMistake u m := by
  cases known : u.lookup? d.name with
  | some c =>
      constructor
      · rintro ⟨ms, failed, member⟩
        simp only [declare, known, Option.isSome_some, if_true, Except.error.injEq] at failed
        subst failed
        obtain rfl := List.mem_singleton.mp member
        exact .taken known
      · rintro (known' | ⟨free, -⟩ | ⟨free, -, -⟩)
        · exact ⟨_, by simp [declare, known], List.mem_singleton_self _⟩
        · cases known.symm.trans free
        · cases known.symm.trans free
  | none =>
      constructor
      · rintro ⟨ms, failed, member⟩
        cases chosen : d.chooseBase u with
        | error reasons =>
            simp only [declare, known, chosen, Option.isSome_none, Bool.false_eq_true, if_false,
              bind, Except.bind, Except.error.injEq] at failed
            subst failed
            exact .base known (exists_chooseBase_error_iff.mp ⟨_, chosen, member⟩)
        | ok base =>
            have asks := (chooseBase_eq_ok_iff grown).mp chosen
            by_cases negative : d.params < 0
            · simp only [declare, known, chosen, Option.isSome_none, Bool.false_eq_true, if_false,
                bind, Except.bind, Universe.define, Universe.defineAs, negative, if_true, throw,
                throwThe, MonadExceptOf.throw, Except.error.injEq] at failed
              subst failed
              obtain rfl := List.mem_singleton.mp member
              exact .params known asks negative
            · have adds : d.Adds u base := ⟨known, by omega, asks⟩
              cases failed.symm.trans ((declare_eq_ok_iff grown).mpr ⟨base, adds, rfl⟩)
      · rintro (known' | ⟨-, mistaken⟩ | ⟨-, asks, negative⟩)
        · cases known.symm.trans known'
        · obtain ⟨ms, chosen, member⟩ := exists_chooseBase_error_iff.mpr mistaken
          exact ⟨ms, by simp [declare, known, chosen, bind, Except.bind], member⟩
        · have chosen := (chooseBase_eq_ok_iff grown).mpr asks
          refine ⟨_, ?_, List.mem_singleton_self _⟩
          simp [declare, known, chosen, bind, Except.bind, Universe.define, Universe.defineAs,
            negative, throw, throwThe, MonadExceptOf.throw, DefineError.message]
          rfl

end Failing

theorem ne_nil_of_resolveBase_eq_error {u : Universe} {d : ClassDecl} {ms : List Mistake}
    (failed : d.resolveBase u = .error ms) : ms ≠ [] := by
  unfold resolveBase at failed
  split at failed
  · cases failed
    simp
  · simp only at failed
    split at failed
    · split at failed
      · cases failed
      · cases failed
        simp
    · rename_i mistaken
      cases failed
      simpa using mistaken

theorem ne_nil_of_chooseBase_eq_error {u : Universe} {d : ClassDecl} {ms : List Mistake}
    (failed : d.chooseBase u = .error ms) : ms ≠ [] := by
  unfold chooseBase at failed
  split at failed
  · split at failed
    · cases failed
    · cases failed
      simp
  · split at failed
    · cases failed
    · cases resolved : d.resolveBase u with
      | ok i => simp [resolved, Except.map] at failed
      | error reasons =>
          rw [resolved] at failed
          cases failed
          exact ne_nil_of_resolveBase_eq_error resolved

theorem ne_nil_of_declare_eq_error {u : Universe} {d : ClassDecl} {ms : List Mistake}
    (failed : d.declare u = .error ms) : ms ≠ [] := by
  unfold declare at failed
  split at failed
  · cases failed
    simp
  · cases chosen : d.chooseBase u with
    | error reasons =>
        simp only [chosen, bind, Except.bind, Except.error.injEq] at failed
        exact failed ▸ ne_nil_of_chooseBase_eq_error chosen
    | ok base =>
        cases defined : u.define d.name d.params base with
        | ok pair => simp [chosen, defined, bind, Except.bind, pure, Except.pure] at failed
        | error e =>
            simp only [chosen, defined, bind, Except.bind, throw, throwThe, MonadExceptOf.throw,
              Except.error.injEq] at failed
            simp [← failed]

end ClassDecl

theorem exists_split_cons {α : Type} {a : α} {as : List α} {P : List α → α → Prop} :
    (∃ before x after, a :: as = before ++ x :: after ∧ P before x) ↔
      P [] a ∨ ∃ before x after, as = before ++ x :: after ∧ P (a :: before) x := by
  constructor
  · rintro ⟨before, x, after, split, holds⟩
    cases before with
    | nil =>
        cases split
        exact .inl holds
    | cons b before =>
        cases split
        exact .inr ⟨before, x, after, rfl, holds⟩
  · rintro (holds | ⟨before, x, after, rfl, holds⟩)
    · exact ⟨[], a, as, rfl, holds⟩
    · exact ⟨a :: before, x, after, rfl, holds⟩

section Classes

variable {u : Universe} {ds : List ClassDecl}

theorem declareClasses_built (built : u.Built .written true) :
    (declareClasses u ds).1.Built .written true := by
  induction ds generalizing u with
  | nil => exact built
  | cons d ds ih =>
      unfold declareClasses
      split
      · rename_i declared
        obtain ⟨base, adds, rfl⟩ := (ClassDecl.declare_eq_ok_iff built.grown).mp declared
        exact ih (adds.built built.grown built)
      · exact ih built

theorem declareClasses_eq_iff {last : Universe} (built : u.Built .written true) :
    declareClasses u ds = (last, []) ↔ u.Declares ds last := by
  induction ds generalizing u with
  | nil =>
      constructor
      · rintro ⟨⟩
        exact .nil
      · rintro ⟨⟩
        rfl
  | cons d ds ih =>
      unfold declareClasses
      constructor
      · intro clean
        split at clean
        · rename_i declared
          obtain ⟨base, adds, rfl⟩ := (ClassDecl.declare_eq_ok_iff built.grown).mp declared
          exact .cons adds ((ih (adds.built built.grown built)).mp clean)
        · rename_i ms failed
          have none := congrArg Prod.snd clean
          exact absurd (List.append_eq_nil_iff.mp none).1
            (ClassDecl.ne_nil_of_declare_eq_error failed)
      · rintro (_ | ⟨adds, others⟩)
        rw [(ClassDecl.declare_eq_ok_iff built.grown).mpr ⟨_, adds, rfl⟩]
        exact (ih (adds.built built.grown built)).mpr others

theorem keeps_iff {last : Universe} (built : u.Built .written true) :
    u.Keeps ds last ↔ (declareClasses u ds).1 = last := by
  induction ds generalizing u with
  | nil =>
      constructor
      · rintro ⟨⟩
        rfl
      · rintro rfl
        exact .nil
  | cons d ds ih =>
      unfold declareClasses
      constructor
      · rintro (_ | ⟨adds, others⟩ | ⟨mistaken, others⟩)
        · rw [(ClassDecl.declare_eq_ok_iff built.grown).mpr ⟨_, adds, rfl⟩]
          exact (ih (adds.built built.grown built)).mp others
        · obtain ⟨ms, failed, -⟩ := (ClassDecl.exists_declare_error_iff built.grown).mpr mistaken
          rw [failed]
          exact (ih built).mp others
      · intro kept
        split at kept
        · rename_i declared
          obtain ⟨base, adds, rfl⟩ := (ClassDecl.declare_eq_ok_iff built.grown).mp declared
          exact .adds adds ((ih (adds.built built.grown built)).mpr kept)
        · rename_i ms failed
          obtain ⟨m, member⟩ := List.exists_mem_of_ne_nil ms
            (ClassDecl.ne_nil_of_declare_eq_error failed)
          have mistaken := (ClassDecl.exists_declare_error_iff built.grown).mp ⟨ms, failed, member⟩
          exact .skips mistaken ((ih built).mpr kept)

/-- The mistakes in classes are those of the declarations that fail, each where those before
    it have been declared. -/
theorem mem_mistakes_declareClasses_iff (built : u.Built .written true) {m : Mistake} :
    m ∈ (declareClasses u ds).2 ↔ ∃ before d after, ds = before ++ d :: after ∧
      ∃ v, u.Keeps before v ∧ d.HasMistake v m := by
  have turn (before : List ClassDecl) (d : ClassDecl) :
      (∃ v, u.Keeps before v ∧ d.HasMistake v m) ↔
        ∃ ms, d.declare (declareClasses u before).1 = .error ms ∧ m ∈ ms := by
    rw [ClassDecl.exists_declare_error_iff (declareClasses_built built).grown]
    simp only [keeps_iff built, exists_eq_left']
  simp only [turn]
  clear turn built
  induction ds generalizing u with
  | nil => simp [declareClasses]
  | cons d ds ih =>
      rw [exists_split_cons]
      cases declared : d.declare u with
      | ok larger => simp [declareClasses, declared, ih]
      | error ms => simp [declareClasses, declared, ih]

end Classes

namespace Roster

variable {r : Roster} {name : String}

theorem names_declare : (r.declare name).names = r.names ++ [name] := by
  simp [names, declare]

theorem vars_declare : (r.declare name).vars = r.vars ++ [⟨r.vars.length⟩] := by
  simp [vars, declare]

theorem isSome_find?_iff : (r.find? name).isSome ↔ name ∈ r.names := by
  simp only [find?, names, List.lookup_isSome_iff, List.mem_map, beq_iff_eq, eq_comm (a := name)]

theorem mem_of_find? {v : TypeVar} (found : r.find? name = some v) : (name, v) ∈ r.entries := by
  obtain ⟨before, after, entries, -⟩ := List.lookup_eq_some_iff.mp found
  simp [entries]

theorem find?_declare (new : name ∉ r.names) :
    (r.declare name).find? name = some ⟨r.vars.length⟩ := by
  have absent : r.find? name = none := by
    rw [← Option.not_isSome_iff_eq_none, isSome_find?_iff]
    exact new
  rw [find?] at absent ⊢
  rw [declare, List.lookup_append, absent]
  simp

theorem nodup_declare (distinct : r.names.Nodup) (new : name ∉ r.names) :
    (r.declare name).names.Nodup := by
  rw [names_declare, List.nodup_append]
  refine ⟨distinct, by simp, ?_⟩
  rintro a old b last rfl
  exact new (List.mem_singleton.mp last ▸ old)

/-- The variables are numbered from zero on. -/
def Numbered (r : Roster) : Prop := r.vars = (List.range r.vars.length).map fun (i : Nat) => ⟨i⟩

theorem Numbered.declare (numbered : r.Numbered) : (r.declare name).Numbered := by
  rw [Numbered, vars_declare, List.length_append, List.length_singleton, List.range_succ,
    List.map_append, ← numbered, List.map_singleton]

end Roster

section Variables

variable {r : Roster} {ns : List Node}

theorem declareVariables_numbered (numbered : r.Numbered) :
    (declareVariables r ns).1.Numbered := by
  induction ns generalizing r with
  | nil => exact numbered
  | cons n ns ih =>
      unfold declareVariables
      split
      · exact ih numbered
      · exact ih numbered.declare

theorem mem_declareVariables_iff {name : String} :
    name ∈ (declareVariables r ns).1.names ↔ name ∈ r.names ∨ name ∈ ns.map Node.text := by
  induction ns generalizing r with
  | nil => simp [declareVariables]
  | cons n ns ih =>
      unfold declareVariables
      split
      · rename_i taken
        rw [Roster.isSome_find?_iff] at taken
        rw [ih, List.map_cons, List.mem_cons]
        constructor
        · exact Or.imp_right .inr
        · rintro (old | rfl | new)
          · exact .inl old
          · exact .inl taken
          · exact .inr new
      · rw [ih, Roster.names_declare, List.map_cons, List.mem_cons, List.mem_append,
          List.mem_singleton, or_assoc]

theorem names_declareVariables (clean : (declareVariables r ns).2 = []) :
    (declareVariables r ns).1.names = r.names ++ ns.map Node.text := by
  induction ns generalizing r with
  | nil => exact (List.append_nil _).symm
  | cons n ns ih =>
      unfold declareVariables at clean ⊢
      split at clean
      · cases clean
      · rename_i free
        rw [if_neg free, ih clean, Roster.names_declare, List.append_assoc]
        rfl

theorem declareVariables_clean_iff (distinct : r.names.Nodup) :
    (declareVariables r ns).2 = [] ↔ (r.names ++ ns.map Node.text).Nodup := by
  induction ns generalizing r with
  | nil => simp [declareVariables, distinct]
  | cons n ns ih =>
      unfold declareVariables
      split
      · rename_i taken
        rw [Roster.isSome_find?_iff] at taken
        refine iff_of_false (List.cons_ne_nil _ _) fun apart => ?_
        exact absurd rfl (List.nodup_append.mp apart |>.2.2 _ taken n.text (by simp))
      · rename_i free
        rw [Roster.isSome_find?_iff] at free
        rw [ih (Roster.nodup_declare distinct free), Roster.names_declare, List.append_assoc]
        rfl

theorem mem_mistakes_declareVariables_iff {m : Mistake} : m ∈ (declareVariables r ns).2 ↔
    ∃ before n after, ns = before ++ n :: after ∧
      (n.text ∈ r.names ∨ n.text ∈ before.map Node.text) ∧
        m = ⟨n.position, .duplicateVariable n.text⟩ := by
  induction ns generalizing r with
  | nil => simp [declareVariables]
  | cons n ns ih =>
      rw [exists_split_cons]
      unfold declareVariables
      split
      · rename_i taken
        rw [Roster.isSome_find?_iff] at taken
        have absorbed (x : String) (before : List Node) :
            x ∈ r.names ∨ x ∈ (n :: before).map Node.text ↔
              x ∈ r.names ∨ x ∈ before.map Node.text := by
          constructor
          · rintro (old | new)
            · exact .inl old
            · rcases List.mem_cons.mp new with rfl | later
              · exact .inl taken
              · exact .inr later
          · exact Or.imp_right (List.mem_cons_of_mem _)
        simp only [absorbed, List.mem_cons, ih, taken, true_or, true_and]
      · rename_i free
        rw [Roster.isSome_find?_iff] at free
        rw [ih]
        simp [free, Roster.names_declare, or_assoc]

end Variables

end TypeBounds
