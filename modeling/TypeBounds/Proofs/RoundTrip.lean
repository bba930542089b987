import TypeBounds.Problem.Declare
import TypeBounds.Proofs.Grammar
import TypeBounds.Proofs.Growth
import TypeBounds.Proofs.Spelling

/-! # Reading undoes writing

A type that can be written is read back from its text. What is read from any text can be
written, so these are exactly the types that are read back.
-/

namespace TypeBounds

open Token

namespace TypeExpr

/-- The expression resolves to the type without a mistake. -/
def Means (scope : Scope) (t : Ty) (e : TypeExpr) : Prop :=
  ∀ place, e.resolve scope place = ⟨t, []⟩

def AllMean (scope : Scope) (ts : List Ty) (es : List TypeExpr) : Prop :=
  ∀ place, resolveAll scope place es = ⟨ts, []⟩

theorem Means.cons {scope : Scope} {t : Ty} {ts : List Ty} {e : TypeExpr} {es : List TypeExpr}
    (first : Means scope t e) (others : AllMean scope ts es) :
    AllMean scope (t :: ts) (e :: es) := by
  intro place
  simp [resolveAll, first place, others place]

theorem length_resolveAll (scope : Scope) (place : Placement) (es : List TypeExpr) :
    (resolveAll scope place es).types.length = es.length := by
  induction es with
  | nil => rfl
  | cons e es ih => simp [resolveAll, ih]

theorem AllMean.length_eq {scope : Scope} {ts : List Ty} {es : List TypeExpr}
    (mean : AllMean scope ts es) : es.length = ts.length := by
  rw [← length_resolveAll scope .nowhere es, mean .nowhere]

theorem means_special {scope : Scope} {name : String} {t : Ty}
    (special : specialType? name = some t) (position : Position) :
    Means scope t (.named position name []) := by
  intro place
  simp [resolve, special]

theorem means_class {scope : Scope} {c : Class} {ts : List Ty} {es : List TypeExpr}
    (ordinary : specialType? c.name = none) (held : scope.classes.lookup? c.name = some c)
    (count : (ts.length : Int) = c.arity) (mean : AllMean scope ts es) (position : Position) :
    Means scope (.inst ⟨c, ts⟩) (.named position c.name es) := by
  intro place
  have enough : (es.length : Int) = c.arity := by rw [mean.length_eq, count]
  simp [resolve, ordinary, held, enough, mean place]

theorem length_allUnplaced (es : List TypeExpr) : (allUnplaced es).length = es.length := by
  induction es with
  | nil => rfl
  | cons e es ih => simp [allUnplaced, ih]

end TypeExpr

mutual
theorem TypeExpr.resolve_unplaced (scope : Scope) (place : Placement) (e : TypeExpr) :
    (e.unplaced.resolve scope place).type = (e.resolve scope place).type ∧
      ((e.unplaced.resolve scope place).mistakes = [] ↔ (e.resolve scope place).mistakes = []) := by
  cases e with
  | callable position params result =>
      obtain ⟨types, clean⟩ := TypeExpr.resolveAll_unplaced scope place params
      obtain ⟨type, clean'⟩ := TypeExpr.resolve_unplaced scope place result
      simp [TypeExpr.unplaced, TypeExpr.resolve, types, type, clean, clean']
  | tuple position items =>
      obtain ⟨types, clean⟩ := TypeExpr.resolveAll_unplaced scope place items
      simp [TypeExpr.unplaced, TypeExpr.resolve, types, clean]
  | named position name args =>
      obtain ⟨types, clean⟩ := TypeExpr.resolveAll_unplaced scope place args
      have count := TypeExpr.length_allUnplaced args
      have empty : (TypeExpr.allUnplaced args).isEmpty = args.isEmpty := by
        cases args <;> rfl
      simp only [TypeExpr.unplaced, TypeExpr.resolve, count, empty]
      cases specialType? name with
      | some special => cases args.isEmpty <;> simp
      | none =>
          cases scope.classes.lookup? name with
          | none => simp
          | some c =>
              simp only
              split
              next => simp [types, clean]
              next => simp

theorem TypeExpr.resolveAll_unplaced (scope : Scope) (place : Placement) (es : List TypeExpr) :
    (resolveAll scope place (allUnplaced es)).types = (resolveAll scope place es).types ∧
      ((resolveAll scope place (allUnplaced es)).mistakes = [] ↔
        (resolveAll scope place es).mistakes = []) := by
  cases es with
  | nil => exact ⟨rfl, Iff.rfl⟩
  | cons e es =>
      obtain ⟨type, clean⟩ := TypeExpr.resolve_unplaced scope place e
      obtain ⟨types, clean'⟩ := TypeExpr.resolveAll_unplaced scope place es
      simp [TypeExpr.allUnplaced, resolveAll, types, type, clean, clean']
end

open TypeExpr (Means AllMean)

theorem TypeExpr.Means.of_unplaced_eq {scope : Scope} {t : Ty} {e e' : TypeExpr}
    (means : Means scope t e) (same : e.unplaced = e'.unplaced) : Means scope t e' := by
  intro place
  obtain ⟨type, clean⟩ := e.resolve_unplaced scope place
  obtain ⟨type', clean'⟩ := e'.resolve_unplaced scope place
  rw [same, means place] at type clean
  have resolved : (e'.resolve scope place).type = t := type'.symm.trans type
  have noMistake : (e'.resolve scope place).mistakes = [] := clean'.mp (clean.mpr rfl)
  rw [← resolved, ← noMistake]

mutual
/-- The lexemes of a type are derived, and what is derived means the type. -/
theorem Ty.exists_derivation {u : Universe} {t : Ty} (fit : t.fits u .written)
    (spelled : t.isSpelled) :
    ∃ d : Derivation, d.lexemes = t.lexemes ∧ Means ⟨u, Builtin.anchors⟩ t d.expr := by
  have special {name : String} {t : Ty} (is : specialType? name = some t) :
      ∃ d : Derivation, d.lexemes = [.ident name] ∧ Means ⟨u, Builtin.anchors⟩ t d.expr :=
    ⟨.name .start name, by simp, TypeExpr.means_special is .start⟩
  match t with
  | .inst ⟨c, args⟩ =>
      obtain ⟨held, count, argsFit⟩ := Instance.fits_iff.mp fit
      rw [Universe.holds_iff] at held
      simp only [Ty.isSpelled, Instance.isSpelled, Bool.and_eq_true, Option.isNone_iff_eq_none]
        at spelled
      obtain ⟨⟨-, ordinary⟩, argsSpelled⟩ := spelled
      match args with
      | [] =>
          exact ⟨.name .start c.name, by simp [Ty.lexemes, Instance.lexemes],
            TypeExpr.means_class ordinary held count (fun _ => rfl) .start⟩
      | arg :: args =>
          obtain ⟨ds, lexemes, mean⟩ := Ty.exists_derivations (by simp) argsFit argsSpelled
          exact ⟨.applied .start c.name .start ds .start,
            by simp [Ty.lexemes, Instance.lexemes, lexemes],
            TypeExpr.means_class ordinary held count mean .start⟩
  | .callable params result fallback =>
      obtain ⟨paramsFit, resultFit, -, anchor⟩ := Ty.fits_callable_iff.mp fit
      obtain ⟨paramsSpelled, resultSpelled⟩ := (Bool.and_eq_true _ _).mp spelled
      obtain rfl := anchor.resolve_left (by decide)
      obtain ⟨d, lexemes, means⟩ := Ty.exists_derivation resultFit resultSpelled
      match params with
      | [] =>
          refine ⟨.thunk .start .start .start .start d, ?_, ?_⟩
          · simp [Ty.lexemes, Ty.listLexemes, lexemes]
          · intro place
            simp [Derivation.expr, TypeExpr.resolve, resolveAll, means place]
      | param :: params =>
          obtain ⟨ds, lexemes', mean⟩ := Ty.exists_derivations (by simp) paramsFit paramsSpelled
          refine ⟨.callable .start .start ds .start .start d, ?_, ?_⟩
          · simp [Ty.lexemes, lexemes, lexemes']
          · intro place
            simp [Derivation.expr, TypeExpr.resolve, mean place, means place]
  | .tuple items fallback =>
      obtain ⟨itemsFit, -, anchor⟩ := Ty.fits_tuple_iff.mp fit
      obtain rfl := anchor.resolve_left (by decide)
      match items with
      | [] => exact ⟨.unit .start .start, by simp [Ty.lexemes, Ty.listLexemes], fun _ => rfl⟩
      | item :: items =>
          obtain ⟨ds, lexemes, mean⟩ := Ty.exists_derivations (by simp) itemsFit spelled
          refine ⟨.tuple .start ds (if items.isEmpty then some .start else none) .start, ?_, ?_⟩
          · cases items <;> simp [Ty.lexemes, lexemes, Ty.listLexemes, Ty.moreLexemes]
          · intro place
            simp [Derivation.expr, TypeExpr.resolve, mean place]
  | .void => exact special rfl
  | .dynamic => exact special rfl
  | .bottom => exact special rfl

theorem Ty.exists_derivations {u : Universe} {ts : List Ty} (some : ts ≠ [])
    (fits : Ty.allFit u .written ts) (spelled : Ty.allSpelled ts) :
    ∃ ds : Derivations, ds.lexemes = Ty.listLexemes ts ∧
      AllMean ⟨u, Builtin.anchors⟩ ts ds.exprs := by
  match ts with
  | [t] =>
      obtain ⟨headFit, -⟩ := Ty.allFit_cons_iff.mp fits
      obtain ⟨head, -⟩ := (Bool.and_eq_true _ _).mp spelled
      obtain ⟨d, lexemes, means⟩ := Ty.exists_derivation headFit head
      exact ⟨.one d, by simp [lexemes, Ty.listLexemes, Ty.moreLexemes], means.cons fun _ => rfl⟩
  | t :: t' :: ts =>
      obtain ⟨headFit, tailFit⟩ := Ty.allFit_cons_iff.mp fits
      obtain ⟨head, tail⟩ := (Bool.and_eq_true _ _).mp spelled
      obtain ⟨d, lexemes, means⟩ := Ty.exists_derivation headFit head
      obtain ⟨ds, lexemes', mean⟩ := Ty.exists_derivations (by simp) tailFit tail
      exact ⟨.more d .start ds, by simp [lexemes, lexemes', Ty.listLexemes, Ty.moreLexemes],
        means.cons mean⟩
end

mutual
/-- Made of classes in scope, each with as many arguments as it takes, and of special types other
    than `error`, over the anchors of the scope. -/
def Ty.isOver (scope : Scope) : Ty → Bool
  | .inst i => i.isOver scope
  | .callable params result fallback =>
      Ty.allOver scope params && result.isOver scope && fallback = scope.anchors.function
  | .tuple items fallback => Ty.allOver scope items && fallback = scope.anchors.tuple
  | .void => true
  | .dynamic => true
  | .bottom => true
  | .error => false

def Instance.isOver (scope : Scope) : Instance → Bool
  | ⟨c, args⟩ =>
      scope.classes.holds c && (args.length : Int) == c.arity && Ty.allOver scope args

def Ty.allOver (scope : Scope) : List Ty → Bool
  | [] => true
  | t :: ts => t.isOver scope && Ty.allOver scope ts
end

mutual
theorem Ty.fits_of_isOver {u : Universe} (grown : u.Grown) {t : Ty}
    (inScope : t.isOver ⟨u, Builtin.anchors⟩) : t.fits u .written := by
  match t with
  | .inst i => exact Instance.fits_of_isOver grown inScope
  | .callable params result fallback =>
      simp only [Ty.isOver, Bool.and_eq_true, decide_eq_true_eq] at inScope
      obtain ⟨⟨ofParams, ofResult⟩, rfl⟩ := inScope
      exact Ty.fits_callable_iff.mpr ⟨Ty.allFit_of_allOver grown ofParams,
        Ty.fits_of_isOver grown ofResult, grown.anchors_fit.1, .inr rfl⟩
  | .tuple items fallback =>
      simp only [Ty.isOver, Bool.and_eq_true, decide_eq_true_eq] at inScope
      obtain ⟨ofItems, rfl⟩ := inScope
      exact Ty.fits_tuple_iff.mpr
        ⟨Ty.allFit_of_allOver grown ofItems, grown.anchors_fit.2, .inr rfl⟩
  | .void | .dynamic | .bottom => rfl

theorem Instance.fits_of_isOver {u : Universe} (grown : u.Grown) {i : Instance}
    (inScope : i.isOver ⟨u, Builtin.anchors⟩) : i.fits u .written := by
  match i with
  | ⟨c, args⟩ =>
      simp only [Instance.isOver, Bool.and_eq_true, beq_iff_eq] at inScope
      obtain ⟨⟨held, count⟩, ofArgs⟩ := inScope
      exact Instance.fits_iff.mpr ⟨held, count, Ty.allFit_of_allOver grown ofArgs⟩

theorem Ty.allFit_of_allOver {u : Universe} (grown : u.Grown) {ts : List Ty}
    (inScope : Ty.allOver ⟨u, Builtin.anchors⟩ ts) : Ty.allFit u .written ts := by
  match ts with
  | [] => rfl
  | t :: ts =>
      obtain ⟨head, tail⟩ := (Bool.and_eq_true _ _).mp inScope
      exact Ty.allFit_cons_iff.mpr ⟨Ty.fits_of_isOver grown head, Ty.allFit_of_allOver grown tail⟩
end

theorem specialType?_written {name : String} {t : Ty} (special : specialType? name = some t)
    (scope : Scope) : t.isOver scope ∧ t.isSpelled := by
  unfold specialType? at special
  split at special
  · cases special
    exact ⟨rfl, rfl⟩
  · split at special
    · cases special
      exact ⟨rfl, rfl⟩
    · split at special
      · cases special
        exact ⟨rfl, rfl⟩
      · cases special

mutual
theorem TypeExpr.resolve_isOver {scope : Scope} {place : Placement} {e : TypeExpr}
    (clean : (e.resolve scope place).mistakes = []) :
    (e.resolve scope place).type.isOver scope ∧
      (e.isSpelled → (e.resolve scope place).type.isSpelled) := by
  cases e with
  | callable position params result =>
      simp only [TypeExpr.resolve, List.append_eq_nil_iff] at clean
      obtain ⟨paramsOver, paramsSpelled⟩ := TypeExpr.resolveAll_allOver clean.1
      obtain ⟨resultOver, resultSpelled⟩ := TypeExpr.resolve_isOver clean.2
      simp only [TypeExpr.resolve, Ty.isOver, Ty.isSpelled, TypeExpr.isSpelled, Bool.and_eq_true]
      exact ⟨⟨⟨paramsOver, resultOver⟩, by simp⟩,
        fun spelled => ⟨paramsSpelled spelled.1, resultSpelled spelled.2⟩⟩
  | tuple position items =>
      simp only [TypeExpr.resolve] at clean ⊢
      obtain ⟨itemsOver, itemsSpelled⟩ := TypeExpr.resolveAll_allOver clean
      exact ⟨(Bool.and_eq_true _ _).mpr ⟨itemsOver, decide_eq_true rfl⟩, itemsSpelled⟩
  | named position name args =>
      cases special : specialType? name with
      | some t =>
          simp only [TypeExpr.resolve, special]
          obtain ⟨inScope, spelled⟩ := specialType?_written special scope
          exact ⟨inScope, fun _ => spelled⟩
      | none =>
          cases known : scope.classes.lookup? name with
          | none => simp [TypeExpr.resolve, special, known] at clean
          | some c =>
              have names : c.name = name := (Universe.mem_of_lookup? known).2
              have held : scope.classes.holds c := by rw [Universe.holds_iff, names, known]
              by_cases count : (args.length : Int) = c.arity
              · simp only [TypeExpr.resolve, special, known, if_pos count] at clean ⊢
                obtain ⟨argsOver, argsSpelled⟩ := TypeExpr.resolveAll_allOver clean
                have enough : ((resolveAll scope place args).types.length : Int) = c.arity := by
                  rw [TypeExpr.length_resolveAll, count]
                simp only [Ty.isOver, Instance.isOver, Ty.isSpelled, Instance.isSpelled,
                  TypeExpr.isSpelled, Bool.and_eq_true, beq_iff_eq, names, special]
                exact ⟨⟨⟨held, enough⟩, argsOver⟩,
                  fun spelled => ⟨⟨spelled.1, rfl⟩, argsSpelled spelled.2⟩⟩
              · simp [TypeExpr.resolve, special, known, count] at clean

theorem TypeExpr.resolveAll_allOver {scope : Scope} {place : Placement} {es : List TypeExpr}
    (clean : (resolveAll scope place es).mistakes = []) :
    Ty.allOver scope (resolveAll scope place es).types ∧
      (allSpelled es → Ty.allSpelled (resolveAll scope place es).types) := by
  cases es with
  | nil => exact ⟨rfl, fun _ => rfl⟩
  | cons e es =>
      simp only [resolveAll, List.append_eq_nil_iff] at clean
      obtain ⟨headOver, headSpelled⟩ := TypeExpr.resolve_isOver clean.1
      obtain ⟨tailOver, tailSpelled⟩ := TypeExpr.resolveAll_allOver clean.2
      simp only [resolveAll, Ty.allOver, Ty.allSpelled, allSpelled, Bool.and_eq_true]
      exact ⟨⟨headOver, tailOver⟩,
        fun spelled => ⟨headSpelled spelled.1, tailSpelled spelled.2⟩⟩
end

theorem TypeExpr.resolve_written {u : Universe} (grown : u.Grown) {e : TypeExpr}
    (spelled : e.isSpelled) {place : Placement}
    (clean : (e.resolve ⟨u, Builtin.anchors⟩ place).mistakes = []) :
    (e.resolve ⟨u, Builtin.anchors⟩ place).type.fits u .written ∧
      (e.resolve ⟨u, Builtin.anchors⟩ place).type.isSpelled := by
  obtain ⟨inScope, written⟩ := TypeExpr.resolve_isOver clean
  exact ⟨Ty.fits_of_isOver grown inScope, written spelled⟩

theorem Scope.readType_eq_ok_iff {scope : Scope} {source : String} {t : Ty} :
    scope.readType source = .ok t ↔ ∃ e, TypeExpr.read source = .ok e ∧
      e.resolve scope .nowhere = ⟨t, []⟩ := by
  unfold readType
  cases TypeExpr.read source with
  | error e => simp
  | ok e =>
      cases resolved : e.resolve scope .nowhere with
      | mk type mistakes => cases mistakes <;> simp [resolved]

/-- Reading its text gives a type back. -/
theorem Scope.readType_text {u : Universe} {t : Ty} (fit : t.fits u .written)
    (spelled : t.isSpelled) : Scope.readType ⟨u, Builtin.anchors⟩ t.text = .ok t := by
  have scans : Scans t.text.toList t.lexemes [] := Ty.scans_text spelled (by simp [Stops])
  obtain ⟨tokens, stop, lexemes, scanned⟩ := scans .start
  rw [List.append_nil, scanFrom] at scanned
  simp only [Except.map, List.append_nil] at scanned
  obtain ⟨d, spelling, means⟩ := Ty.exists_derivation fit spelled
  obtain ⟨d', eq, found⟩ := TypeExpr.recognizes.exists_read (splits_of_scanFrom scanned)
    (spelling.trans lexemes.symm)
  have same : d.lexemes = d'.lexemes := by rw [spelling, ← lexemes, ← eq, Derivation.lexemes]
  exact readType_eq_ok_iff.mpr
    ⟨d'.expr, found, means.of_unplaced_eq (Derivation.unplaced_expr_of_lexemes same) .nowhere⟩

theorem Scope.written_of_readType {u : Universe} (grown : u.Grown) {source : String} {t : Ty}
    (found : Scope.readType ⟨u, Builtin.anchors⟩ source = .ok t) :
    t.fits u .written ∧ t.isSpelled := by
  obtain ⟨e, read, resolved⟩ := readType_eq_ok_iff.mp found
  have written := TypeExpr.resolve_written grown (TypeExpr.isSpelled_of_read read)
    (congrArg Resolved.mistakes resolved)
  rwa [resolved] at written

theorem Universe.Grown.anchors_eq {u : Universe} (grown : u.Grown) :
    u.anchors = .ok Builtin.anchors := by
  have known : ∀ c ∈ Builtin.classes, u.lookup? c.name = some c := fun c member =>
    Universe.holds_iff.mp (grown.holds_builtin member)
  have object : u.lookup? "object" = some _ := known Builtin.object (by simp [Builtin.classes])
  have typeType : u.lookup? "type" = some _ := known Builtin.typeType (by simp [Builtin.classes])
  have tuple : u.lookup? "tuple" = some _ := known Builtin.tuple (by simp [Builtin.classes])
  have function : u.lookup? "function" = some _ :=
    known Builtin.function (by simp [Builtin.classes])
  simp [Universe.anchors, Universe.anchor, object, typeType, tuple, function]
  rfl

theorem Universe.Grown.scope_over {u : Universe} (grown : u.Grown) :
    Scope.over u = ⟨u, Builtin.anchors⟩ := by
  rw [Scope.over, grown.anchors_eq]
  rfl

/-- A type is read back from its text exactly if it is well-formed over its anchors and spelled
    with identifiers; this is so for every type that is read from any text. -/
theorem Universe.Grown.readType_text_iff {u : Universe} (grown : u.Grown) (t : Ty) :
    ((Scope.over u).readType t.text = .ok t ↔ t.fits u .written ∧ t.isSpelled) ∧
      ∀ source, (Scope.over u).readType source = .ok t →
        (Scope.over u).readType t.text = .ok t := by
  rw [grown.scope_over]
  refine ⟨⟨Scope.written_of_readType grown, ?_⟩, ?_⟩
  · rintro ⟨fit, spelled⟩
    exact Scope.readType_text fit spelled
  · intro source found
    obtain ⟨fit, spelled⟩ := Scope.written_of_readType grown found
    exact Scope.readType_text fit spelled

namespace Sample

/-- A class that is called like the keyword. -/
def keyword : Class := ⟨10, "def", 1, some ⟨Builtin.object, []⟩⟩

def keyworded : Universe := Universe.builtin.insert keyword

theorem built_keyworded : keyworded.Built .plain false := by
  have fit : ∀ b ∈ keyword.base, b.fits Universe.builtin .plain := by
    rintro b ⟨⟩
    exact Universe.bare_fits (by simp [Builtin.classes]) rfl _
  exact (Universe.Built.builtin (d := .plain)).add keyword rfl (by decide) (.inr rfl) fit

/-- A callable from a tuple of one item and anything to a callable without parameters. -/
def nestedCallable : Ty :=
  .callable [.tuple [.inst ⟨keyword, [one Builtin.int]⟩] Builtin.anchors.tuple, .dynamic]
    (.callable [] .bottom Builtin.anchors.function) Builtin.anchors.function

end Sample

open Sample in
theorem readType_text_iff_keyworded :
    keyworded.Grown ∧ (nestedCallable.fits keyworded .written ∧ nestedCallable.isSpelled) ∧
      nestedCallable.text = "def ((def[int],), Any) -> def () -> None" ∧
      (Scope.over keyworded).readType nestedCallable.text = .ok nestedCallable := by
  have evaluated : (nestedCallable.fits keyworded .written ∧ nestedCallable.isSpelled) ∧
      nestedCallable.text = "def ((def[int],), Any) -> def () -> None" := by
    decide +kernel
  obtain ⟨written, printed⟩ := evaluated
  have grown := built_keyworded.grown
  exact ⟨grown, written, printed, (grown.readType_text_iff _).1.mpr written⟩

end TypeBounds
