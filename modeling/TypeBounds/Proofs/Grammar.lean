import TypeBounds.Proofs.Derivation
import TypeBounds.Proofs.Reading
import TypeBounds.Proofs.Scanning

/-! # Reading accepts the grammar

Before the tokens of a derivation the readers find something and leave what comes after
them: the rules are tried one after the other, and a rule that does not apply gives up
early. The name `def` alone is no callable, and the comma at the end of a tuple starts no
other item. Whatever the readers find, they use up the tokens of a derivation of it. Since
tokens have one derivation at most, these two facts say what is read.
-/

namespace TypeBounds

open Reader TypeExpr

/-- The reader finds the type wherever it ends. -/
def Derivation.ReadBy (type : Reader TypeExpr) (d : Derivation) : Prop :=
  ∀ rest, Ends rest → type.Finds (d.lexemes ++ rest) rest fun _ => True

def Derivations.ReadBy (type : Reader TypeExpr) : Derivations → Prop
  | .one d => d.ReadBy type
  | .more d _ ds => d.ReadBy type ∧ ds.ReadBy type

theorem Derivation.ReadBy.expect {type : Reader TypeExpr} {d : Derivation} {needed : String}
    (reads : d.ReadBy type) : d.ReadBy (expect needed type) :=
  fun rest ends => (reads rest ends).expect

theorem Derivations.ReadBy.expect {type : Reader TypeExpr} {ds : Derivations} {needed : String}
    (reads : ds.ReadBy type) : ds.ReadBy (expect needed type) := by
  match ds with
  | .one _ => exact Derivation.ReadBy.expect reads
  | .more _ _ _ => exact ⟨reads.1.expect, Derivations.ReadBy.expect reads.2⟩

/-- How many types there are. -/
def Derivations.length : Derivations → Nat
  | .one _ => 1
  | .more _ _ ds => ds.length + 1

namespace TypeExpr

section Lists

variable {β : Type} {first type : Reader TypeExpr} {mid after : List Lexeme}

/-- `"," Type` -/
def readNext (type : Reader TypeExpr) : Reader TypeExpr := do
  exactly .comma
  expect "TypeExpr" type

theorem skips_readNext (other : after.head? ≠ some .comma) : (readNext type).Skips after :=
  (skips_exactly other).bind

theorem finds_readNext {d : Derivation} (reads : d.ReadBy type) (ends : Ends after) :
    (readNext type).Finds (.comma :: (d.lexemes ++ after)) after fun _ => True := by
  apply (finds_exactly .comma).bind
  intro _ _
  exact (reads after ends).expect

theorem finds_no_more {fuel : Nat} (declines : (readNext type).Declines after) :
    (readMore type fuel).Finds after after fun _ => True := by
  cases fuel with
  | zero => exact finds_pure trivial
  | succ fuel =>
      apply declines.optional.bind
      rintro _ rfl
      exact finds_pure trivial

theorem finds_readMore {ds : Derivations} {fuel : Nat} (reads : ds.ReadBy type) (ends : Ends after)
    (declines : (readNext type).Declines after) (enough : ds.length ≤ fuel) :
    (readMore type fuel).Finds (.comma :: (ds.lexemes ++ after)) after fun _ => True := by
  match ds, fuel with
  | .one d, fuel + 1 =>
      apply (finds_readNext reads ends).optional.bind
      rintro _ ⟨e, rfl, -⟩
      apply (finds_no_more declines).bind
      intro _ _
      exact finds_pure trivial
  | .more d comma ds, fuel + 1 =>
      have next : (readNext type).Finds _ (.comma :: (ds.lexemes ++ after)) _ :=
        finds_readNext reads.1 (by simp [Ends])
      rw [Derivations.lexemes_more, List.append_assoc, List.cons_append]
      apply next.optional.bind
      rintro _ ⟨e, rfl, -⟩
      apply (finds_readMore reads.2 ends declines (Nat.le_of_succ_le_succ enough)).bind
      intro _ _
      exact finds_pure trivial

/-- A type, `"," Type` again and again, and what closes the list. -/
def readList (first type : Reader TypeExpr) (fuel : Nat) (close : Reader β) :
    Reader (List TypeExpr) := do
  let e ← first
  let es ← readMore type fuel
  let _ ← close
  return e :: es

theorem finds_readList {close : Reader β} {ds : Derivations} {fuel : Nat}
    (head : ds.ReadBy first) (reads : ds.ReadBy type) (ends : Ends mid)
    (declines : (readNext type).Declines mid) (enough : ds.length ≤ fuel)
    (closes : close.Finds mid after fun _ => True) :
    (readList first type fuel close).Finds (ds.lexemes ++ mid) after fun _ => True := by
  have rest (e : TypeExpr) (es : List TypeExpr) :
      (do let _ ← close; return e :: es : Reader (List TypeExpr)).Finds mid after
        fun _ => True := by
    apply closes.bind
    intro _ _
    exact finds_pure trivial
  cases ds with
  | one d =>
      apply (head mid ends).bind
      intro e _
      apply (finds_no_more declines).bind
      exact fun es _ => rest e es
  | more d comma ds =>
      rw [Derivations.lexemes_more, List.append_assoc, List.cons_append]
      apply (head.1 _ (by simp [Ends])).bind
      intro e _
      apply (finds_readMore reads.2 ends declines (Nat.le_of_succ_le enough)).bind
      exact fun es _ => rest e es

end Lists

section Rules

variable {type : Reader TypeExpr} {fuel : Nat} {after : List Lexeme}

theorem skips_readCallable {before : List Lexeme} (other : before.head? ≠ some (.ident "def")) :
    (readCallable type fuel).Skips before := by
  apply Skips.rule
  apply Skips.here_bind
  intro position
  exact (skips_exactly other).bind

theorem skips_readTuple {before : List Lexeme} (other : before.head? ≠ some .leftParen) :
    (readTuple type fuel).Skips before := by
  apply Skips.rule
  apply Skips.here_bind
  intro position
  exact (skips_exactly other).bind

theorem skips_readNamed {before : List Lexeme} (other : ∀ name, before.head? ≠ some (.ident name)) :
    (readNamed type fuel).Skips before := by
  apply Skips.rule
  apply Skips.here_bind
  intro position
  exact (skips_ident other).bind

/-- A name that no parenthesis follows is no callable, even if it is `def`. -/
theorem declines_readCallable (name : String) {more : List Lexeme}
    (other : more.head? ≠ some .leftParen) :
    (readCallable type fuel).Declines (.ident name :: more) := by
  by_cases keyword : name = "def"
  · subst keyword
    refine Fails.declines (n := 1) ?_ (by decide)
    apply Fails.rule
    apply Fails.here_bind
    intro position
    apply Fails.exactly_bind
    exact ((skips_exactly other).expect _).bind
  · exact .inl (skips_readCallable (by simpa using keyword))

theorem finds_readNamed (name : String) (ends : Ends after) :
    (readNamed type fuel).Finds (.ident name :: after) after fun _ => True := by
  apply Finds.rule
  apply finds_here.bind
  intro position _
  apply (finds_ident name).bind
  intro _ _
  apply (Declines.optional (.inl (skips_exactly ends.1).bind)).bind
  intro _ _
  exact finds_pure trivial

theorem finds_readNamed_args (name : String) {ds : Derivations} (reads : ds.ReadBy type)
    (enough : ds.length ≤ fuel) :
    (readNamed type fuel).Finds
      (.ident name :: .leftBracket :: (ds.lexemes ++ .rightBracket :: after)) after
      fun _ => True := by
  have ends : Ends (.rightBracket :: after) := by simp [Ends]
  apply Finds.rule
  apply finds_here.bind
  intro position _
  apply (finds_ident name).bind
  intro _ _
  have args : (exactly .leftBracket >>= fun _ =>
      readList (expect "TypeExpr (\",\" TypeExpr)* \"]\"" type) type fuel
        (expect "\"]\"" (exactly .rightBracket))).Finds
      (.leftBracket :: (ds.lexemes ++ .rightBracket :: after)) after fun _ => True := by
    apply (finds_exactly _).bind
    intro _ _
    exact finds_readList reads.expect reads ends (.inl (skips_readNext (by simp))) enough
      (finds_exactly _).expect
  apply args.optional.bind
  intro _ _
  exact finds_pure trivial

theorem finds_params {ds : Derivations} (reads : ds.ReadBy type) (enough : ds.length ≤ fuel)
    (rest : List Lexeme) :
    (optional (readList type type fuel (Pure.pure () : Reader Unit))).Finds
      (ds.lexemes ++ .rightParen :: rest) (.rightParen :: rest) fun _ => True := by
  have ends : Ends (.rightParen :: rest) := by simp [Ends]
  have inside := finds_readList reads reads ends (.inl (skips_readNext (by simp))) enough
    (finds_pure (a := ()) trivial)
  exact inside.optional.mono fun _ _ => trivial

theorem finds_readCallable {d : Derivation} (params : List Lexeme)
    (ofParams : ∀ rest, (optional (readList type type fuel (Pure.pure () : Reader Unit))).Finds
      (params ++ .rightParen :: rest) (.rightParen :: rest) fun _ => True)
    (ofResult : d.ReadBy type) (ends : Ends after) :
    (readCallable type fuel).Finds
      (.ident "def" :: .leftParen :: (params ++ .rightParen :: .arrow :: (d.lexemes ++ after)))
      after fun _ => True := by
  apply Finds.rule
  apply finds_here.bind
  intro position _
  apply (finds_exactly _).bind
  intro _ _
  apply (finds_exactly _).expect.bind
  intro _ _
  apply (ofParams _).bind
  intro _ _
  apply (finds_exactly _).expect.bind
  intro _ _
  apply (finds_exactly _).expect.bind
  intro _ _
  apply (ofResult after ends).expect.bind
  intro _ _
  exact finds_pure trivial

theorem finds_readTuple (items : List Lexeme)
    (ofItems : (optional (readList type type fuel (optional (exactly .comma)))).Finds
      (items ++ .rightParen :: after) (.rightParen :: after) fun _ => True) :
    (readTuple type fuel).Finds (.leftParen :: (items ++ .rightParen :: after)) after
      fun _ => True := by
  apply Finds.rule
  apply finds_here.bind
  intro position _
  apply (finds_exactly _).bind
  intro _ _
  apply ofItems.bind
  intro _ _
  apply (finds_exactly _).expect.bind
  intro _ _
  exact finds_pure trivial

variable (skips : ∀ rest, type.Skips (.rightParen :: rest))

include skips

theorem finds_nothing {β : Type} {close : Reader β} (rest : List Lexeme) :
    (optional (readList type type fuel close)).Finds (.rightParen :: rest) (.rightParen :: rest)
      fun _ => True :=
  (Declines.optional (.inl (skips rest).bind)).mono fun _ _ => trivial

theorem finds_items {ds : Derivations} (reads : ds.ReadBy type) (enough : ds.length ≤ fuel)
    (comma : Option Position) (rest : List Lexeme) :
    (optional (readList type type fuel (optional (exactly .comma)))).Finds
      (ds.lexemes ++ (comma.toList.map (fun _ => .comma) ++ .rightParen :: rest))
      (.rightParen :: rest) fun _ => True := by
  cases comma with
  | none =>
      have ends : Ends (.rightParen :: rest) := by simp [Ends]
      have last : (optional (exactly .comma)).Finds (.rightParen :: rest) (.rightParen :: rest)
          fun _ => True :=
        (Declines.optional (.inl (skips_exactly (by simp)))).mono fun _ _ => trivial
      have inside := finds_readList reads reads ends (.inl (skips_readNext (by simp))) enough last
      exact inside.optional.mono fun _ _ => trivial
  | some place =>
      have ends : Ends (.comma :: .rightParen :: rest) := by simp [Ends]
      have declines : (readNext type).Declines (.comma :: .rightParen :: rest) :=
        ((skips rest).expect "TypeExpr").exactly_bind.declines (by decide)
      have last : (optional (exactly .comma)).Finds (.comma :: .rightParen :: rest)
          (.rightParen :: rest) fun _ => True :=
        (finds_exactly .comma).optional.mono fun _ _ => trivial
      have inside := finds_readList reads reads ends declines enough last
      exact inside.optional.mono fun _ _ => trivial

end Rules

theorem finds_named (name : String) {fuel : Nat} {more after : List Lexeme} {good : TypeExpr → Prop}
    (finds : (readNamed (readNested fuel) fuel).Finds (.ident name :: more) after good)
    (other : more.head? ≠ some .leftParen) :
    (readNested (fuel + 1)).Finds (.ident name :: more) after good := by
  apply Finds.rule
  apply (declines_readCallable name other).firstOf
  apply Declines.firstOf (.inl (skips_readTuple (by simp)))
  exact finds.firstOf []

theorem skips_readNested (fuel : Nat) (rest : List Lexeme) :
    (readNested fuel).Skips (.rightParen :: rest) := by
  cases fuel with
  | zero => exact fun p _ => rfl
  | succ fuel =>
      apply Skips.rule
      apply skips_firstOf
      simp only [List.forall_mem_cons, List.not_mem_nil, false_implies, implies_true, and_true]
      exact ⟨skips_readCallable (by simp), skips_readTuple (by simp), skips_readNamed (by simp)⟩

end TypeExpr

theorem Derivation.lexemes_pos (d : Derivation) : 0 < d.lexemes.length := by
  obtain ⟨t, rest, eq, -⟩ := d.exists_first
  simp [lexemes, eq]

theorem Derivations.length_le (ds : Derivations) : ds.length ≤ ds.lexemes.length := by
  match ds with
  | .one d => exact d.lexemes_pos
  | .more d comma ds =>
      have few := ds.length_le
      simp only [length, lexemes_more, List.length_append, List.length_cons]
      omega

mutual
/-- The number of tokens bounds how deep the types are nested. -/
theorem Derivation.readBy {d : Derivation} {fuel : Nat} (enough : d.lexemes.length ≤ fuel) :
    d.ReadBy (readNested fuel) := by
  intro after ends
  cases fuel with
  | zero => exact (Nat.not_lt_of_le enough d.lexemes_pos).elim
  | succ fuel =>
      match d with
      | .name place name => exact finds_named name (finds_readNamed name ends) ends.2
      | .applied place name left args right =>
          have few := args.length_le
          simp only [Derivation.lexemes_applied, List.cons_append, List.append_assoc,
            List.nil_append, List.length_cons, List.length_append] at enough ⊢
          have reads : args.ReadBy (readNested fuel) := Derivations.readBy (by omega)
          exact finds_named name (finds_readNamed_args name reads (by omega)) (by simp)
      | .thunk keyword left right arrow result =>
          simp only [Derivation.lexemes_thunk, List.cons_append, List.length_cons] at enough ⊢
          have ofResult : result.ReadBy (readNested fuel) := Derivation.readBy (by omega)
          apply Finds.rule
          apply Finds.firstOf
          exact finds_readCallable [] (finds_nothing (skips_readNested fuel)) ofResult ends
      | .callable keyword left params right arrow result =>
          have few := params.length_le
          simp only [Derivation.lexemes_callable, List.cons_append, List.append_assoc,
            List.length_cons, List.length_append] at enough ⊢
          have ofParams : params.ReadBy (readNested fuel) := Derivations.readBy (by omega)
          have ofResult : result.ReadBy (readNested fuel) := Derivation.readBy (by omega)
          apply Finds.rule
          apply Finds.firstOf
          exact finds_readCallable _ (finds_params ofParams (by omega)) ofResult ends
      | .unit left right =>
          apply Finds.rule
          apply Declines.firstOf (.inl (skips_readCallable (by simp)))
          exact (finds_readTuple [] (finds_nothing (skips_readNested fuel) after)).firstOf _
      | .tuple left items comma right =>
          have few := items.length_le
          simp only [Derivation.lexemes_tuple, List.cons_append, List.append_assoc,
            List.nil_append, List.length_cons, List.length_append] at enough ⊢
          have reads : items.ReadBy (readNested fuel) := Derivations.readBy (by omega)
          have count : items.length ≤ fuel := by omega
          have inside := finds_items (skips_readNested fuel) reads count comma after
          rw [← List.append_assoc] at inside ⊢
          apply Finds.rule
          apply Declines.firstOf (.inl (skips_readCallable (by simp)))
          exact (finds_readTuple _ inside).firstOf _

theorem Derivations.readBy {ds : Derivations} {fuel : Nat} (enough : ds.lexemes.length ≤ fuel) :
    ds.ReadBy (readNested fuel) := by
  match ds with
  | .one d => exact Derivation.readBy enough
  | .more d comma ds =>
      simp only [Derivations.lexemes_more, List.length_append, List.length_cons] at enough
      exact ⟨Derivation.readBy (by omega), Derivations.readBy (by omega)⟩
end

theorem Derivation.finds (d : Derivation) {fuel : Nat} (enough : d.tokens.length ≤ fuel) :
    (readNested fuel).Finds d.lexemes [] fun _ => True := by
  have finds := Derivation.readBy (by simpa [lexemes] using enough) [] (by simp [Ends])
  rwa [List.append_nil] at finds

/-- The tokens are those of a derivation of the expression. -/
def TypeExpr.Derived (used : List Token) (e : TypeExpr) : Prop :=
  ∃ d : Derivation, d.tokens = used ∧ d.expr = e

def TypeExpr.AllDerived (used : List Token) (es : List TypeExpr) : Prop :=
  ∃ ds : Derivations, ds.tokens = used ∧ ds.exprs = es

namespace TypeExpr

section Takes

variable {β : Type} {sure : Bool} {first type : Reader TypeExpr} (takes : Takes sure type Derived)
  (fuel : Nat)

include takes

theorem takes_readMore : Takes true (readMore type fuel) fun used es =>
    ∀ d : Derivation, AllDerived (d.tokens ++ used) (d.expr :: es) := by
  have next : Takes false (readNext type) fun used e =>
      ∃ (comma : Position) (d : Derivation), used = ⟨.comma, comma⟩ :: d.tokens ∧ d.expr = e := by
    apply (takes_exactly _).bind
    rintro _ _ ⟨comma, rfl⟩
    refine takes.expect.mono ?_
    rintro _ _ ⟨d, rfl, rfl⟩
    exact ⟨comma, d, rfl, rfl⟩
  refine next.many ?_ ?_ fuel
  · exact fun d => ⟨.one d, by simp [Derivations.tokens], rfl⟩
  · rintro _ others _ es ⟨comma, d', rfl, rfl⟩ rest d
    obtain ⟨ds, tokens, exprs⟩ := rest d'
    exact ⟨.more d comma ds, by simp [Derivations.tokens, tokens], by rw [Derivations.exprs, exprs]⟩

theorem takes_readList {close : Reader β} {good : List Token → β → Prop} {sure' : Bool}
    (head : Takes sure' first Derived) (closes : Takes true close good) :
    Takes sure' (readList first type fuel close) fun used es =>
      ∃ inside last b, used = inside ++ last ∧ AllDerived inside es ∧ good last b := by
  apply head.bind
  rintro _ _ ⟨d, rfl, rfl⟩
  apply (takes_readMore takes fuel).bind
  intro used es others
  apply closes.bind
  intro last b closed
  apply takes_pure
  exact ⟨d.tokens ++ used, last, b, by simp, others d, closed⟩

theorem takes_readCallable : Takes false (readCallable type fuel) Derived := by
  have close : Takes true (Pure.pure () : Reader Unit) fun used _ => used = [] := takes_pure rfl
  have params := takes_readList takes fuel takes close
  apply Takes.rule
  apply Takes.here_bind
  intro place
  apply (takes_exactly _).bind
  rintro _ _ ⟨keyword, rfl⟩
  apply (takes_exactly _).expect.bind
  rintro _ _ ⟨left, rfl⟩
  apply params.optional.bind
  intro inside o ofParams
  apply (takes_exactly _).expect.bind
  rintro _ _ ⟨right, rfl⟩
  apply (takes_exactly _).expect.bind
  rintro _ _ ⟨arrow, rfl⟩
  apply takes.expect.bind
  rintro _ _ ⟨d, rfl, rfl⟩
  apply takes_pure
  intro first
  obtain rfl : keyword = place := first _ rfl
  rcases ofParams with ⟨rfl, rfl⟩ | ⟨_, rfl, _, _, -, rfl, ⟨ds, rfl, rfl⟩, rfl⟩
  · exact ⟨.thunk keyword left right arrow d, by simp [Derivation.tokens], rfl⟩
  · exact ⟨.callable keyword left ds right arrow d, by simp [Derivation.tokens], rfl⟩

theorem takes_readTuple : Takes false (readTuple type fuel) Derived := by
  have items := takes_readList takes fuel takes (takes_exactly .comma).optional
  apply Takes.rule
  apply Takes.here_bind
  intro place
  apply (takes_exactly _).bind
  rintro _ _ ⟨left, rfl⟩
  apply items.optional.bind
  intro inside o ofItems
  apply (takes_exactly _).expect.bind
  rintro _ _ ⟨right, rfl⟩
  apply takes_pure
  intro first
  obtain rfl : left = place := first _ rfl
  rcases ofItems with ⟨rfl, rfl⟩ | ⟨_, rfl, _, _, _, rfl, ⟨ds, rfl, rfl⟩, last⟩
  · exact ⟨.unit left right, by simp [Derivation.tokens], rfl⟩
  · rcases last with ⟨-, rfl⟩ | ⟨-, -, comma, rfl⟩
    · exact ⟨.tuple left ds none right, by simp [Derivation.tokens, Derivation.trailing], rfl⟩
    · exact ⟨.tuple left ds (some comma) right, by simp [Derivation.tokens, Derivation.trailing],
        rfl⟩

theorem takes_readNamed : Takes false (readNamed type fuel) Derived := by
  have args : Takes false (exactly .leftBracket >>= fun _ =>
      readList (expect "TypeExpr (\",\" TypeExpr)* \"]\"" type) type fuel
        (expect "\"]\"" (exactly .rightBracket))) fun used es =>
      ∃ (left right : Position) (ds : Derivations), used = ⟨.leftBracket, left⟩ ::
        (ds.tokens ++ [⟨.rightBracket, right⟩]) ∧ ds.exprs = es := by
    apply (takes_exactly _).bind
    rintro _ _ ⟨left, rfl⟩
    refine (takes_readList takes fuel takes.expect (takes_exactly _).expect).mono ?_
    rintro _ _ ⟨_, _, _, rfl, ⟨ds, rfl, rfl⟩, right, rfl⟩
    exact ⟨left, right, ds, rfl, rfl⟩
  apply Takes.rule
  apply Takes.here_bind
  intro place
  apply takes_ident.bind
  rintro _ name ⟨place', rfl⟩
  apply args.optional.bind
  intro inside o ofArgs
  apply takes_pure
  intro first
  obtain rfl : place' = place := first _ rfl
  rcases ofArgs with ⟨rfl, rfl⟩ | ⟨_, rfl, left, right, ds, rfl, rfl⟩
  · exact ⟨.name place' name, rfl, rfl⟩
  · exact ⟨.applied place' name left ds right, by simp [Derivation.tokens], rfl⟩

end Takes

theorem takes_readNested (fuel : Nat) : Takes false (readNested fuel) Derived := by
  induction fuel with
  | zero =>
      refine ⟨by rintro p q a ⟨⟩, ?_⟩
      rintro p q ⟨⟩
      exact ⟨rfl, rfl⟩
  | succ fuel ih =>
      apply Takes.rule
      apply takes_firstOf
      simp only [List.forall_mem_cons, List.not_mem_nil, false_implies, implies_true, and_true]
      exact ⟨takes_readCallable ih fuel, takes_readTuple ih fuel, takes_readNamed ih fuel⟩

end TypeExpr

theorem ConstraintDerivation.finds (d : ConstraintDerivation) {fuel : Nat}
    (enough : d.tokens.length ≤ fuel) :
    (ConstraintExpr.readWith (readNested fuel)).Finds (d.tokens.map (·.lexeme)) []
      fun _ => True := by
  obtain ⟨place, var, operator, operatorPlace, direction, bounds, target⟩ := d
  have ofTarget : (readNested fuel).Finds target.lexemes [] fun _ => True := by
    apply Derivation.finds
    simp only [tokens, List.length_cons] at enough
    omega
  apply Finds.rule
  apply finds_here.bind
  intro _ _
  apply (finds_ident var).bind
  intro _ _
  refine Finds.bind (finds_token (a := direction) _ ?_).expect ?_
  · cases bounds <;> rfl
  · intro _ _
    apply ofTarget.expect.bind
    intro _ _
    exact finds_pure trivial

theorem ConstraintExpr.takes_readWith (fuel : Nat) :
    Takes false (ConstraintExpr.readWith (readNested fuel)) fun used e =>
      ∃ d : ConstraintDerivation, d.tokens = used ∧ d.expr = e := by
  apply Takes.rule
  apply Takes.here_bind
  intro place
  apply takes_ident.bind
  rintro _ var ⟨place', rfl⟩
  apply (takes_token _).expect.bind
  rintro _ direction ⟨⟨operator, operatorPlace⟩, rfl, accepted⟩
  have bounds : operator.Bounds direction := by
    cases operator with
    | supertype =>
        cases accepted
        exact .lower
    | subtype =>
        cases accepted
        exact .upper
    | _ => cases accepted
  apply (takes_readNested fuel).expect.bind
  rintro _ _ ⟨d, rfl, rfl⟩
  apply takes_pure
  intro first
  obtain rfl : place' = place := first _ rfl
  exact ⟨⟨place', var, operator, operatorPlace, direction, bounds, d⟩,
    by simp [ConstraintDerivation.tokens], rfl⟩

/-- Readers that find what is derived, and nothing else, where derivations are determined by their
    tokens, and but for places by their lexemes. -/
structure Recognizes {δ ε : Type} (grammar : Nat → Reader ε) (tokens : δ → List Token)
    (expr : δ → ε) (unplaced : ε → ε) : Prop where
  finds : ∀ (d : δ) {fuel : Nat}, (tokens d).length ≤ fuel →
    (grammar fuel).Finds ((tokens d).map (·.lexeme)) [] fun _ => True
  takes : ∀ fuel, Takes false (grammar fuel) fun used e => ∃ d, tokens d = used ∧ expr d = e
  unique : Function.Injective tokens
  alike : ∀ {d d' : δ}, (tokens d).map (·.lexeme) = (tokens d').map (·.lexeme) →
    unplaced (expr d) = unplaced (expr d')

theorem TypeExpr.recognizes :
    Recognizes readNested Derivation.tokens Derivation.expr TypeExpr.unplaced where
  finds d _ := d.finds
  takes := takes_readNested
  unique := Derivation.tokens_injective
  alike := Derivation.unplaced_expr_of_lexemes

theorem ConstraintExpr.recognizes :
    Recognizes (fun fuel => readWith (readNested fuel)) ConstraintDerivation.tokens
      ConstraintDerivation.expr ConstraintExpr.unplaced where
  finds d _ := d.finds
  takes := takes_readWith
  unique := ConstraintDerivation.tokens_injective
  alike := ConstraintDerivation.unplaced_expr_of_lexemes

/-- Reading accepts exactly what can be derived. -/
structure Accepts {δ ε : Type} (read : String → Except ReadError ε) (tokens : δ → List Token)
    (expr : δ → ε) (unplaced : ε → ε) : Prop where
  /-- A text is read if it splits into the tokens of a derivation, and as what is derived. -/
  ok_iff : ∀ {s : String} {e : ε}, read s = .ok e ↔
    ∃ d stop, Token.Splits .start s.toList (tokens d) stop ∧ expr d = e
  /-- Tokens have one derivation at most. -/
  unique : Function.Injective tokens
  /-- Blanks between the tokens change places only. -/
  blanks : ∀ {s s' : String} {ts ts' : List Token} {stop stop' : Position} {e : ε},
    Token.Splits .start s.toList ts stop → Token.Splits .start s'.toList ts' stop' →
    ts.map (·.lexeme) = ts'.map (·.lexeme) → read s = .ok e →
    ∃ e', read s' = .ok e' ∧ unplaced e' = unplaced e

namespace Recognizes

variable {δ ε : Type} {grammar : Nat → Reader ε} {tokens : δ → List Token} {expr : δ → ε}
  {unplaced : ε → ε} (recognizes : Recognizes grammar tokens expr unplaced)

include recognizes

theorem exists_derivation {s : String} {e : ε} (found : readWhole grammar s = .ok e) :
    ∃ d stop, Token.Splits .start s.toList (tokens d) stop ∧ expr d = e := by
  obtain ⟨ts, stop, p, scanned, result, empty⟩ := readWhole_eq_ok_iff.mp found
  obtain ⟨used, left, d, rfl, rfl⟩ := (recognizes.takes _).found result
  rw [empty, List.append_nil] at left
  exact ⟨d, stop, left ▸ Token.splits_of_scanFrom scanned, rfl⟩

theorem exists_read {s : String} {d : δ} {ts : List Token} {stop : Position}
    (splits : Token.Splits .start s.toList ts stop)
    (same : (tokens d).map (·.lexeme) = ts.map (·.lexeme)) :
    ∃ d', tokens d' = ts ∧ readWhole grammar s = .ok (expr d') := by
  have count : (tokens d).length = ts.length := by simpa using congrArg List.length same
  obtain ⟨e, p, result, left, -⟩ :=
    recognizes.finds d (Nat.le_succ_of_le (Nat.le_of_eq count)) (.start ts stop) same.symm
  have found : readWhole grammar s = .ok e := readWhole_eq_ok_iff.mpr
    ⟨ts, stop, p, splits.scanFrom, result, List.map_eq_nil_iff.mp left⟩
  obtain ⟨d', stop', splits', rfl⟩ := recognizes.exists_derivation found
  exact ⟨d', splits'.tokens_eq splits, found⟩

theorem accepts : Accepts (readWhole grammar) tokens expr unplaced where
  ok_iff {s e} := by
    refine ⟨recognizes.exists_derivation, ?_⟩
    rintro ⟨d, stop, splits, rfl⟩
    obtain ⟨d', same, found⟩ := recognizes.exists_read splits rfl
    rwa [recognizes.unique same] at found
  unique := recognizes.unique
  blanks {s s' ts ts' stop stop' e} splits splits' same found := by
    obtain ⟨d, stop₀, splits₀, rfl⟩ := recognizes.exists_derivation found
    obtain rfl := splits₀.tokens_eq splits
    obtain ⟨d', rfl, found'⟩ := recognizes.exists_read splits' same
    exact ⟨_, found', recognizes.alike same.symm⟩

end Recognizes

/-- Types and constraints are read exactly from the texts that have a derivation. There is one at
    most, and it says what is read; blanks make no difference to it. -/
theorem reading_accepts_grammar :
    Accepts TypeExpr.read Derivation.tokens Derivation.expr TypeExpr.unplaced ∧
      Accepts ConstraintExpr.read ConstraintDerivation.tokens ConstraintDerivation.expr
        ConstraintExpr.unplaced :=
  ⟨TypeExpr.recognizes.accepts, ConstraintExpr.recognizes.accepts⟩

mutual
/-- The names in an expression are identifiers. -/
def TypeExpr.isSpelled : TypeExpr → Bool
  | .named _ name args => Token.isIdent name && TypeExpr.allSpelled args
  | .callable _ params result => TypeExpr.allSpelled params && result.isSpelled
  | .tuple _ items => TypeExpr.allSpelled items

def TypeExpr.allSpelled : List TypeExpr → Bool
  | [] => true
  | e :: es => e.isSpelled && TypeExpr.allSpelled es
end

mutual
theorem Derivation.isSpelled_expr (d : Derivation)
    (legal : ∀ name, .ident name ∈ d.lexemes → Token.isIdent name) : d.expr.isSpelled := by
  match d with
  | .name place name => simp [Derivation.expr, isSpelled, allSpelled, legal name]
  | .applied place name left args right =>
      have inside := args.allSpelled_exprs fun name member => legal name (by simp [member])
      simp [Derivation.expr, isSpelled, inside, legal name]
  | .thunk keyword left right arrow result =>
      have inside := result.isSpelled_expr fun name member => legal name (by simp [member])
      simp [Derivation.expr, isSpelled, allSpelled, inside]
  | .callable keyword left params right arrow result =>
      have ofParams := params.allSpelled_exprs fun name member => legal name (by simp [member])
      have ofResult := result.isSpelled_expr fun name member => legal name (by simp [member])
      simp [Derivation.expr, isSpelled, ofParams, ofResult]
  | .unit left right => rfl
  | .tuple left items comma right =>
      have inside := items.allSpelled_exprs fun name member => legal name (by simp [member])
      simp [Derivation.expr, isSpelled, inside]

theorem Derivations.allSpelled_exprs (ds : Derivations)
    (legal : ∀ name, .ident name ∈ ds.lexemes → Token.isIdent name) : allSpelled ds.exprs := by
  match ds with
  | .one d =>
      have only := d.isSpelled_expr fun name member => legal name (by simp [member])
      simp [Derivations.exprs, allSpelled, only]
  | .more d comma ds =>
      have first := d.isSpelled_expr fun name member => legal name (by simp [member])
      have others := ds.allSpelled_exprs fun name member => legal name (by simp [member])
      simp [Derivations.exprs, allSpelled, first, others]
end

theorem TypeExpr.isSpelled_of_read {s : String} {e : TypeExpr} (found : TypeExpr.read s = .ok e) :
    e.isSpelled := by
  obtain ⟨d, stop, splits, rfl⟩ := recognizes.exists_derivation found
  exact d.isSpelled_expr fun name => splits.isIdent_of_mem

end TypeBounds
