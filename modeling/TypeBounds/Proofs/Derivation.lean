import TypeBounds.Expr.Basic
import TypeBounds.Expr.Token

/-! # Derivations

A derivation says by which rules of the grammar a list of tokens is a type. Its tokens and
its expression are read off it. The tokens determine the derivation, and it ends with them
whatever comes next, as long as nothing goes on with arguments or makes a callable of the
name `def`; so a list of tokens has one derivation at most.
-/

namespace TypeBounds

mutual
/-- How tokens are a type, with the place of each of them. -/
inductive Derivation where
  /-- `Ident` -/
  | name (place : Position) (name : String)
  /-- `Ident "[" Types "]"` -/
  | applied (place : Position) (name : String) (left : Position) (args : Derivations)
      (right : Position)
  /-- `"def" "(" ")" "->" Type` -/
  | thunk (keyword left right arrow : Position) (result : Derivation)
  /-- `"def" "(" Types ")" "->" Type` -/
  | callable (keyword left : Position) (params : Derivations) (right arrow : Position)
      (result : Derivation)
  /-- `"(" ")"` -/
  | unit (left right : Position)
  /-- `"(" Types ","? ")"` -/
  | tuple (left : Position) (items : Derivations) (comma : Option Position) (right : Position)

/-- How tokens are types with commas between them, at least one. -/
inductive Derivations where
  /-- `Type` -/
  | one (type : Derivation)
  /-- `Type "," Types` -/
  | more (first : Derivation) (comma : Position) (others : Derivations)
end

/-- The comma after the last of several types, if there is one. -/
def Derivation.trailing (comma : Option Position) : List Token := comma.toList.map (⟨.comma, ·⟩)

mutual
/-- The tokens from the first to the last. -/
def Derivation.tokens : Derivation → List Token
  | .name place name => [⟨.ident name, place⟩]
  | .applied place name left args right =>
      ⟨.ident name, place⟩ :: ⟨.leftBracket, left⟩ :: (args.tokens ++ [⟨.rightBracket, right⟩])
  | .thunk keyword left right arrow result =>
      ⟨.ident "def", keyword⟩ :: ⟨.leftParen, left⟩ :: ⟨.rightParen, right⟩ :: ⟨.arrow, arrow⟩ ::
        result.tokens
  | .callable keyword left params right arrow result =>
      ⟨.ident "def", keyword⟩ :: ⟨.leftParen, left⟩ ::
        (params.tokens ++ ⟨.rightParen, right⟩ :: ⟨.arrow, arrow⟩ :: result.tokens)
  | .unit left right => [⟨.leftParen, left⟩, ⟨.rightParen, right⟩]
  | .tuple left items comma right =>
      ⟨.leftParen, left⟩ ::
        (items.tokens ++ (Derivation.trailing comma ++ [⟨.rightParen, right⟩]))

def Derivations.tokens : Derivations → List Token
  | .one type => type.tokens
  | .more first comma others => first.tokens ++ ⟨.comma, comma⟩ :: others.tokens
end

mutual
/-- The expression that is derived. It starts where its first token does. -/
def Derivation.expr : Derivation → TypeExpr
  | .name place name => .named place name []
  | .applied place name _ args _ => .named place name args.exprs
  | .thunk keyword _ _ _ result => .callable keyword [] result.expr
  | .callable keyword _ params _ _ result => .callable keyword params.exprs result.expr
  | .unit left _ => .tuple left []
  | .tuple left items _ _ => .tuple left items.exprs

def Derivations.exprs : Derivations → List TypeExpr
  | .one type => [type.expr]
  | .more first _ others => first.expr :: others.exprs
end

/-- The tokens without their places. -/
def Derivation.lexemes (d : Derivation) : List Lexeme := d.tokens.map (·.lexeme)

def Derivations.lexemes (ds : Derivations) : List Lexeme := ds.tokens.map (·.lexeme)

section Lexemes

variable (place keyword left right arrow comma : Position) (name : String) (d : Derivation)
  (ds : Derivations)

@[simp] theorem Derivation.lexemes_name : (Derivation.name place name).lexemes = [.ident name] := by
  rfl

@[simp] theorem Derivation.lexemes_applied : (Derivation.applied place name left ds right).lexemes =
    .ident name :: .leftBracket :: (ds.lexemes ++ [.rightBracket]) := by
  simp [lexemes, tokens, Derivations.lexemes]

@[simp] theorem Derivation.lexemes_thunk : (Derivation.thunk keyword left right arrow d).lexemes =
    .ident "def" :: .leftParen :: .rightParen :: .arrow :: d.lexemes := by
  simp [lexemes, tokens]

@[simp] theorem Derivation.lexemes_callable :
    (Derivation.callable keyword left ds right arrow d).lexemes =
      .ident "def" :: .leftParen :: (ds.lexemes ++ .rightParen :: .arrow :: d.lexemes) := by
  simp [lexemes, tokens, Derivations.lexemes]

@[simp] theorem Derivation.lexemes_unit :
    (Derivation.unit left right).lexemes = [.leftParen, .rightParen] := by
  rfl

@[simp] theorem Derivation.lexemes_tuple (comma : Option Position) :
    (Derivation.tuple left ds comma right).lexemes =
      .leftParen :: (ds.lexemes ++ (comma.toList.map (fun _ => .comma) ++ [.rightParen])) := by
  simp only [lexemes, tokens, Derivations.lexemes, trailing, List.map_cons, List.map_append,
    List.map_map, List.map_nil]
  rfl

@[simp] theorem Derivations.lexemes_one : (Derivations.one d).lexemes = d.lexemes := by
  rfl

@[simp] theorem Derivations.lexemes_more : (Derivations.more d comma ds).lexemes =
    d.lexemes ++ .comma :: ds.lexemes := by
  simp [lexemes, tokens, Derivation.lexemes]

end Lexemes

/-- A type may start with it. -/
def Lexeme.startsType : Lexeme → Bool
  | .ident _ => true
  | .leftParen => true
  | _ => false

theorem Derivation.exists_first (d : Derivation) :
    ∃ t rest, d.tokens = t :: rest ∧ t.lexeme.startsType := by
  cases d <;> exact ⟨_, _, rfl, rfl⟩

theorem Derivations.exists_first (ds : Derivations) :
    ∃ t rest, ds.tokens = t :: rest ∧ t.lexeme.startsType := by
  cases ds with
  | one type => exact type.exists_first
  | more first comma others =>
      obtain ⟨t, rest, eq, starts⟩ := first.exists_first
      exact ⟨t, _, by rw [tokens, eq, List.cons_append], starts⟩

theorem Derivations.tokens_append_ne (ds : Derivations) {t : Token} {rest rest' : List Token}
    (other : t.lexeme.startsType = false) : ds.tokens ++ rest ≠ t :: rest' := by
  obtain ⟨t', more, eq, starts⟩ := ds.exists_first
  rw [eq]
  rintro ⟨⟩
  simp [other] at starts

/-- What comes next neither goes on with arguments nor makes a callable of the name `def`. -/
def TypeExpr.Ends (rest : List Lexeme) : Prop :=
  rest.head? ≠ some .leftBracket ∧ rest.head? ≠ some .leftParen

/-- What comes next closes a list of types. -/
def TypeExpr.Closes : List Lexeme → Prop
  | .rightParen :: _ => True
  | .rightBracket :: _ => True
  | .comma :: .rightParen :: _ => True
  | _ => False

open TypeExpr (Ends Closes)

theorem TypeExpr.Closes.ends {rest : List Lexeme} (closes : Closes rest) : Ends rest := by
  unfold Closes at closes
  split at closes
  · simp [Ends]
  · simp [Ends]
  · simp [Ends]
  · cases closes

theorem Derivation.closes_trailing (comma : Option Position) {right : Position}
    {rest : List Token} :
    Closes ((trailing comma ++ ⟨.rightParen, right⟩ :: rest).map (·.lexeme)) := by
  cases comma <;> trivial

theorem Derivation.trailing_append_inj {comma comma' : Option Position} {right right' : Position}
    {rest rest' : List Token}
    (eq : trailing comma ++ ⟨.rightParen, right⟩ :: rest =
      trailing comma' ++ ⟨.rightParen, right'⟩ :: rest') :
    comma = comma' ∧ right = right' ∧ rest = rest' := by
  cases comma <;> cases comma' <;> simp_all [trailing]

theorem Derivations.not_closes (ds : Derivations) {comma : Position} {rest : List Token} :
    ¬ Closes ((⟨.comma, comma⟩ :: (ds.tokens ++ rest) : List Token).map (·.lexeme)) := by
  obtain ⟨t, more, eq, starts⟩ := ds.exists_first
  rw [eq]
  cases l : t.lexeme <;> simp_all [Closes, Lexeme.startsType]

mutual
/-- The tokens of a type and what ends it say where it ends and how it is derived. -/
theorem Derivation.eq_of_tokens {d d' : Derivation} {rest rest' : List Token}
    (ends : Ends (rest.map (·.lexeme))) (ends' : Ends (rest'.map (·.lexeme)))
    (eq : d.tokens ++ rest = d'.tokens ++ rest') : d = d' ∧ rest = rest' := by
  cases d with
  | name place name =>
      cases d' with
      | name =>
          obtain ⟨⟨⟩, rfl⟩ := List.cons.inj eq
          exact ⟨rfl, rfl⟩
      | applied =>
          obtain ⟨-, rfl⟩ := List.cons.inj eq
          exact (ends.1 rfl).elim
      | thunk | callable =>
          obtain ⟨-, rfl⟩ := List.cons.inj eq
          exact (ends.2 rfl).elim
      | unit | tuple => simp [Derivation.tokens] at eq
  | applied place name left args right =>
      cases d' with
      | name =>
          obtain ⟨-, rfl⟩ := List.cons.inj eq
          exact (ends'.1 rfl).elim
      | applied place' name' left' args' right' =>
          simp only [Derivation.tokens, List.cons_append, List.append_assoc, List.nil_append,
            List.cons.injEq, Token.mk.injEq, Lexeme.ident.injEq, true_and] at eq
          obtain ⟨⟨rfl, rfl⟩, rfl, inside⟩ := eq
          obtain ⟨rfl, last⟩ :=
            Derivations.eq_of_tokens (by exact trivial) (by exact trivial) inside
          obtain ⟨⟨⟩, rfl⟩ := List.cons.inj last
          exact ⟨rfl, rfl⟩
      | thunk | callable | unit | tuple => simp [Derivation.tokens] at eq
  | thunk keyword left right arrow result =>
      cases d' with
      | name =>
          obtain ⟨-, rfl⟩ := List.cons.inj eq
          exact (ends'.2 rfl).elim
      | thunk keyword' left' right' arrow' result' =>
          simp only [Derivation.tokens, List.cons_append, List.cons.injEq, Token.mk.injEq,
            true_and] at eq
          obtain ⟨rfl, rfl, rfl, rfl, inside⟩ := eq
          obtain ⟨rfl, rfl⟩ := Derivation.eq_of_tokens ends ends' inside
          exact ⟨rfl, rfl⟩
      | callable keyword' left' params' =>
          simp only [Derivation.tokens, List.cons_append, List.append_assoc, List.cons.injEq] at eq
          exact (params'.tokens_append_ne rfl eq.2.2.symm).elim
      | applied | unit | tuple => simp [Derivation.tokens] at eq
  | callable keyword left params right arrow result =>
      cases d' with
      | name =>
          obtain ⟨-, rfl⟩ := List.cons.inj eq
          exact (ends'.2 rfl).elim
      | thunk =>
          simp only [Derivation.tokens, List.cons_append, List.append_assoc, List.cons.injEq] at eq
          exact (params.tokens_append_ne rfl eq.2.2).elim
      | callable keyword' left' params' right' arrow' result' =>
          simp only [Derivation.tokens, List.cons_append, List.append_assoc, List.cons.injEq,
            Token.mk.injEq, true_and] at eq
          obtain ⟨rfl, rfl, inside⟩ := eq
          obtain ⟨rfl, last⟩ :=
            Derivations.eq_of_tokens (by exact trivial) (by exact trivial) inside
          simp only [List.cons.injEq, Token.mk.injEq, true_and] at last
          obtain ⟨rfl, rfl, last⟩ := last
          obtain ⟨rfl, rfl⟩ := Derivation.eq_of_tokens ends ends' last
          exact ⟨rfl, rfl⟩
      | applied | unit | tuple => simp [Derivation.tokens] at eq
  | unit left right =>
      cases d' with
      | unit =>
          simp only [Derivation.tokens, List.cons_append, List.nil_append, List.cons.injEq,
            Token.mk.injEq, true_and] at eq
          obtain ⟨rfl, rfl, rfl⟩ := eq
          exact ⟨rfl, rfl⟩
      | tuple left' items' =>
          simp only [Derivation.tokens, List.cons_append, List.append_assoc, List.cons.injEq] at eq
          exact (items'.tokens_append_ne rfl eq.2.symm).elim
      | name | applied | thunk | callable => simp [Derivation.tokens] at eq
  | tuple left items comma right =>
      cases d' with
      | unit =>
          simp only [Derivation.tokens, List.cons_append, List.append_assoc, List.cons.injEq] at eq
          exact (items.tokens_append_ne rfl eq.2).elim
      | tuple left' items' comma' right' =>
          simp only [Derivation.tokens, List.cons_append, List.append_assoc, List.nil_append,
            List.cons.injEq, Token.mk.injEq, true_and] at eq
          obtain ⟨rfl, inside⟩ := eq
          obtain ⟨rfl, last⟩ := Derivations.eq_of_tokens (Derivation.closes_trailing comma)
            (Derivation.closes_trailing comma') inside
          obtain ⟨rfl, rfl, rfl⟩ := Derivation.trailing_append_inj last
          exact ⟨rfl, rfl⟩
      | name | applied | thunk | callable => simp [Derivation.tokens] at eq

theorem Derivations.eq_of_tokens {ds ds' : Derivations} {rest rest' : List Token}
    (closes : Closes (rest.map (·.lexeme))) (closes' : Closes (rest'.map (·.lexeme)))
    (eq : ds.tokens ++ rest = ds'.tokens ++ rest') : ds = ds' ∧ rest = rest' := by
  cases ds with
  | one type =>
      cases ds' with
      | one type' =>
          obtain ⟨rfl, rfl⟩ := Derivation.eq_of_tokens closes.ends closes'.ends eq
          exact ⟨rfl, rfl⟩
      | more first' comma' others' =>
          simp only [Derivations.tokens, List.append_assoc, List.cons_append] at eq
          obtain ⟨-, rfl⟩ := Derivation.eq_of_tokens closes.ends (by simp [Ends]) eq
          exact (others'.not_closes closes).elim
  | more first comma others =>
      cases ds' with
      | one type' =>
          simp only [Derivations.tokens, List.append_assoc, List.cons_append] at eq
          obtain ⟨-, rfl⟩ := Derivation.eq_of_tokens (by simp [Ends]) closes'.ends eq
          exact (others.not_closes closes').elim
      | more first' comma' others' =>
          simp only [Derivations.tokens, List.append_assoc, List.cons_append] at eq
          obtain ⟨rfl, last⟩ := Derivation.eq_of_tokens (by simp [Ends]) (by simp [Ends]) eq
          simp only [List.cons.injEq, Token.mk.injEq, true_and] at last
          obtain ⟨rfl, last⟩ := last
          obtain ⟨rfl, rfl⟩ := Derivations.eq_of_tokens closes closes' last
          exact ⟨rfl, rfl⟩
end

theorem Derivation.tokens_injective : Function.Injective Derivation.tokens := by
  intro d d' eq
  have whole : d.tokens ++ [] = d'.tokens ++ [] := by rw [eq]
  exact (eq_of_tokens (by simp [Ends]) (by simp [Ends]) whole).1

mutual
/-- The expression with all of its places forgotten. -/
def TypeExpr.unplaced : TypeExpr → TypeExpr
  | .named _ name args => .named .start name (TypeExpr.allUnplaced args)
  | .callable _ params result => .callable .start (TypeExpr.allUnplaced params) result.unplaced
  | .tuple _ items => .tuple .start (TypeExpr.allUnplaced items)

def TypeExpr.allUnplaced : List TypeExpr → List TypeExpr
  | [] => []
  | e :: es => e.unplaced :: TypeExpr.allUnplaced es
end

mutual
def Derivation.unplaced : Derivation → Derivation
  | .name _ name => .name .start name
  | .applied _ name _ args _ => .applied .start name .start args.unplaced .start
  | .thunk _ _ _ _ result => .thunk .start .start .start .start result.unplaced
  | .callable _ _ params _ _ result =>
      .callable .start .start params.unplaced .start .start result.unplaced
  | .unit _ _ => .unit .start .start
  | .tuple _ items comma _ => .tuple .start items.unplaced (comma.map fun _ => .start) .start

def Derivations.unplaced : Derivations → Derivations
  | .one type => .one type.unplaced
  | .more first _ others => .more first.unplaced .start others.unplaced
end

mutual
theorem Derivation.tokens_unplaced (d : Derivation) :
    d.unplaced.tokens = d.lexemes.map (⟨·, .start⟩) := by
  cases d with
  | name | unit => rfl
  | applied _ _ _ args =>
      simp [Derivation.unplaced, Derivation.tokens, args.tokens_unplaced]
  | thunk _ _ _ _ result =>
      simp [Derivation.unplaced, Derivation.tokens, result.tokens_unplaced]
  | callable _ _ params _ _ result =>
      simp [Derivation.unplaced, Derivation.tokens, params.tokens_unplaced, result.tokens_unplaced]
  | tuple _ items comma =>
      cases comma <;>
        simp [Derivation.unplaced, Derivation.tokens, Derivation.trailing, items.tokens_unplaced]

theorem Derivations.tokens_unplaced (ds : Derivations) :
    ds.unplaced.tokens = ds.lexemes.map (⟨·, .start⟩) := by
  cases ds with
  | one type => simp [Derivations.unplaced, Derivations.tokens, type.tokens_unplaced]
  | more first comma others =>
      simp [Derivations.unplaced, Derivations.tokens, first.tokens_unplaced, others.tokens_unplaced]
end

mutual
theorem Derivation.expr_unplaced (d : Derivation) : d.unplaced.expr = d.expr.unplaced := by
  cases d with
  | name | unit => rfl
  | applied _ _ _ args =>
      simp only [Derivation.unplaced, Derivation.expr, TypeExpr.unplaced, args.exprs_unplaced]
  | thunk _ _ _ _ result =>
      simp only [Derivation.unplaced, Derivation.expr, TypeExpr.unplaced, result.expr_unplaced,
        TypeExpr.allUnplaced]
  | callable _ _ params _ _ result =>
      simp only [Derivation.unplaced, Derivation.expr, TypeExpr.unplaced, params.exprs_unplaced,
        result.expr_unplaced]
  | tuple _ items =>
      simp only [Derivation.unplaced, Derivation.expr, TypeExpr.unplaced, items.exprs_unplaced]

theorem Derivations.exprs_unplaced (ds : Derivations) :
    ds.unplaced.exprs = TypeExpr.allUnplaced ds.exprs := by
  cases ds with
  | one type =>
      simp only [Derivations.unplaced, Derivations.exprs, TypeExpr.allUnplaced, type.expr_unplaced]
  | more first comma others =>
      simp only [Derivations.unplaced, Derivations.exprs, TypeExpr.allUnplaced,
        first.expr_unplaced, others.exprs_unplaced]
end

/-- Derivations of the same lexemes differ in their places only. -/
theorem Derivation.unplaced_expr_of_lexemes {d d' : Derivation} (eq : d.lexemes = d'.lexemes) :
    d.expr.unplaced = d'.expr.unplaced := by
  have same : d.unplaced = d'.unplaced :=
    tokens_injective (by rw [d.tokens_unplaced, d'.tokens_unplaced, eq])
  rw [← d.expr_unplaced, ← d'.expr_unplaced, same]

/-- The operator of each direction. -/
inductive Lexeme.Bounds : Lexeme → Direction → Prop where
  | lower : Bounds .supertype .lower
  | upper : Bounds .subtype .upper

theorem Lexeme.Bounds.direction_eq {l : Lexeme} {direction direction' : Direction}
    (bounds : l.Bounds direction) (bounds' : l.Bounds direction') : direction = direction' := by
  cases bounds <;> cases bounds' <;> rfl

/-- `Ident (":>" | "<:") Type` -/
structure ConstraintDerivation where
  place : Position
  var : String
  operator : Lexeme
  operatorPlace : Position
  direction : Direction
  bounds : operator.Bounds direction
  target : Derivation

namespace ConstraintDerivation

def tokens (d : ConstraintDerivation) : List Token :=
  ⟨.ident d.var, d.place⟩ :: ⟨d.operator, d.operatorPlace⟩ :: d.target.tokens

def expr (d : ConstraintDerivation) : ConstraintExpr := ⟨d.place, d.var, d.direction, d.target.expr⟩

theorem tokens_injective : Function.Injective ConstraintDerivation.tokens := by
  rintro ⟨place, var, operator, operatorPlace, direction, bounds, target⟩
    ⟨place', var', operator', operatorPlace', direction', bounds', target'⟩ eq
  simp only [tokens, List.cons.injEq, Token.mk.injEq, Lexeme.ident.injEq] at eq
  obtain ⟨⟨rfl, rfl⟩, ⟨rfl, rfl⟩, inside⟩ := eq
  obtain rfl := bounds.direction_eq bounds'
  obtain rfl := Derivation.tokens_injective inside
  rfl

end ConstraintDerivation

def ConstraintExpr.unplaced (e : ConstraintExpr) : ConstraintExpr :=
  ⟨.start, e.var, e.direction, e.target.unplaced⟩

theorem ConstraintDerivation.unplaced_expr_of_lexemes {d d' : ConstraintDerivation}
    (eq : d.tokens.map (·.lexeme) = d'.tokens.map (·.lexeme)) :
    d.expr.unplaced = d'.expr.unplaced := by
  obtain ⟨place, var, operator, operatorPlace, direction, bounds, target⟩ := d
  obtain ⟨place', var', operator', operatorPlace', direction', bounds', target'⟩ := d'
  simp only [tokens, List.map_cons, List.cons.injEq, Lexeme.ident.injEq] at eq
  obtain ⟨rfl, rfl, inside⟩ := eq
  obtain rfl := bounds.direction_eq bounds'
  simp only [expr, ConstraintExpr.unplaced, Derivation.unplaced_expr_of_lexemes inside]

end TypeBounds
