import TypeBounds.Expr.Resolve
import TypeBounds.Proofs.Scanning

/-! # The lexemes of a type

The text of a type scans into its lexemes, provided that its classes are called by
identifiers.
-/

namespace TypeBounds

mutual
/-- Every class is called by an identifier that means no special type, and there is no `error`. -/
def Ty.isSpelled : Ty → Bool
  | .inst i => i.isSpelled
  | .callable params result _ => Ty.allSpelled params && result.isSpelled
  | .tuple items _ => Ty.allSpelled items
  | .void => true
  | .dynamic => true
  | .bottom => true
  | .error => false

def Instance.isSpelled : Instance → Bool
  | ⟨c, args⟩ => Token.isIdent c.name && (specialType? c.name).isNone && Ty.allSpelled args

def Ty.allSpelled : List Ty → Bool
  | [] => true
  | t :: ts => t.isSpelled && Ty.allSpelled ts
end

mutual
/-- The lexemes of the text of a type. -/
def Ty.lexemes : Ty → List Lexeme
  | .inst i => i.lexemes
  | .callable params result _ =>
      .ident "def" :: .leftParen ::
        (Ty.listLexemes params ++ .rightParen :: .arrow :: result.lexemes)
  | .tuple [item] _ => .leftParen :: (item.lexemes ++ [.comma, .rightParen])
  | .tuple items _ => .leftParen :: (Ty.listLexemes items ++ [.rightParen])
  | .void => [.ident "void"]
  | .dynamic => [.ident "Any"]
  | .bottom => [.ident "None"]
  | .error => []

def Instance.lexemes : Instance → List Lexeme
  | ⟨c, []⟩ => [.ident c.name]
  | ⟨c, arg :: args⟩ =>
      .ident c.name :: .leftBracket :: (Ty.listLexemes (arg :: args) ++ [.rightBracket])

def Ty.listLexemes : List Ty → List Lexeme
  | [] => []
  | t :: ts => t.lexemes ++ Ty.moreLexemes ts

/-- A comma before each type. -/
def Ty.moreLexemes : List Ty → List Lexeme
  | [] => []
  | t :: ts => .comma :: (t.lexemes ++ Ty.moreLexemes ts)
end

namespace Token

theorem scans_def (rest : List Char) : Scans "def (".toList [.ident "def", .leftParen] rest :=
  (scans_ident "def" (by decide) (by simp [Stops]; decide)).append
    ((scans_blank _).append (scans_sign (l := .leftParen) (by simp) rest))

theorem scans_arrow (rest : List Char) : Scans ") -> ".toList [.rightParen, .arrow] rest :=
  (scans_sign (l := .rightParen) (by simp) _).append ((scans_blank _).append
    ((scans_sign (l := .arrow) (by simp) _).append (scans_blank rest)))

theorem scans_comma (rest : List Char) : Scans ", ".toList [.comma] rest :=
  (scans_sign (l := .comma) (by simp) _).append (scans_blank rest)

theorem scans_close (rest : List Char) : Scans ")".toList [.rightParen] rest :=
  scans_sign (l := .rightParen) (by simp) rest

end Token

open Token

mutual
theorem Ty.scans_text {t : Ty} (spelled : t.isSpelled) {rest : List Char} (stops : Stops rest) :
    Scans t.text.toList t.lexemes rest := by
  match t with
  | .inst i => exact Instance.scans_text spelled stops
  | .callable params result _ =>
      obtain ⟨ofParams, ofResult⟩ := (Bool.and_eq_true _ _).mp spelled
      simp only [Ty.text, String.toList_append, List.append_assoc, Ty.lexemes]
      exact (scans_def _).append ((Ty.scans_listText ofParams (by simp [Stops]; decide)).append
        ((scans_arrow _).append (Ty.scans_text ofResult stops)))
  | .tuple [] _ =>
      simp only [Ty.text, Ty.listText, String.append_empty, String.toList_append, Ty.lexemes]
      exact (scans_sign (l := .leftParen) (by simp) _).append (scans_close rest)
  | .tuple [item] _ =>
      obtain ⟨ofItem, -⟩ := (Bool.and_eq_true _ _).mp spelled
      simp only [Ty.text, String.toList_append, List.append_assoc, Ty.lexemes]
      exact (scans_sign (l := .leftParen) (by simp) _).append
        ((Ty.scans_text ofItem (by simp [Stops]; decide)).append
          ((scans_sign (l := .comma) (by simp) _).append (scans_close rest)))
  | .tuple (item :: next :: items) _ =>
      simp only [Ty.text, String.toList_append, List.append_assoc, Ty.lexemes]
      exact (scans_sign (l := .leftParen) (by simp) _).append
        ((Ty.scans_listText spelled (by simp [Stops]; decide)).append (scans_close rest))
  | .void => exact scans_ident "void" (by decide) stops
  | .dynamic => exact scans_ident "Any" (by decide) stops
  | .bottom => exact scans_ident "None" (by decide) stops

theorem Instance.scans_text {i : Instance} (spelled : i.isSpelled) {rest : List Char}
    (stops : Stops rest) : Scans i.text.toList i.lexemes rest := by
  match i with
  | ⟨c, []⟩ =>
      simp only [Instance.isSpelled, Bool.and_eq_true] at spelled
      exact scans_ident c.name spelled.1.1 stops
  | ⟨c, arg :: args⟩ =>
      simp only [Instance.isSpelled, Bool.and_eq_true] at spelled
      simp only [Instance.text, String.toList_append, List.append_assoc, Instance.lexemes]
      exact (scans_ident c.name spelled.1.1 (by simp [Stops]; decide)).append
        ((scans_sign (l := .leftBracket) (by simp) _).append
          ((Ty.scans_listText spelled.2 (by simp [Stops]; decide)).append
            (scans_sign (l := .rightBracket) (by simp) rest)))

theorem Ty.scans_listText {ts : List Ty} (spelled : Ty.allSpelled ts) {rest : List Char}
    (stops : Stops rest) : Scans (Ty.listText ts).toList (Ty.listLexemes ts) rest := by
  match ts with
  | [] => exact scans_nil rest
  | [t] =>
      obtain ⟨head, -⟩ := (Bool.and_eq_true _ _).mp spelled
      simp only [Ty.listText, Ty.listLexemes, Ty.moreLexemes, List.append_nil]
      exact Ty.scans_text head stops
  | t :: u :: ts =>
      obtain ⟨head, tail⟩ := (Bool.and_eq_true _ _).mp spelled
      simp only [Ty.listText, String.toList_append, List.append_assoc]
      exact (Ty.scans_text head (by simp [Stops]; decide)).append
        ((scans_comma _).append (Ty.scans_listText tail stops))
end

end TypeBounds
