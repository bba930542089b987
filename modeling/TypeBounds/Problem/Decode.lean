import TypeBounds.Problem.Document
import TypeBounds.Yaml.Decoding
import TypeBounds.Yaml.Node.Reader

/-! # From texts to documents

A document is a mapping with lists of classes, variables and constraints. Classes
are read into declarations; variables and constraints stay nodes.
-/

namespace TypeBounds

open Yaml (Node ShapeError Decoding)
open Yaml.Decoding

/-- Why a text is no document. -/
inductive DecodeError where
  | malformed
  | misshapen (errors : List ShapeError)
  deriving Repr, DecidableEq

def DecodeError.message : DecodeError → String
  | .malformed => "could not decode problem"
  | .misshapen errors =>
      "could not decode problem: yaml: unmarshal errors:" ++
        String.join (errors.map fun e => "\n  " ++ e.message)

/-- The fields of a class declaration. -/
structure ClassFields where
  name : String
  params : Int
  base : String
  root : Bool

/-- How a class is written. Keys that mean nothing are ignored. -/
def ClassFields.shape : RecordShape ClassFields where
  owner := "problem.plain"
  strict := false
  assign? field :=
    if field = "name" then
      some fun n fields => do return { fields with name := (← text n).getD fields.name }
    else if field = "params" then
      some fun n fields => do return { fields with params := (← int n).getD fields.params }
    else if field = "base" then
      some fun n fields => do return { fields with base := (← text n).getD fields.base }
    else if field = "root" then
      some fun n fields => do return { fields with root := (← bool n).getD fields.root }
    else none

/-- A class declaration; nothing for a null or where there are errors. -/
def ClassDecl.ofNode (n : Node) : Decoding (Option ClassDecl) := do
  let node := n.followed
  let position := node.position
  let before := (← get).length
  let fields ← match node with
    | .enclosing _ _ true => pure (some ⟨"", 0, "", false⟩)
    | _ => record ClassFields.shape ⟨"", 0, "", false⟩ node
  if (← get).length > before then return none
  let baseAt := (lastUnder "base" node).elim ⟨position, false⟩ Node.placement
  return fields.map fun f => ⟨f.name, f.params, f.base, f.root, position, baseAt⟩

/-- The class declarations that are in order. -/
def ClassDecl.listOfNode (n : Node) : Decoding (List ClassDecl) := do
  return (← (← items "[]problem.classDecl" n).mapM ClassDecl.ofNode).filterMap id

/-- How a document is written. -/
def Document.shape : RecordShape Document where
  owner := "problem.document"
  strict := true
  assign? field :=
    if field = "classes" then
      some fun n d => do return { d with classes := ← ClassDecl.listOfNode n }
    else if field = "variables" then
      some fun n d => do return { d with vars := ← items "[]yaml.Node" n }
    else if field = "constraints" then
      some fun n d => do return { d with constraints := ← items "[]yaml.Node" n }
    else none

/-- The document of a text. An empty text and a null are empty documents. -/
def Document.read (source : String) : Except DecodeError Document :=
  match Node.read source with
  | none => .error .malformed
  | some none => .ok .empty
  | some (some root) =>
      match (record shape .empty root).run [] with
      | none => .error .malformed
      | some (document, []) => .ok (document.getD .empty)
      | some (_, errors) => .error (.misshapen errors)

end TypeBounds
