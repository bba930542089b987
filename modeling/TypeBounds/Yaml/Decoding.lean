import TypeBounds.Text.Quoted
import TypeBounds.Yaml.Value

/-! # Reading records from nodes

A mapping is read into a record key by key. Values of the wrong kind, keys written
twice and keys that mean nothing are collected, so that all of them can be reported;
only what has no sensible reading at all ends the work at once. Entries under the
merge key count after all others, and only for keys that are not there yet.
-/

namespace TypeBounds.Yaml

/-- What is wrong with the shape of a document. -/
inductive ShapeError where
  /-- A value of one kind stands where another is wanted. -/
  | mismatch (line : Int) (tag : String) (shown : String) (wanted : String)
  | repeatedKey (line : Int) (key : String) (first : Int)
  | unknownField (line : Int) (name owner : String)
  | repeatedField (line : Int) (name owner : String)
  deriving Repr, DecidableEq

def ShapeError.message : ShapeError → String
  | .mismatch line tag shown wanted => s!"line {line}: cannot unmarshal {tag}{shown} into {wanted}"
  | .repeatedKey line key first =>
      s!"line {line}: mapping key {Text.quote key} already defined at line {first}"
  | .unknownField line name owner => s!"line {line}: field {name} not found in type {owner}"
  | .repeatedField line name owner => s!"line {line}: field {name} already set in type {owner}"

/-- Collects errors of shape, and may fail altogether. -/
abbrev Decoding := StateT (List ShapeError) Option

namespace Decoding

def report (es : List ShapeError) : Decoding Unit := modify (· ++ es)

/-- The characters of a text that fit so many bytes of UTF-8. The bytes of a character that
    is cut are unreadable. -/
def clip : Nat → List Char → List Char
  | _, [] => []
  | budget, c :: cs =>
      if c.utf8Size ≤ budget then c :: clip (budget - c.utf8Size) cs
      else List.replicate budget '\ufffd'

/-- A scalar's text as errors show it. -/
def shown (text : String) : String :=
  if text.utf8ByteSize > 10 then " `" ++ String.ofList (clip 7 text.toList) ++ "...`"
  else " `" ++ text ++ "`"

/-- Report that a node is not of the wanted type. -/
def mismatch (n : Node) (wanted : String) : Decoding Unit :=
  let isPlainCollection := n.tag == "!!seq" || n.tag == "!!map"
  report [.mismatch n.position.line n.tag (if isPlainCollection then n.text else shown n.text) wanted]

/-- An error for every two keys of a mapping that are the same. -/
def repeatedKeys : List (Node × Node) → List ShapeError
  | [] => []
  | (key, _) :: rest =>
      rest.filterMap (fun (other, _) =>
        if key.kind = other.kind ∧ key.text = other.text then
          some (.repeatedKey other.position.line other.text key.position.line)
        else none) ++ repeatedKeys rest

/-- Report repeated keys, or else that a mapping is not of the wanted type. -/
def refuseMapping (n : Node) (entries : List (Node × Node)) (wanted : String) : Decoding Unit :=
  match repeatedKeys entries with
  | [] => mismatch n wanted
  | errors => report errors

/-- A scalar read by `pick` from its text and value; nothing for a null and for what does
    not fit. -/
def scalar {α : Type} (wanted : String) (pick : String → Value → Option α) : Node → Decoding (Option α)
  | .alias _ _ target => scalar wanted pick target
  | .scalar position tag style text => do
      match ← scalarValue? tag style text with
      | .null => return none
      | value =>
          match pick text value with
          | some a => return some a
          | none =>
              mismatch (.scalar position tag style text) wanted
              return none
  | .mapping position tag entries => do
      refuseMapping (.mapping position tag entries) entries wanted
      return none
  | n => do
      mismatch n wanted
      return none

/-- Any scalar is taken for its text. -/
def text : Node → Decoding (Option String) :=
  scalar "string" fun text value =>
    match value with
    | .text s => some s
    | _ => some text

/-- An integer of 64 bits, or the integer part of a fraction. -/
def int : Node → Decoding (Option Int) :=
  scalar "int" fun _ value =>
    match value with
    | .int n => if n < Text.wordLimit then some n else none
    | .float whole => whole
    | _ => none

/-- A boolean, or one of the words people write for one. -/
def bool : Node → Decoding (Option Bool) :=
  scalar "bool" fun _ value =>
    match value with
    | .bool b => some b
    | .text s =>
        if ["y", "Y", "yes", "Yes", "YES", "on", "On", "ON"].contains s then some true
        else if ["n", "N", "no", "No", "NO", "off", "Off", "OFF"].contains s then some false
        else none
    | _ => none

/-- The items of a sequence; a null has none. -/
def items (wanted : String) : Node → Decoding (List Node)
  | .alias _ _ target => items wanted target
  | .sequence _ _ items => return items
  | n => do
      let _ ← scalar wanted (fun _ _ => (none : Option Unit)) n
      return []

/-- How mappings are read into records of a type. -/
structure RecordShape (σ : Type) where
  owner : String
  /-- Keys that are no fields are errors. -/
  strict : Bool
  /-- How the value under a key goes into the record, if the key is a field. -/
  assign? : String → Option (Node → σ → Decoding σ)

/-- A record as far as it is read. -/
structure Filling (σ : Type) where
  value : σ
  /-- Within merging, the keys that are there already. -/
  taken : Option (List String)

/-- The keys of a mapping that are texts. -/
def textKeys (entries : List (Node × Node)) : List String :=
  entries.filterMap fun (key, _) =>
    match key.followed with
    | .scalar _ tag style text =>
        match scalarValue? tag style text with
        | some (.text s) => some s
        | _ => none
    | _ => none

mutual
/-- Read the entries of a mapping whose text keys are `own`; `merge` comes after them all. -/
def entries {σ : Type} (shape : RecordShape σ) (own : List String)
    (merge : Filling σ → Decoding (Filling σ)) (done : List String) :
    List (Node × Node) → Filling σ → Decoding (Filling σ)
  | [], filling => merge filling
  | (key, value) :: rest, filling => do
      if key.isMergeKey then
        entries shape own
          (fun filling => mergeFrom shape value { filling with taken := some (filling.taken.getD own) })
          done rest filling
      else match ← text key with
        | none => entries shape own merge done rest filling
        | some name =>
            if (filling.taken.getD []).contains name then entries shape own merge done rest filling
            else
              let filling := { filling with taken := filling.taken.map (name :: ·) }
              match shape.assign? name with
              | none =>
                  if shape.strict then
                    report [.unknownField key.position.line name shape.owner]
                  entries shape own merge done rest filling
              | some assign =>
                  if done.contains name then
                    report [.repeatedField key.position.line name shape.owner]
                    entries shape own merge done rest filling
                  else
                    let record ← assign value filling.value
                    entries shape own merge (name :: done) rest { filling with value := record }

/-- Merge a mapping, or several, into a record. -/
def mergeFrom {σ : Type} (shape : RecordShape σ) : Node → Filling σ → Decoding (Filling σ)
  | .mapping _ _ inner, filling => do
      match repeatedKeys inner with
      | [] => entries shape (textKeys inner) pure [] inner filling
      | errors =>
          report errors
          return filling
  | .alias _ _ target, filling => do
      if target.kind ≠ .mapping then failure
      mergeFrom shape target filling
  | .sequence _ _ nodes, filling => mergeAll shape nodes filling
  | _, _ => failure

/-- Merge mappings one after another. -/
def mergeAll {σ : Type} (shape : RecordShape σ) : List Node → Filling σ → Decoding (Filling σ)
  | [], filling => return filling
  | n :: rest, filling => do
      if n.followed.kind ≠ .mapping then failure
      mergeAll shape rest (← mergeFrom shape n filling)
end

/-- Read a mapping into a record; nothing if it is not one. -/
def record {σ : Type} (shape : RecordShape σ) (start : σ) : Node → Decoding (Option σ)
  | .alias _ _ target => record shape start target
  | .mapping _ _ inner => do
      match repeatedKeys inner with
      | [] => return some (← entries shape (textKeys inner) pure [] inner ⟨start, none⟩).value
      | errors =>
          report errors
          return none
  | n => scalar shape.owner (fun _ _ => none) n

/-- The last value that a mapping has under a key. -/
def lastUnder (key : String) : Node → Option Node
  | .mapping _ _ entries => (entries.reverse.find? (·.1.text == key)).map (·.2)
  | _ => none

end Decoding

end TypeBounds.Yaml
