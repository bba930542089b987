import TypeBounds.Text.Quoted

/-! # Log lines

A line is `level=L msg=M` followed by the attributes as `key=value`. Keys of
attributes in groups have the group names before them. Keys and texts are quoted
when they could be misread. An attribute called `time` is left out.
-/

namespace TypeBounds.Log

/-- Severities; the named ones are four apart. -/
abbrev Level := Int

namespace Level

def debug : Level := -4

def info : Level := 0

def warn : Level := 4

def error : Level := 8

/-- A name and how far above it the level is. -/
def offsetText (name : String) (offset : Int) : String :=
  if offset = 0 then name
  else if offset > 0 then s!"{name}+{offset}"
  else s!"{name}{offset}"

/-- The nearest name at or below the level; what is below all names counts from the
    lowest. -/
def text (level : Level) : String :=
  if level < info then offsetText "DEBUG" (level - debug)
  else if level < warn then offsetText "INFO" (level - info)
  else if level < error then offsetText "WARN" (level - warn)
  else offsetText "ERROR" (level - error)

end Level

/-- What an attribute says. -/
inductive Value where
  | text (s : String)
  | int (n : Int)
  | bool (b : Bool)
  /-- Attributes under a common name. -/
  | group (attrs : List (String × Value))
  deriving Inhabited

mutual
/-- A value by itself, as text; a group shows its attributes between brackets. -/
def Value.shown : Value → String
  | .text s => s
  | .int n => toString n
  | .bool b => toString b
  | .group attrs => "[" ++ " ".intercalate (shownAll attrs) ++ "]"

def Value.shownAll : List (String × Value) → List String
  | [] => []
  | (key, value) :: rest => (key ++ "=" ++ value.shown) :: shownAll rest
end

abbrev Attr := String × Value

/-- One message with its attributes. -/
structure Record where
  level : Level
  message : String
  attrs : List Attr

/-- Whether text could be misread in a line: it is empty, or holds a blank, an equals
    sign, a quote, a control character, or a character that is not printable. -/
def needsQuotes (s : String) : Bool :=
  s.isEmpty || s.toList.any fun c =>
    if c.toNat < 128 then c.toNat ≤ 32 || c = '=' || c = '"'
    else !Text.isPrintable c || c.toNat = 0xfffd

def quoteIfNeeded (s : String) : String :=
  if needsQuotes s then Text.quote s else s

/-- A key after the names of its groups. -/
def keyText (path key : String) : String :=
  if path.isEmpty then quoteIfNeeded key
  else if needsQuotes path || needsQuotes key then Text.quote (path ++ key)
  else path ++ key

mutual
/-- An attribute's `key=value` texts; `path` is the dotted names of the groups around it. -/
def attrTexts (path : String) (key : String) : Value → List String
  | .text s => if key = "time" then [] else [s!"{keyText path key}={quoteIfNeeded s}"]
  | .int n => if key = "time" then [] else [s!"{keyText path key}={n}"]
  | .bool b => if key = "time" then [] else [s!"{keyText path key}={b}"]
  | .group attrs => attrListTexts (if key.isEmpty then path else path ++ key ++ ".") attrs

def attrListTexts (path : String) : List (String × Value) → List String
  | [] => []
  | (key, value) :: rest => attrTexts path key value ++ attrListTexts path rest
end

end TypeBounds.Log
