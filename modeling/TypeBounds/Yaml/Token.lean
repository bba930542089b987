import TypeBounds.Yaml.Cursor

/-! # Tokens of a YAML text -/

namespace TypeBounds.Yaml

/-- How a scalar is written. -/
inductive Style where
  | plain
  | singleQuoted
  | doubleQuoted
  | literal
  | folded
  deriving Repr, DecidableEq, Inhabited

def Style.isQuoted : Style → Bool
  | .singleQuoted => true
  | .doubleQuoted => true
  | _ => false

/-- Whether the scalar is a block of lines of its own. -/
def Style.isBlock : Style → Bool
  | .literal => true
  | .folded => true
  | _ => false

/-- The kinds of tokens. What belongs to an indented block stands between a start and an
    end that the indentation implies. -/
inductive Kind where
  | versionDirective (major minor : Nat)
  | tagDirective (handle expansion : String)
  | documentStart
  | documentEnd
  | streamEnd
  | blockSequenceStart
  | blockMappingStart
  | blockEnd
  | flowSequenceStart
  | flowSequenceEnd
  | flowMappingStart
  | flowMappingEnd
  | blockEntry
  | flowEntry
  | key
  | value
  | alias (name : String)
  | anchor (name : String)
  | tag (handle suffix : String)
  | scalar (text : String) (style : Style)
  deriving Repr, DecidableEq

structure Token where
  kind : Kind
  start : Mark
  stop : Mark
  deriving Repr, DecidableEq

end TypeBounds.Yaml
