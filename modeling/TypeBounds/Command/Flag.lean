import TypeBounds.Text.Integer
import TypeBounds.Text.Quoted

/-! # Flags of a command line

A flag has a long name and perhaps a letter. Long flags are written `--name value` or
`--name=value`, letters `-n value`, `-nvalue` or `-n=value`; a boolean flag needs no
value, and letters may share a dash. Flags and arguments may be mixed, and `--` ends
the flags.
-/

namespace TypeBounds.Command

/-- What the value of a flag is. -/
inductive FlagKind where
  | int
  | bool
  | text
  deriving Repr, DecidableEq

structure Flag where
  name : String
  letter : Option Char
  kind : FlagKind
  deriving Repr, DecidableEq

inductive FlagValue where
  | int (n : Int)
  | bool (b : Bool)
  | text (s : String)
  deriving Repr, DecidableEq

/-- Why a command line is not understood. -/
inductive UsageError where
  | badSyntax (arg : String)
  | unknownFlag (name : String)
  | unknownLetter (letters : String)
  | missingValue (arg : String)
  | missingLetterValue (letters : String)
  | invalidValue (flag : Flag) (value : String) (e : Text.NumberError)
  | argumentCount (expected received : Nat)
  deriving Repr, DecidableEq

/-- The first byte of a character in UTF-8, as a character. -/
def leadingByte (c : Char) : Char :=
  let n := c.toNat
  if n < 0x80 then c
  else if n < 0x800 then Char.ofNat (0xc0 + n / 0x40)
  else if n < 0x10000 then Char.ofNat (0xe0 + n / 0x1000)
  else Char.ofNat (0xf0 + n / 0x40000)

/-- The letter that a group of letters starts with, in quotes. -/
def quotedLetter (letters : String) : String :=
  (letters.toList.head?.map fun c => Text.quoteChar (leadingByte c)).getD ""

namespace Flag

/-- The flag as messages name it. -/
def title (f : Flag) : String :=
  match f.letter with
  | some letter => s!"-{letter}, --{f.name}"
  | none => s!"--{f.name}"

/-- The function that messages blame for a value. -/
def readerName (f : Flag) : String :=
  match f.kind with
  | .bool => "strconv.ParseBool"
  | _ => "strconv.ParseInt"

/-- Whether a flag has a value even if none is written. -/
def isSwitch (f : Flag) : Bool := f.kind == .bool

/-- The value that a text gives a flag. -/
def read (f : Flag) (value : String) : Except UsageError FlagValue :=
  match f.kind with
  | .text => .ok (.text value)
  | .int => ((Text.readInt value).map .int).mapError (.invalidValue f value)
  | .bool => ((Text.readBool value).map .bool).mapError (.invalidValue f value)

end Flag

def UsageError.message : UsageError → String
  | .badSyntax arg => s!"bad flag syntax: {arg}"
  | .unknownFlag name => s!"unknown flag: --{name}"
  | .unknownLetter letters => s!"unknown shorthand flag: {quotedLetter letters} in -{letters}"
  | .missingValue arg => s!"flag needs an argument: {arg}"
  | .missingLetterValue letters => s!"flag needs an argument: {quotedLetter letters} in -{letters}"
  | .invalidValue f value e =>
      s!"invalid argument {Text.quote value} for {Text.quote f.title} flag: " ++
        s!"{f.readerName}: parsing {Text.quote value}: {e.message}"
  | .argumentCount expected received => s!"accepts {expected} arg(s), received {received}"

/-- What a command line gives: values of flags, the latest first, and arguments. -/
structure Given where
  flags : List (String × FlagValue)
  args : List String
  deriving Repr, DecidableEq

namespace Given

def empty : Given := ⟨[], []⟩

def int (g : Given) (name : String) (default : Int) : Int :=
  match g.flags.lookup name with
  | some (.int n) => n
  | _ => default

def bool (g : Given) (name : String) : Bool := g.flags.lookup name == some (.bool true)

def text (g : Given) (name : String) : String :=
  match g.flags.lookup name with
  | some (.text s) => s
  | _ => ""

/-- Note the value that a text gives a flag. -/
def set (g : Given) (f : Flag) (value : String) : Except UsageError Given := do
  return { g with flags := (f.name, ← f.read value) :: g.flags }

end Given

/-- A flag by its long name. -/
def findFlag? (flags : List Flag) (name : String) : Option Flag := flags.find? (·.name == name)

/-- A flag by its letter. -/
def findLetter? (flags : List Flag) (letter : Char) : Option Flag :=
  flags.find? (·.letter == some letter)

/-- The text before the first equals sign, and the text behind it if there is one. -/
def splitAssignment (s : String) : String × Option String :=
  let cs := s.toList
  match cs.dropWhile (· ≠ '=') with
  | [] => (s, none)
  | _ :: value => (String.ofList (cs.takeWhile (· ≠ '=')), some (String.ofList value))

/-- A flag and its value, which is missing if it is the next argument. -/
abbrev FlagUse := Flag × Option String

/-- A long flag. -/
def readLong (flags : List Flag) (arg : String) : Except UsageError FlagUse := do
  let body := (arg.drop 2).toString
  if body.startsWith "-" || body.startsWith "=" then throw (.badSyntax arg)
  let (name, value) := splitAssignment body
  match findFlag? flags name with
  | none => throw (.unknownFlag name)
  | some f => return (f, value <|> if f.isSwitch then some "true" else none)

/-- The flags of letters that share a dash; only the last of them can miss its value. -/
def readLetters (flags : List Flag) : List Char → Except UsageError (List FlagUse)
  | [] => .ok []
  | letter :: rest =>
      match findLetter? flags letter with
      | none => .error (.unknownLetter (String.ofList (letter :: rest)))
      | some f =>
          match rest with
          | '=' :: c :: value => .ok [(f, some (String.ofList (c :: value)))]
          | _ =>
              if f.isSwitch then do return (f, some "true") :: (← readLetters flags rest)
              else if rest.isEmpty then .ok [(f, none)]
              else .ok [(f, some (String.ofList rest))]

/-- The flags of an argument that starts with a dash. Letters that start with `test.` are
    left alone. -/
def readUses (flags : List Flag) (arg : String) : Except UsageError (List FlagUse) :=
  if arg.startsWith "--" then (readLong flags arg).map ([·])
  else if arg.startsWith "-test." then .ok []
  else readLetters flags arg.toList.tail

/-- The complaint about a flag without a value. -/
def missingValue (arg : String) (f : Flag) : UsageError :=
  if arg.startsWith "--" then .missingValue arg
  else .missingLetterValue ((f.letter.map (fun c => String.ofList [c])).getD "")

/-- Read flags and arguments from the left. -/
def readArgs (flags : List Flag) (g : Given) : List String → Except UsageError Given
  | [] => .ok g
  | arg :: rest =>
      if !arg.startsWith "-" || arg == "-" then readArgs flags { g with args := g.args ++ [arg] } rest
      else if arg == "--" then .ok { g with args := g.args ++ rest }
      else do
        let uses ← readUses flags arg
        let g ← uses.foldlM (fun g (f, value) => value.elim (pure g) (g.set f)) g
        match uses.getLast?, rest with
        | some (f, none), [] => throw (missingValue arg f)
        | some (f, none), value :: rest => readArgs flags (← g.set f value) rest
        | _, rest => readArgs flags g rest

end TypeBounds.Command
