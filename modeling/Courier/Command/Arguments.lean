import Courier.Bytes

/-! # Command lines

A command line is a number of options, a command, and the options of that
command. Options with a value take it from the same word or from the next one;
a next word that looks like an option is no value. No option may come twice at
one level. The password may also come from the environment.

A value in a word of its own is checked late: when the next option is read, or
else when the command line has been read to its end. So a command that asks for
help gets it before the value ahead of the command is checked.
-/

namespace Courier.Command

inductive Task where
  | calibrate (targetMillis : Nat)
  | seal (input output password : String) (targetMillis : Nat)
  | unseal (input output password : String)
  | simulate (directory : String) (messages messageSize capacity : Nat)
  deriving DecidableEq, Repr

inductive Request where
  | help
  | version
  | run (task : Task)
  deriving DecidableEq, Repr

inductive ValueKind where
  | text
  /-- Anything but the empty text. -/
  | path
  | number
  deriving DecidableEq, Repr

/-- An option that takes a value. -/
structure Flag where
  name : String
  short : Option Char := none
  kind : ValueKind := .text
  deriving DecidableEq, Repr

/-- Options with the values that they were given. -/
abbrev Values := List (String × String)

/-- The number that a text of decimal digits spells, after an optional plus sign. -/
def number? (text : String) : Option Nat :=
  let digits := match text.toList with
    | '+' :: digits => digits
    | digits => digits
  if digits.isEmpty || !digits.all Char.isDigit then
    none
  else
    let n := digits.foldl (fun n c => 10 * n + (c.toNat - 48)) 0
    if n < UInt64.size then some n else none

def ValueKind.accepts : ValueKind → String → Bool
  | text, _ => true
  | path, value => value ≠ ""
  | number, value => (number? value).isSome

/-- The options that were read at one level. -/
structure Given where
  /-- The values that were checked. -/
  values : Values := []
  /-- The option that was read last, if its value is yet to be checked. -/
  pending : Option (Flag × String) := none
  deriving DecidableEq, Repr

/-- How the options of one level end. -/
inductive Level where
  | help
  | version
  /-- The options, and the words from the first one that is no option. -/
  | done (given : Given) (rest : List String)
  deriving DecidableEq, Repr

/-- What one word is, at a place where an option may begin. -/
inductive Word where
  | help
  | version
  /-- Nothing that follows is an option. -/
  | stop
  /-- An option, with the value in the same word. -/
  | option (flag : Flag) (value : Option String)
  | plain
  deriving DecidableEq, Repr

/-- Split a word at its first equals sign. -/
def splitEquals (word : List Char) : String × Option String :=
  let name := word.takeWhile (· ≠ '=')
  match word.drop name.length with
  | [] => (String.ofList name, none)
  | _ :: value => (String.ofList name, some (String.ofList value))

/-- Read a word; `none` for an option that is unknown or has a value it cannot have. -/
def Word.read (flags : List Flag) (hasVersion : Bool) (word : String) : Option Word :=
  match word.toList with
  | ['-', '-'] => some .stop
  | '-' :: '-' :: rest =>
      let (name, value) := splitEquals rest
      if name = "help" then
        if value.isNone then some .help else none
      else if name = "version" && hasVersion then
        if value.isNone then some .version else none
      else
        (flags.find? (·.name = name)).map (.option · value)
  | '-' :: short :: rest =>
      if short = 'h' then some .help
      else if short = 'V' && hasVersion then some .version
      else
        (flags.find? (·.short = some short)).map fun flag =>
          match rest with
          | [] => .option flag none
          | '=' :: value => .option flag (some (String.ofList value))
          | value => .option flag (some (String.ofList value))
  | _ => some .plain

/-- The values with one more, if its option is new and accepts it. -/
def addValue (values : Values) (flag : Flag) (value : String) : Option Values :=
  if values.any (·.1 = flag.name) || !flag.kind.accepts value then
    none
  else
    some (values ++ [(flag.name, value)])

/-- All values, if the one that was not checked yet can be added. -/
def Given.settle (g : Given) : Option Values :=
  match g.pending with
  | none => some g.values
  | some (flag, value) => addValue g.values flag value

def isValue (word : String) : Bool :=
  word = "-" || word.toList.head? ≠ some '-'

def readLevel (flags : List Flag) (hasVersion : Bool) : Given → List String → Option Level
  | given, [] => some (.done given [])
  | given, word :: rest =>
      match Word.read flags hasVersion word with
      | none => none
      | some .plain => some (.done given (word :: rest))
      | some .stop => if rest.isEmpty then some (.done given []) else none
      | some .help => given.settle.map fun _ => .help
      | some .version => given.settle.map fun _ => .version
      | some (.option flag (some value)) =>
          match given.settle.bind (addValue · flag value) with
          | some values => readLevel flags hasVersion { values } rest
          | none => none
      | some (.option flag none) =>
          match given.settle, rest with
          | some values, value :: rest =>
              if isValue value then
                readLevel flags hasVersion { values, pending := some (flag, value) } rest
              else
                none
          | _, _ => none

def logLevel : Flag := { name := "log-level" }

def targetMillis : Flag := { name := "target-ms", kind := .number }

def input : Flag := { name := "input", short := some 'i', kind := .path }

def output : Flag := { name := "output", short := some 'o', kind := .path }

def password : Flag := { name := "password" }

/-- The commands, with the options of each. -/
def commands : List (String × List Flag) :=
  [("calibrate", [targetMillis]),
    ("seal", [input, output, password, targetMillis]),
    ("open", [input, output, password]),
    ("simulate",
      [{ name := "dir", kind := .path }, { name := "messages", kind := .number },
        { name := "message-size", kind := .number }, { name := "capacity", kind := .number }])]

def value? (values : Values) (name : String) : Option String :=
  (values.find? (·.1 = name)).map (·.2)

def numberOr (values : Values) (name : String) (default : Nat) : Nat :=
  ((value? values name).bind number?).getD default

/-- The task of a command with these values; `none` if one is missing. -/
def task? (environment : Option String) (command : String) (values : Values) : Option Task := do
  let password := (value? values "password").or environment
  let targetMillis := numberOr values "target-ms" 500
  match command with
  | "calibrate" => return .calibrate targetMillis
  | "seal" =>
      return .seal (← value? values "input") (← value? values "output") (← password) targetMillis
  | "open" => return .unseal (← value? values "input") (← value? values "output") (← password)
  | "simulate" =>
      return .simulate (← value? values "dir") (numberOr values "messages" 20)
        (numberOr values "message-size" 256) (numberOr values "capacity" 65536)
  | _ => none

/-- Ask for help on a command, or on the asking itself. -/
def readHelp : List String → Option Request
  | [] => some .help
  | [command] => if command = "help" || commands.any (·.1 = command) then some .help else none
  | _ => none

/-- Read a command line, with the password of the environment. `none` is a usage error. -/
def read (environment : Option String) (words : List String) : Option Request := do
  match ← readLevel [logLevel] true {} words with
  | .help => return .help
  | .version => return .version
  | .done _ [] => none
  | .done _ ("help" :: rest) => readHelp rest
  | .done outer (command :: rest) =>
      let (_, flags) ← commands.find? (·.1 = command)
      match ← readLevel (logLevel :: flags) false {} rest with
      | .done inner [] =>
          let task ← task? environment command (← inner.settle)
          let _ ← outer.settle
          return .run task
      | .done _ _ => none
      | _ => return .help

def versionText : String := "murmur 0.1.0"

def helpText : String :=
  "Usage: murmur [--log-level LEVEL] COMMAND [OPTIONS]\n\n" ++
    "Commands:\n" ++
    "  calibrate  [--target-ms N]\n" ++
    "  seal       -i INPUT -o OUTPUT [--password TEXT] [--target-ms N]\n" ++
    "  open       -i INPUT -o OUTPUT [--password TEXT]\n" ++
    "  simulate   --dir DIRECTORY [--messages N] [--message-size N] [--capacity N]\n" ++
    "  help       [COMMAND]"

end Courier.Command
