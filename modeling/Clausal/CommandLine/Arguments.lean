/-
The words of a command line.

* `Arguments`: the choices of a command line;
* `Setting`, `Word`: an option that takes a value, and what a single word means;
* `Word.ofText`: the meaning of a word, with a value that is attached to an option;
* `UsageError`, `Ending`: a mistake, and what ends a command before it starts;
* `Arguments.ofWords`: the choices that the words make, or the first thing that ends the command.

An option may be given once, in its long form with the value after a blank or an equals sign, or in
its short form with the value after a blank, after an equals sign or at once. Two dashes end the
options, and one dash alone is a formula.
-/
namespace Clausal.CommandLine

/-- The choices of a command line. -/
structure Arguments where
  /-- The file to read formulas from. -/
  file : Option String
  /-- Whether to print every stage. -/
  stages : Bool
  /-- The largest number of clauses. -/
  limit : Option Nat
  /-- The formulas on the command line itself. -/
  formulas : List String
  deriving DecidableEq

/-! ### Words -/

/-- An option that takes a value. -/
inductive Setting where
  /-- The file to read formulas from. -/
  | file
  /-- The largest number of clauses. -/
  | limit
  deriving DecidableEq

/-- The long name of an option with a value. -/
def Setting.name : Setting → String
  | .file => "--file"
  | .limit => "--max-clauses"

/-- What a word of the command line means before the options end. -/
inductive Word where
  | formula
  | dashes
  | stages
  | help
  | version
  | setting (s : Setting) (attached : Option (List Char))
  /-- A value attached to an option that takes none. -/
  | excess
  | unknown
  deriving DecidableEq

namespace Word

/-- The option without a value that has a name. -/
def ofFlag (name : List Char) : Word :=
  if name = "stages".toList then .stages
  else if name = "help".toList then .help
  else if name = "version".toList then .version
  else .unknown

/-- The meaning of what follows two dashes; an attached value follows the first equals sign. -/
def ofLong (name : List Char) (attached : Option (List Char)) : Word :=
  if name = "file".toList then .setting .file attached
  else if name = "max-clauses".toList then .setting .limit attached
  else match ofFlag name, attached with
    | .unknown, _ => .unknown
    | word, none => word
    | _, some _ => .excess

/-- The value in the rest of a word after a short option: nothing, or all but an equals sign. -/
def shortValue : List Char → Option (List Char)
  | [] => none
  | '=' :: value => some value
  | value => some value

/-- The meaning of a word. What follows a short option without a value is not looked at. -/
def ofText (text : List Char) : Word :=
  match text with
  | ['-', '-'] => .dashes
  | '-' :: '-' :: rest =>
    match rest.dropWhile (· ≠ '=') with
    | [] => ofLong rest none
    | _ :: value => ofLong (rest.takeWhile (· ≠ '=')) (some value)
  | '-' :: 'f' :: rest => .setting .file (shortValue rest)
  | '-' :: 'c' :: rest => .setting .limit (shortValue rest)
  | '-' :: 'h' :: _ => .help
  | '-' :: 'V' :: _ => .version
  | '-' :: _ :: _ => .unknown
  | _ => .formula

/-- Whether a word can be the value of the option before it. -/
def isValue (text : List Char) : Bool := ofText text = .formula

end Word

/-! ### Parsing -/

/-- A mistake in a command line. -/
inductive UsageError where
  | unknownOption (word : String)
  | excessValue (word : String)
  | repeated (option : String)
  | missingValue (option : String)
  | malformedLimit (value : String)
  deriving DecidableEq

/-- What is wrong, in words. -/
def UsageError.message : UsageError → String
  | .unknownOption word => "unknown option " ++ word
  | .excessValue word => "unexpected value in " ++ word
  | .repeated option => option ++ " is given more than once"
  | .missingValue option => option ++ " needs a value"
  | .malformedLimit value => "not a number of clauses: " ++ value

/-- What ends a command before it starts: a question about the command itself, or a mistake. -/
inductive Ending where
  | help
  | version
  | mistake (e : UsageError)
  deriving DecidableEq

/-- The number written by decimal digits. -/
def decimal (digits : List Char) : Nat :=
  digits.foldl (fun n digit => 10 * n + (digit.toNat - '0'.toNat)) 0

/-- The limit that a value stands for: decimal digits after an optional plus sign, for a number of
at most 64 bits. -/
def limit? (value : List Char) : Option Nat :=
  let digits := match value with
    | '+' :: rest => rest
    | _ => value
  if digits ≠ [] ∧ digits.all Char.isDigit ∧ decimal digits < UInt64.size then
    some (decimal digits)
  else none

namespace Arguments

/-- The choices of an empty command line. -/
def initial : Arguments := ⟨none, false, none, []⟩

/-- Makes the choice of an option with a value. -/
def choose (args : Arguments) (value : List Char) : Setting → Except UsageError Arguments
  | .file =>
    if args.file.isSome then .error (.repeated Setting.file.name)
    else .ok { args with file := some (String.ofList value) }
  | .limit =>
    if args.limit.isSome then .error (.repeated Setting.limit.name)
    else match limit? value with
      | some limit => .ok { args with limit := some limit }
      | none => .error (.malformedLimit (String.ofList value))

/-- Makes the choices of some more words. -/
def extend (args : Arguments) : List String → Except Ending Arguments
  | [] => .ok args
  | word :: rest =>
    match Word.ofText word.toList with
    | .formula => extend { args with formulas := args.formulas ++ [word] } rest
    | .dashes => .ok { args with formulas := args.formulas ++ rest }
    | .stages =>
      if args.stages then .error (.mistake (.repeated word))
      else extend { args with stages := true } rest
    | .help => .error .help
    | .version => .error .version
    | .setting s (some value) =>
      match args.choose value s with
      | .ok args => extend args rest
      | .error e => .error (.mistake e)
    | .setting s none =>
      match rest with
      | [] => .error (.mistake (.missingValue s.name))
      | value :: rest =>
        if Word.isValue value.toList then
          match args.choose value.toList s with
          | .ok args => extend args rest
          | .error e => .error (.mistake e)
        else .error (.mistake (.missingValue s.name))
    | .excess => .error (.mistake (.excessValue word))
    | .unknown => .error (.mistake (.unknownOption word))

/-- The choices that the words of a command line make, or the first thing that ends the command. -/
def ofWords (words : List String) : Except Ending Arguments := extend initial words

end Arguments

end Clausal.CommandLine
