/-
What a command prints.

* `CommandLine.stageLines`, `CommandLine.conclusion`: the stages of a text, and the line that ends
  its report;
* `Block`, `CommandLine.block`: the report on one text;
* `Response`, `Response.ofBlocks`: the output and the exit status of a command;
* `Environment`, `CommandLine.texts`: the means to read a file and the standard input, and the texts
  of a command;
* `CommandLine.respondWith`: the response to the words of a command line, for every way to understand
  the words;
* `Arguments.parse`, `CommandLine.respond`: one such way, and the response of the command with it.

Nothing is printed before the last text is read, and texts on the command line are taken without
reading anything.
-/
import Clausal.CommandLine.Arguments
import Clausal.CommandLine.Lines
import Clausal.Reading

namespace Clausal.CommandLine

/-! ### One text -/

/-- The stages of a text, one to a line: its tokens and the judgement of the grammar, and for a
formula what comes of it before the conjunctive normal form. -/
def stageLines (r : Reading) : List String :=
  ["tokens: " ++ Token.spaced r.tokens,
    "well-formed: " ++ if r.wellFormed then "true" else "false"] ++
  match r.postfixOrder, r.formula, r.implicationFree, r.nnf with
  | .ok sequence, .ok tree, .ok free, .ok nnf =>
    ["postfix: " ++ Token.spaced sequence, "tree: " ++ tree.text,
      "implication-free: " ++ free.text, "nnf: " ++ nnf.text]
  | _, _, _, _ => []

/-- The line that ends the report on a text, unless its normal form is too large. -/
def conclusion (limit : Option Nat) (r : Reading) : Except Fault String :=
  match r.cnf limit with
  | .ok t => .ok t.text
  | .error (.notWellFormed _) => .ok "not well-formed"
  | .error fault => .error fault

/-- The report on one text. -/
structure Block where
  lines : List String
  fault : Option Fault

/-- The report on a text: its stages if they are asked for, then the conclusion. -/
def block (stages : Bool) (limit : Option Nat) (text : String) : Block :=
  let r := Reading.ofText text
  let shown := if stages then stageLines r else []
  match conclusion limit r with
  | .ok line => ⟨shown ++ [line], none⟩
  | .error fault => ⟨shown ++ ["too large"], some fault⟩

/-! ### The whole command -/

/-- What a command prints, what it complains of, and its exit status. -/
structure Response where
  status : Nat
  lines : List String
  complaints : List String

namespace Response

/-- The response to a command that could not start. -/
def failure (status : Nat) (complaint : String) : Response := ⟨status, [], [complaint]⟩

/-- The response that consists of some reports in order; it fails if one of them has a fault. -/
def ofBlocks (blocks : List Block) : Response where
  status := if blocks.any (·.fault.isSome) then 1 else 0
  lines := blocks.flatMap Block.lines
  complaints := (blocks.filterMap Block.fault).map Fault.message

end Response

/-- The means to read a file and the standard input; a file may not be readable. -/
structure Environment (m : Type → Type) where
  readFile : String → m (Option ByteArray)
  readInput : m (Option ByteArray)

/-- The texts of a command: those on the command line if there are any, else the lines of the file,
else those of the standard input. -/
def texts {m : Type → Type} [Monad m] (env : Environment m) (args : Arguments) :
    m (Option (List String)) :=
  if args.formulas.isEmpty then do
    let content ← match args.file with
      | some path => env.readFile path
      | none => env.readInput
    return content.bind fun bytes => formulaLines bytes.data.toList
  else return some args.formulas

/-- The response to the words of a command line. They are understood by `parse`, as the choices that
they make or as something to respond to at once, such as a mistake. -/
def respondWith {m : Type → Type} [Monad m] (parse : List String → Except Response Arguments)
    (env : Environment m) (words : List String) : m Response :=
  match parse words with
  | .error response => return response
  | .ok args => do
    match ← texts env args with
    | none => return .failure 1 "the formulas could not be read"
    | some formulas => return .ofBlocks (formulas.map (block args.stages args.limit))

/-! ### One way to understand the words -/

/-- What the command is for, and its options. -/
def helpLines : List String :=
  ["Well-formedness checking and CNF conversion for propositional formulas", "",
    "Usage: wffcnf [OPTIONS] [FORMULAS]...", "",
    "Arguments:",
    "  [FORMULAS]...  The formulas to convert. If none are given, formulas are read line by line", "",
    "Options:",
    "  -f, --file <FILE>                Read formulas from this file, one per line, instead of stdin",
    "      --stages                     Print every intermediate stage of the conversion",
    "  -c, --max-clauses <MAX_CLAUSES>  The maximum number of clauses of the CNF before giving up",
    "  -h, --help                       Print help",
    "  -V, --version                    Print version"]

/-- The response to a command that ends before it starts. -/
def Ending.response : Ending → Response
  | .help => ⟨0, helpLines, []⟩
  | .version => ⟨0, ["wffcnf 0.1.0"], []⟩
  | .mistake e => .failure 2 e.message

/-- The choices that the words of a command line make, or the response to what ends the command. -/
def Arguments.parse (words : List String) : Except Response Arguments :=
  (Arguments.ofWords words).mapError Ending.response

/-- The response of the command, which understands its words by `Arguments.parse`. -/
def respond {m : Type → Type} [Monad m] (env : Environment m) (words : List String) : m Response :=
  respondWith Arguments.parse env words

end Clausal.CommandLine
