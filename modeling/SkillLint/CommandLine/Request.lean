import SkillLint.CommandLine.Words
import SkillLint.Run

/-!
# Requests

A `Request` is what a command line asks for.  There are two commands, `validate` and
`markdown`, with options of their own.  `Request.ofWords` reads a request; a command line
that asks for help or for the version, or that cannot be understood, is no request but a
`Refusal`.
-/

namespace SkillLint.CommandLine

/-- The form of a report. -/
inductive ReportFormat where
  | table
  | json
  deriving Repr, DecidableEq

/-- The format with the name. -/
def ReportFormat.ofName? : String → Option ReportFormat
  | "table" => some .table
  | "json" => some .json
  | _ => none

/-- The form of the answer to a markdown scan. -/
inductive ScanFormat where
  | text
  | json
  deriving Repr, DecidableEq

/-- The format with the name. -/
def ScanFormat.ofName? : String → Option ScanFormat
  | "text" => some .text
  | "json" => some .json
  | _ => none

/-- The options of `validate`, as far as they are given. -/
structure ValidateOptions where
  focus : Option Focus
  skill : Option String
  format : Option ReportFormat
  skillsDir : Option Path
  root : Option Path
  parser : Option ParserChoice
  deriving Repr, DecidableEq

/-- The options and the operand of `markdown`, as far as they are given. -/
structure ScanOptions where
  path : Option Path
  format : Option ScanFormat
  deriving Repr, DecidableEq

/-- The words of `validate`. -/
def validateGrammar : Grammar ValidateOptions where
  options :=
    [("check", fun word o => (setOnce o.focus (Focus.ofName? word)).map fun focus =>
        { o with focus }),
      ("skill", fun word o => (setOnce o.skill (some word)).map fun skill => { o with skill }),
      ("format", fun word o => (setOnce o.format (ReportFormat.ofName? word)).map fun format =>
        { o with format }),
      ("skills-dir", fun word o => (setOnce o.skillsDir (pathOfWord? word)).map fun skillsDir =>
        { o with skillsDir }),
      ("root", fun word o => (setOnce o.root (pathOfWord? word)).map fun root => { o with root }),
      ("parser", fun word o => (setOnce o.parser (ParserChoice.ofName? word)).map fun parser =>
        { o with parser })]
  operand := none
  commands := []

/-- The words of `markdown`. -/
def scanGrammar : Grammar ScanOptions where
  options :=
    [("format", fun word o => (setOnce o.format (ScanFormat.ofName? word)).map fun format =>
      { o with format })]
  operand := some fun word o => (setOnce o.path (pathOfWord? word)).map fun path => { o with path }
  commands := []

/-- The words before a command. -/
def topGrammar : Grammar Unit := ⟨[], none, ["validate", "markdown"]⟩

/-- What a command line asks for. -/
inductive Request where
  | validate (config : Option Path) (options : ValidateOptions)
  | markdown (options : ScanOptions)
  deriving Repr, DecidableEq

namespace Request

/-- The request wants JSON, also for errors. -/
def wantsJson : Request → Bool
  | validate _ options => options.format = some .json
  | markdown options => options.format = some .json

end Request

/-- What a command line is, if it is no request. -/
inductive Refusal where
  /-- It cannot be understood. -/
  | usage
  /-- It asks for help. -/
  | help
  /-- It asks for the version, possibly of a command. -/
  | version (command : Option String)
  deriving Repr, DecidableEq

/-- The refusal that a stop in the words of a command means. -/
def Stop.toRefusal (command : Option String) : Stop → Refusal
  | .usage => .usage
  | .help => .help
  | .version => .version command

/-- Reads the words of a command to their end. -/
def readCommand {α : Type} (name : String) (g : Grammar α) (own : α) (words : List String) :
    Except Refusal (Given α) :=
  (do
    let (r, _) ← g.read (.start own) words
    return (← r.settle).given : Except Stop (Given α)).mapError (Stop.toRefusal (some name))

/-- Reads a request.  The configuration file may be named before the command and after it,
and the name after it counts. -/
def Request.ofWords (words : List String) : Except Refusal Request := do
  let (top, rest) ← (topGrammar.read (.start ()) words).mapError (Stop.toRefusal none)
  let settled := top.settle.mapError (Stop.toRefusal none)
  match rest with
  | "validate" :: rest =>
    let given ← readCommand "validate" validateGrammar
      ⟨none, none, none, none, none, none⟩ rest
    return .validate (given.globals.config.or (← settled).given.globals.config) given.own
  | "markdown" :: rest =>
    let given ← readCommand "markdown" scanGrammar ⟨none, none⟩ rest
    let _ ← settled
    return .markdown given.own
  | _ => throw .usage

end SkillLint.CommandLine
