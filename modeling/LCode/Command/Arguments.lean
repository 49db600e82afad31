import LCode.Command.Outcome
import LCode.Text.Lines

/-! A parser of the arguments. The first that asks for help or cannot be taken decides. -/

namespace LCode.Command

open Text

structure Request where
  path : String
  quiet : Bool
deriving DecidableEq, Repr

inductive UsageError
  | unknownFlag (flag : String)
  | repeatedFlag (flag : String)
  | extraPath (path : String)
  | emptyPath
  | missingPath
deriving DecidableEq, Repr

def UsageError.message : UsageError → String
  | unknownFlag flag => "error: unexpected argument '" ++ flag ++ "' found"
  | repeatedFlag flag => "error: the argument '" ++ flag ++ "' cannot be used multiple times"
  | extraPath path => "error: unexpected argument '" ++ path ++ "' found"
  | emptyPath => "error: a value is required for '<INPUT>' but none was supplied"
  | missingPath => "error: the following required arguments were not provided: <INPUT>"

def UsageError.outcome (e : UsageError) : Outcome := ⟨2, "", .message e.message⟩

def helpText : String :=
  printLines
    ["Lexer for L-code",
      "",
      "Usage: llex [OPTIONS] <INPUT>",
      "",
      "Arguments:",
      "  <INPUT>  Path to file with L-code",
      "",
      "Options:",
      "  -q, --quiet  Only print the tokens, without the banner and timings",
      "  -h, --help   Print help"]

def helpOutcome : Outcome := ⟨0, helpText, .silent⟩

/-- What the arguments so far have given. Behind a double dash there are only paths. -/
structure Draft where
  quiet : Bool
  path : Option String
  onlyPaths : Bool
deriving DecidableEq, Repr

namespace Draft

def empty : Draft := ⟨false, none, false⟩

def setQuiet (d : Draft) (flag : String) : Except Outcome Draft :=
  if d.quiet then .error (UsageError.repeatedFlag flag).outcome
  else .ok { d with quiet := true }

def addPath (d : Draft) (path : String) : Except Outcome Draft :=
  if d.path.isSome then .error (UsageError.extraPath path).outcome
  else if path = "" then .error UsageError.emptyPath.outcome
  else .ok { d with path := some path }

def addLetter (d : Draft) : Char → Except Outcome Draft
  | 'h' => .error helpOutcome
  | 'q' => d.setQuiet "-q"
  | c => .error (UsageError.unknownFlag (String.ofList ['-', c])).outcome

def addWord (d : Draft) (name : List Char) : Except Outcome Draft :=
  if name = [] then .ok { d with onlyPaths := true }
  else if name = "help".toList then .error helpOutcome
  else if name = "quiet".toList then d.setQuiet "--quiet"
  else .error (UsageError.unknownFlag ("--" ++ String.ofList name)).outcome

def addArgument (d : Draft) (arg : String) : Except Outcome Draft :=
  if d.onlyPaths then d.addPath arg
  else
    match arg.toList with
    | '-' :: '-' :: name => d.addWord name
    | '-' :: c :: cs => (c :: cs).foldlM addLetter d
    | _ => d.addPath arg

def finish (d : Draft) : Except Outcome Request :=
  match d.path with
  | none => .error UsageError.missingPath.outcome
  | some path => .ok ⟨path, d.quiet⟩

end Draft

def Request.ofArguments (args : List String) : Except Outcome Request := do
  let d ← args.foldlM Draft.addArgument .empty
  d.finish

end LCode.Command
