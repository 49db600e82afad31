import LCode.Command.Arguments
import LCode.Command.Folder
import LCode.Diagnostic
import LCode.Scan

/-! The command: it reads one file and prints its tokens, or says what is wrong. -/

namespace LCode.Command

open Text

def banner : String := "----Code successfully parsed----"

def ReadError.outcome (e : ReadError) : Outcome :=
  ⟨1, printLines ["Something went wrong:", "     " ++ e.message], .silent⟩

def diagnosticOutcome (d : Diagnostic) : Outcome :=
  if d.isComplete then ⟨1, d.print, .silent⟩
  else ⟨101, d.print, .message "the diagnostic cannot be printed in full"⟩

namespace Request

def tokensOutcome (r : Request) (tokens : List Token) : Outcome :=
  if r.quiet then ⟨0, printLines (tokens.map Token.render), .silent⟩
  else ⟨0, printLines (banner :: tokens.map Token.render), .timing⟩

def textOutcome (r : Request) (source : String) : Outcome :=
  match tokenize source with
  | .ok tokens => r.tokensOutcome tokens
  | .error e => diagnosticOutcome (.ofError e r.path source)

def outcome (r : Request) (content : Except ReadError ByteArray) : Outcome :=
  match content with
  | .error e => e.outcome
  | .ok bytes =>
    match String.fromUTF8? bytes with
    | none => ReadError.notText.outcome
    | some source => r.textOutcome source

end Request

/-- The command on its arguments, for any parser of arguments and any way to read a file. Where the
parser accepts no request, it tells the outcome. -/
def runIn {m : Type → Type} [Monad m] (parse : List String → Except Outcome Request)
    (read : String → m (Except ReadError ByteArray)) (args : List String) : m Outcome :=
  match parse args with
  | .error outcome => return outcome
  | .ok request => return request.outcome (← read request.path)

def runWith (parse : List String → Except Outcome Request)
    (read : String → Except ReadError ByteArray) (args : List String) : Outcome :=
  Id.run (runIn parse (fun path => return read path) args)

def run (read : String → Except ReadError ByteArray) (args : List String) : Outcome :=
  runWith Request.ofArguments read args

end LCode.Command
