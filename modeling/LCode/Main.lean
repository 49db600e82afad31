import LCode.Command.Run

namespace LCode.Command

def ReadError.ofSystemError (e : IO.Error) : ReadError :=
  match e with
  | .noFileOrDirectory .. => .notFound
  | .inappropriateType _ 21 _ => .isADirectory
  | .inappropriateType .. => .notADirectory
  | .permissionDenied .. => .other "Permission denied (os error 13)"
  | e => .other (toString e)

def readFile (path : String) : IO (Except ReadError ByteArray) := do
  try
    return .ok (← IO.FS.readBinFile path)
  catch e =>
    return .error (.ofSystemError e)

def readTimed (start : IO.Ref Nat) (path : String) : IO (Except ReadError ByteArray) := do
  let content ← readFile path
  start.set (← IO.monoNanosNow)
  return content

def emit (start : Nat) (o : Outcome) : IO UInt32 := do
  match o.note with
  | .silent => pure ()
  | .timing => IO.eprintln ("Tokenized in " ++ toString ((← IO.monoNanosNow) - start) ++ "ns")
  | .message text => IO.eprintln text
  IO.print o.output
  return UInt32.ofNat o.exitCode

end LCode.Command

open LCode.Command in
def main (args : List String) : IO UInt32 := do
  let start ← IO.mkRef 0
  let outcome ← runIn Request.ofArguments (readTimed start) args
  emit (← start.get) outcome
