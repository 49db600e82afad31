import LCode.Position
import LCode.Text.Quoted

namespace LCode

open Text

inductive Cause
  | unrecognisedToken (token : String)
  | malformedNumber (token : String)
deriving DecidableEq, Repr

structure LexicalError where
  cause : Cause
  position : Position
deriving DecidableEq, Repr

namespace Cause

def token : Cause → String
  | unrecognisedToken t => t
  | malformedNumber t => t

def name : Cause → String
  | unrecognisedToken _ => "UnrecognisedToken"
  | malformedNumber _ => "MalformedNumber"

def reason : Cause → String
  | unrecognisedToken t => "unrecognised token: " ++ quoted t
  | malformedNumber t => "malformed number: " ++ quoted t

def tip? : Cause → Option String
  | unrecognisedToken _ => none
  | malformedNumber t => some ("Invalid number: `" ++ t ++
      "`, expected digits with an optional fraction, exponent and f/d suffix")

end Cause

def tipText (tip : Option String) : String := tip.getD ""

namespace LexicalError

def message (e : LexicalError) : String :=
  e.cause.reason ++ " at line " ++ toString e.position.line ++
    ", column " ++ toString e.position.column

def shiftLines (n : Nat) (e : LexicalError) : LexicalError :=
  { e with position := { e.position with line := e.position.line + n } }

end LexicalError

end LCode
