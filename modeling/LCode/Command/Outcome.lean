namespace LCode.Command

inductive Note
  | silent
  | timing
  | message (text : String)
deriving DecidableEq, Repr

structure Outcome where
  exitCode : Nat
  output : String
  note : Note
deriving DecidableEq, Repr

end LCode.Command
