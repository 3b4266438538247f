import LittleMan.Fault

/-!
# Failures of check scripts

A script fails before it runs, because of its text, or while it runs. A call of the toolkit that fails
stops the script, which then fails for the reason of the call.
-/

namespace LittleMan.Script

/-- Where something stands in a script: line and column are counted from one. -/
structure Position where
  line : Nat := 1
  column : Nat := 1
deriving DecidableEq, Repr

/-- Why a script cannot be run. -/
structure ScriptFault where
  position : Position
  message : Text
deriving DecidableEq, Repr

/-- The wording of the fault in a script with a file name. -/
def ScriptFault.text (fault : ScriptFault) (file : Text) : Text :=
  file ++ utf8 s!":{fault.position.line}:{fault.position.column}: " ++ fault.message

/-- Why a script stopped. -/
inductive Stopped where
  /-- Something failed; a fault of a program is its cause. -/
  | failed (message : Text) (cause : Option Fault)
  /-- No more calls may nest. -/
  | exhausted
deriving DecidableEq, Repr

namespace Stopped

/-- The wording of a stop. -/
def message : Stopped → Text
  | .failed message _ => message
  | .exhausted => utf8 "script runs too long"

/-- The fault of a program behind a stop. -/
def cause? : Stopped → Option Fault
  | .failed _ cause => cause
  | .exhausted => none

end Stopped

/-- Why a script has no report. -/
inductive Failure where
  | unparsable (fault : ScriptFault)
  /-- A rule is broken, for instance by a name that stands for nothing. -/
  | unruly (fault : ScriptFault)
  | stopped (why : Stopped)
deriving DecidableEq, Repr

/-- The wording of a failure of the script in a file. -/
def Failure.text (file : Text) : Failure → Text
  | .unparsable fault | .unruly fault => fault.text file
  | .stopped why => why.message

end LittleMan.Script
