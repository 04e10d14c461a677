import Calculator.Diagnostic
import Calculator.Failure

/-!
# Trouble

Why a text has no value.
-/

namespace Calculator

/-- Why a text has no value: a diagnostic, or a failure that none reports. -/
inductive Trouble where
  | diagnosed (diagnostic : Diagnostic)
  | escaped (cause : Failure)
deriving DecidableEq, Repr

end Calculator
