import ClassSandbox.Fault

/-!
# Diagnostics

Conditions worth telling someone about. They do not stop the work, and nothing depends on them.
-/

namespace ClassSandbox

inductive Severity where
  | error
  | warning
  | trace
  deriving DecidableEq, Repr

inductive Diagnostic where
  /-- A reference to a class was moved. -/
  | redirected (before after : String)
  | violation (found : Violation)
  /-- A violation that was noted for later. -/
  | deferred (found : Violation)
  /-- A text in the place of a descriptor that is none. -/
  | unrecognizedDescriptor (descriptor sandbox : String)
  /-- The supertypes of a class are not known, so its methods have no inherited costs. -/
  | unknownHierarchy (name reason : String)
  /-- The work could not begin. -/
  | startupFailure (reason : String)
  deriving DecidableEq, Repr

namespace Diagnostic

def severity : Diagnostic → Severity
  | redirected _ _ => .trace
  | violation _ | startupFailure _ => .error
  | deferred _ | unrecognizedDescriptor _ _ | unknownHierarchy _ _ => .warning

def message : Diagnostic → String
  | redirected before after => s!"{before} -> {after}"
  | violation found => found.message
  | deferred found => found.message ++ " (deferred)"
  | unrecognizedDescriptor descriptor sandbox =>
    s!"unrecognized descriptor '{descriptor}' referenced by player {sandbox}"
  | unknownHierarchy name reason =>
    s!"can't find the class \"{name}\" while resolving method costs: {reason}"
  | startupFailure reason => s!"startup failure: {reason}"

end Diagnostic

end ClassSandbox
