import ClassSandbox.Name

/-!
# Settings

The namespaces between which references are moved, and what happens on a violation.
-/

namespace ClassSandbox

/-- What a violation does. -/
inductive ViolationMode where
  /-- It ends the work on the class. -/
  | strict
  /-- It is noted, and the reference gets a name under which there is nothing to load. -/
  | lazy
  deriving DecidableEq, Repr

structure Settings where
  /-- Holds the private copies of library classes, one of each for every sandbox. -/
  sandboxed : BinaryName
  /-- Holds the names of classes that may not be used. There are no such classes, so using one fails when the
  code is linked. -/
  forbidden : BinaryName
  /-- Holds the trusted classes that do the sandboxing. They are never copied. -/
  runtime : BinaryName
  /-- The package with the substitutes for the classes that open covert channels. -/
  runtimeLang : BinaryName
  /-- The one class of the runtime that is copied for every sandbox. -/
  shim : BinaryName
  mode : ViolationMode

namespace Settings

def standard : Settings where
  sandboxed := ⟨"sandboxed", by decide⟩
  forbidden := ⟨"forbidden", by decide⟩
  runtime := ⟨"battlecode", by decide⟩
  runtimeLang := ⟨"battlecode/engine/instrumenter/lang", by decide⟩
  shim := ⟨"battlecode/engine/instrumenter/lang/InstrumentableFunctions", by decide⟩
  mode := .strict

instance : Inhabited Settings := ⟨standard⟩

end Settings

end ClassSandbox
