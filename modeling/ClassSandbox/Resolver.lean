import ClassSandbox.Name.Platform
import ClassSandbox.Policy
import ClassSandbox.Settings

/-!
# Resolvers

A `Resolver` decides what each class name that sandboxed code mentions turns into. `Resolver.verdict` is
that decision alone, without what is reported about it: the new name, and the name to blame if the sandbox
may not mention the class. There is at most one, even for an array.

Names that went through resolution before are recognised, so that a class can be confined again:
substitutes are kept, and a name in the sandboxed namespace is resolved anew without it.
-/

namespace ClassSandbox

structure Resolver where
  settings : Settings
  policy : Policy
  /-- The package of the sandbox. -/
  sandbox : BinaryName
  /-- Diagnostics are dropped. -/
  silenced : Bool
  /-- The policy applies, as it does not for trusted classes that are confined for a sandbox. -/
  enforces : Bool

/-- What a class name turns into, and the name to blame if the sandbox may not mention it. -/
structure Verdict where
  resolved : String
  offender? : Option String
  deriving DecidableEq, Repr

/-! ## Array classes -/

/-- What stands between the `L` and the `;` of a text. -/
def objectClass? (text : List Char) : Option String :=
  match text with
  | 'L' :: rest => if rest.getLast? = some ';' then some (String.ofList rest.dropLast) else none
  | _ => none

theorem length_of_objectClass? {text : List Char} {inner : String} (h : objectClass? text = some inner) :
    inner.length < text.length := by
  unfold objectClass? at h
  split at h
  · split at h
    · cases h
      simp only [String.length_ofList, List.length_dropLast, List.length_cons]
      omega
    · cases h
  · cases h

/-- The class in an array class such as `[[Ljava/util/Map;`, with the number of dimensions around it. -/
def objectArray? (name : String) : Option (Nat × String) :=
  (objectClass? (name.toList.dropWhile (· == '['))).map fun inner =>
    ((name.toList.takeWhile (· == '[')).length, inner)

/-- The name of the array class with some dimensions around a class. -/
def objectArray (dimensions : Nat) (inner : String) : String :=
  String.ofList (List.replicate dimensions '[' ++ 'L' :: inner.toList ++ [';'])

theorem length_of_objectArray? {name inner : String} {dimensions : Nat}
    (h : objectArray? name = some (dimensions, inner)) : inner.length < name.length := by
  simp only [objectArray?, Option.map_eq_some_iff, Prod.mk.injEq] at h
  obtain ⟨_, hclass, -, rfl⟩ := h
  have shorter := length_of_objectClass? hclass
  have sublist := (List.dropWhile_sublist (· == '[') (l := name.toList)).length_le
  rw [String.length_toList] at sublist
  omega

theorem BinaryName.length_of_strip? {space : BinaryName} {name inner : String}
    (h : space.strip? name = some inner) : inner.length < name.length := by
  obtain ⟨-, rfl⟩ := BinaryName.strip?_eq_some_iff.1 h
  simp only [BinaryName.wrap, String.length_append]
  have : ("/" : String).length = 1 := rfl
  omega

/-! ## Verdicts -/

namespace Resolver

variable (r : Resolver)

/-- The name is the substitute of some class, so it stays as it is. -/
def isSubstitute (name : String) : Bool :=
  (match r.settings.runtimeLang.strip? name with
    | some simple => Platform.covertChannels.any fun channel => channel.simpleName == simple
    | none => false) ||
    r.settings.sandboxed.strip? name == some Platform.random.text

/-- A class that the sandbox may use gets a private copy. The first rule that applies decides. Archives,
`TimeUnit` and `Iterator` are shared with code that is never confined, so they have to stay the same
classes. Collections and big numbers are not safe to share between sandboxes. -/
def isCopied (name : String) : Bool :=
  if name == r.settings.shim.text then true
  else if r.settings.runtime.contains name || r.settings.sandboxed.contains name then false
  else if Platform.javaUtilJar.contains name || Platform.javaUtilZip.contains name then false
  else if name == Platform.timeUnit.text || name == Platform.iterator.text then false
  else if Platform.javaUtil.contains name || Platform.javaMath.contains name then true
  else !(Platform.sun.contains name || Platform.com.contains name || Platform.java.contains name)

/-- The verdict on a class name that no earlier resolution has produced. -/
def freshVerdict (name : String) : Verdict :=
  match Platform.covertChannels.find? fun channel => channel.text == name with
  | some channel => ⟨r.settings.runtimeLang.wrap channel.simpleName, none⟩
  | none =>
    if r.enforces && !r.policy.allows name then ⟨r.settings.forbidden.wrap name, some name⟩
    else if name = Platform.secureRandom.text then ⟨r.settings.sandboxed.wrap Platform.random.text, none⟩
    else if r.isCopied name then ⟨r.settings.sandboxed.wrap name, none⟩
    else ⟨name, none⟩

/-- The verdict on a class name or the name of an array class. Of an array only the class in it counts. A
malformed name is to blame as it is. -/
def verdict (name : String) : Verdict :=
  if name.toList.head? = some '[' then
    match h : objectArray? name with
    | some (dimensions, inner) =>
      have := length_of_objectArray? h
      let found := verdict inner
      { found with resolved := objectArray dimensions found.resolved }
    | none => ⟨name, none⟩
  else if ¬BinaryName.IsValid name then ⟨name, some name⟩
  else if r.sandbox.contains name || r.isSubstitute name then ⟨name, none⟩
  else
    match r.settings.forbidden.strip? name with
    | some inner => ⟨name, if r.enforces then some inner else none⟩
    | none =>
      match h : r.settings.sandboxed.strip? name with
      | some inner =>
        have := BinaryName.length_of_strip? h
        verdict inner
      | none => r.freshVerdict name
termination_by name.length

end Resolver

end ClassSandbox
