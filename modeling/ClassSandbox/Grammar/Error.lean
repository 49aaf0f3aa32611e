import ClassSandbox.Name

/-!
# Faults in descriptors and signatures

Descriptors and generic signatures are written in one small language of types. `SyntaxFault` lists every
way in which a text can fail to be one, `SyntaxFault.message` words it, and `SyntaxFault.isTruncation`
tells a text that stops too early from one that goes wrong.
-/

namespace ClassSandbox

inductive SyntaxFault where
  /-- The text goes on after a complete type. -/
  | leftover (found : Char) (text : String)
  | missingBaseType
  | badBaseType (found : Char)
  | missingObjectMark
  | openObject (name : String)
  | badClassName (fault : NameFault)
  | missingReferenceType
  | badReferenceType (found : Char)
  | missingFieldType
  | missingParameters
  | openParameters
  | openIdentifier (name : String)
  | badIdentifier (found : Char) (name : String)
  | emptyIdentifier
  | missingMark (wanted : Char)
  | badMark (wanted found : Char)
  | missingReferenceSignature
  | badReferenceSignature (found : Char)
  | emptyClassSegment (name : String)
  | noTypeArguments (name : String)
  | noTypeParameters
  | thrownArray
  deriving DecidableEq, Repr

namespace SyntaxFault

def message : SyntaxFault → String
  | leftover found text => s!"Unexpected leftover input '{found}' in '{text}'"
  | missingBaseType => "Missing base type character"
  | badBaseType found => s!"Invalid base type character '{found}'"
  | missingObjectMark => "Expected object type to start with 'L'"
  | openObject name => s!"Missing terminator for 'L{name}'"
  | badClassName fault => fault.message
  | missingReferenceType => "Missing reference type"
  | badReferenceType found => s!"Invalid reference type character '{found}'"
  | missingFieldType => "Missing field type"
  | missingParameters => "Expected '(' to open method parameters"
  | openParameters => "Expected ')' to close method parameters"
  | openIdentifier name => s!"Unterminated identifier '{name}'"
  | badIdentifier found name => s!"Unexpected '{found}' in identifier '{name}'"
  | emptyIdentifier => "Empty identifier"
  | missingMark wanted => s!"Expected '{wanted}'"
  | badMark wanted found => s!"Expected '{wanted}' but found '{found}'"
  | missingReferenceSignature => "Expected reference type"
  | badReferenceSignature found => s!"Invalid start to reference type: {found}"
  | emptyClassSegment name => s!"Invalid class name in signature: '{name}'"
  | noTypeArguments name => s!"Empty type argument list for '{name}'"
  | noTypeParameters => "Empty type parameter list"
  | thrownArray => "Thrown type cannot be an array"

/-- The text stops where it has to go on. -/
def isTruncation : SyntaxFault → Bool
  | missingBaseType | openObject _ | missingReferenceType | missingFieldType | openParameters
  | openIdentifier _ | missingMark _ | missingReferenceSignature => true
  | _ => false

end SyntaxFault

end ClassSandbox
