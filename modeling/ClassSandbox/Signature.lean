import ClassSandbox.Descriptor

/-!
# Generic signatures

The types that erased descriptors lose: type variables, type arguments and nested classes selected from
a parameterized outer class. `TypeSignature` is any type, `ReferenceSignature` a class, variable or array
and `ClassTypeSignature` a class, such as `Ljava/util/Map<TK;TV;>.Entry<TK;TV;>;`. Classes and methods
carry a `ClassSignature` or a `MethodSignature`, which `GenericSignature` joins.

`render` writes each of them out.
-/

namespace ClassSandbox

/-- The bound of a wildcard: `? extends T` is written with a plus and `? super T` with a minus. -/
inductive WildcardBound where
  | upper
  | lower
  deriving DecidableEq, Repr

def WildcardBound.letter : WildcardBound → Char
  | upper => '+'
  | lower => '-'

mutual

inductive TypeSignature where
  | base (type : BaseType)
  | reference (type : ReferenceSignature)

inductive ReferenceSignature where
  | object (type : ClassTypeSignature)
  | variable (name : String)
  | array (element : TypeSignature)

/-- A class, and the nested classes selected from it one after another. -/
inductive ClassTypeSignature where
  | mk (outer : SimpleClassSignature) (projections : List SimpleClassSignature)

/-- A class name with its type arguments. An outermost class has its full binary name, a projection the
name that it has inside the class before it. -/
inductive SimpleClassSignature where
  | mk (name : String) (arguments : List TypeArgument)

inductive TypeArgument where
  | wildcard
  | type (bound : Option WildcardBound) (type : ReferenceSignature)

end

deriving instance Repr for
  TypeSignature, ReferenceSignature, ClassTypeSignature, SimpleClassSignature, TypeArgument

/-- The declaration of a type variable. A class bound may be left out before interface bounds. -/
structure TypeParameter where
  name : String
  classBound : Option ReferenceSignature
  interfaceBounds : List ReferenceSignature
  deriving Repr

structure ClassSignature where
  typeParameters : List TypeParameter
  superclass : ClassTypeSignature
  superinterfaces : List ClassTypeSignature
  deriving Repr

/-- The result is absent for `void`. -/
structure MethodSignature where
  typeParameters : List TypeParameter
  parameters : List TypeSignature
  result : Option TypeSignature
  throws : List ReferenceSignature
  deriving Repr

inductive GenericSignature where
  | ofClass (signature : ClassSignature)
  | ofMethod (signature : MethodSignature)
  deriving Repr

/-! ## Writing -/

mutual

def TypeSignature.render : TypeSignature → List Char
  | .base type => [type.letter]
  | .reference type => type.render

def ReferenceSignature.render : ReferenceSignature → List Char
  | .object type => type.render
  | .variable name => 'T' :: name.toList ++ [';']
  | .array element => '[' :: element.render

def ClassTypeSignature.render : ClassTypeSignature → List Char
  | .mk outer projections => 'L' :: outer.render ++ renderProjections projections ++ [';']

def renderProjections : List SimpleClassSignature → List Char
  | [] => []
  | projection :: rest => '.' :: projection.render ++ renderProjections rest

def SimpleClassSignature.render : SimpleClassSignature → List Char
  | .mk name [] => name.toList
  | .mk name (argument :: rest) => name.toList ++ '<' :: argument.render ++ renderArguments rest ++ ['>']

def renderArguments : List TypeArgument → List Char
  | [] => []
  | argument :: rest => argument.render ++ renderArguments rest

def TypeArgument.render : TypeArgument → List Char
  | .wildcard => ['*']
  | .type none type => type.render
  | .type (some bound) type => bound.letter :: type.render

end

def TypeParameter.render (parameter : TypeParameter) : List Char :=
  parameter.name.toList ++ ':' :: (parameter.classBound.elim [] ReferenceSignature.render ++
    parameter.interfaceBounds.flatMap fun bound => ':' :: bound.render)

/-- A list of type parameters is written in angle brackets, and an empty one not at all. -/
def renderTypeParameters : List TypeParameter → List Char
  | [] => []
  | parameters => '<' :: parameters.flatMap TypeParameter.render ++ ['>']

def ClassSignature.render (signature : ClassSignature) : List Char :=
  renderTypeParameters signature.typeParameters ++ signature.superclass.render ++
    signature.superinterfaces.flatMap ClassTypeSignature.render

def MethodSignature.render (signature : MethodSignature) : List Char :=
  renderTypeParameters signature.typeParameters ++
    '(' :: signature.parameters.flatMap TypeSignature.render ++
    ')' :: signature.result.elim ['V'] TypeSignature.render ++
    signature.throws.flatMap fun thrown => '^' :: thrown.render

def GenericSignature.render : GenericSignature → List Char
  | .ofClass signature => signature.render
  | .ofMethod signature => signature.render

end ClassSandbox
