import CallCatalog.Declaration.Write
import CallCatalog.Json.Write
import CallCatalog.Text.Blank

/-!
The meaning of type references: which class, type parameter or primitive a name stands for, and in
which places a wildcard, `void` or a primitive may stand.
-/

namespace CallCatalog

inductive RefFault where
  | argumentCount (expected found : Nat)
  | emptyName
  | misplacedWildcard
  | misplacedVoid
  | primitiveArgument
  | bracketsInName
  | notAClass
  deriving DecidableEq

def RefFault.message : RefFault → String
  | argumentCount expected found => s!"expected {expected} type arguments, found {found}"
  | emptyName => "empty type name"
  | misplacedWildcard => "wildcards are only allowed as type arguments"
  | misplacedVoid => "`void` is only allowed as a return type"
  | primitiveArgument => "primitive types cannot be type arguments"
  | bracketsInName =>
    "parameterized types are written as \x7b\"name\": ..., \"args\": [...]\x7d"
  | notAClass => "operations must be declared by a class"

/-- Why a model description does not define what it seems to. -/
inductive DeclarationError where
  | duplicateClass (name : String)
  | duplicateTypeParam (owner name : String)
  | unknownClass (name : String)
  | invalidRef (reference : String) (fault : RefFault)
  deriving DecidableEq

def DeclarationError.message : DeclarationError → String
  | duplicateClass name => s!"class `{name}` is declared more than once"
  | duplicateTypeParam owner name =>
    s!"type parameter `{name}` is declared more than once on `{owner}`"
  | unknownClass name => s!"unknown class `{name}`"
  | invalidRef reference fault => s!"invalid type reference `{reference}`: " ++ fault.message

inductive RefPosition where
  /-- A value has this type: parameters, bounds, supertypes. -/
  | value
  /-- A type argument, where wildcards may stand but not primitives. -/
  | argument
  /-- A method result, which may also be `void`. -/
  | result
  deriving DecidableEq

/-- The type parameters in scope. Inner ones come after outer ones. -/
abbrev Scope := List (String × TypeVarId)

/-- The classes that a description declares, with the number of their type parameters. -/
abbrev DeclaredClasses := List (String × ClassId × Nat)

structure Names where
  store : Store
  declared : DeclaredClasses
  scope : Scope := []

namespace TypeRef

/-- Splits off every `[]` at the end of a name, where blanks may stand around each. The name is
given from its end, and `level` is what is left of it so far. -/
def peelArrays (level : List Char) : List Char → List Char × Nat
  | [] => (level, 0)
  | c :: cs =>
    if Blank.isBlank c then peelArrays level cs
    else if c = ']' then
      match cs with
      | '[' :: rest =>
        let (level, layers) := peelArrays rest rest
        (level, layers + 1)
      | _ => (level, 0)
    else (level, 0)

def arrayOf : (layers : Nat) → Ty → Ty
  | 0, t => t
  | layers + 1, t => arrayOf layers (.arr t)

end TypeRef

namespace Names

/-- A class that is declared by the description or defined in the store, with the number of its type
parameters. -/
def class? (n : Names) (name : String) : Option (ClassId × Nat) :=
  match n.declared.lookup name with
  | some found => some found
  | none => do
    let id ← n.store.classId? name
    let d ← n.store.classDef? id
    return (id, d.typeParams.length)

def findClass (n : Names) (name : String) : Except DeclarationError (ClassId × Nat) :=
  match n.class? name with
  | some found => .ok found
  | none => .error (.unknownClass name)

def typeParam? (n : Names) (name : String) : Option TypeVarId := n.scope.reverse.lookup name

/-- The type that a name without `[]` stands for. In messages it appears as `text`. -/
def resolveBase (n : Names) (text : String) (name : String) (position : RefPosition) :
    Except DeclarationError Ty :=
  if name = "" then .error (.invalidRef text .emptyName)
  else if name = "?" then
    if position = .argument then .ok .any else .error (.invalidRef text .misplacedWildcard)
  else if name = "void" then
    if position = .result then .ok .void else .error (.invalidRef text .misplacedVoid)
  else match Primitive.ofKeyword? name with
    | some p =>
      if position = .argument then .error (.invalidRef text .primitiveArgument)
      else .ok (.primitive p)
    | none =>
      if name.toList.any fun c => c = '<' || c = '>' || c = ',' then
        .error (.invalidRef text .bracketsInName)
      else match n.typeParam? name with
        | some v => .ok (.var v)
        | none => do
          let (id, _) ← n.findClass name
          return .cls id []

def resolveName (n : Names) (text : String) (position : RefPosition) :
    Except DeclarationError Ty := do
  let fromEnd := text.toList.reverse
  let (level, layers) := TypeRef.peelArrays fromEnd fromEnd
  let name := String.ofList (Blank.trim level.reverse)
  if layers = 0 then n.resolveBase text name position
  else
    let element := String.ofList (Blank.trimStart level.reverse)
    return TypeRef.arrayOf layers (← n.resolveBase element name .value)

def checkWildcard (ref : TypeRef) (position : RefPosition) : Except DeclarationError Unit :=
  if position = .argument then .ok ()
  else .error (.invalidRef ref.toJson.compact .misplacedWildcard)

mutual

def resolve (n : Names) (position : RefPosition) : TypeRef → Except DeclarationError Ty
  | .named text => n.resolveName text position
  | .applied name args => do
    let (id, arity) ← n.findClass name
    if args ≠ [] ∧ args.length ≠ arity then
      throw (.invalidRef name (.argumentCount arity args.length))
    return .cls id (← n.resolveAll .argument args)
  | .ext upper => do
    checkWildcard (.ext upper) position
    return .ext (← n.resolve .value upper)
  | .sup lower => do
    checkWildcard (.sup lower) position
    return .sup (← n.resolve .value lower)

def resolveAll (n : Names) (position : RefPosition) :
    List TypeRef → Except DeclarationError (List Ty)
  | [] => .ok []
  | r :: rs => do
    let t ← n.resolve position r
    let ts ← n.resolveAll position rs
    return t :: ts

end

end Names

end CallCatalog
