import CallCatalog.Types.Store

/-!
The store that every run starts from: the few `java.lang` and `java.util` classes that
instantiating a type parameter commonly needs. These are the boxed values, `String`, `Comparable`,
`Enum` and the core collections.
-/

namespace CallCatalog.Platform

def comparable : ClassId := ⟨6⟩
def charSequence : ClassId := ⟨7⟩
def long : ClassId := ⟨8⟩
def double : ClassId := ⟨9⟩
def boolean : ClassId := ⟨10⟩
def character : ClassId := ⟨11⟩
def enum : ClassId := ⟨12⟩
def iterable : ClassId := ⟨13⟩
def collection : ClassId := ⟨14⟩
def list : ClassId := ⟨15⟩
def arrayList : ClassId := ⟨16⟩
def map : ClassId := ⟨17⟩
def hashMap : ClassId := ⟨18⟩

def plain (id : ClassId) : Ty := .cls id []

def objectTy : Ty := plain .object
def stringTy : Ty := plain .string
def serializableTy : Ty := plain .serializable
def cloneableTy : Ty := plain .cloneable
def intTy : Ty := .primitive .int
def booleanTy : Ty := .primitive .boolean

def tvar (n : Nat) : Ty := .var ⟨n⟩

def comparableOf (t : Ty) : Ty := .cls comparable [t]

def interface (name : String) (typeParams : List TypeVarId) (interfaces : List Ty)
    (methods : List MethodDef) : ClassDef :=
  { name, kind := .interface, isAbstract := true, typeParams, interfaces, methods }

/-- The declaration of a class that can be created without arguments. -/
def concreteClass (name : String) (typeParams : List TypeVarId) (superClass : Option Ty)
    (interfaces : List Ty) (methods : List MethodDef) : ClassDef :=
  { name, kind := .plain, isAbstract := false, typeParams, superClass, interfaces
    constructors := [⟨[]⟩], methods }

def boxed (id : ClassId) (name : String) (wrapped : Primitive) (superClass : Ty) : ClassDef :=
  { name, kind := .plain, isAbstract := false, superClass := some superClass
    interfaces := [serializableTy, comparableOf (plain id)]
    constructors := [⟨[.primitive wrapped]⟩]
    methods := [{ name := "valueOf", params := [.primitive wrapped], returns := plain id,
                  isStatic := true }] }

def declarations : List ClassDef := [
  concreteClass "java.lang.Object" [] none [] [
    { name := "hashCode", params := [], returns := intTy },
    { name := "toString", params := [], returns := stringTy },
    { name := "equals", params := [objectTy], returns := booleanTy }],
  concreteClass "java.lang.String" [] (some objectTy)
    [serializableTy, comparableOf stringTy, plain charSequence] [
    { name := "length", params := [], returns := intTy },
    { name := "isEmpty", params := [], returns := booleanTy },
    { name := "concat", params := [stringTy], returns := stringTy }],
  { concreteClass "java.lang.Number" [] (some objectTy) [serializableTy] [
      { name := "intValue", params := [], returns := intTy }] with isAbstract := true },
  boxed .integer "java.lang.Integer" .int (plain .number),
  interface "java.lang.Cloneable" [] [] [],
  interface "java.io.Serializable" [] [] [],
  interface "java.lang.Comparable" [⟨0⟩] [] [
    { name := "compareTo", params := [tvar 0], returns := intTy }],
  interface "java.lang.CharSequence" [] [] [
    { name := "length", params := [], returns := intTy }],
  boxed long "java.lang.Long" .long (plain .number),
  boxed double "java.lang.Double" .double (plain .number),
  boxed boolean "java.lang.Boolean" .boolean objectTy,
  boxed character "java.lang.Character" .char objectTy,
  { name := "java.lang.Enum", kind := .plain, isAbstract := true, typeParams := [⟨1⟩]
    superClass := some objectTy, interfaces := [comparableOf (tvar 1), serializableTy]
    methods := [
      { name := "name", params := [], returns := stringTy },
      { name := "ordinal", params := [], returns := intTy }] },
  interface "java.lang.Iterable" [⟨2⟩] [] [],
  interface "java.util.Collection" [⟨3⟩] [.cls iterable [tvar 3]] [
    { name := "size", params := [], returns := intTy },
    { name := "add", params := [tvar 3], returns := booleanTy }],
  interface "java.util.List" [⟨4⟩] [.cls collection [tvar 4]] [
    { name := "get", params := [intTy], returns := tvar 4 }],
  concreteClass "java.util.ArrayList" [⟨5⟩] (some objectTy)
    [.cls list [tvar 5], cloneableTy, serializableTy] [
    { name := "add", params := [tvar 5], returns := booleanTy },
    { name := "get", params := [intTy], returns := tvar 5 },
    { name := "size", params := [], returns := intTy }],
  interface "java.util.Map" [⟨6⟩, ⟨7⟩] [] [],
  concreteClass "java.util.HashMap" [⟨8⟩, ⟨9⟩] (some objectTy)
    [.cls map [tvar 8, tvar 9], cloneableTy, serializableTy] [
    { name := "put", params := [tvar 8, tvar 9], returns := tvar 9 },
    { name := "get", params := [objectTy], returns := tvar 9 }]]

/-- The type parameters of the declarations, in the order of their numbers. -/
def typeParams : List TypeParam := [
  ⟨"T", .unconstrained⟩,
  ⟨"E", .ofUppers [.cls enum [tvar 1]]⟩,
  ⟨"T", .unconstrained⟩,
  ⟨"E", .unconstrained⟩,
  ⟨"E", .unconstrained⟩,
  ⟨"E", .unconstrained⟩,
  ⟨"K", .unconstrained⟩,
  ⟨"V", .unconstrained⟩,
  ⟨"K", .unconstrained⟩,
  ⟨"V", .unconstrained⟩]

def store : Store where
  classes := declarations.map fun d => ⟨d.name, some d⟩
  typeParams := typeParams

end CallCatalog.Platform
