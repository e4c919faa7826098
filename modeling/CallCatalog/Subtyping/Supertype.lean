import CallCatalog.Types.Store
import CallCatalog.Types.Substitute

/-!
Direct supertypes of a class type, and the search for the supertype that belongs to a given class.
The search goes through the supertypes level by level, so it finds one that is as few steps away as
possible. It need not end: a class that extends itself at ever larger arguments has infinitely many
supertypes.
-/

namespace CallCatalog.Store

/-- Whether `t` leaves out the arguments that its declaration asks for. -/
def isRaw (d : ClassDef) (t : ClassType) : Bool := t.args.isEmpty && d.isGeneric

/-- A declared supertype as seen from `t`: the type parameters are replaced by the arguments, and
below a raw type no arguments are left. Only class types can be supertypes. -/
def supertypeFrom? (d : ClassDef) (t : ClassType) : Ty → Option ClassType
  | .cls id args =>
    if isRaw d t then some ⟨id, []⟩
    else some (ClassType.subst (.ofPairs (d.typeParams.zip t.args)) ⟨id, args⟩)
  | _ => none

/-- The direct supertypes of a class type: the superclass, the interfaces in declaration order,
and the root class above every interface. An undefined class has none. -/
def directSupertypes (s : Store) (t : ClassType) : List ClassType :=
  match s.classDef? t.id with
  | none => []
  | some d =>
    d.supertypes.filterMap (supertypeFrom? d t) ++
      if d.kind = .interface then [⟨.object, []⟩] else []

/-- Looks for a type of class `target` in `queue` and above it, first come first served, skipping
what is in `seen`. The result is `some none` if there is no such supertype, and `none` stands for a
search that never ends. -/
def findAbove (s : Store) (target : ClassId) (queue seen : List ClassType) :
    Option (Option ClassType) :=
  match queue with
  | [] => some none
  | t :: queue =>
    if t ∈ seen then s |>.findAbove target queue seen
    else if t.id = target then some (some t)
    else s |>.findAbove target (queue ++ s.directSupertypes t) (t :: seen)
partial_fixpoint

/-- The supertype of `t` that belongs to class `target`, for instance `List<String>` when
`ArrayList<String>` is seen as a `List`. -/
def viewAs (s : Store) (t : ClassType) (target : ClassId) : Option ClassType :=
  (s.findAbove target [t] []).join

end CallCatalog.Store
