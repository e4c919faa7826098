import CallCatalog.Types.Store

namespace CallCatalog.Store

def classText (s : Store) (id : ClassId) : String :=
  (s.className? id).getD s!"<unknown#{id.index}>"

/-- The name of a type parameter, or a stand-in that shows its number. -/
def varText (s : Store) (v : TypeVarId) : String :=
  match s.typeParam? v with
  | some p => p.name
  | none => s!"<tvar#{v.index}>"

mutual

def format (s : Store) : Ty → String
  | .void => "void"
  | .primitive p => p.keyword
  | .cls id [] => s.classText id
  | .cls id (arg :: args) => s.classText id ++ "<" ++ s.format arg ++ s.formatMore args ++ ">"
  | .arr elem => s.format elem ++ "[]"
  | .var v => s.varText v
  | .any => "?"
  | .ext upper => "? extends " ++ s.format upper
  | .sup lower => "? super " ++ s.format lower

/-- The texts of further types, each after a comma and a blank. -/
def formatMore (s : Store) : List Ty → String
  | [] => ""
  | t :: ts => ", " ++ s.format t ++ s.formatMore ts

end

def formatClass (s : Store) (t : ClassType) : String := s.format t.toTy

end CallCatalog.Store
