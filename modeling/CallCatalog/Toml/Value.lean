namespace CallCatalog

inductive Toml where
  | string (s : String)
  | integer (n : Int)
  | float (x : Float)
  | boolean (b : Bool)
  | datetime
  | array (items : List Toml)
  | tables (items : List (List (String × Toml)))
  | table (entries : List (String × Toml))
  deriving Inhabited

end CallCatalog
