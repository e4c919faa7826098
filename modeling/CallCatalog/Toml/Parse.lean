import CallCatalog.Toml.Scan

/-!
Reading TOML documents. While a document is read, it is known of every table how it came about, for
this decides whether it may be extended: a table with a header of its own only below that header,
and a table that came about through dotted keys only by further dotted keys.
-/

namespace CallCatalog.Toml

inductive Origin where
  | header
  | path
  | dotted
  deriving DecidableEq

/-- What a key stands for while the document is read. -/
inductive Entry where
  | value (v : Toml)
  | table (origin : Origin) (entries : List (String × Entry))
  /-- Tables that have one header, which is repeated for each of them, the last one first. -/
  | tables (latest : List (String × Entry)) (earlier : List (List (String × Entry)))
  deriving Inhabited

abbrev Entries := List (String × Entry)

def Entries.replace (entries : Entries) (name : String) (e : Entry) : Entries :=
  entries.map fun p => if p.1 = name then (p.1, e) else p

/-- Follows a path of keys and changes the table at its end. Tables that are missing are added with
origin `fresh`. -/
def descend (fresh : Origin) (change : Origin → Entries → Option Entries) :
    (path : List String) → (origin : Origin) → (entries : Entries) → Option Entries
  | [], origin, entries => change origin entries
  | name :: path, _, entries =>
    match entries.lookup name with
    | none => do
      let inner ← descend fresh change path fresh []
      return entries ++ [(name, .table fresh inner)]
    | some (.table origin inner) => do
      if fresh = .dotted && origin = .header then none
      let inner ← descend fresh change path origin inner
      return Entries.replace entries name (.table origin inner)
    | some (.tables latest earlier) => do
      let latest ← descend fresh change path .header latest
      return Entries.replace entries name (.tables latest earlier)
    | some (.value _) => none

def addEntry (path : List String) (name : String) (v : Toml) (entries : Entries) :
    Option Entries :=
  descend .dotted (fun origin entries =>
    if path.isEmpty == (origin == .dotted) || (entries.lookup name).isSome then none
    else some (entries ++ [(name, .value v)])) path .header entries

mutual

def Entry.toToml : Entry → Toml
  | .value v => v
  | .table _ entries => .table (Entry.toTomls entries)
  | .tables latest earlier => .tables (Entry.tablesToTomls earlier [Entry.toTomls latest])

def Entry.toTomls : List (String × Entry) → List (String × Toml)
  | [] => []
  | (name, e) :: entries => (name, e.toToml) :: Entry.toTomls entries

/-- The tables of a repeated header, from the last one to the first, before those in `after`. -/
def Entry.tablesToTomls : (tables : List (List (String × Entry))) →
    (after : List (List (String × Toml))) → List (List (String × Toml))
  | [], after => after
  | entries :: earlier, after => Entry.tablesToTomls earlier (Entry.toTomls entries :: after)

end

def inlineTable (pairs : List (List String × Toml)) : Option Toml := do
  let entries ← pairs.foldlM (fun entries p => do
    let name ← p.1.getLast?
    addEntry p.1.dropLast name p.2 entries) []
  return .table (Entry.toTomls entries)

namespace Reader

def arrayItems (item : Reader Toml) : (clock : List Char) → (acc : List Toml) → Reader (List Toml)
  | [], _ => fail
  | _ :: clock, acc => do
    filler
    if ← skip [']'] then pure acc.reverse
    else
      let v ← item
      filler
      if ← skip [','] then arrayItems item clock (v :: acc)
      else
        expect [']']
        pure (v :: acc).reverse

def keyValue (item : Reader Toml) : Reader (List String × Toml) := do
  let parts ← key
  expect ['=']
  blanks
  return (parts, ← item)

def inlineEntries (item : Reader Toml) :
    (clock : List Char) → (acc : List (List String × Toml)) → Reader (List (List String × Toml))
  | [], _ => fail
  | _ :: clock, acc => do
    let entry ← keyValue item
    blanks
    if ← skip [','] then inlineEntries item clock (entry :: acc)
    else
      expect ['\x7d']
      pure (entry :: acc).reverse

/-- Reads a value. What an array or an inline table contains is read by `inner`; without it, there
must be neither. -/
def valueWith (inner : Option (Reader Toml)) : Reader Toml := do
  match ← peek with
  | some '"' => .string <$> stringValue '"' true
  | some '\'' => .string <$> stringValue '\'' false
  | some '[' =>
    match inner with
    | none => fail
    | some item =>
      drop
      .array <$> arrayItems item (← get) []
  | some '\x7b' =>
    match inner with
    | none => fail
    | some item =>
      drop
      blanks
      if ← skip ['\x7d'] then pure (.table [])
      else
        let pairs ← inlineEntries item (← get) []
        match inlineTable pairs with
        | some t => pure t
        | none => fail
  | some 't' =>
    expect ['t', 'r', 'u', 'e']
    pure (.boolean true)
  | some 'f' =>
    expect ['f', 'a', 'l', 's', 'e']
    pure (.boolean false)
  | _ => numeric

/-- Reads a value with no more than `depth` arrays and inline tables inside each other. -/
def value : (depth : Nat) → Reader Toml
  | 0 => valueWith none
  | depth + 1 => valueWith (some (value depth))

def maxDepth : Nat := 79

end Reader

/-- A document in the middle of being read: the tables that are complete, and the one whose header
came last. -/
structure Draft where
  root : Entries := []
  current : Entries := []
  path : List String := []
  /-- Whether the header is one that may be repeated. -/
  isRepeated : Bool := false

namespace Draft

def finish (d : Draft) : Option Entries :=
  match d.path.getLast? with
  | none => some d.current
  | some name =>
    descend .path (fun _ entries =>
      match entries.lookup name, d.isRepeated with
      | none, false => some (entries ++ [(name, .table .header d.current)])
      | none, true => some (entries ++ [(name, .tables d.current [])])
      | some (.tables latest earlier), true =>
        some (Entries.replace entries name (.tables d.current (latest :: earlier)))
      | _, _ => none) d.path.dropLast .header d.root

def tableAt? : (path : List String) → Entries → Option Entry
  | [], entries => some (.table .header entries)
  | [name], entries => entries.lookup name
  | name :: path, entries =>
    match entries.lookup name with
    | some (.table _ inner) => tableAt? path inner
    | some (.tables latest _) => tableAt? path latest
    | _ => none

def removeAt (path : List String) (name : String) (root : Entries) : Option Entries :=
  descend .path (fun _ entries => some (entries.filter fun p => p.1 ≠ name)) path .header root

/-- Begins a table with a header. A table that so far is only named on the way to others goes on
here. -/
def beginTable (d : Draft) (path : List String) : Option Draft := do
  let root ← d.finish
  let name ← path.getLast?
  match tableAt? path root with
  | none => return { root, path }
  | some (.table .path entries) =>
    return { root := ← removeAt path.dropLast name root, current := entries, path }
  | some _ => none

def beginRepeated (d : Draft) (path : List String) : Option Draft := do
  let root ← d.finish
  match tableAt? path root with
  | none => return { root, path, isRepeated := true }
  | some (.tables ..) => return { root, path, isRepeated := true }
  | some _ => none

def add (d : Draft) (parts : List String) (v : Toml) : Option Draft := do
  let name ← parts.getLast?
  return { d with current := ← addEntry parts.dropLast name v d.current }

end Draft

namespace Reader

def ofOption {α : Type} : Option α → Reader α
  | some a => pure a
  | none => fail

def lines : (clock : List Char) → (d : Draft) → Reader Draft
  | [], d => pure d
  | _ :: clock, d => do
    blanks
    match ← peek with
    | none => pure d
    | some '#' =>
      comment
      lineEnd
      lines clock d
    | some '[' =>
      drop
      if ← skip ['['] then
        let path ← key
        expect [']', ']']
        lineEnd
        lines clock (← ofOption (d.beginRepeated path))
      else
        let path ← key
        expect [']']
        lineEnd
        lines clock (← ofOption (d.beginTable path))
    | some c =>
      if c = '\n' || c = '\r' then
        if ← newline then lines clock d else fail
      else
        let (parts, v) ← keyValue (value maxDepth)
        lineEnd
        lines clock (← ofOption (d.add parts v))

end Reader

def parse? (text : String) : Option (List (String × Toml)) := do
  let text := text.toList
  let text := if text.head? = some '\uFEFF' then text.tail else text
  let (d, _) ← Reader.lines (text ++ [' ']) {} text
  return Entry.toTomls (← d.finish)

end CallCatalog.Toml
