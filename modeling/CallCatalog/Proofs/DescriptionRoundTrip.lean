import CallCatalog.Declaration.Read
import CallCatalog.Proofs.ReadingBack

namespace CallCatalog

open Json (Reader Layout)

namespace TypeRef

mutual

theorem ofJson?_toJson : ∀ r : TypeRef, ofJson? r.toJson = some r
  | named text => rfl
  | applied name args => by
      have hargs := ofJsons?_toJsons args
      simp [toJson, ofJson?, readings, ofReadings?, applied?, only?, listOfJson?, hargs,
        Json.string?]
  | ext upper => by
      have hupper := ofJson?_toJson upper
      simp [toJson, ofJson?, readings, ofReadings?, applied?, only?, hupper]
  | sup lower => by
      have hlower := ofJson?_toJson lower
      simp [toJson, ofJson?, readings, ofReadings?, applied?, only?, hlower]

theorem ofJsons?_toJsons : ∀ rs : List TypeRef, ofJsons? (toJsons rs) = some rs
  | [] => rfl
  | r :: rs => by rw [toJsons, ofJsons?, ofJson?_toJson r, ofJsons?_toJsons rs]

end

mutual

theorem numberFree_toJson : ∀ r : TypeRef, r.toJson.NumberFree
  | named _ => trivial
  | applied _ args => ⟨trivial, numbersFree_toJsons args, trivial⟩
  | ext upper => ⟨numberFree_toJson upper, trivial⟩
  | sup lower => ⟨numberFree_toJson lower, trivial⟩

theorem numbersFree_toJsons : ∀ rs : List TypeRef, Json.NumbersFree (toJsons rs)
  | [] => trivial
  | r :: rs => ⟨numberFree_toJson r, numbersFree_toJsons rs⟩

end

variable {l : Layout}

theorem readsBack (r : TypeRef) : l.ReadsBack TypeRef.read r.toJson r := by
  intro depth level hdepth
  have hvalue := Reader.reads_value (l := l) level r.toJson depth (numberFree_toJson r) hdepth
  refine ⟨hvalue.begins, fun gap rest hgap => ?_⟩
  rw [TypeRef.read, Reader.bind_eq (hvalue.read gap rest hgap)]
  simp only [ofJson?_toJson]
  rfl

theorem head?_text_ne (r : TypeRef) (level : Nat) :
    (l.text level r.toJson).head? ≠ some (some 'n') := by
  cases r <;> simp [toJson, Layout.text, Layout.bracketed, Json.quotedSymbols]

end TypeRef

variable {l : Layout}

theorem ClassKind.readsBack (kind : ClassKind) :
    l.ReadsBack (Reader.choice ClassKind.words) (.string kind.word) kind := by
  intro depth level _
  refine ⟨⟨'"', _, rfl, by decide, by decide⟩, fun gap rest hgap => ?_⟩
  have hlookup : ClassKind.words.lookup kind.word = some kind := by cases kind <;> decide
  rw [Layout.text, List.append_assoc, Reader.quotedSymbols_append, Reader.choice,
    Reader.bind_eq (Reader.firstOfValue_eq hgap (by decide))]
  simp only
  rw [Reader.bind_eq Reader.drop_eq, Reader.bind_eq (Json.Reader.quoted_eq kind.word)]
  simp only [hlookup]
  rfl

section Fields

variable {σ α : Type} {r : (depth : Nat) → Reader α}

theorem readsBack_nameField (name text : String) (store : String → σ → σ) :
    l.ReadsBack (nameField name store).read (.string text) (store text) :=
  (Layout.ReadsBack.string text).field name store true

theorem readsBack_flagField (name : String) (b : Bool) (store : Bool → σ → σ) :
    l.ReadsBack (flagField name store).read (.bool b) (store b) :=
  (Layout.ReadsBack.bool b).field name store false

theorem readsBack_listField {toJson : α → Json} (h : ∀ a, l.ReadsBack r (toJson a) a)
    (name : String) (as : List α) (store : List α → σ → σ) :
    l.ReadsBack (listField name r store).read (.list toJson as) (store as) :=
  (Layout.ReadsBack.list fun a _ => h a).field name store false

theorem readsBack_optionField {toJson : α → Json} (h : ∀ a, l.ReadsBack r (toJson a) a)
    (hnull : ∀ a level, (l.text level (toJson a)).head? ≠ some (some 'n')) (name : String)
    (a? : Option α) (store : Option α → σ → σ) :
    l.ReadsBack (optionField name r store).read (.option toJson a?) (store a?) := by
  cases a? with
  | none => exact (Layout.ReadsBack.optional_none r).field name store false
  | some a => exact ((h a).optional_some (hnull a)).field name store false

end Fields

theorem head?_text_string_ne (s : String) (level : Nat) :
    (l.text level (.string s)).head? ≠ some (some 'n') := by
  simp [Layout.text, Json.quotedSymbols]

theorem TypeParamDecl.readsBack (p : TypeParamDecl) :
    l.ReadsBack TypeParamDecl.shape.read p.toJson p :=
  .record (.cons (readsBack_nameField _ _ _) <| .cons (readsBack_listField TypeRef.readsBack _ _ _)
    .nil) (by decide)

theorem ConstructorDecl.readsBack (c : ConstructorDecl) :
    l.ReadsBack ConstructorDecl.shape.read c.toJson c :=
  .record (.cons (readsBack_listField TypeRef.readsBack _ _ _) .nil) (by decide)

theorem MethodDecl.readsBack (m : MethodDecl) : l.ReadsBack MethodDecl.shape.read m.toJson m :=
  .record (.cons (readsBack_nameField _ _ _) <|
    .cons (readsBack_listField TypeParamDecl.readsBack _ _ _) <|
    .cons (readsBack_listField TypeRef.readsBack _ _ _) <|
    .cons (readsBack_optionField TypeRef.readsBack TypeRef.head?_text_ne _ _ _) <|
    .cons (readsBack_flagField _ _ _) .nil) (by decide)

theorem ClassDecl.readsBack (c : ClassDecl) : l.ReadsBack ClassDecl.shape.read c.toJson c :=
  .record (.cons (readsBack_nameField _ _ _) <|
    .cons (readsBack_optionField ClassKind.readsBack (fun _ => head?_text_string_ne _) _ _ _) <|
    .cons (readsBack_flagField _ _ _) <|
    .cons (readsBack_listField TypeParamDecl.readsBack _ _ _) <|
    .cons (readsBack_optionField TypeRef.readsBack TypeRef.head?_text_ne _ _ _) <|
    .cons (readsBack_listField TypeRef.readsBack _ _ _) <|
    .cons (readsBack_listField ConstructorDecl.readsBack _ _ _) <|
    .cons (readsBack_listField MethodDecl.readsBack _ _ _) .nil) (by decide)

theorem OperationDecl.readsBack (o : OperationDecl) :
    l.ReadsBack OperationDecl.shape.read o.toJson o :=
  .record (.cons ((TypeRef.readsBack _).field _ _ _) <|
    .cons (readsBack_optionField .string head?_text_string_ne _ _ _) <|
    .cons (readsBack_flagField _ _ _) <|
    .cons (readsBack_listField TypeRef.readsBack _ _ _) <|
    .cons (readsBack_optionField TypeRef.readsBack TypeRef.head?_text_ne _ _ _) .nil) (by decide)

theorem ModelDecl.readsBack (d : ModelDecl) : l.ReadsBack ModelDecl.shape.read d.toJson d :=
  .record (.cons (readsBack_listField ClassDecl.readsBack _ _ _) <|
    .cons (readsBack_listField .string _ _ _) <|
    .cons (readsBack_listField .string _ _ _) <|
    .cons (readsBack_listField TypeRef.readsBack _ _ _) <|
    .cons (readsBack_listField OperationDecl.readsBack _ _ _) .nil) (by decide)

namespace ModelDecl

theorem parse_text (d : ModelDecl) (h : d.toJson.depth ≤ Reader.maxDepth) (l : Layout)
    (level : Nat) : parse (l.text level d.toJson) = .ok d := by
  have hread := (ModelDecl.readsBack (l := l) d Reader.maxDepth level h).read_append []
  rw [List.append_nil] at hread
  rw [parse, Reader.run, hread]
  rfl

/-- A written description is read as itself, unless too many of its brackets are open at one
time. -/
theorem parse_toJson (d : ModelDecl) (h : d.toJson.depth ≤ Reader.maxDepth) :
    parse (Json.symbolsOfString d.toJson.compact) = .ok d ∧
      parse (Json.symbolsOfString d.toJson.pretty) = .ok d := by
  rw [Layout.symbolsOfString_compact 0, Json.pretty, Layout.symbolsOfString_prettyAt 0]
  exact ⟨parse_text d h .oneLine 0, parse_text d h .itemPerLine 0⟩

def nodeModel : ModelDecl where
  classes := [{
    name := "a.\"Node\"\n\t\x01"
    kind := some .interface
    typeParams := [{
      name := "T"
      bounds := [.applied "a.Node" [.ext (.named "T[]"), .sup (.applied "b.Box" []), .named "?"]] }]
    methods := [{ name := "next", returns := some (.named "T"), isStatic := true }] }]
  underTest := ["a.Node"]
  operations := [{ declaring := .named "a.Node", params := [.named "int"] }]

theorem parse_toJson_node : nodeModel.toJson.depth ≤ Reader.maxDepth ∧
    parse (Json.symbolsOfString nodeModel.toJson.compact) = .ok nodeModel ∧
      parse (Json.symbolsOfString nodeModel.toJson.pretty) = .ok nodeModel := by
  have h : nodeModel.toJson.depth ≤ Reader.maxDepth := by decide
  exact ⟨h, parse_toJson nodeModel h⟩

end ModelDecl

end CallCatalog
