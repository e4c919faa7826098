import CallCatalog.Proofs.Picks

namespace CallCatalog

namespace OrderedSet

variable {α : Type} [DecidableEq α]

theorem ofList_append_append_of_subset {front more : List α} (h : ∀ a ∈ more, a ∈ front)
    (back : List α) : ofList (front ++ more ++ back) = ofList (front ++ back) := by
  have hfront : (ofList front).insertAll more = ofList front :=
    insertAll_of_subset fun a ha => mem_ofList.mpr (h a ha)
  calc ofList (front ++ more ++ back)
      = ((ofList front).insertAll more).insertAll back := by
        rw [ofList, ofList, insertAll_insertAll, insertAll_insertAll, List.append_assoc]
    _ = (ofList front).insertAll back := by rw [hfront]
    _ = ofList (front ++ back) := insertAll_insertAll empty front back

end OrderedSet

def Contribution.join (cs : List Contribution) : Contribution where
  classes := cs.flatMap classes
  exercised := cs.flatMap exercised
  inputTypes := cs.flatMap inputTypes
  operations := cs.flatMap operations

namespace CatalogBuilder

variable {b : CatalogBuilder} {c : Contribution} {cs : List Contribution}

theorem merge_merge (b : CatalogBuilder) (c d : Contribution) :
    (b.merge c).merge d = b.merge (c.append d) := by
  simp only [merge, Contribution.append, OrderedSet.insertAll_insertAll, List.append_assoc]

theorem foldl_merge (b : CatalogBuilder) (cs : List Contribution) :
    cs.foldl merge b = b.merge (.join cs) := by
  induction cs generalizing b with
  | nil => simp [merge, Contribution.join, OrderedSet.insertAll]
  | cons c cs ih =>
      rw [List.foldl_cons, ih, merge_merge]
      rfl

/-- Everything in the contribution has come into the builder before. -/
structure Holds (b : CatalogBuilder) (c : Contribution) : Prop where
  classes : ∀ id ∈ c.classes, id ∈ b.classes
  exercised : ∀ id ∈ c.exercised, id ∈ b.exercised
  inputTypes : ∀ t ∈ c.inputTypes, t ∈ b.inputTypes
  operations : ∀ op ∈ c.operations, op ∈ b.operations

namespace Holds

theorem merge_eq (h : b.Holds c) :
    b.merge c = { b with operations := b.operations ++ c.operations } := by
  simp only [merge, OrderedSet.insertAll_of_subset h.classes,
    OrderedSet.insertAll_of_subset h.exercised, OrderedSet.insertAll_of_subset h.inputTypes]

theorem contents_merge (h : b.Holds c) (s : Store) (r : Resolver) :
    (b.merge c).contents s r = b.contents s r := by
  have hrepeated : ∀ op ∈ c.operations.filter Operation.isConcrete,
      op ∈ b.operations.filter Operation.isConcrete := by
    intro op hop
    rw [List.mem_filter] at hop ⊢
    exact ⟨h.operations op hop.1, hop.2⟩
  rw [h.merge_eq]
  unfold contents
  -- What the classes under test give comes first and is the same; the repetitions come after all
  -- the operations that they repeat.
  congr 1
  · rw [List.filter_append, List.map_append, ← List.append_assoc]
    apply OrderedSet.ofList_append_append_of_subset
    intro t ht
    obtain ⟨op, hop, rfl⟩ := List.mem_map.mp ht
    exact List.mem_append_right _ (List.mem_map_of_mem (hrepeated op hop))
  · rw [List.filter_append, ← List.append_assoc]
    apply OrderedSet.ofList_append_append_of_subset
    exact fun op hop => List.mem_append_right _ (hrepeated op hop)

theorem build_merge (h : b.Holds c) (s : Store) (r : Resolver) :
    (b.merge c).build s r = b.build s r := by
  apply Prod.ext
  · cases hroot : (s.classDef? .object).isNone with
    | true => simp only [build, hroot, if_true]
    | false =>
        have hsome := Option.isNone_eq_false_iff.mp hroot
        rw [build_eq_contents hsome, build_eq_contents hsome, h.contents_merge]
  · rw [build_snd, build_snd, h.merge_eq]

end Holds

/-- Everything in the contribution has been in the builder from the start or has come into it with
one of the contributions `cs`, not necessarily all of it with the same one. -/
structure Repeats (b : CatalogBuilder) (cs : List Contribution) (c : Contribution) : Prop where
  classes : ∀ id ∈ c.classes, id ∈ b.classes ∨ ∃ c' ∈ cs, id ∈ c'.classes
  exercised : ∀ id ∈ c.exercised, id ∈ b.exercised ∨ ∃ c' ∈ cs, id ∈ c'.exercised
  inputTypes : ∀ t ∈ c.inputTypes, t ∈ b.inputTypes ∨ ∃ c' ∈ cs, t ∈ c'.inputTypes
  operations : ∀ op ∈ c.operations, op ∈ b.operations ∨ ∃ c' ∈ cs, op ∈ c'.operations

theorem Repeats.holds (h : b.Repeats cs c) : (cs.foldl merge b).Holds c := by
  rw [foldl_merge]
  constructor
  case classes => simpa [merge, Contribution.join, OrderedSet.mem_insertAll] using h.classes
  case exercised => simpa [merge, Contribution.join, OrderedSet.mem_insertAll] using h.exercised
  case inputTypes => simpa [merge, Contribution.join, OrderedSet.mem_insertAll] using h.inputTypes
  case operations => simpa [merge, Contribution.join] using h.operations

/-- Contributions can be joined before they are merged, and one that only repeats what earlier ones
brought leaves the catalog, with all its orders, and the resolver as they are. -/
theorem merge_merge_and_build_merge (b : CatalogBuilder) (s : Store) (r : Resolver) :
    (∀ c d, (b.merge c).merge d = b.merge (c.append d)) ∧
    ∀ cs c, b.Repeats cs c →
      ((cs.foldl merge b).merge c).build s r = (cs.foldl merge b).build s r :=
  ⟨merge_merge b, fun _ _ h => h.holds.build_merge s r⟩

/-- What is repeated here came in with two contributions, and one of the operations is found again
as a method of the class `Integer`, which is under test. -/
theorem merge_merge_and_build_merge_platform :
    let valueOf : Operation :=
      .method ⟨.integer, []⟩ "valueOf" true [Platform.intTy] (Platform.plain .integer)
    let size : Operation := .method ⟨Platform.list, [.any]⟩ "size" false [] Platform.intTy
    let first : Contribution := { classes := [Platform.arrayList], operations := [size] }
    let second : Contribution :=
      { classes := [.integer], exercised := [.integer], inputTypes := [Platform.stringTy]
        operations := [valueOf] }
    let again : Contribution :=
      { classes := [.integer, Platform.arrayList], exercised := [.integer]
        inputTypes := [Platform.stringTy], operations := [valueOf, size, valueOf] }
    let b : CatalogBuilder := {}
    b.Repeats [first, second] again ∧
      (([first, second].foldl merge b).merge again).build Platform.store {} =
        ([first, second].foldl merge b).build Platform.store {} := by
  intro valueOf size first second again b
  have hrepeats : b.Repeats [first, second] again :=
    ⟨by decide, by decide, by decide, by decide⟩
  exact ⟨hrepeats, (merge_merge_and_build_merge b Platform.store {}).2 _ _ hrepeats⟩

end CatalogBuilder

end CallCatalog
