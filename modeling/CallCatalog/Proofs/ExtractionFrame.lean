import CallCatalog.Catalog.Collect
import CallCatalog.Proofs.ExtractedCatalogs

namespace CallCatalog

namespace ModelDecl

variable {d : ModelDecl} {s s' : Store} {δ : Contribution}

/-- What a store has in common with the one that the description has been put into. -/
structure Frame (d : ModelDecl) (s s' : Store) : Prop where
  names : s'.classes.map ClassEntry.name = s.classes.map ClassEntry.name ++
    (d.classes.map ClassDecl.name).filter fun name => (s.classId? name).isNone
  interned : ∀ name, (s'.classId? name).isSome ↔
    (s.classId? name).isSome ∨ name ∈ d.classes.map ClassDecl.name
  classId : ∀ name id, s.classId? name = some id → s'.classId? name = some id
  className : ∀ id, s.HasClass id → s'.className? id = s.className? id
  wellKnown : (s.classes.map ClassEntry.name).take 6 = Store.wellKnownNames →
    (s'.classes.map ClassEntry.name).take 6 = Store.wellKnownNames
  /-- Definitions of other classes are the same, and undefined classes stay so. -/
  classDef : ∀ id, (∀ c ∈ d.classes, s'.classId? c.name ≠ some id) →
    s'.classDef? id = s.classDef? id
  typeParam : ∀ v, s.HasParam v → s'.typeParam? v = s.typeParam? v

section Install

variable {cs : List ClassDecl} {κ : ClassDecl → ClassContents}

theorem map_name_defineEach {number : String → ClassId} {ds : List ClassDef} :
    (defineEach s number ds).classes.map ClassEntry.name = s.classes.map ClassEntry.name := by
  induction ds generalizing s with
  | nil => rfl
  | cons d ds ih => exact ih.trans (Store.map_name_define (number d.name) d)

variable (hnames : (cs.map ClassDecl.name).Nodup)

include hnames

theorem map_name_install : (install s cs κ).classes.map ClassEntry.name =
    s.classes.map ClassEntry.name ++ s.newNames (cs.map ClassDecl.name) := by
  have hinterned : (s.internAll (cs.map ClassDecl.name)).classes.map ClassEntry.name =
      s.classes.map ClassEntry.name ++ s.newNames (cs.map ClassDecl.name) := by
    rw [Store.internAll_eq hnames, List.map_append, List.map_map]
    exact congrArg _ (List.map_id _)
  exact map_name_defineEach.trans hinterned

theorem classId?_install_of_isSome {name : String} {id : ClassId}
    (hid : s.classId? name = some id) : (install s cs κ).classId? name = some id := by
  rw [classId?_install, Store.classId?_internAll hnames, hid]
  rfl

theorem isSome_classId?_install_iff (name : String) :
    ((install s cs κ).classId? name).isSome ↔
      (s.classId? name).isSome ∨ name ∈ cs.map ClassDecl.name := by
  constructor
  · intro h
    by_cases hmem : name ∈ cs.map ClassDecl.name
    · exact Or.inr hmem
    · rw [classId?_install, Store.classId?_internAll_of_not_mem hnames hmem] at h
      exact Or.inl h
  · rintro (h | hmem)
    · obtain ⟨id, hid⟩ := Option.isSome_iff_exists.mp h
      rw [classId?_install_of_isSome hnames hid]
      rfl
    · obtain ⟨c, hc, rfl⟩ := List.mem_map.mp hmem
      rw [classId?_install_of_mem hnames hc]
      rfl

end Install

theorem frame_of_extract (h : d.extract s = .ok (δ, s')) : d.Frame s s' := by
  obtain ⟨hdistinct, κ, hκ, rfl, -⟩ := extract_eq_ok_iff.mp h
  have hnames := hdistinct.classes
  constructor
  case names => exact map_name_install hnames
  case interned => exact isSome_classId?_install_iff hnames
  case classId => exact fun name id hid => classId?_install_of_isSome hnames hid
  case className =>
    intro id hid
    rw [className?_install hnames]
    exact if_pos hid
  case wellKnown =>
    intro hwell
    have hlength : 6 ≤ (s.classes.map ClassEntry.name).length := by
      have htake := congrArg List.length hwell
      rw [List.length_take] at htake
      exact min_eq_left_iff.mp htake
    rw [map_name_install hnames, List.take_append_of_le_length hlength, hwell]
  case classDef =>
    intro id hid
    apply classDef?_install_of_ne hnames hκ
    rintro c hc rfl
    exact hid c hc (classId?_install_of_mem hnames hc)
  case typeParam => exact fun v hv => typeParam?_install_of_hasParam hnames hv

end ModelDecl

namespace CatalogBuilder

/-- Extraction is all or nothing. If it fails, builder and store are what they were; if it succeeds,
the store has changed only within the frame of the description. -/
theorem extract_frame (b : CatalogBuilder) (s : Store) (d : ModelDecl) :
    (∀ e, (b.extract s d).1 = .error e → (b.extract s d).2 = (b, s)) ∧
      ((b.extract s d).1 = .ok () → d.Frame s (b.extract s d).2.2) := by
  unfold extract
  cases h : d.extract s with
  | error e =>
      refine ⟨fun _ _ => rfl, fun hok => ?_⟩
      cases hok
  | ok result =>
      refine ⟨fun e herror => ?_, fun _ => ModelDecl.frame_of_extract h⟩
      cases herror

/-- `Box` again, with a method whose result is not known. Its class and type parameters have their
numbers when the fault is found. -/
def brokenBoxModel : ModelDecl :=
  { boxModel with
    classes := boxModel.classes.map fun c =>
      { c with methods := c.methods ++ [{ name := "lost", returns := some (.named "Lost") }] } }

theorem extract_frame_box :
    ((extract {} Platform.store brokenBoxModel).1 = .error (.unknownClass "Lost") ∧
      (extract {} Platform.store brokenBoxModel).2 = ({}, Platform.store)) ∧
      (extract {} Platform.store boxModel).1 = .ok () ∧
      boxModel.Frame Platform.store (extract {} Platform.store boxModel).2.2 := by
  have hbroken : (extract {} Platform.store brokenBoxModel).1 = .error (.unknownClass "Lost") := by
    decide +kernel
  have hbox : (extract {} Platform.store boxModel).1 = .ok () := by decide +kernel
  exact ⟨⟨hbroken, (extract_frame {} Platform.store brokenBoxModel).1 _ hbroken⟩, hbox,
    (extract_frame {} Platform.store boxModel).2 hbox⟩

end CatalogBuilder

end CallCatalog
