import CallCatalog.Catalog.Report
import CallCatalog.Proofs.CatalogContents
import CallCatalog.Proofs.RenamedInstantiations

namespace CallCatalog

variable {f : Renaming} {s s' : Store}

namespace OrderedSet

variable {α : Type}

def map (g : α → α) (hg : Function.Injective g) (set : OrderedSet α) : OrderedSet α :=
  ⟨set.toList.map g, set.nodup.map hg⟩

variable {g : α → α}

@[simp] theorem toList_map (hg : Function.Injective g) (set : OrderedSet α) :
    (set.map g hg).toList = set.toList.map g := rfl

variable [DecidableEq α]

theorem insert_map (hg : Function.Injective g) (set : OrderedSet α) (a : α) :
    (set.map g hg).insert (g a) = (set.insert a).map g hg := by
  apply ext
  simp only [map, toList_insert, List.mem_map_of_injective hg]
  split <;> simp

theorem insertAll_map (hg : Function.Injective g) (set : OrderedSet α) (as : List α) :
    (set.map g hg).insertAll (as.map g) = (set.insertAll as).map g hg := by
  induction as generalizing set with
  | nil => rfl
  | cons a as ih =>
      simp only [insertAll, List.map_cons, List.foldl_cons] at ih ⊢
      rw [insert_map, ih]

theorem ofList_map (hg : Function.Injective g) (as : List α) :
    ofList (as.map g) = (ofList as).map g hg :=
  insertAll_map hg empty as

end OrderedSet

namespace Operation

def rename (f : Renaming) (op : Operation) : Operation :=
  { op with
    declaring := op.declaring.rename f
    inputs := op.inputs.map (Ty.rename f)
    output := op.output.rename f }

theorem rename_injective (f : Renaming) : Function.Injective (rename f) := by
  rintro ⟨declaring, kind, inputs, output⟩ ⟨declaring', kind', inputs', output'⟩ h
  simp only [rename, mk.injEq] at h
  obtain ⟨hdeclaring, hkind, hinputs, houtput⟩ := h
  have hmap : Function.Injective (Ty.rename f) := fun t u => Ty.rename_injective f t u
  rw [ClassType.rename_injective f hdeclaring, hkind,
    List.map_injective_iff.mpr hmap hinputs, hmap houtput]

@[simp] theorem isConcrete_rename (op : Operation) :
    (op.rename f).isConcrete = op.isConcrete := by
  simp [isConcrete, rename, Function.comp_def]

theorem constructor_rename (t : ClassType) (params : List Ty) :
    (constructor t params).rename f = constructor (t.rename f) (params.map (Ty.rename f)) := by
  simp [constructor, rename, ClassType.toTy_rename]

theorem method_rename (t : ClassType) (name : String) (isStatic : Bool) (params : List Ty)
    (output : Ty) : (method t name isStatic params output).rename f =
      method (t.rename f) name isStatic (params.map (Ty.rename f)) (output.rename f) := by
  cases isStatic <;> simp [method, rename, ClassType.toTy_rename]

theorem ofConstructor_rename (t : ClassType) (σ : Substitution) (k : ConstructorDef) :
    ofConstructor (t.rename f) (σ.rename f) (k.rename f) = (ofConstructor t σ k).rename f := by
  simp [ofConstructor, constructor_rename, ConstructorDef.rename, Function.comp_def,
    Substitution.apply_rename]

theorem ofMethod?_rename (t : ClassType) (σ : Substitution) (m : MethodDef) :
    ofMethod? (t.rename f) (σ.rename f) (m.rename f) = (ofMethod? t σ m).map (rename f) := by
  simp only [ofMethod?, MethodDef.rename, List.isEmpty_map]
  split
  · simp [method_rename, Function.comp_def, Substitution.apply_rename]
  · rfl

theorem params_rename (op : Operation) : (op.rename f).params = op.params.map (Ty.rename f) := by
  obtain ⟨declaring, kind, inputs, output⟩ := op
  rcases kind with _ | ⟨name, _ | _⟩ <;> simp [params, rename]

theorem params_subset (op : Operation) : ∀ t ∈ op.params, t ∈ op.inputs := by
  obtain ⟨declaring, kind, inputs, output⟩ := op
  rcases kind with _ | ⟨name, _ | _⟩
  · exact fun t ht => ht
  · exact fun t ht => List.mem_of_mem_tail ht
  · exact fun t ht => ht

theorem signature_rename (h : f.Carries s s') {op : Operation} (hop : op.isConcrete) :
    (op.rename f).signature s' = op.signature s := by
  simp only [isConcrete, Bool.and_eq_true, List.all_eq_true] at hop
  obtain ⟨⟨hdeclaring, hinputs⟩, houtput⟩ := hop
  have hclosed : ∀ t : Ty, t.isConcrete → s'.format (t.rename f) = s.format t := by
    intro t ht
    exact Store.format_rename_of_closed h (Ty.isConcrete_iff.mp ht).2
  have hparams : (op.rename f).params.map s'.format = op.params.map s.format := by
    rw [params_rename, List.map_map]
    apply List.map_congr_left
    intro t ht
    exact hclosed t (hinputs t (params_subset op t ht))
  have hdeclaringText : s'.formatClass (op.rename f).declaring = s.formatClass op.declaring :=
    Store.formatClass_rename h hdeclaring
  have houtputText : s'.format (op.rename f).output = s.format op.output := hclosed _ houtput
  rw [signature, signature, hparams, hdeclaringText, houtputText]
  rfl

end Operation

namespace Attempt

def rename (f : Renaming) (a : Attempt) : Attempt where
  id := f.cls a.id
  resolver := a.resolver
  outcome := a.outcome.map (Prod.map (ClassDef.rename f) (Instantiation.rename f))

theorem types_rename (a : Attempt) : (a.rename f).types = a.types.map (ClassType.rename f) := by
  obtain ⟨id, resolver, outcome⟩ := a
  cases outcome <;> rfl

theorem operations_rename (a : Attempt) :
    (a.rename f).operations = a.operations.map (Operation.rename f) := by
  obtain ⟨id, resolver, outcome⟩ := a
  rcases outcome with _ | ⟨d, i⟩
  · rfl
  · have hconstructors := List.map_congr_left fun k (_ : k ∈ d.constructors) =>
      Operation.ofConstructor_rename (f := f) i.classType i.substitution k
    have hmethods := List.filterMap_congr fun m (_ : m ∈ d.methods) =>
      Operation.ofMethod?_rename (f := f) i.classType i.substitution m
    simp only [rename, operations, Except.map, Prod.map, Catalog.operationsOf, ClassDef.rename,
      Instantiation.rename, List.map_map, List.filterMap_map, List.map_append,
      List.map_filterMap, Function.comp_def]
    rw [hconstructors, hmethods]

theorem skips_rename (h : f.Carries s s') (a : Attempt) : (a.rename f).skips s' = a.skips s := by
  obtain ⟨id, resolver, outcome⟩ := a
  cases outcome with
  | ok _ => rfl
  | error reason => simp [rename, skips, Except.map, Store.classText_rename h]

end Attempt

namespace Store

variable {u : Universe}

theorem attempt_rename (h : f.Carries s s') (hs : s.Mentions (fun _ => True) s.HasParam)
    (r : Resolver) (c : ClassId) :
    s'.attempt (u.rename f) r (f.cls c) =
      Prod.map (Except.map (Prod.map (ClassDef.rename f) (Instantiation.rename f))) id
        (s.attempt u r c) := by
  unfold attempt
  rw [h.classDef c]
  cases hd : s.classDef? c with
  | none =>
      rw [h.undefined c hd]
      rfl
  | some d =>
      have hinst : (d.rename f).isInstantiable = d.isInstantiable := rfl
      have hkind : (d.rename f).kind = d.kind := rfl
      simp only [Option.map_some, hinst, hkind, Resolver.instantiate_rename h hs r c]
      split
      · rfl
      split
      · rcases r.instantiate s c u with ⟨_ | _, next⟩ <;> rfl
      · rfl

theorem attempts_rename (h : f.Carries s s') (hs : s.Mentions (fun _ => True) s.HasParam)
    (r : Resolver) (ids : List ClassId) :
    s'.attempts (u.rename f) r (ids.map f.cls) = (s.attempts u r ids).map (Attempt.rename f) := by
  induction ids generalizing r with
  | nil => rfl
  | cons c ids ih =>
      simp only [List.map_cons, attempts, attempt_rename h hs, Prod.map]
      rw [← ih]
      rfl

theorem isExercisable_rename (h : f.Carries s s') (c : ClassId) :
    s'.isExercisable (f.cls c) = s.isExercisable c := by
  unfold isExercisable
  rw [h.classDef c]
  cases s.classDef? c <;> rfl

theorem isInstantiable_rename (h : f.Carries s s') (c : ClassId) :
    s'.isInstantiable (f.cls c) = s.isInstantiable c := by
  unfold isInstantiable
  rw [h.classDef c]
  cases s.classDef? c <;> rfl

end Store

def Contribution.rename (f : Renaming) (c : Contribution) : Contribution where
  classes := c.classes.map f.cls
  exercised := c.exercised.map f.cls
  inputTypes := c.inputTypes.map (Ty.rename f)
  operations := c.operations.map (Operation.rename f)

def Catalog.rename (f : Renaming) (c : Catalog) : Catalog where
  classes := c.classes.map (ClassType.rename f) (ClassType.rename_injective f)
  operations := c.operations.map (Operation.rename f) (Operation.rename_injective f)
  inputTypes := c.inputTypes.rename f
  exercised := c.exercised.map f.cls f.cls_injective
  skipped := c.skipped
  hasClasses := c.hasClasses

namespace CatalogBuilder

variable {b : CatalogBuilder} {r : Resolver}

def rename (f : Renaming) (b : CatalogBuilder) : CatalogBuilder where
  classes := b.classes.map f.cls f.cls_injective
  exercised := b.exercised.map f.cls f.cls_injective
  inputTypes := b.inputTypes.rename f
  operations := b.operations.map (Operation.rename f)

def report (b : CatalogBuilder) (s : Store) (r : Resolver) : Except BuildError Report :=
  (b.build s r).1.map fun c => c.report s

theorem merge_rename (b : CatalogBuilder) (c : Contribution) :
    (b.rename f).merge (c.rename f) = (b.merge c).rename f := by
  have hinputTypes : (b.inputTypes.rename f).insertAll (c.inputTypes.map (Ty.rename f)) =
      Universe.rename f (b.inputTypes.insertAll c.inputTypes) :=
    OrderedSet.insertAll_map (fun t u => Ty.rename_injective f t u) b.inputTypes c.inputTypes
  simp only [merge, rename, Contribution.rename, List.map_append, hinputTypes,
    OrderedSet.insertAll_map]

theorem contents_rename (h : f.Carries s s') (hs : s.Mentions (fun _ => True) s.HasParam) :
    (b.rename f).contents s' r = (b.contents s r).rename f := by
  have hattempts : (b.rename f).attempts s' r = (b.attempts s r).map (Attempt.rename f) :=
    Store.attempts_rename h hs r b.classes.toList
  have hroot : [root] = [root].map (ClassType.rename f) := by
    simp [root, ClassType.rename_root]
  have hrootOp : [Operation.constructor root []] =
      [Operation.constructor root []].map (Operation.rename f) := by
    simp [Operation.constructor_rename, root, ClassType.rename_root]
  have hexercisable : ((b.exercised.toList.map f.cls).filter s'.isExercisable) =
      (b.exercised.toList.filter s.isExercisable).map f.cls := by
    rw [List.filter_map]
    congr 1
    exact List.filter_congr fun c _ => Store.isExercisable_rename h c
  unfold contents Catalog.rename
  rw [hattempts]
  congr 1
  case e_classes =>
    rw [← OrderedSet.ofList_map, List.map_append, List.map_append, ← hroot]
    congr 3
    · simp [List.flatMap_map, List.map_flatMap, Attempt.types_rename]
    · have hdeclaring : ∀ op : Operation,
          (op.rename f).declaring = op.declaring.rename f := fun _ => rfl
      simp [rename, List.filter_map, Function.comp_def, hdeclaring]
  case e_operations =>
    rw [← OrderedSet.ofList_map, List.map_append, List.map_append, ← hrootOp]
    congr 3
    · simp [List.flatMap_map, List.map_flatMap, Attempt.operations_rename, List.filter_flatMap,
        List.filter_map, Function.comp_def]
    · simp [rename, List.filter_map, Function.comp_def]
  case e_exercised => rw [← OrderedSet.ofList_map, ← hexercisable]; rfl
  case e_skipped =>
    simp [List.flatMap_map, Attempt.skips_rename h]
  case e_hasClasses =>
    simp [rename, OrderedSet.map, List.any_map, Function.comp_def, Store.isInstantiable_rename h]

theorem isConcrete_of_mem_classes {t : ClassType} (ht : t ∈ (b.contents s r).classes) :
    t.isConcrete := by
  simp only [contents, OrderedSet.mem_ofList, List.mem_append, List.mem_flatMap, List.mem_map,
    List.mem_filter, List.mem_singleton] at ht
  rcases ht with (⟨a, ha, hta⟩ | ⟨op, ⟨-, hop⟩, rfl⟩) | rfl
  · unfold Attempt.types at hta
    split at hta
    · rename_i d i houtcome
      rw [List.mem_singleton.mp hta]
      obtain ⟨hd, hi⟩ := Attempt.of_outcome_eq_ok ha houtcome
      exact (Resolver.closes_of_instantiate hd hi).2
    · cases hta
  · simp only [Operation.isConcrete, Bool.and_eq_true] at hop
    exact hop.1.1
  · rfl

theorem report_contents_rename (h : f.Carries s s')
    (hinputTypes : ∀ t ∈ b.inputTypes.toList, t.mentionsVars = false) :
    ((b.contents s r).rename f).report s' = (b.contents s r).report s := by
  have hclasses : ∀ t ∈ (b.contents s r).classes.toList,
      s'.formatClass (t.rename f) = s.formatClass t :=
    fun t ht => Store.formatClass_rename h (isConcrete_of_mem_classes ht)
  have hoperations : ∀ op ∈ (b.contents s r).operations.toList,
      (op.rename f).signature s' = op.signature s :=
    fun op hop => Operation.signature_rename h (isConcrete_of_mem_contents hop)
  have hformats : ∀ t ∈ b.inputTypes.toList, s'.format (t.rename f) = s.format t :=
    fun t ht => Store.format_rename_of_closed h (hinputTypes t ht)
  simp only [Catalog.report, Catalog.rename, Universe.rename, OrderedSet.toList_map, List.map_map,
    List.filterMap_map, Function.comp_def, h.className, List.map_congr_left hclasses,
    List.map_congr_left hoperations]
  rw [contents, List.map_congr_left hformats]

theorem report_rename (h : f.Carries s s') (hs : s.Mentions (fun _ => True) s.HasParam)
    (hinputTypes : ∀ t ∈ b.inputTypes.toList, t.mentionsVars = false) :
    (b.rename f).report s' r = b.report s r := by
  have hobject : s'.classDef? .object = (s.classDef? .object).map (ClassDef.rename f) := by
    rw [← h.classDef .object, Ty.cls_object]
  unfold report
  cases hroot : s.classDef? .object with
  | none =>
      rw [hroot, Option.map_none] at hobject
      simp only [build, hroot, hobject]
      rfl
  | some d =>
      have hsome : (s.classDef? .object).isSome := by simp [hroot]
      have hsome' : (s'.classDef? .object).isSome := by simp [hobject, hroot]
      rw [build_eq_contents hsome, build_eq_contents hsome', contents_rename h hs]
      exact congrArg Except.ok (report_contents_rename h hinputTypes)

end CatalogBuilder

end CallCatalog
