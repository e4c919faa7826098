import CallCatalog.Proofs.RenamedExtractions

/-!
Extracting a description twice. The second time all class names have their numbers, the type
parameters get new ones, and every class of the description is defined again over these. So the
second store is the first one with the type parameters of the description moved up.
-/

namespace CallCatalog

/-- The type variables from `start` on are moved up by `count`, and classes keep their numbers. -/
def Renaming.shift (start count : Nat) : Renaming where
  cls id := id
  var v := if v.index < start then v else ⟨v.index + count⟩
  cls_injective _ _ h := h
  var_injective := by
    rintro ⟨i⟩ ⟨j⟩ h
    dsimp only at h
    split at h <;> split at h <;> simp only [TypeVarId.mk.injEq] at h ⊢ <;> omega
  cls_wellKnown _ _ := rfl

namespace Renaming

variable {start count : Nat}

theorem shift_of_lt {v : TypeVarId} (h : v.index < start) : (shift start count).var v = v :=
  if_pos h

theorem shift_add (i : Nat) : (shift start count).var ⟨start + i⟩ = ⟨start + count + i⟩ := by
  have hle : ¬ start + i < start := by omega
  have hindex : start + i + count = start + count + i := by omega
  simp [shift, hindex]

end Renaming

section Closed

variable {start count : Nat}

theorem Ty.rename_shift_of_isConcrete {t : Ty} (h : t.isConcrete) :
    t.rename (.shift start count) = t :=
  rename_eq_self t (Within.mono (fun _ _ => rfl) (fun _ hv => hv.elim) t
    ((mentionsVars_eq_false_iff t).mp (isConcrete_iff.mp h).2))

theorem ClassType.rename_shift_of_isConcrete {t : ClassType} (h : t.isConcrete) :
    t.rename (.shift start count) = t := by
  apply toTy_inj
  rw [toTy_rename]
  exact Ty.rename_shift_of_isConcrete (t.isConcrete_toTy.trans h)

theorem Operation.rename_shift_of_isConcrete {op : Operation} (h : op.isConcrete) :
    op.rename (.shift start count) = op := by
  simp only [isConcrete, Bool.and_eq_true, List.all_eq_true] at h
  obtain ⟨⟨hdeclaring, hinputs⟩, houtput⟩ := h
  have hmap : op.inputs.map (Ty.rename (.shift start count)) = op.inputs :=
    map_eq_self fun t ht => Ty.rename_shift_of_isConcrete (hinputs t ht)
  rw [rename, ClassType.rename_shift_of_isConcrete hdeclaring, hmap,
    Ty.rename_shift_of_isConcrete houtput]

theorem Contribution.rename_shift (start count : Nat) {δ : Contribution}
    (hinputTypes : ∀ t ∈ δ.inputTypes, t.isConcrete)
    (hoperations : ∀ op ∈ δ.operations, op.isConcrete) : δ.rename (.shift start count) = δ := by
  have hclasses : ∀ ids : List ClassId, ids.map (Renaming.shift start count).cls = ids :=
    fun ids => List.map_id' ids
  have htypes : δ.inputTypes.map (Ty.rename (.shift start count)) = δ.inputTypes :=
    map_eq_self fun t ht => Ty.rename_shift_of_isConcrete (hinputTypes t ht)
  have hops : δ.operations.map (Operation.rename (.shift start count)) = δ.operations :=
    map_eq_self fun op hop => Operation.rename_shift_of_isConcrete (hoperations op hop)
  rw [rename, hclasses, hclasses, htypes, hops]

end Closed

namespace CatalogBuilder

variable {s : Store} {r : Resolver}

theorem contents_repeat (δ : Contribution) :
    (ofContributions [δ, δ]).contents s r = (ofContributions [δ]).contents s r := by
  have hclasses : (ofContributions [δ, δ]).classes = (ofContributions [δ]).classes :=
    OrderedSet.insertAll_insertAll_self _ _
  have hexercised : (ofContributions [δ, δ]).exercised = (ofContributions [δ]).exercised :=
    OrderedSet.insertAll_insertAll_self _ _
  have hinputTypes : (ofContributions [δ, δ]).inputTypes = (ofContributions [δ]).inputTypes :=
    OrderedSet.insertAll_insertAll_self _ _
  have hoperations : (ofContributions [δ, δ]).operations =
      (ofContributions [δ]).operations ++ (ofContributions [δ]).operations := rfl
  have hattempts : (ofContributions [δ, δ]).attempts s r = (ofContributions [δ]).attempts s r := by
    rw [attempts, attempts, hclasses, hinputTypes]
  simp only [contents, hattempts, hclasses, hexercised, hinputTypes, hoperations,
    List.filter_append, List.map_append, OrderedSet.ofList_repeat]

theorem report_repeat (δ : Contribution) :
    (ofContributions [δ, δ]).report s r = (ofContributions [δ]).report s r := by
  unfold report
  cases hroot : s.classDef? .object with
  | none => simp only [build, hroot, Option.isNone_none, if_true]
  | some d =>
      have hsome : (s.classDef? .object).isSome := by simp [hroot]
      rw [build_eq_contents hsome, build_eq_contents hsome, contents_repeat]

end CatalogBuilder

namespace Store

theorem newNames_eq_nil {s : Store} {names : List String}
    (h : ∀ name ∈ names, (s.classId? name).isSome) : s.newNames names = [] := by
  simp only [newNames, List.filter_eq_nil_iff, Option.isNone_iff_eq_none]
  intro name hname hnone
  have hsome := h name hname
  rw [hnone] at hsome
  cases hsome

end Store

namespace ModelDecl

variable {s : Store} {cs : List ClassDecl} {κ : ClassDecl → ClassContents}

section Shift

variable (hdistinct : Distinct cs) (hκ : Reads s cs (numbering s.typeParams.length cs) κ)

include hdistinct hκ

omit hκ in
theorem numberOf_install {c : ClassDecl} (hc : c ∈ cs) :
    (install s cs κ).numberOf (cs.map ClassDecl.name) c.name =
      s.numberOf (cs.map ClassDecl.name) c.name :=
  Store.numberOf_of_classId? hdistinct.classes (classId?_install_of_mem hdistinct.classes hc)

omit hκ in
theorem declaredClasses_install :
    declaredClasses (install s cs κ) cs = declaredClasses s cs :=
  List.map_congr_left fun c hc => by rw [numberOf_install hdistinct hc]

theorem renames_names_install :
    Names.Renames (.shift s.typeParams.length (places cs).length) (names s cs)
      (names (install s cs κ) cs) := by
  refine ⟨fun name => ?_, rfl⟩
  have hclass : (names (install s cs κ) cs).class? name = (names s cs).class? name := by
    rw [names, declaredClasses_install hdistinct, ← matches_install hdistinct.classes hκ name]
  rw [hclass]
  cases (names s cs).class? name <;> rfl

theorem numbering_install (p : ParamPlace) :
    numbering (install s cs κ).typeParams.length cs p =
      (Renaming.shift s.typeParams.length (places cs).length).var
        (numbering s.typeParams.length cs p) := by
  rw [numbering, numbering, Renaming.shift_add, length_typeParams_install hdistinct.classes hκ]

omit hκ in
theorem className?_install_again {κ' : ClassDecl → ClassContents} (id : ClassId) :
    (install (install s cs κ) cs κ').className? id = (install s cs κ).className? id := by
  have hnew : (install s cs κ).newNames (cs.map ClassDecl.name) = [] := by
    apply Store.newNames_eq_nil
    intro name hname
    obtain ⟨c, hc, rfl⟩ := List.mem_map.mp hname
    rw [classId?_install_of_mem hdistinct.classes hc]
    rfl
  rw [className?_install hdistinct.classes, hnew]
  split
  · rfl
  · rename_i hlt
    have hnone : (install s cs κ).classes[id.index]? = none :=
      List.getElem?_eq_none (Nat.le_of_not_lt hlt)
    rw [Store.className?, hnone]
    rfl

theorem carries_install (hs : s.Mentions (fun _ => True) s.HasParam) :
    (Renaming.shift s.typeParams.length (places cs).length).Carries (install s cs κ)
      (install (install s cs κ) cs fun c =>
        (κ c).rename (.shift s.typeParams.length (places cs).length)) := by
  have hnames := hdistinct.classes
  have hκ' := reads_rename (renames_names_install hdistinct hκ) (List.Perm.refl cs)
    (fun p _ => numbering_install hdistinct hκ p) hκ
  -- What the store declared before lies below the shift.
  have hfixed : ∀ v, s.HasParam v →
      (Renaming.shift s.typeParams.length (places cs).length).var v = v :=
    fun v hv => Renaming.shift_of_lt hv
  constructor
  case classDef =>
    refine classDef?_install_rename (List.Perm.refl cs) hdistinct hκ hκ'
      (fun c hc => (numberOf_install hdistinct hc).symm) ?_
    intro id hid
    have hold : (install s cs κ).classDef? id = s.classDef? id :=
      classDef?_install_of_ne hnames hκ hid
    refine hold.trans ?_
    exact (hs.map_rename_classDef? (fun _ _ => rfl) hfixed id).symm
  case typeParam =>
    refine typeParam?_install_rename (List.Perm.refl cs) hdistinct hκ hκ' ?_ ?_
    · intro v hv
      rw [hfixed v hv]
      refine ⟨hasParam_install hnames hκ hv, (typeParam?_install_of_hasParam hnames hv).trans ?_⟩
      exact (hs.map_rename_typeParam? (fun _ _ => rfl) hfixed v).symm
    · intro i
      refine ⟨i, ?_, rfl⟩
      rw [Renaming.shift_add, length_typeParams_install hnames hκ]
  case className => exact className?_install_again hdistinct
  case undefined => exact fun _ _ => rfl

end Shift

theorem exists_extract_again {d : ModelDecl} {δ : Contribution} {s' : Store}
    (h : d.extract s = .ok (δ, s')) : ∃ δ' s'', d.extract s' = .ok (δ', s'') := by
  obtain ⟨hdistinct, κ, hκ, rfl, hδ⟩ := extract_eq_ok_iff.mp h
  exact exists_extract_of_renames (List.Perm.refl d.classes) hdistinct hκ
    (renames_names_install hdistinct hκ) (fun p _ => numbering_install hdistinct hκ p) hδ

/-- The second time contributes the same, since what is contributed is concrete. -/
theorem report_install_again {d : ModelDecl} {δ δ' : Contribution} {s' s'' : Store}
    (hs : s.Mentions (fun _ => True) s.HasParam) (h : d.extract s = .ok (δ, s'))
    (h' : d.extract s' = .ok (δ', s'')) (r : Resolver) :
    (CatalogBuilder.ofContributions [δ, δ']).report s'' r =
      (CatalogBuilder.ofContributions [δ]).report s' r := by
  obtain ⟨hdistinct, κ, hκ, rfl, hδ⟩ := extract_eq_ok_iff.mp h
  obtain ⟨hinputTypes, hoperations⟩ := isConcrete_of_contribution rfl hδ
  have hcarries := carries_install hdistinct hκ hs
  have hagain := extract_rename (List.Perm.refl d.classes) hdistinct hκ
    (renames_names_install hdistinct hκ) (fun p _ => numbering_install hdistinct hκ p) hδ hcarries
  have hsame := Contribution.rename_shift s.typeParams.length (places d.classes).length
    hinputTypes hoperations
  have hreport := CatalogBuilder.report_ofContributions_rename hcarries
    (mentions_install hdistinct.classes hκ (counts_numbering hdistinct.classes _) hs) hinputTypes r
  rw [h', Except.ok.injEq, Prod.mk.injEq] at hagain
  obtain ⟨rfl, rfl⟩ := hagain
  rw [hsame] at hreport ⊢
  rw [CatalogBuilder.report_repeat, hreport]

/-- The platform store with a class over a type variable that is not a type parameter yet. -/
def unboundStore : Store :=
  (Platform.store.add {
    name := "A", kind := .plain, isAbstract := false, typeParams := [⟨11⟩] }).2

/-- A new class with a type parameter beside that class, which is under test. -/
def unboundModel : ModelDecl where
  classes := [{ name := "B", typeParams := [{ name := "T" }] }]
  underTest := ["A"]
  inputTypes := [.named "java.lang.Integer"]

end ModelDecl

end CallCatalog
