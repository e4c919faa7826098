import CallCatalog.Proofs.RenamedExtractions

/-!
The order in which a description declares its classes. Another order gives the new classes and the
type parameters other numbers, and nothing else changes.
-/

namespace CallCatalog

section Renumber

variable {α : Type} [DecidableEq α]

/-- Numbers from `start` on stand for the members of `ks`; they become the numbers that these have
in `ks'`. -/
def renumber (start : Nat) (ks ks' : List α) (i : Nat) : Nat :=
  if i < start then i
  else match ks[i - start]? with
    | some k => start + ks'.idxOf k
    | none => i

variable {start : Nat} {ks ks' : List α}

theorem renumber_of_lt {i : Nat} (h : i < start) : renumber start ks ks' i = i := if_pos h

theorem renumber_of_getElem? {i : Nat} {k : α} (h : ks[i]? = some k) :
    renumber start ks ks' (start + i) = start + ks'.idxOf k := by
  simp [renumber, h]

theorem renumber_of_length_le {i : Nat} (h : ks.length ≤ i) :
    renumber start ks ks' (start + i) = start + i := by
  have hnone : ks[i]? = none := List.getElem?_eq_none h
  simp [renumber, hnone]

theorem renumber_idxOf {k : α} (h : k ∈ ks) :
    renumber start ks ks' (start + ks.idxOf k) = start + ks'.idxOf k :=
  renumber_of_getElem? (List.getElem?_idxOf h)

theorem exists_renumber_add (start : Nat) (hks : ks.Perm ks') (i : Nat) :
    ∃ j, renumber start ks ks' (start + i) = start + j ∧ ks'[j]? = ks[i]? := by
  cases hk : ks[i]? with
  | some k =>
      have hmem : k ∈ ks' := hks.mem_iff.mp (List.mem_of_getElem? hk)
      exact ⟨ks'.idxOf k, renumber_of_getElem? hk, List.getElem?_idxOf hmem⟩
  | none =>
      have hlength : ks.length ≤ i := List.getElem?_eq_none_iff.mp hk
      refine ⟨i, renumber_of_length_le hlength, ?_⟩
      exact List.getElem?_eq_none (hks.length_eq ▸ hlength)

theorem renumber_renumber (hks : ks.Perm ks') (hnodup : ks.Nodup) (i : Nat) :
    renumber start ks' ks (renumber start ks ks' i) = i := by
  by_cases hi : i < start
  · rw [renumber_of_lt hi, renumber_of_lt hi]
  obtain ⟨i, rfl⟩ := Nat.exists_eq_add_of_le (Nat.le_of_not_lt hi)
  by_cases hlength : ks.length ≤ i
  · rw [renumber_of_length_le hlength, renumber_of_length_le (hks.length_eq ▸ hlength)]
  have hlt : i < ks.length := Nat.lt_of_not_le hlength
  have hmem : ks[i] ∈ ks' := hks.mem_iff.mp (List.getElem_mem hlt)
  rw [renumber_of_getElem? (List.getElem?_eq_getElem hlt), renumber_idxOf hmem,
    hnodup.idxOf_getElem i hlt]

theorem renumber_injective (hks : ks.Perm ks') (hnodup : ks.Nodup) :
    Function.Injective (renumber start ks ks') :=
  Function.LeftInverse.injective (renumber_renumber hks hnodup)

end Renumber

variable {s : Store} {cs cs' : List ClassDecl}

theorem newNames_perm (hcs : cs.Perm cs') :
    (s.newNames (cs.map ClassDecl.name)).Perm (s.newNames (cs'.map ClassDecl.name)) :=
  (hcs.map ClassDecl.name).filter _

theorem places_perm (hcs : cs.Perm cs') : (places cs).Perm (places cs') :=
  (hcs.flatMap_right _).append (hcs.flatMap_right _)

namespace Renaming

/-- The numbers that the classes and type parameters of a description get if it declares the classes
in another order. -/
def reorder (s : Store) (hwell : Store.wellKnownNames.length ≤ s.classes.length)
    (hcs : cs.Perm cs') (hnames : (cs.map ClassDecl.name).Nodup) : Renaming where
  cls id := ⟨renumber s.classes.length (s.newNames (cs.map ClassDecl.name))
    (s.newNames (cs'.map ClassDecl.name)) id.index⟩
  var v := ⟨renumber s.typeParams.length (places cs) (places cs') v.index⟩
  cls_injective := by
    rintro ⟨i⟩ ⟨j⟩ h
    exact congrArg ClassId.mk
      (renumber_injective (newNames_perm hcs) (hnames.filter _) (ClassId.mk.inj h))
  var_injective := by
    rintro ⟨i⟩ ⟨j⟩ h
    exact congrArg TypeVarId.mk
      (renumber_injective (places_perm hcs) (nodup_places hnames) (TypeVarId.mk.inj h))
  cls_wellKnown id hid := congrArg ClassId.mk (renumber_of_lt (Nat.lt_of_lt_of_le hid hwell))

/-- The renaming gives what is declared in one order the numbers that it has in the other. -/
structure Reorders (f : Renaming) (s : Store) (cs cs' : List ClassDecl) : Prop where
  cls : ∀ id, f.cls id = ⟨renumber s.classes.length (s.newNames (cs.map ClassDecl.name))
    (s.newNames (cs'.map ClassDecl.name)) id.index⟩
  var : ∀ v, f.var v = ⟨renumber s.typeParams.length (places cs) (places cs') v.index⟩

theorem reorders_reorder (hwell : Store.wellKnownNames.length ≤ s.classes.length)
    (hcs : cs.Perm cs') (hnames : (cs.map ClassDecl.name).Nodup) :
    (reorder s hwell hcs hnames).Reorders s cs cs' :=
  ⟨fun _ => rfl, fun _ => rfl⟩

namespace Reorders

variable {f : Renaming} (hf : f.Reorders s cs cs')

include hf

theorem cls_of_hasClass (id : ClassId) (hid : s.HasClass id) : f.cls id = id := by
  rw [hf.cls, renumber_of_lt hid]

theorem var_of_hasParam (v : TypeVarId) (hv : s.HasParam v) : f.var v = v := by
  rw [hf.var, renumber_of_lt hv]

theorem exists_cls_add (hcs : cs.Perm cs') (i : Nat) :
    ∃ j, f.cls ⟨s.classes.length + i⟩ = ⟨s.classes.length + j⟩ ∧
      (s.newNames (cs'.map ClassDecl.name))[j]? = (s.newNames (cs.map ClassDecl.name))[i]? := by
  obtain ⟨j, hj, hname⟩ := exists_renumber_add s.classes.length (newNames_perm hcs) i
  exact ⟨j, by rw [hf.cls, hj], hname⟩

theorem exists_var_add (hcs : cs.Perm cs') (i : Nat) :
    ∃ j, f.var ⟨s.typeParams.length + i⟩ = ⟨s.typeParams.length + j⟩ ∧
      (places cs')[j]? = (places cs)[i]? := by
  obtain ⟨j, hj, hplace⟩ := exists_renumber_add s.typeParams.length (places_perm hcs) i
  exact ⟨j, by rw [hf.var, hj], hplace⟩

end Reorders

end Renaming

namespace ModelDecl

variable {κ : ClassDecl → ClassContents} {ν : Numbering} {f : Renaming}

section Reorders

variable (hf : f.Reorders s cs cs') (hcs : cs.Perm cs') (hdistinct : Distinct cs)

include hf

theorem numbering_of_reorders {p : ParamPlace} (hp : p ∈ places cs) :
    numbering s.typeParams.length cs' p = f.var (numbering s.typeParams.length cs p) := by
  rw [hf.var, numbering, numbering, renumber_idxOf hp]

include hcs hdistinct

theorem numberOf_of_reorders {c : ClassDecl} (hc : c ∈ cs) :
    f.cls (s.numberOf (cs.map ClassDecl.name) c.name) =
      s.numberOf (cs'.map ClassDecl.name) c.name := by
  have hnames := hdistinct.classes
  have hnames' := (hdistinct.perm hcs).classes
  cases hid : s.classId? c.name with
  | some id =>
      rw [Store.numberOf_of_classId? hnames hid, Store.numberOf_of_classId? hnames' hid]
      exact hf.cls_of_hasClass id (Store.hasClass_of_classId? hid)
  | none =>
      have hnew : c.name ∈ s.newNames (cs.map ClassDecl.name) :=
        List.mem_filter.mpr ⟨List.mem_map_of_mem hc, by simp [hid]⟩
      have hnew' : c.name ∈ s.newNames (cs'.map ClassDecl.name) :=
        (newNames_perm hcs).mem_iff.mp hnew
      rw [Store.numberOf_of_mem_newNames hnames hnew,
        Store.numberOf_of_mem_newNames hnames' hnew', hf.cls, renumber_idxOf hnew]

theorem renames_names_of_reorders : Names.Renames f (names s cs) (names s cs') := by
  refine ⟨fun name => ?_, rfl⟩
  by_cases hname : name ∈ cs.map ClassDecl.name
  · obtain ⟨c, hc, rfl⟩ := List.mem_map.mp hname
    have hlookup := lookup_declaredClasses (s := s) hdistinct.classes hc
    have hlookup' := lookup_declaredClasses (s := s) (hdistinct.perm hcs).classes
      (hcs.mem_iff.mp hc)
    simp [names, Names.class?, hlookup, hlookup', numberOf_of_reorders hf hcs hdistinct hc]
  · have hname' : name ∉ cs'.map ClassDecl.name := fun h =>
      hname ((hcs.map ClassDecl.name).mem_iff.mpr h)
    simp only [names, Names.class?, lookup_declaredClasses_eq_none.mpr hname,
      lookup_declaredClasses_eq_none.mpr hname']
    cases hid : s.classId? name with
    | none => rfl
    | some id =>
        have hfixed := hf.cls_of_hasClass id (Store.hasClass_of_classId? hid)
        cases hd : s.classDef? id with
        | none => simp [hd]
        | some d => simp [hd, hfixed]

theorem className?_install_of_reorders {κ' : ClassDecl → ClassContents} (id : ClassId) :
    (install s cs' κ').className? (f.cls id) = (install s cs κ).className? id := by
  rw [className?_install hdistinct.classes, className?_install (hdistinct.perm hcs).classes]
  by_cases hid : s.HasClass id
  · rw [hf.cls_of_hasClass id hid]
    exact (if_pos hid).trans (if_pos hid).symm
  · obtain ⟨i, rfl⟩ := Store.exists_eq_add_of_not_hasClass hid
    obtain ⟨j, hj, hname⟩ := hf.exists_cls_add hcs i
    have hnew : ∀ k, ¬ s.classes.length + k < s.classes.length := fun k =>
      Nat.not_lt.mpr (Nat.le_add_right _ k)
    rw [hj, if_neg (hnew i), if_neg (hnew j), Nat.add_sub_cancel_left, Nat.add_sub_cancel_left,
      hname]

variable (hκ : Reads s cs (numbering s.typeParams.length cs) κ)

include hκ

theorem reads_of_reorders :
    Reads s cs' (numbering s.typeParams.length cs') fun c => (κ c).rename f :=
  reads_rename (renames_names_of_reorders hf hcs hdistinct) hcs
    (fun _ hp => numbering_of_reorders hf hp) hκ

omit hcs in
theorem cls_of_classDef?_install_eq_none {id : ClassId}
    (hid : (install s cs κ).classDef? id = none) : f.cls id = id := by
  by_cases hclass : s.HasClass id
  · exact hf.cls_of_hasClass id hclass
  obtain ⟨i, rfl⟩ := Store.exists_eq_add_of_not_hasClass hclass
  cases hname : (s.newNames (cs.map ClassDecl.name))[i]? with
  | none => rw [hf.cls, renumber_of_length_le (List.getElem?_eq_none_iff.mp hname)]
  | some name =>
      have hmem := List.mem_of_getElem? hname
      obtain ⟨c, hc, rfl⟩ := List.mem_map.mp (List.mem_filter.mp hmem).1
      have hidx : (s.newNames (cs.map ClassDecl.name)).idxOf c.name = i := by
        obtain ⟨hlt, heq⟩ := List.getElem?_eq_some_iff.mp hname
        rw [← heq]
        exact (hdistinct.classes.filter _).idxOf_getElem i hlt
      have hdef := classDef?_install_of_mem hdistinct.classes hκ hc
      rw [Store.numberOf_of_mem_newNames hdistinct.classes hmem, hidx, hid] at hdef
      cases hdef

variable (hs : s.SelfContained)

include hs

theorem classDef?_install_of_reorders (id : ClassId) :
    (install s cs' fun c => (κ c).rename f).classDef? (f.cls id) =
      ((install s cs κ).classDef? id).map (ClassDef.rename f) := by
  refine classDef?_install_rename hcs hdistinct hκ (reads_of_reorders hf hcs hdistinct hκ)
    (fun c hc => numberOf_of_reorders hf hcs hdistinct hc) ?_ id
  intro id _
  -- Another number can only belong to a new class, which the store does not define yet.
  by_cases hid : s.HasClass id
  · rw [hf.cls_of_hasClass id hid]
    exact (hs.map_rename_classDef? hf.cls_of_hasClass hf.var_of_hasParam id).symm
  · obtain ⟨i, rfl⟩ := Store.exists_eq_add_of_not_hasClass hid
    obtain ⟨j, hj, -⟩ := hf.exists_cls_add hcs i
    have hnone : ∀ k, s.classDef? ⟨s.classes.length + k⟩ = none := by
      intro k
      rw [Option.eq_none_iff_forall_ne_some]
      exact fun d hd => absurd (Store.hasClass_of_classDef? hd)
        (Nat.not_lt.mpr (Nat.le_add_right _ k))
    rw [hj, hnone, hnone]
    rfl

theorem typeParam?_install_of_reorders (v : TypeVarId) :
    (install s cs' fun c => (κ c).rename f).typeParam? (f.var v) =
      ((install s cs κ).typeParam? v).map (TypeParam.rename f) := by
  refine typeParam?_install_rename hcs hdistinct hκ (reads_of_reorders hf hcs hdistinct hκ) ?_
    (hf.exists_var_add hcs) v
  intro v hv
  rw [hf.var_of_hasParam v hv]
  exact ⟨hv, (hs.map_rename_typeParam? hf.cls_of_hasClass hf.var_of_hasParam v).symm⟩

theorem carries_install_of_reorders :
    f.Carries (install s cs κ) (install s cs' fun c => (κ c).rename f) where
  classDef := classDef?_install_of_reorders hf hcs hdistinct hκ hs
  typeParam := typeParam?_install_of_reorders hf hcs hdistinct hκ hs
  className := className?_install_of_reorders hf hcs hdistinct
  undefined _ := cls_of_classDef?_install_eq_none hf hdistinct hκ

end Reorders

section Perm

variable {d : ModelDecl} {δ : Contribution} {s₁ : Store}
  (hwell : Store.wellKnownNames.length ≤ s.classes.length) (hcs : d.classes.Perm cs')

include hwell hcs

theorem exists_extract_perm (h : d.extract s = .ok (δ, s₁)) :
    ∃ δ' s₁', ({ d with classes := cs' } : ModelDecl).extract s = .ok (δ', s₁') := by
  obtain ⟨hdistinct, κ, hκ, rfl, hδ⟩ := extract_eq_ok_iff.mp h
  have hf := Renaming.reorders_reorder hwell hcs hdistinct.classes
  exact exists_extract_of_renames hcs hdistinct hκ (renames_names_of_reorders hf hcs hdistinct)
    (fun _ hp => numbering_of_reorders hf hp) hδ

theorem report_install_perm (hs : s.SelfContained) {δ' : Contribution} {s₁' : Store}
    (h : d.extract s = .ok (δ, s₁))
    (h' : ({ d with classes := cs' } : ModelDecl).extract s = .ok (δ', s₁')) (r : Resolver) :
    (CatalogBuilder.ofContributions [δ']).report s₁' r =
      (CatalogBuilder.ofContributions [δ]).report s₁ r := by
  obtain ⟨hdistinct, κ, hκ, rfl, hδ⟩ := extract_eq_ok_iff.mp h
  have hf := Renaming.reorders_reorder hwell hcs hdistinct.classes
  have hcarries := carries_install_of_reorders hf hcs hdistinct hκ hs
  have hother := extract_rename hcs hdistinct hκ (renames_names_of_reorders hf hcs hdistinct)
    (fun _ hp => numbering_of_reorders hf hp) hδ hcarries
  have hmentions : s.Mentions (fun _ => True) s.HasParam :=
    hs.mono (fun _ _ => trivial) fun _ hv => hv
  rw [h', Except.ok.injEq, Prod.mk.injEq] at hother
  obtain ⟨rfl, rfl⟩ := hother
  exact CatalogBuilder.report_ofContributions_rename hcarries
    (mentions_install hdistinct.classes hκ (counts_numbering hdistinct.classes _) hmentions)
    (isConcrete_of_contribution rfl hδ).1 r

end Perm

def crateModel : ModelDecl where
  classes := [
    { name := "Crate"
      constructors := [⟨[.applied "Box" [.named "java.lang.Integer"]]⟩] },
    { name := "Box"
      typeParams := [{ name := "T", bounds := [.applied "java.lang.Comparable" [.named "T"]] }]
      constructors := [⟨[.named "T"]⟩] }]
  underTest := ["Crate", "Box"]
  inputTypes := [.named "java.lang.Integer"]

/-- The platform store with a class whose constructor takes an instance of a class that has no
number yet. -/
def danglingStore : Store :=
  (Platform.store.add {
    name := "A", kind := .plain, isAbstract := false, constructors := [⟨[.cls ⟨20⟩ []]⟩] }).2

def danglingModel : ModelDecl where
  classes := [{ name := "X" }, { name := "Y" }]
  underTest := ["A"]

end ModelDecl

end CallCatalog
