import CallCatalog.Proofs.Interning
import Mathlib.Data.List.Nodup

namespace CallCatalog

namespace Store

/-- A change that a store is asked for. -/
inductive Command where
  | intern (name : String)
  | define (id : ClassId) (d : ClassDef)
  | add (d : ClassDef)
  | addTypeParam (name : String) (uppers : List Ty)
  | defineTypeParam (v : TypeVarId) (p : TypeParam)
  | setUppers (v : TypeVarId) (uppers : List Ty)

/-- The command gives a definition to the class with this number and name. -/
def Command.Redefines (id : ClassId) (name : String) : Command → Prop
  | define id' _ => id' = id
  | add d => d.name = name
  | _ => False

/-- The command replaces the declaration of this type parameter, or a part of it. -/
def Command.Redeclares (v : TypeVarId) : Command → Prop
  | defineTypeParam w _ => w = v
  | setUppers w _ => w = v
  | _ => False

def perform (s : Store) : Command → Store
  | .intern name => (s.intern name).2
  | .define id d => s.define id d
  | .add d => (s.add d).2
  | .addTypeParam name uppers => (s.addTypeParam name uppers).2
  | .defineTypeParam v p => s.defineTypeParam v p
  | .setUppers v uppers => s.setUppers v uppers

def run (s : Store) (commands : List Command) : Store := commands.foldl perform s

/-- A later store has what an earlier one has given out. -/
structure Keeps (s s' : Store) : Prop where
  className? : ∀ id name, s.className? id = some name → s'.className? id = some name
  classId? : ∀ name id, s.classId? name = some id → s'.classId? name = some id
  hasParam : ∀ v, s.HasParam v → s'.HasParam v

/-- One store is the other with the definition of one class replaced, if the class has a number. -/
structure DefinedAt (s s' : Store) (id : ClassId) (d : ClassDef) : Prop where
  names : s'.classes.map ClassEntry.name = s.classes.map ClassEntry.name
  typeParams : s'.typeParams = s.typeParams
  classDef? : ∀ c, s'.classDef? c = if c = id ∧ s.HasClass id then some d else s.classDef? c
  unallocated : ¬ s.HasClass id → s' = s

/-- One store is the other with one declared type parameter changed, if it has a number. -/
structure ChangedAt (s s' : Store) (v : TypeVarId) (change : TypeParam → TypeParam) : Prop where
  classes : s'.classes = s.classes
  length : s'.typeParams.length = s.typeParams.length
  typeParam? : ∀ w, s'.typeParam? w = if w = v then (s.typeParam? v).map change else s.typeParam? w
  unallocated : ¬ s.HasParam v → s' = s

variable {s s' s'' : Store}

theorem definedAt_define (s : Store) (id : ClassId) (d : ClassDef) :
    s.DefinedAt (s.define id d) id d := by
  by_cases hid : s.HasClass id
  · exact ⟨map_name_define id d, rfl, fun c => by simp [classDef?_define hid, hid],
      fun h => absurd hid h⟩
  · have hself : s.define id d = s := by
      rw [define, List.modify_eq_self (Nat.le_of_not_lt hid)]
    rw [hself]
    exact ⟨rfl, rfl, fun c => by simp [hid], fun _ => rfl⟩

theorem changedAt_modify (s : Store) (v : TypeVarId) (change : TypeParam → TypeParam) :
    s.ChangedAt { s with typeParams := s.typeParams.modify v.index change } v change where
  classes := rfl
  length := List.length_modify ..
  typeParam? w := by
    simp only [typeParam?, List.getElem?_modify]
    by_cases hw : w = v
    · subst hw
      simp
    · have hindex : v.index ≠ w.index := fun h => hw (by cases v; cases w; simp_all)
      simp [hw, hindex]
  unallocated h := by rw [List.modify_eq_self (Nat.le_of_not_lt h)]

namespace Keeps

theorem refl (s : Store) : s.Keeps s := ⟨fun _ _ => id, fun _ _ => id, fun _ => id⟩

theorem trans (h : s.Keeps s') (h' : s'.Keeps s'') : s.Keeps s'' where
  className? id name hname := h'.className? id name (h.className? id name hname)
  classId? name id hid := h'.classId? name id (h.classId? name id hid)
  hasParam v hv := h'.hasParam v (h.hasParam v hv)

end Keeps

theorem typeParams_intern (name : String) : (s.intern name).2.typeParams = s.typeParams := by
  rw [intern]
  split <;> rfl

theorem classDef?_intern {id : ClassId} (hid : s.HasClass id) (name : String) :
    (s.intern name).2.classDef? id = s.classDef? id := by
  rw [intern]
  split
  · rfl
  · exact congrArg (Option.bind · ClassEntry.definition?) (List.getElem?_append_left hid)

theorem keeps_intern (name : String) : s.Keeps (s.intern name).2 := by
  cases hid : s.classId? name with
  | some id =>
      rw [intern_eq_of_classId? hid]
      exact Keeps.refl s
  | none =>
      simp only [intern, hid]
      refine ⟨fun id other hother => ?_, fun other id hother => ?_, fun v hv => hv⟩
      · have hlt := hasClass_of_className? hother
        simpa [className?, List.getElem?_append_left hlt] using hother
      · rw [classId?_append, hother]
        rfl

theorem DefinedAt.keeps {id : ClassId} {d : ClassDef} (h : s.DefinedAt s' id d) : s.Keeps s' where
  className? c name hname := by
    simp only [className?, ← List.getElem?_map] at hname ⊢
    rw [h.names, hname]
  classId? name c hc := by rw [classId?_eq_findIdx?, h.names, ← classId?_eq_findIdx?, hc]
  hasParam v hv := by rwa [HasParam, h.typeParams]

theorem ChangedAt.keeps {v : TypeVarId} {change : TypeParam → TypeParam}
    (h : s.ChangedAt s' v change) : s.Keeps s' where
  className? id name hname := by rwa [className?, h.classes]
  classId? name id hid := by rwa [classId?, h.classes]
  hasParam w hw := by rwa [HasParam, h.length]

theorem keeps_perform (s : Store) (c : Command) : s.Keeps (s.perform c) := by
  cases c with
  | intern name => exact keeps_intern name
  | define id d => exact (definedAt_define s id d).keeps
  | add d => exact (keeps_intern d.name).trans (definedAt_define _ _ d).keeps
  | addTypeParam name uppers =>
      refine ⟨fun _ _ => id, fun _ _ => id, fun v hv => ?_⟩
      simp only [perform, addTypeParam, HasParam, List.length_append]
      exact Nat.lt_add_right 1 hv
  | defineTypeParam v p => exact (changedAt_modify s v fun _ => p).keeps
  | setUppers v uppers =>
      exact (changedAt_modify s v fun p => { p with bound := .ofUppers uppers }).keeps

theorem names_nodup_intern (hs : (s.classes.map ClassEntry.name).Nodup) (name : String) :
    ((s.intern name).2.classes.map ClassEntry.name).Nodup := by
  cases hid : s.classId? name with
  | some id => rwa [intern_eq_of_classId? hid]
  | none =>
      have hnew : name ∉ s.classes.map ClassEntry.name := by
        rw [classId?_eq_findIdx?, Option.map_eq_none_iff, List.findIdx?_eq_none_iff] at hid
        intro hmem
        simpa using hid name hmem
      simp only [intern, hid, List.map_append]
      exact hs.append (List.nodup_singleton name) (by simpa using hnew)

theorem names_nodup_perform (hs : (s.classes.map ClassEntry.name).Nodup) (c : Command) :
    ((s.perform c).classes.map ClassEntry.name).Nodup := by
  cases c with
  | intern name => exact names_nodup_intern hs name
  | define id d => rwa [perform, map_name_define]
  | add d =>
      rw [perform, add, map_name_define]
      exact names_nodup_intern hs d.name
  | addTypeParam name uppers => exact hs
  | defineTypeParam v p => exact hs
  | setUppers v uppers => exact hs

theorem classDef?_perform {id : ClassId} {name : String} (hid : s.className? id = some name)
    {c : Command} (hc : ¬ c.Redefines id name) : (s.perform c).classDef? id = s.classDef? id := by
  have hclass := hasClass_of_className? hid
  cases c with
  | intern other => exact classDef?_intern hclass other
  | define other d =>
      have hne : id ≠ other := fun h => hc h.symm
      simp [perform, (definedAt_define s other d).classDef? id, hne]
  | add d =>
      have hne : id ≠ (s.intern d.name).1 := by
        rintro rfl
        have hname := className?_of_classId? (classId?_intern (s := s) d.name)
        rw [(keeps_intern d.name).className? _ name hid] at hname
        exact hc (Option.some.inj hname).symm
      simp [perform, add, (definedAt_define _ _ d).classDef? id, hne, classDef?_intern hclass]
  | addTypeParam other uppers => rfl
  | defineTypeParam v p => rfl
  | setUppers v uppers => rfl

theorem typeParam?_perform {v : TypeVarId} (hv : s.HasParam v) {c : Command}
    (hc : ¬ c.Redeclares v) : (s.perform c).typeParam? v = s.typeParam? v := by
  cases c with
  | intern name => rw [perform, typeParam?, typeParams_intern, typeParam?]
  | define id d => rfl
  | add d =>
      rw [perform, add, typeParam?, (definedAt_define _ _ d).typeParams, typeParams_intern,
        typeParam?]
  | addTypeParam name uppers => exact List.getElem?_append_left hv
  | defineTypeParam w p =>
      have hne : v ≠ w := fun h => hc h.symm
      exact ((changedAt_modify s w fun _ => p).typeParam? v).trans (if_neg hne)
  | setUppers w uppers =>
      have hne : v ≠ w := fun h => hc h.symm
      exact ((changedAt_modify s w _).typeParam? v).trans (if_neg hne)

theorem keeps_run (s : Store) (commands : List Command) : s.Keeps (s.run commands) := by
  induction commands generalizing s with
  | nil => exact Keeps.refl s
  | cons c commands ih => exact (keeps_perform s c).trans (ih (s.perform c))

theorem names_nodup_run (hs : (s.classes.map ClassEntry.name).Nodup) (commands : List Command) :
    ((s.run commands).classes.map ClassEntry.name).Nodup := by
  induction commands generalizing s with
  | nil => exact hs
  | cons c commands ih => exact ih (names_nodup_perform hs c)

theorem classDef?_run {id : ClassId} {name : String} (hid : s.className? id = some name)
    {commands : List Command} (hcommands : ∀ c ∈ commands, ¬ c.Redefines id name) :
    (s.run commands).classDef? id = s.classDef? id := by
  induction commands generalizing s with
  | nil => rfl
  | cons c commands ih =>
      obtain ⟨hc, hcommands⟩ := List.forall_mem_cons.mp hcommands
      have hkept := (keeps_perform s c).className? id name hid
      exact (ih hkept hcommands).trans (classDef?_perform hid hc)

theorem typeParam?_run {v : TypeVarId} (hv : s.HasParam v) {commands : List Command}
    (hcommands : ∀ c ∈ commands, ¬ c.Redeclares v) :
    (s.run commands).typeParam? v = s.typeParam? v := by
  induction commands generalizing s with
  | nil => rfl
  | cons c commands ih =>
      obtain ⟨hc, hcommands⟩ := List.forall_mem_cons.mp hcommands
      have hkept := (keeps_perform s c).hasParam v hv
      exact (ih hkept hcommands).trans (typeParam?_perform hv hc)

theorem classId?_eq_some_iff (hs : (s.classes.map ClassEntry.name).Nodup) {name : String}
    {id : ClassId} : s.classId? name = some id ↔ s.className? id = some name := by
  refine ⟨className?_of_classId?, fun h => ?_⟩
  rw [className?, ← List.getElem?_map] at h
  obtain ⟨hlt, hname⟩ := List.getElem?_eq_some_iff.mp h
  have hfirst : (s.classes.map ClassEntry.name).findIdx? (· == name) = some id.index := by
    rw [List.findIdx?_eq_some_iff_getElem]
    refine ⟨hlt, by simpa using hname, fun j hj => ?_⟩
    -- An earlier place with the name would be a second one.
    have hne : (s.classes.map ClassEntry.name)[j] ≠ (s.classes.map ClassEntry.name)[id.index] :=
      fun h => Nat.ne_of_lt hj ((hs.getElem_inj_iff).mp h)
    rw [hname] at hne
    simpa using hne
  rw [classId?_eq_findIdx?, hfirst]
  rfl

theorem hasParam_addTypeParam (name : String) (uppers : List Ty) :
    (s.addTypeParam name uppers).2.HasParam (s.addTypeParam name uppers).1 := by
  simp [addTypeParam, HasParam]

theorem typeParam?_addTypeParam (name : String) (uppers : List Ty) :
    (s.addTypeParam name uppers).2.typeParam? (s.addTypeParam name uppers).1 =
      some ⟨name, .ofUppers uppers⟩ := by
  simp [addTypeParam, typeParam?]

theorem className?_run_intern (name : String) (commands : List Command) :
    ((s.intern name).2.run commands).className? (s.intern name).1 = some name :=
  (keeps_run _ commands).className? _ _ (className?_of_classId? (classId?_intern name))

theorem className?_run_add (d : ClassDef) (commands : List Command) :
    ((s.add d).2.run commands).className? (s.add d).1 = some d.name := by
  have hdefined := (definedAt_define (s.intern d.name).2 (s.intern d.name).1 d).keeps
  exact (hdefined.trans (keeps_run _ commands)).className? _ _ (className?_run_intern d.name [])

theorem typeParam?_run_addTypeParam {name : String} {uppers : List Ty} {commands : List Command}
    (hcommands : ∀ c ∈ commands, ¬ c.Redeclares (s.addTypeParam name uppers).1) :
    ((s.addTypeParam name uppers).2.run commands).typeParam? (s.addTypeParam name uppers).1 =
      some ⟨name, .ofUppers uppers⟩ :=
  (typeParam?_run (hasParam_addTypeParam name uppers) hcommands).trans
    (typeParam?_addTypeParam name uppers)

end Store

end CallCatalog
