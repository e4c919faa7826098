import CallCatalog.Proofs.Occurrences
import Mathlib.Data.List.Basic

namespace CallCatalog

namespace Store

variable {s : Store}

theorem className?_of_classId? {name : String} {id : ClassId} (h : s.classId? name = some id) :
    s.className? id = some name := by
  obtain ⟨i, hi, rfl⟩ := Option.map_eq_some_iff.mp h
  obtain ⟨hlt, hname, -⟩ := List.findIdx?_eq_some_iff_getElem.mp hi
  simp only [beq_iff_eq] at hname
  simp [className?, hlt, hname]

theorem hasClass_of_className? {name : String} {id : ClassId} (h : s.className? id = some name) :
    s.HasClass id := by
  obtain ⟨entry, hentry, -⟩ := Option.map_eq_some_iff.mp h
  exact (List.getElem?_eq_some_iff.mp hentry).choose

theorem hasClass_of_classDef? {d : ClassDef} {id : ClassId} (h : s.classDef? id = some d) :
    s.HasClass id := by
  obtain ⟨entry, hentry, -⟩ := Option.bind_eq_some_iff.mp h
  exact (List.getElem?_eq_some_iff.mp hentry).choose

theorem hasClass_of_classId? {name : String} {id : ClassId} (h : s.classId? name = some id) :
    s.HasClass id :=
  hasClass_of_className? (className?_of_classId? h)

theorem classId?_injective {name name' : String} {id : ClassId} (h : s.classId? name = some id)
    (h' : s.classId? name' = some id) : name = name' := by
  have hname := className?_of_classId? h
  rw [className?_of_classId? h'] at hname
  exact (Option.some.inj hname).symm

theorem length_classes_define (id : ClassId) (d : ClassDef) :
    (s.define id d).classes.length = s.classes.length := by
  simp [define]

theorem map_name_define (id : ClassId) (d : ClassDef) :
    (s.define id d).classes.map ClassEntry.name = s.classes.map ClassEntry.name := by
  apply List.ext_getElem?
  intro i
  simp only [define, List.getElem?_map, List.getElem?_modify]
  split
  · cases s.classes[i]? <;> rfl
  · simp

theorem classId?_eq_findIdx? (name : String) :
    s.classId? name =
      ((s.classes.map ClassEntry.name).findIdx? (· == name)).map ClassId.mk := by
  rw [classId?, List.findIdx?_map]
  rfl

theorem classId?_define (id : ClassId) (d : ClassDef) (name : String) :
    (s.define id d).classId? name = s.classId? name := by
  rw [classId?_eq_findIdx?, classId?_eq_findIdx?, map_name_define]

theorem className?_define (id : ClassId) (d : ClassDef) (c : ClassId) :
    (s.define id d).className? c = s.className? c := by
  simp only [className?, define, List.getElem?_modify]
  split
  · cases s.classes[c.index]? <;> rfl
  · simp

theorem classDef?_define {id : ClassId} (hid : s.HasClass id) (d : ClassDef) (c : ClassId) :
    (s.define id d).classDef? c = if c = id then some d else s.classDef? c := by
  simp only [classDef?, define, List.getElem?_modify]
  by_cases hc : c = id
  · subst hc
    have hentry : s.classes[c.index]? = some s.classes[c.index] := List.getElem?_eq_getElem hid
    simp [hentry]
  · have hindex : id.index ≠ c.index := fun h => hc (by cases c; cases id; simp_all)
    simp [hc, hindex]

def internAll (s : Store) (names : List String) : Store :=
  names.foldl (fun s name => (s.intern name).2) s

def newNames (s : Store) (names : List String) : List String :=
  names.filter fun name => (s.classId? name).isNone

def numberOf (s : Store) (names : List String) (name : String) : ClassId :=
  ((s.internAll names).intern name).1

theorem intern_eq_of_classId? {name : String} {id : ClassId} (h : s.classId? name = some id) :
    s.intern name = (id, s) := by
  simp [intern, h]

theorem classId?_append {name : String} (entries : List ClassEntry) :
    ({ s with classes := s.classes ++ entries } : Store).classId? name =
      (s.classId? name).or ((entries.findIdx? fun entry => entry.name == name).map
        fun i => ⟨s.classes.length + i⟩) := by
  simp only [classId?, List.findIdx?_append]
  cases s.classes.findIdx? fun entry => entry.name == name with
  | some i => simp
  | none => simp [Function.comp_def, Nat.add_comm]

theorem internAll_eq {names : List String} (hnames : names.Nodup) :
    s.internAll names =
      { s with classes := s.classes ++ (s.newNames names).map fun name => { name } } := by
  induction names generalizing s with
  | nil => simp [internAll, newNames]
  | cons name names ih =>
      -- A new name at the end of the store leaves the other names as new as they were.
      obtain ⟨hname, hnames⟩ := List.nodup_cons.mp hnames
      have hcons : s.internAll (name :: names) = (s.intern name).2.internAll names := rfl
      rw [hcons, ih hnames]
      cases hid : s.classId? name with
      | some id => simp [intern, hid, newNames]
      | none =>
          have hsame : ∀ other ∈ names,
              ({ s with classes := s.classes ++ [{ name }] } : Store).classId? other =
                s.classId? other := by
            intro other hother
            have hne : name ≠ other := fun h => hname (h ▸ hother)
            rw [classId?_append]
            simp [hne]
          have hnew : newNames { s with classes := s.classes ++ [{ name }] } names =
              s.newNames names :=
            List.filter_congr fun other hother => by rw [hsame other hother]
          simp only [intern, hid, hnew]
          simp [newNames, hid]

theorem classId?_internAll {names : List String} (hnames : names.Nodup) (name : String) :
    (s.internAll names).classId? name =
      (s.classId? name).or (((s.newNames names).findIdx? (· == name)).map
        fun i => ⟨s.classes.length + i⟩) := by
  rw [internAll_eq hnames, classId?_append, List.findIdx?_map]
  rfl

variable {names : List String}

theorem numberOf_of_classId? (hnames : names.Nodup) {name : String} {id : ClassId}
    (h : s.classId? name = some id) : s.numberOf names name = id := by
  have hid : (s.internAll names).classId? name = some id := by
    rw [classId?_internAll hnames, h]
    rfl
  rw [numberOf, intern_eq_of_classId? hid]

theorem findIdx?_of_mem {name : String} (h : name ∈ names) :
    names.findIdx? (· == name) = some (names.idxOf name) :=
  List.findIdx?_eq_some_of_exists ⟨name, h, beq_self_eq_true name⟩

theorem numberOf_of_mem_newNames (hnames : names.Nodup) {name : String}
    (h : name ∈ s.newNames names) :
    s.numberOf names name = ⟨s.classes.length + (s.newNames names).idxOf name⟩ := by
  have hnone : s.classId? name = none := by
    simpa using (List.mem_filter.mp h).2
  have hid := classId?_internAll (s := s) hnames name
  rw [hnone, findIdx?_of_mem h] at hid
  rw [numberOf, intern_eq_of_classId? hid]

theorem classId?_intern (name : String) :
    (s.intern name).2.classId? name = some (s.intern name).1 := by
  cases hid : s.classId? name with
  | some id => simp [intern_eq_of_classId? hid, hid]
  | none =>
      simp only [intern, hid, classId?_append]
      simp

theorem numberOf_cons (hnames : names.Nodup) (name : String) :
    s.numberOf (name :: names) name = (s.intern name).1 :=
  numberOf_of_classId? (s := (s.intern name).2) hnames (classId?_intern name)

theorem classId?_internAll_of_mem (hnames : names.Nodup) {name : String} (h : name ∈ names) :
    (s.internAll names).classId? name = some (s.numberOf names name) := by
  cases hid : s.classId? name with
  | some id =>
      rw [numberOf_of_classId? hnames hid, classId?_internAll hnames, hid]
      rfl
  | none =>
      have hnew : name ∈ s.newNames names := List.mem_filter.mpr ⟨h, by simp [hid]⟩
      rw [numberOf_of_mem_newNames hnames hnew, classId?_internAll hnames, hid,
        findIdx?_of_mem hnew]
      rfl

theorem classId?_internAll_of_not_mem (hnames : names.Nodup) {name : String} (h : name ∉ names) :
    (s.internAll names).classId? name = s.classId? name := by
  have hnew : name ∉ s.newNames names := fun hmem => h (List.mem_filter.mp hmem).1
  have hnone : (s.newNames names).findIdx? (· == name) = none := by
    rw [List.findIdx?_eq_none_iff]
    intro other hother
    simp only [beq_eq_false_iff_ne]
    rintro rfl
    exact hnew hother
  rw [classId?_internAll hnames, hnone]
  simp

theorem className?_internAll (hnames : names.Nodup) (id : ClassId) :
    (s.internAll names).className? id =
      if id.index < s.classes.length then s.className? id
      else (s.newNames names)[id.index - s.classes.length]? := by
  simp only [internAll_eq hnames, className?, List.getElem?_append]
  split
  · rfl
  · simp only [List.getElem?_map, Option.map_map]
    cases (s.newNames names)[id.index - s.classes.length]? <;> rfl

theorem classDef?_internAll (hnames : names.Nodup) (id : ClassId) :
    (s.internAll names).classDef? id = s.classDef? id := by
  simp only [internAll_eq hnames, classDef?, List.getElem?_append]
  split
  · rfl
  · rename_i hlt
    have hnone : s.classes[id.index]? = none := List.getElem?_eq_none (Nat.le_of_not_lt hlt)
    rw [hnone, List.getElem?_map]
    cases (s.newNames names)[id.index - s.classes.length]? <;> rfl

theorem typeParams_internAll (hnames : names.Nodup) :
    (s.internAll names).typeParams = s.typeParams := by
  rw [internAll_eq hnames]

end Store

end CallCatalog
