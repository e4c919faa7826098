import CallCatalog.Types.StoreTables
import CallCatalog.Proofs.StoreRuns

/-!
The tables of a store in use. Whatever is done to the tables one by one is what is done to the
store, as long as the numbers have room in 32 bits.
-/

namespace CallCatalog

open Store (Command)

theorem ClassId.next_of_lt {n : Nat} (h : n < UInt32.size) : next n = ⟨n⟩ := by
  rw [next, Nat.mod_eq_of_lt h]

theorem TypeVarId.next_of_lt {n : Nat} (h : n < UInt32.size) : next n = ⟨n⟩ := by
  rw [next, Nat.mod_eq_of_lt h]

namespace StoreTables

def perform (t : StoreTables) : Command → StoreTables
  | .intern name => (t.intern name).2
  | .define id d => t.define id d
  | .add d => (t.add d).2
  | .addTypeParam name uppers => (t.addTypeParam name uppers).2
  | .defineTypeParam v p => t.defineTypeParam v p
  | .setUppers v uppers => t.setUppers v uppers

def run (t : StoreTables) (commands : List Command) : StoreTables := commands.foldl perform t

/-- Every class and every type parameter has a number of its own. -/
structure Fits (t : StoreTables) : Prop where
  classes : t.classNames.length ≤ UInt32.size
  typeParams : t.typeParams.length ≤ UInt32.size

/-- The three tables of classes speak of the same classes. -/
structure InStep (t : StoreTables) : Prop where
  length_eq : t.classes.length = t.classNames.length
  nodup : t.classNames.Nodup
  classId?_eq_some_iff : ∀ name id, t.classId? name = some id ↔ t.className? id = some name

/-- Later tables have what earlier ones have given out. -/
structure Keeps (t t' : StoreTables) : Prop where
  className? : ∀ id name, t.className? id = some name → t'.className? id = some name
  classId? : ∀ name id, t.classId? name = some id → t'.classId? name = some id
  hasParam : ∀ v, (t.typeParam? v).isSome → (t'.typeParam? v).isSome
  wellKnown : t'.wellKnown = t.wellKnown

/-- Some tables are the others with the definition of one class replaced, if the class has a
number. -/
structure DefinedAt (t t' : StoreTables) (id : ClassId) (d : ClassDef) : Prop where
  eq : t' = { t with classes := t'.classes }
  length : t'.classes.length = t.classes.length
  classDef? : ∀ c, t'.classDef? c =
    if c = id ∧ (t.className? id).isSome then some d else t.classDef? c
  unallocated : t.className? id = none → t' = t

/-- Some tables are the others with one declared type parameter changed, if it has a number. -/
structure ChangedAt (t t' : StoreTables) (v : TypeVarId) (change : TypeParam → TypeParam) :
    Prop where
  eq : t' = { t with typeParams := t'.typeParams }
  length : t'.typeParams.length = t.typeParams.length
  typeParam? : ∀ w, t'.typeParam? w = if w = v then (t.typeParam? v).map change else t.typeParam? w
  unallocated : t.typeParam? v = none → t' = t

theorem length_le_intern (t : StoreTables) (name : String) :
    t.classNames.length ≤ (t.intern name).2.classNames.length := by
  rw [intern]
  split <;> simp

theorem intern_eq_of_classId? {t : StoreTables} {name : String} {id : ClassId}
    (h : t.classId? name = some id) : t.intern name = (id, t) := by
  rw [classId?] at h
  simp only [intern, h]

theorem typeParams_intern (t : StoreTables) (name : String) :
    (t.intern name).2.typeParams = t.typeParams := by
  rw [intern]
  split <;> rfl

theorem Fits.of_intern {t : StoreTables} {name : String} (h : (t.intern name).2.Fits) : t.Fits :=
  ⟨Nat.le_trans (t.length_le_intern name) h.classes, t.typeParams_intern name ▸ h.typeParams⟩

theorem Fits.of_perform {t : StoreTables} {c : Command} (h : (t.perform c).Fits) : t.Fits := by
  cases c with
  | intern name => exact of_intern h
  | define id d => exact ⟨h.classes, h.typeParams⟩
  | add d =>
      have hintern : (t.intern d.name).2.Fits := ⟨h.classes, h.typeParams⟩
      exact hintern.of_intern
  | addTypeParam name uppers =>
      have hparams := h.typeParams
      simp only [perform, addTypeParam, List.length_append, List.length_singleton] at hparams
      exact ⟨h.classes, by omega⟩
  | defineTypeParam v p =>
      exact ⟨h.classes, by simpa [perform, defineTypeParam] using h.typeParams⟩
  | setUppers v uppers => exact ⟨h.classes, by simpa [perform, setUppers] using h.typeParams⟩

theorem Fits.of_run {t : StoreTables} {commands : List Command} (h : (t.run commands).Fits) :
    t.Fits := by
  induction commands generalizing t with
  | nil => exact h
  | cons c commands ih => exact (ih h).of_perform

end StoreTables

namespace Store

variable {s s' : Store}

theorem store_tables (s : Store) : s.tables.store = s := by
  simp [StoreTables.store, tables, List.zipWith_map]

theorem className?_tables (id : ClassId) : s.tables.className? id = s.className? id := by
  rw [StoreTables.className?, tables, List.getElem?_map, className?]

theorem classDef?_tables (id : ClassId) : s.tables.classDef? id = s.classDef? id := by
  rw [StoreTables.classDef?, tables, List.getElem?_map, classDef?]
  cases s.classes[id.index]? <;> rfl

theorem isSome_className? (id : ClassId) : (s.className? id).isSome ↔ s.HasClass id := by
  simp [className?, HasClass]

theorem isSome_typeParam? (v : TypeVarId) : (s.typeParam? v).isSome ↔ s.HasParam v := by
  simp [typeParam?, HasParam]

theorem intern_tables {name : String} (hfits : (s.tables.intern name).2.Fits) :
    s.tables.intern name = ((s.intern name).1, (s.intern name).2.tables) := by
  have hindex : s.tables.classByName name = s.classId? name := rfl
  cases hid : s.classId? name with
  | some id => simp only [StoreTables.intern, intern, hindex, hid]
  | none =>
      have hlt : s.classes.length < UInt32.size := by
        have hle := hfits.classes
        simp only [StoreTables.intern, hid, tables, List.length_append, List.length_map,
          List.length_singleton] at hle
        omega
      have hinsert : NameIndex.insert s.classId? name ⟨s.classes.length⟩ =
          ({ s with classes := s.classes ++ [{ name }] } : Store).classId? := by
        funext other
        rw [classId?_append, NameIndex.insert]
        by_cases hother : other = name
        · subst hother
          simp [hid]
        · simp [hother, Ne.symm hother]
      simp only [StoreTables.intern, hid, intern, tables, List.length_map, List.map_append,
        List.map_cons, List.map_nil, ClassId.next_of_lt hlt, hinsert]

theorem define_tables (id : ClassId) (d : ClassDef) :
    s.tables.define id d = (s.define id d).tables := by
  have hdefinitions : (s.define id d).classes.map ClassEntry.definition? =
      (s.classes.map ClassEntry.definition?).set id.index (some d) := by
    apply List.ext_getElem?
    intro i
    simp only [define, List.getElem?_map, List.getElem?_modify, List.getElem?_set, List.length_map]
    by_cases hi : id.index = i
    · subst hi
      by_cases hlt : id.index < s.classes.length <;> simp [hlt]
    · simp [hi]
  have hindex : (s.define id d).classId? = s.classId? := funext (classId?_define id d)
  simp only [StoreTables.define, tables, hdefinitions, hindex, map_name_define]
  rfl

theorem add_tables {d : ClassDef} (hfits : (s.tables.add d).2.Fits) :
    s.tables.add d = ((s.add d).1, (s.add d).2.tables) := by
  have hintern : (s.tables.intern d.name).2.Fits := ⟨hfits.classes, hfits.typeParams⟩
  simp only [StoreTables.add, intern_tables hintern, define_tables, add]

theorem addTypeParam_tables {name : String} {uppers : List Ty}
    (hfits : (s.tables.addTypeParam name uppers).2.Fits) :
    s.tables.addTypeParam name uppers =
      ((s.addTypeParam name uppers).1, (s.addTypeParam name uppers).2.tables) := by
  have hlt : s.typeParams.length < UInt32.size := by
    have hle := hfits.typeParams
    simp only [StoreTables.addTypeParam, tables, List.length_append, List.length_singleton] at hle
    omega
  simp only [StoreTables.addTypeParam, addTypeParam, tables, TypeVarId.next_of_lt hlt]
  rfl

theorem defineTypeParam_tables (v : TypeVarId) (p : TypeParam) :
    s.tables.defineTypeParam v p = (s.defineTypeParam v p).tables := by
  simp only [StoreTables.defineTypeParam, List.set_eq_modify]
  rfl

theorem perform_tables {c : Command} (hfits : (s.tables.perform c).Fits) :
    s.tables.perform c = (s.perform c).tables := by
  cases c with
  | intern name => exact congrArg Prod.snd (intern_tables hfits)
  | define id d => exact define_tables id d
  | add d => exact congrArg Prod.snd (add_tables hfits)
  | addTypeParam name uppers => exact congrArg Prod.snd (addTypeParam_tables hfits)
  | defineTypeParam v p => exact defineTypeParam_tables v p
  | setUppers v uppers => rfl

theorem run_tables {commands : List Command} (hfits : (s.tables.run commands).Fits) :
    s.tables.run commands = (s.run commands).tables := by
  induction commands generalizing s with
  | nil => rfl
  | cons c commands ih =>
      have hfirst : (s.tables.perform c).Fits :=
        StoreTables.Fits.of_run (t := s.tables.perform c) hfits
      have hstep : s.tables.run (c :: commands) = (s.perform c).tables.run commands :=
        congrArg (StoreTables.run · commands) (perform_tables hfirst)
      rw [hstep] at hfits ⊢
      exact ih hfits

theorem inStep_tables (hs : (s.classes.map ClassEntry.name).Nodup) : s.tables.InStep where
  length_eq := by simp [tables]
  nodup := hs
  classId?_eq_some_iff name id := by
    rw [className?_tables]
    exact classId?_eq_some_iff hs

theorem Keeps.tables (h : s.Keeps s') : s.tables.Keeps s'.tables where
  className? id name hname := by
    rw [className?_tables] at hname ⊢
    exact h.className? id name hname
  classId? := h.classId?
  hasParam v hv := isSome_typeParam? v |>.mpr (h.hasParam v (isSome_typeParam? v |>.mp hv))
  wellKnown := rfl

theorem DefinedAt.tables {id : ClassId} {d : ClassDef} (h : s.DefinedAt s' id d) :
    s.tables.DefinedAt s'.tables id d where
  eq := by
    have hindex : s'.classId? = s.classId? := by
      funext name
      rw [classId?_eq_findIdx?, h.names, ← classId?_eq_findIdx?]
    simp only [Store.tables, h.names, h.typeParams, hindex]
  length := by simpa [Store.tables] using congrArg List.length h.names
  classDef? c := by
    simp only [classDef?_tables, className?_tables, isSome_className?]
    exact h.classDef? c
  unallocated hnone := by
    have hid : ¬ s.HasClass id := by
      rw [← isSome_className?, ← className?_tables, hnone]
      simp
    rw [h.unallocated hid]

theorem ChangedAt.tables {v : TypeVarId} {change : TypeParam → TypeParam}
    (h : s.ChangedAt s' v change) : s.tables.ChangedAt s'.tables v change where
  eq := by
    have hindex : s'.classId? = s.classId? := by
      funext name
      rw [Store.classId?, h.classes, Store.classId?]
    simp only [Store.tables, h.classes, hindex]
  length := h.length
  typeParam? := h.typeParam?
  unallocated hnone := by
    have hv : ¬ s.HasParam v := Nat.not_lt.mpr (List.getElem?_eq_none_iff.mp hnone)
    rw [h.unallocated hv]

theorem className?_tables_wellKnown (h : empty.Keeps s) :
    ∀ p ∈ [ClassId.object, .string, .number, .integer, .cloneable, .serializable].zip
      wellKnownNames, s.tables.className? p.1 = some p.2 := by
  have hempty : ∀ p ∈ [ClassId.object, .string, .number, .integer, .cloneable,
      .serializable].zip wellKnownNames, empty.className? p.1 = some p.2 := by
    decide
  intro p hp
  rw [className?_tables]
  exact h.className? p.1 p.2 (hempty p hp)

theorem keeps_run_tables {commands : List Command} (hfits : (s.tables.run commands).Fits) :
    s.tables.Keeps (s.tables.run commands) := by
  rw [run_tables hfits]
  exact (keeps_run s commands).tables

theorem className?_run_intern_tables {name : String} {commands : List Command}
    (hfits : ((s.tables.intern name).2.run commands).Fits) :
    ((s.tables.intern name).2.run commands).className? (s.tables.intern name).1 = some name := by
  have hintern := intern_tables hfits.of_run
  rw [hintern] at hfits ⊢
  rw [run_tables hfits, className?_tables]
  exact className?_run_intern name commands

theorem className?_run_add_tables {d : ClassDef} {commands : List Command}
    (hfits : ((s.tables.add d).2.run commands).Fits) :
    ((s.tables.add d).2.run commands).className? (s.tables.add d).1 = some d.name := by
  have hadd := add_tables hfits.of_run
  rw [hadd] at hfits ⊢
  rw [run_tables hfits, className?_tables]
  exact className?_run_add d commands

theorem classDef?_run_tables {id : ClassId} {name : String} {commands : List Command}
    (hfits : (s.tables.run commands).Fits) (hid : s.tables.className? id = some name)
    (hcommands : ∀ c ∈ commands, ¬ c.Redefines id name) :
    (s.tables.run commands).classDef? id = s.tables.classDef? id := by
  rw [className?_tables] at hid
  rw [run_tables hfits, classDef?_tables, classDef?_tables]
  exact classDef?_run hid hcommands

theorem isSome_typeParam?_run_tables {name : String} {uppers : List Ty} {commands : List Command}
    (hfits : ((s.tables.addTypeParam name uppers).2.run commands).Fits) :
    s.tables.typeParam? (s.tables.addTypeParam name uppers).1 = none ∧
      (((s.tables.addTypeParam name uppers).2.run commands).typeParam?
        (s.tables.addTypeParam name uppers).1).isSome := by
  have hadd := addTypeParam_tables hfits.of_run
  rw [hadd] at hfits ⊢
  rw [run_tables hfits]
  have hparam := (keeps_run _ commands).hasParam _ (hasParam_addTypeParam (s := s) name uppers)
  exact ⟨List.getElem?_eq_none (Nat.le_refl _), (isSome_typeParam? _).mpr hparam⟩

theorem typeParam?_run_tables {name : String} {uppers : List Ty} {commands : List Command}
    (hfits : ((s.tables.addTypeParam name uppers).2.run commands).Fits)
    (hcommands : ∀ c ∈ commands, ¬ c.Redeclares (s.tables.addTypeParam name uppers).1) :
    ((s.tables.addTypeParam name uppers).2.run commands).typeParam?
      (s.tables.addTypeParam name uppers).1 = some ⟨name, .ofUppers uppers⟩ := by
  have hadd := addTypeParam_tables hfits.of_run
  rw [hadd] at hfits hcommands ⊢
  rw [run_tables hfits]
  exact typeParam?_run_addTypeParam hcommands

end Store

namespace StoreTables

theorem empty_eq_tables : empty = Store.empty.tables := by
  have hindex : empty.classByName = Store.empty.classId? := by
    funext name
    by_cases hname : name ∈ Store.wellKnownNames
    · revert name
      decide
    · have hnone : Store.empty.classId? name = none := by
        rw [Store.classId?_eq_findIdx?, Option.map_eq_none_iff, List.findIdx?_eq_none_iff]
        intro other hother
        simpa using fun h : other = name => hname (h ▸ hother)
      simp only [Store.wellKnownNames, List.mem_cons, List.not_mem_nil, not_or] at hname
      simp [hnone, empty, intern, blank, NameIndex.empty, NameIndex.insert, hname]
  have hrest : empty = { Store.empty.tables with classByName := empty.classByName } := rfl
  rw [hrest, hindex]
  rfl

/-- After every sequence of commands the tables are in step, and every further sequence of commands
keeps what has been given out by then. -/
theorem run_empty_spec {commands : List Command} (hfits : (empty.run commands).Fits) :
    let t := empty.run commands
    -- The tables are those of the store that the same commands lead to.
    t = (Store.empty.run commands).tables ∧ t.store = Store.empty.run commands ∧
    -- Names and definitions are equally many, and names and numbers determine each other.
    t.InStep ∧
    -- The well-known classes have their names.
    (∀ p ∈ [t.wellKnown.object, t.wellKnown.string, t.wellKnown.number, t.wellKnown.integer,
      t.wellKnown.cloneable, t.wellKnown.serializable].zip Store.wellKnownNames,
        t.className? p.1 = some p.2) ∧
    -- What has been given out is kept, and changed by the commands that are addressed to it only.
    (∀ more, (t.run more).Fits → t.Keeps (t.run more)) ∧
    (∀ name more, ((t.intern name).2.run more).Fits →
      ((t.intern name).2.run more).className? (t.intern name).1 = some name) ∧
    (∀ d more, ((t.add d).2.run more).Fits →
      ((t.add d).2.run more).className? (t.add d).1 = some d.name) ∧
    (∀ id name more, (t.run more).Fits → t.className? id = some name →
      (∀ c ∈ more, ¬ Command.Redefines id name c) → (t.run more).classDef? id = t.classDef? id) ∧
    (∀ name uppers more, ((t.addTypeParam name uppers).2.run more).Fits →
      t.typeParam? (t.addTypeParam name uppers).1 = none ∧
      (((t.addTypeParam name uppers).2.run more).typeParam?
        (t.addTypeParam name uppers).1).isSome) ∧
    (∀ name uppers more, ((t.addTypeParam name uppers).2.run more).Fits →
      (∀ c ∈ more, ¬ Command.Redeclares (t.addTypeParam name uppers).1 c) →
        ((t.addTypeParam name uppers).2.run more).typeParam? (t.addTypeParam name uppers).1 =
          some ⟨name, .ofUppers uppers⟩) ∧
    -- A name that has a number is interned without a change.
    (∀ name id, t.classId? name = some id → t.intern name = (id, t)) ∧
    -- A definition reaches its own slot, if there is one, and nothing else.
    (∀ id d, t.DefinedAt (t.define id d) id d) ∧
    (∀ v p, t.ChangedAt (t.defineTypeParam v p) v fun _ => p) ∧
    (∀ v uppers, t.ChangedAt (t.setUppers v uppers) v
      fun p => { p with bound := .ofUppers uppers }) := by
  rw [empty_eq_tables] at hfits ⊢
  rw [Store.run_tables hfits]
  have hkept := Store.keeps_run Store.empty commands
  have hnames := Store.names_nodup_run (s := Store.empty) (by decide) commands
  generalize Store.empty.run commands = s at hkept hnames ⊢
  intro t
  refine ⟨rfl, s.store_tables, Store.inStep_tables hnames, Store.className?_tables_wellKnown hkept,
    fun _ => Store.keeps_run_tables, fun _ _ => Store.className?_run_intern_tables,
    fun _ _ => Store.className?_run_add_tables, fun _ _ _ => Store.classDef?_run_tables,
    fun _ _ _ => Store.isSome_typeParam?_run_tables, fun _ _ _ => Store.typeParam?_run_tables,
    fun _ _ => intern_eq_of_classId?, fun id d => ?_, fun v p => ?_,
    fun v uppers => (Store.changedAt_modify s v _).tables⟩
  · rw [Store.define_tables]
    exact (Store.definedAt_define s id d).tables
  · rw [Store.defineTypeParam_tables]
    exact (Store.changedAt_modify s v _).tables

/-- `A` has its number before it has a definition, a definition for the class after it changes
nothing about it, and one for a number that is not given out changes nothing at all. -/
theorem run_empty_spec_late_definition :
    let t := empty.run [.intern "A", .addTypeParam "T" []]
    let a : ClassDef := { name := "A", kind := .plain, isAbstract := false }
    let more := [.intern "B", .define ⟨7⟩ a, .setUppers ⟨0⟩ [.arr .any]]
    t.Fits ∧ (t.run more).Fits ∧ t.InStep ∧ t.className? ⟨6⟩ = some "A" ∧
      (t.run more).className? ⟨6⟩ = some "A" ∧ ((t.run more).typeParam? ⟨0⟩).isSome ∧
      (t.run more).classDef? ⟨6⟩ = t.classDef? ⟨6⟩ ∧ t.define ⟨9⟩ a = t := by
  intro t a more
  have hfits : t.Fits := ⟨by decide, by decide⟩
  have hmore : (t.run more).Fits := ⟨by decide, by decide⟩
  obtain ⟨-, -, hstep, -, hkeeps, -, -, hdefinition, -, -, -, hdefine, -, -⟩ := run_empty_spec hfits
  have hname : t.className? ⟨6⟩ = some "A" := by decide
  have hparam : (t.typeParam? ⟨0⟩).isSome := by decide
  have hother : ∀ c ∈ more, ¬ Command.Redefines ⟨6⟩ "A" c := by simp [more, Command.Redefines]
  have hkept := hkeeps more hmore
  exact ⟨hfits, hmore, hstep, hname, hkept.className? ⟨6⟩ "A" hname, hkept.hasParam ⟨0⟩ hparam,
    hdefinition ⟨6⟩ "A" more hmore hname hother, (hdefine ⟨9⟩ a).unallocated (by decide)⟩

end StoreTables

end CallCatalog
