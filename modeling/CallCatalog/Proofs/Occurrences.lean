import CallCatalog.Catalog.Operation
import CallCatalog.Proofs.BoundVariables
import CallCatalog.Types.Platform

namespace CallCatalog

namespace Ty

mutual

/-- All classes in the type are in `C`, and all type variables in it are in `V`. -/
def Within (C : ClassId → Prop) (V : TypeVarId → Prop) : Ty → Prop
  | cls id args => C id ∧ AllWithin C V args
  | arr elem => elem.Within C V
  | var v => V v
  | ext upper => upper.Within C V
  | sup lower => lower.Within C V
  | void => True
  | primitive _ => True
  | any => True

def AllWithin (C : ClassId → Prop) (V : TypeVarId → Prop) : List Ty → Prop
  | [] => True
  | t :: ts => t.Within C V ∧ AllWithin C V ts

end

variable {C C' : ClassId → Prop} {V V' : TypeVarId → Prop}

theorem allWithin_iff {ts : List Ty} : AllWithin C V ts ↔ ∀ t ∈ ts, t.Within C V := by
  induction ts with
  | nil => simp [AllWithin]
  | cons t ts ih => simp [AllWithin, ih]

mutual

theorem Within.mono (hC : ∀ id, C id → C' id) (hV : ∀ v, V v → V' v) :
    ∀ t : Ty, t.Within C V → t.Within C' V'
  | cls id args, h => ⟨hC id h.1, AllWithin.mono hC hV args h.2⟩
  | arr elem, h => Within.mono hC hV elem h
  | var v, h => hV v h
  | ext upper, h => Within.mono hC hV upper h
  | sup lower, h => Within.mono hC hV lower h
  | void, _ => trivial
  | primitive _, _ => trivial
  | any, _ => trivial

theorem AllWithin.mono (hC : ∀ id, C id → C' id) (hV : ∀ v, V v → V' v) :
    ∀ ts : List Ty, AllWithin C V ts → AllWithin C' V' ts
  | [], _ => trivial
  | t :: ts, h => ⟨Within.mono hC hV t h.1, AllWithin.mono hC hV ts h.2⟩

end

mutual

theorem within_of_forall (hC : ∀ id, C id) (hV : ∀ v, V v) : ∀ t : Ty, t.Within C V
  | cls id args => ⟨hC id, allWithin_of_forall hC hV args⟩
  | arr elem => within_of_forall hC hV elem
  | var v => hV v
  | ext upper => within_of_forall hC hV upper
  | sup lower => within_of_forall hC hV lower
  | void => trivial
  | primitive _ => trivial
  | any => trivial

theorem allWithin_of_forall (hC : ∀ id, C id) (hV : ∀ v, V v) :
    ∀ ts : List Ty, AllWithin C V ts
  | [] => trivial
  | t :: ts => ⟨within_of_forall hC hV t, allWithin_of_forall hC hV ts⟩

end

mutual

theorem mentionsVars_eq_false_iff :
    ∀ t : Ty, t.mentionsVars = false ↔ t.Within (fun _ => True) (fun _ => False)
  | cls _ args => by simpa [mentionsVars, Within] using anyMentionsVars_eq_false_iff args
  | arr elem => by simpa [mentionsVars, Within] using mentionsVars_eq_false_iff elem
  | var v => by simp [mentionsVars, Within]
  | ext upper => by simpa [mentionsVars, Within] using mentionsVars_eq_false_iff upper
  | sup lower => by simpa [mentionsVars, Within] using mentionsVars_eq_false_iff lower
  | void => by simp [mentionsVars, Within]
  | primitive _ => by simp [mentionsVars, Within]
  | any => by simp [mentionsVars, Within]

theorem anyMentionsVars_eq_false_iff :
    ∀ ts : List Ty, anyMentionsVars ts = false ↔ AllWithin (fun _ => True) (fun _ => False) ts
  | [] => by simp [anyMentionsVars, AllWithin]
  | t :: ts => by
      simp [anyMentionsVars, AllWithin, mentionsVars_eq_false_iff t,
        anyMentionsVars_eq_false_iff ts]

end

mutual

theorem within_iff_occurrences :
    ∀ t : Ty, t.Within (fun _ => True) V ↔ ∀ v ∈ t.occurrences, V v
  | cls _ args => by simpa [Within, occurrences] using allWithin_iff_occurrences args
  | arr elem => by simpa [Within, occurrences] using within_iff_occurrences elem
  | var v => by simp [Within, occurrences]
  | ext upper => by simpa [Within, occurrences] using within_iff_occurrences upper
  | sup lower => by simpa [Within, occurrences] using within_iff_occurrences lower
  | void => by simp [Within, occurrences]
  | primitive _ => by simp [Within, occurrences]
  | any => by simp [Within, occurrences]

theorem allWithin_iff_occurrences :
    ∀ ts : List Ty, AllWithin (fun _ => True) V ts ↔ ∀ v ∈ occurrencesAll ts, V v
  | [] => by simp [AllWithin, occurrencesAll]
  | t :: ts => by
      simp [AllWithin, occurrencesAll, or_imp, forall_and, within_iff_occurrences t,
        allWithin_iff_occurrences ts]

end

theorem within_iff_vars {t : Ty} : t.Within (fun _ => True) V ↔ ∀ v ∈ t.vars, V v := by
  simp only [within_iff_occurrences, mem_vars_iff]

theorem mem_vars_of_within {t : Ty} (h : t.Within C V) : ∀ v ∈ t.vars, V v :=
  within_iff_vars.mp (Within.mono (fun _ _ => trivial) (fun _ => id) t h)

theorem within_vars (t : Ty) : t.Within (fun _ => True) (· ∈ t.vars) :=
  within_iff_vars.mpr fun _ => id

theorem isConcrete_iff {t : Ty} :
    t.isConcrete ↔ t.isWildcard = false ∧ t.mentionsVars = false := by
  simp [isConcrete]

theorem isWildcard_subst {σ : Assignment} (hσ : ∀ v t, σ v = some t → t.isWildcard = false) {t : Ty}
    (h : t.isWildcard = false) : (t.subst σ).isWildcard = false := by
  cases t with
  | var v =>
      cases hv : σ v with
      | none => simp [subst, hv, isWildcard]
      | some u => simpa [subst, hv] using hσ v u hv
  | any => cases h
  | ext _ => cases h
  | sup _ => cases h
  | _ => rfl

mutual

/-- Whether a type is within classes and type variables can be decided if these can. -/
instance decidableWithin [DecidablePred C] [DecidablePred V] :
    (t : Ty) → Decidable (t.Within C V)
  | cls id args =>
      have := decidableAllWithin args
      inferInstanceAs (Decidable (C id ∧ AllWithin C V args))
  | arr elem => decidableWithin elem
  | var v => inferInstanceAs (Decidable (V v))
  | ext upper => decidableWithin upper
  | sup lower => decidableWithin lower
  | void => .isTrue trivial
  | primitive _ => .isTrue trivial
  | any => .isTrue trivial

instance decidableAllWithin [DecidablePred C] [DecidablePred V] :
    (ts : List Ty) → Decidable (AllWithin C V ts)
  | [] => .isTrue trivial
  | t :: ts =>
      have := decidableWithin t
      have := decidableAllWithin ts
      inferInstanceAs (Decidable (t.Within C V ∧ AllWithin C V ts))

end

end Ty

theorem ClassType.isConcrete_toTy (t : ClassType) : t.toTy.isConcrete = t.isConcrete := by
  rw [Bool.eq_iff_iff]
  simp [toTy, Ty.isConcrete, Ty.isWildcard, Ty.mentionsVars, Ty.anyMentionsVars_eq_any,
    isConcrete]

namespace Operation

theorem isConcrete_constructor (t : ClassType) (params : List Ty) :
    (constructor t params).isConcrete = (t.isConcrete && params.all Ty.isConcrete) := by
  simp only [isConcrete, constructor, t.isConcrete_toTy]
  cases t.isConcrete <;> simp

theorem isConcrete_method (t : ClassType) (name : String) (isStatic : Bool) (params : List Ty)
    (output : Ty) : (method t name isStatic params output).isConcrete =
      (t.isConcrete && params.all Ty.isConcrete && output.isConcrete) := by
  cases isStatic <;> cases ht : t.isConcrete <;>
    simp [isConcrete, method, t.isConcrete_toTy, ht]

end Operation

namespace Bound

mutual

/-- All classes in the bound are in `C`, and all type variables in it are in `V`. -/
def Within (C : ClassId → Prop) (V : TypeVarId → Prop) : Bound → Prop
  | unconstrained => True
  | concrete upper => upper.Within C V
  | dependent upper on => upper.Within C V ∧ ∀ v ∈ on, V v
  | all parts => AllWithin C V parts

def AllWithin (C : ClassId → Prop) (V : TypeVarId → Prop) : List Bound → Prop
  | [] => True
  | b :: bs => b.Within C V ∧ AllWithin C V bs

end

variable {C : ClassId → Prop} {V : TypeVarId → Prop}

mutual

/-- Whether a bound is within classes and type variables can be decided if these can. -/
instance decidableWithin [DecidablePred C] [DecidablePred V] :
    (b : Bound) → Decidable (b.Within C V)
  | unconstrained => .isTrue trivial
  | concrete upper => inferInstanceAs (Decidable (upper.Within C V))
  | dependent upper on => inferInstanceAs (Decidable (upper.Within C V ∧ ∀ v ∈ on, V v))
  | all parts => decidableAllWithin parts

instance decidableAllWithin [DecidablePred C] [DecidablePred V] :
    (bs : List Bound) → Decidable (AllWithin C V bs)
  | [] => .isTrue trivial
  | b :: bs =>
      have := decidableWithin b
      have := decidableAllWithin bs
      inferInstanceAs (Decidable (b.Within C V ∧ AllWithin C V bs))

end

variable {C' : ClassId → Prop} {V' : TypeVarId → Prop}

mutual

theorem Within.mono (hC : ∀ id, C id → C' id) (hV : ∀ v, V v → V' v) :
    ∀ b : Bound, b.Within C V → b.Within C' V'
  | unconstrained, _ => trivial
  | concrete upper, h => Ty.Within.mono hC hV upper h
  | dependent upper _, h => ⟨Ty.Within.mono hC hV upper h.1, fun v hv => hV v (h.2 v hv)⟩
  | all parts, h => AllWithin.mono hC hV parts h

theorem AllWithin.mono (hC : ∀ id, C id → C' id) (hV : ∀ v, V v → V' v) :
    ∀ bs : List Bound, AllWithin C V bs → AllWithin C' V' bs
  | [], _ => trivial
  | b :: bs, h => ⟨Within.mono hC hV b h.1, AllWithin.mono hC hV bs h.2⟩

end

mutual

theorem mem_occurrences_of_within : ∀ b : Bound, b.Within C V → ∀ v ∈ b.occurrences, V v
  | unconstrained, _, _, hv => nomatch hv
  | concrete _, _, _, hv => nomatch hv
  | dependent _ _, h, v, hv => h.2 v hv
  | all parts, h, v, hv => mem_occurrencesAll_of_allWithin parts h v hv

theorem mem_occurrencesAll_of_allWithin :
    ∀ bs : List Bound, AllWithin C V bs → ∀ v ∈ occurrencesAll bs, V v
  | [], _, _, hv => nomatch hv
  | b :: bs, h, v, hv => by
      rcases List.mem_append.mp hv with hv | hv
      · exact mem_occurrences_of_within b h.1 v hv
      · exact mem_occurrencesAll_of_allWithin bs h.2 v hv

end

theorem mem_vars_of_within {b : Bound} (h : b.Within C V) : ∀ v ∈ b.vars, V v :=
  fun v hv => mem_occurrences_of_within b h v (mem_vars_iff.mp hv)

theorem within_ofUpper {t : Ty} (h : t.Within C V) : (ofUpper t).Within C V := by
  unfold ofUpper
  split
  · exact h
  · exact ⟨h, Ty.mem_vars_of_within h⟩

theorem allWithin_iff {bs : List Bound} : AllWithin C V bs ↔ ∀ b ∈ bs, b.Within C V := by
  induction bs with
  | nil => simp [AllWithin]
  | cons b bs ih => simp [AllWithin, ih]

theorem within_ofUppers {ts : List Ty} (h : ∀ t ∈ ts, t.Within C V) :
    (ofUppers ts).Within C V := by
  match ts with
  | [] => trivial
  | [t] => exact within_ofUpper (h t (by simp))
  | a :: b :: rest =>
      refine allWithin_iff.mpr fun bound hbound => ?_
      obtain ⟨t, ht, rfl⟩ := List.mem_map.mp hbound
      exact within_ofUpper (h t ht)

end Bound

variable {C : ClassId → Prop} {V : TypeVarId → Prop}

/-- All classes in the method are in `C`, and all type variables in it are in `V`. -/
structure MethodDef.Within (C : ClassId → Prop) (V : TypeVarId → Prop) (m : MethodDef) : Prop where
  typeParams : ∀ v ∈ m.typeParams, V v
  params : ∀ t ∈ m.params, t.Within C V
  returns : m.returns.Within C V

/-- All classes in the declaration are in `C`, and all type variables in it are in `V`. -/
structure ClassDef.Within (C : ClassId → Prop) (V : TypeVarId → Prop) (d : ClassDef) : Prop where
  typeParams : ∀ v ∈ d.typeParams, V v
  supertypes : ∀ t ∈ d.supertypes, t.Within C V
  constructors : ∀ k ∈ d.constructors, ∀ t ∈ k.params, t.Within C V
  methods : ∀ m ∈ d.methods, m.Within C V

section Decidable

variable [DecidablePred C] [DecidablePred V]

instance (m : MethodDef) : Decidable (m.Within C V) :=
  decidable_of_iff _ ⟨fun h => MethodDef.Within.mk h.1 h.2.1 h.2.2,
    fun h => And.intro h.1 (And.intro h.2 h.3)⟩

instance (d : ClassDef) : Decidable (d.Within C V) :=
  decidable_of_iff _ ⟨fun h => ClassDef.Within.mk h.1 h.2.1 h.2.2.1 h.2.2.2,
    fun h => And.intro h.1 (And.intro h.2 (And.intro h.3 h.4))⟩

end Decidable

section Mono

variable {C' : ClassId → Prop} {V' : TypeVarId → Prop} (hC : ∀ id, C id → C' id)
  (hV : ∀ v, V v → V' v)

include hC hV

theorem MethodDef.Within.mono {m : MethodDef} (h : m.Within C V) : m.Within C' V' where
  typeParams v hv := hV v (h.typeParams v hv)
  params t ht := Ty.Within.mono hC hV t (h.params t ht)
  returns := Ty.Within.mono hC hV m.returns h.returns

theorem ClassDef.Within.mono {d : ClassDef} (h : d.Within C V) : d.Within C' V' where
  typeParams v hv := hV v (h.typeParams v hv)
  supertypes t ht := Ty.Within.mono hC hV t (h.supertypes t ht)
  constructors k hk t ht := Ty.Within.mono hC hV t (h.constructors k hk t ht)
  methods m hm := (h.methods m hm).mono hC hV

end Mono

/-- The constructors speak only of the type parameters of the class, and the methods of these and of
their own. Nothing that a call takes or gives is a wildcard. -/
structure ClassDef.Scoped (d : ClassDef) : Prop where
  constructors : ∀ k ∈ d.constructors, ∀ t ∈ k.params,
    t.isWildcard = false ∧ t.Within (fun _ => True) (· ∈ d.typeParams)
  methods : ∀ m ∈ d.methods, ∀ t ∈ m.returns :: m.params,
    t.isWildcard = false ∧ t.Within (fun _ => True) (· ∈ d.typeParams ++ m.typeParams)

instance (d : ClassDef) : Decidable d.Scoped :=
  decidable_of_iff _ ⟨fun h => ClassDef.Scoped.mk h.1 h.2, fun h => And.intro h.1 h.2⟩

namespace Store

/-- The declarations in the store mention only classes in `C` and type variables in `V`. -/
structure Mentions (s : Store) (C : ClassId → Prop) (V : TypeVarId → Prop) : Prop where
  classDef : ∀ id d, s.classDef? id = some d → d.Within C V
  typeParam : ∀ v p, s.typeParam? v = some p → p.bound.Within C V

theorem Mentions.mono {s : Store} {C' : ClassId → Prop} {V' : TypeVarId → Prop}
    (hC : ∀ id, C id → C' id) (hV : ∀ v, V v → V' v) (h : s.Mentions C V) : s.Mentions C' V' where
  classDef id d hd := (h.classDef id d hd).mono hC hV
  typeParam v p hp := Bound.Within.mono hC hV p.bound (h.typeParam v p hp)

/-- The store has given out the number of the class. -/
def HasClass (s : Store) (id : ClassId) : Prop := id.index < s.classes.length

/-- The store has given out the number of the type variable. -/
def HasParam (s : Store) (v : TypeVarId) : Prop := v.index < s.typeParams.length

instance (s : Store) : DecidablePred s.HasClass := fun _ => Nat.decLt _ _

instance (s : Store) : DecidablePred s.HasParam := fun _ => Nat.decLt _ _

theorem exists_eq_add_of_not_hasClass {s : Store} {id : ClassId} (h : ¬ s.HasClass id) :
    ∃ i, id = ⟨s.classes.length + i⟩ := by
  obtain ⟨i, hi⟩ := Nat.exists_eq_add_of_le (Nat.le_of_not_lt h)
  exact ⟨i, congrArg ClassId.mk hi⟩

theorem exists_eq_add_of_not_hasParam {s : Store} {v : TypeVarId} (h : ¬ s.HasParam v) :
    ∃ i, v = ⟨s.typeParams.length + i⟩ := by
  obtain ⟨i, hi⟩ := Nat.exists_eq_add_of_le (Nat.le_of_not_lt h)
  exact ⟨i, congrArg TypeVarId.mk hi⟩

/-- The declarations in the store mention only numbers that it has given out. -/
def SelfContained (s : Store) : Prop := s.Mentions s.HasClass s.HasParam

end Store

namespace Platform

theorem mem_declarations_of_classDef? {id : ClassId} {d : ClassDef}
    (h : store.classDef? id = some d) : d ∈ declarations := by
  obtain ⟨entry, hentry, hdefinition⟩ := Option.bind_eq_some_iff.mp h
  obtain ⟨d', hd', rfl⟩ := List.mem_map.mp (List.mem_of_getElem? hentry)
  cases hdefinition
  exact hd'

theorem selfContained_store : store.SelfContained := by
  have hdeclarations : ∀ d ∈ declarations, d.Within store.HasClass store.HasParam := by decide
  have hparams : ∀ p ∈ typeParams, p.bound.Within store.HasClass store.HasParam := by decide
  refine ⟨fun id d hd => hdeclarations d (mem_declarations_of_classDef? hd), ?_⟩
  exact fun v p hp => hparams p (List.mem_of_getElem? hp)

end Platform

end CallCatalog
