import CallCatalog.Proofs.SearchOrder
import CallCatalog.Proofs.SubtypeTransitivity

namespace CallCatalog.Store

variable {s : Store} {t u : ClassType} {c d : ClassId}

/-- Class `c` names class `d` as its superclass or as one of its interfaces, or `c` is an interface
and `d` is the root class. -/
def Inherits (s : Store) (c d : ClassId) : Prop :=
  s.Extends c d ∨ ∃ cd, s.classDef? c = some cd ∧ cd.kind = .interface ∧ d = .object

theorem inherits_of_mem_directSupertypes (h : u ∈ s.directSupertypes t) :
    s.Inherits t.id u.id := by
  obtain ⟨cd, hcd, ⟨id, args, hmem, hsup⟩ | ⟨hkind, rfl⟩⟩ := mem_directSupertypes_iff.mp h
  · rw [id_of_supertypeFrom? hsup]
    exact Or.inl ⟨cd, hcd, args, hmem⟩
  · exact Or.inr ⟨cd, hcd, hkind, rfl⟩

theorem exists_directSupertype_of_inherits (h : s.Inherits t.id d) :
    ∃ u ∈ s.directSupertypes t, u.id = d := by
  rcases h with ⟨cd, hcd, args, hmem⟩ | ⟨cd, hcd, hkind, rfl⟩
  · obtain ⟨u, hu⟩ := exists_supertypeFrom? cd t d args
    exact ⟨u, mem_directSupertypes_iff.mpr ⟨cd, hcd, Or.inl ⟨d, args, hmem, hu⟩⟩,
      id_of_supertypeFrom? hu⟩
  · exact ⟨⟨.object, []⟩, mem_directSupertypes_iff.mpr ⟨cd, hcd, Or.inr ⟨hkind, rfl⟩⟩, rfl⟩

theorem exists_above_iff_inherits :
    (∃ u, s.Above t u ∧ u.id = d) ↔ Relation.ReflTransGen s.Inherits t.id d := by
  constructor
  · rintro ⟨u, hu, rfl⟩
    induction hu with
    | refl => exact .refl
    | tail _ hstep ih => exact ih.tail (inherits_of_mem_directSupertypes hstep)
  · intro h
    induction h with
    | refl => exact ⟨t, Above.refl t, rfl⟩
    | tail _ hstep ih =>
        obtain ⟨u, hu, rfl⟩ := ih
        obtain ⟨w, hw, hid⟩ := exists_directSupertype_of_inherits hstep
        exact ⟨w, hu.tail hw, hid⟩

theorem matchArguments_nil (opened : List TypeVarId) (view : Option ClassType) :
    matchArguments opened [] view = .settled view.isSome := by
  cases view <;> rfl

theorem subtype?_raw {view : Option ClassType} (hview : s.findAbove d [t] [] = some view) :
    s.subtype? t.toTy (.cls d []) = some (d = .object || view.isSome) := by
  rw [subtype?, answer?_eq]
  unfold reduce?
  by_cases hsame : t.toTy = .cls d []
  · obtain ⟨rfl, hargs⟩ := Ty.cls.inj hsame
    have hfound : s.findAbove t.id [t] [] = some (some t) := by
      rw [findAbove]
      simp
    rw [← Option.some.inj (hfound.symm.trans hview), if_pos hsame]
    simp [Reduction.evaluate]
  · rw [if_neg hsame]
    by_cases hroot : d = .object
    · simp [ClassType.toTy, Ty.isRoot, hroot, Reduction.evaluate]
    · simp [ClassType.toTy, Ty.isRoot, hroot, hview, matchArguments_nil, Reduction.evaluate]

/-- Whether a class type is a subtype of a type without arguments is always answered. The answer
does not depend on the arguments, however many there are: it is yes exactly if the two classes are
the same, the type is the root class or its class is inherited. -/
theorem exists_subtype?_raw (s : Store) (c d : ClassId) (args args' : List Ty)
    (hacyclic : s.Acyclic) :
    ∃ holds, s.subtype? (.cls c args) (.cls d []) = some holds ∧
      s.subtype? (.cls c args') (.cls d []) = some holds ∧
      (holds = true ↔ c = d ∨ d = .object ∨ Relation.TransGen s.Inherits c d) := by
  have hanswer : ∀ args, ∃ holds, s.subtype? (.cls c args) (.cls d []) = some holds ∧
      (holds = true ↔ c = d ∨ d = .object ∨ Relation.TransGen s.Inherits c d) := by
    intro args
    obtain ⟨view, hview⟩ := exists_findAbove (finite_above hacyclic ⟨c, args⟩) d
    refine ⟨_, subtype?_raw hview, ?_⟩
    rw [Bool.or_eq_true, decide_eq_true_iff, isSome_iff_of_findAbove hview,
      exists_above_iff_inherits, Relation.reflTransGen_iff_eq_or_transGen, or_left_comm]
    exact or_congr_left eq_comm
  obtain ⟨holds, hholds, hiff⟩ := hanswer args
  obtain ⟨holds', hholds', hiff'⟩ := hanswer args'
  have hsame : holds = holds' := Bool.eq_iff_iff.mpr (hiff.trans hiff'.symm)
  exact ⟨holds, hholds, by rw [hholds', hsame], hiff⟩

/-- `ArrayList` with one argument too many and the raw type are subtypes of `Iterable`. -/
theorem exists_subtype?_raw_arrayList :
    Platform.store.Acyclic ∧
    Platform.store.subtype? (.cls Platform.arrayList [Platform.stringTy, Platform.intTy])
      (.cls Platform.iterable []) = some true ∧
    Platform.store.subtype? (.cls Platform.arrayList []) (.cls Platform.iterable []) = some true ∧
    Relation.TransGen Platform.store.Inherits Platform.arrayList Platform.iterable := by
  have hfirst : Platform.store.subtype?
      (.cls Platform.arrayList [Platform.stringTy, Platform.intTy])
      (.cls Platform.iterable []) = some true := by
    cbv
  obtain ⟨holds, hholds, hraw, hiff⟩ := exists_subtype?_raw Platform.store Platform.arrayList
    Platform.iterable [Platform.stringTy, Platform.intTy] [] acyclic_platform
  have htrue : holds = true := Option.some.inj (hholds.symm.trans hfirst)
  refine ⟨acyclic_platform, hfirst, by rw [hraw, htrue], ?_⟩
  rcases hiff.mp htrue with hsame | hroot | hinherits
  · exact absurd hsame (by decide)
  · exact absurd hroot (by decide)
  · exact hinherits

end CallCatalog.Store
