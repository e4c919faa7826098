import CallCatalog.Subtyping.Supertype
import Mathlib.Data.Set.Finite.Lemmas
import Mathlib.Data.Set.Finite.Lattice
import Mathlib.Logic.Relation
import Mathlib.Order.WellFounded
import Mathlib.Data.Fintype.Pigeonhole
import Mathlib.Order.Monotone.Basic

namespace CallCatalog.Store

variable {s : Store} {t u w : ClassType} {target : ClassId}

/-- `u` is `t` or one of its supertypes. -/
def Above (s : Store) (t u : ClassType) : Prop :=
  Relation.ReflTransGen (fun a b => b ∈ s.directSupertypes a) t u

namespace Above

theorem refl (t : ClassType) : s.Above t t := Relation.ReflTransGen.refl

theorem tail (h : s.Above t u) (hw : w ∈ s.directSupertypes u) : s.Above t w :=
  Relation.ReflTransGen.tail h hw

theorem head (hu : u ∈ s.directSupertypes t) (h : s.Above u w) : s.Above t w :=
  Relation.ReflTransGen.head hu h

theorem trans (h : s.Above t u) (h' : s.Above u w) : s.Above t w :=
  Relation.ReflTransGen.trans h h'

end Above

theorem mem_directSupertypes_iff :
    u ∈ s.directSupertypes t ↔ ∃ d, s.classDef? t.id = some d ∧
      ((∃ id args, .cls id args ∈ d.supertypes ∧ supertypeFrom? d t (.cls id args) = some u) ∨
        (d.kind = .interface ∧ u = ⟨.object, []⟩)) := by
  unfold directSupertypes
  cases hd : s.classDef? t.id with
  | none => simp
  | some d =>
      simp only [List.mem_append, List.mem_filterMap, Option.some.injEq, exists_eq_left']
      apply or_congr
      · constructor
        · rintro ⟨ty, hmem, hsup⟩
          cases ty with
          | cls id args => exact ⟨id, args, hmem, hsup⟩
          | _ => simp [supertypeFrom?] at hsup
        · rintro ⟨id, args, hmem, hsup⟩
          exact ⟨.cls id args, hmem, hsup⟩
      · split
        · rename_i hkind
          simp [hkind]
        · rename_i hkind
          simp [hkind]

theorem id_of_supertypeFrom? {d : ClassDef} {id : ClassId} {args : List Ty}
    (h : supertypeFrom? d t (.cls id args) = some u) : u.id = id := by
  simp only [supertypeFrom?] at h
  split at h
  · rw [← Option.some.inj h]
  · rw [← Option.some.inj h]
    rfl

theorem exists_supertypeFrom? (d : ClassDef) (t : ClassType) (id : ClassId) (args : List Ty) :
    ∃ u, supertypeFrom? d t (.cls id args) = some u := by
  unfold supertypeFrom?
  dsimp only
  split <;> exact ⟨_, rfl⟩

theorem findAbove_sound {queue seen : List ClassType} {found : ClassType}
    (h : s.findAbove target queue seen = some (some found)) :
    found.id = target ∧ ∃ t ∈ queue, s.Above t found := by
  suffices hall : ∀ queue seen result, s.findAbove target queue seen = some result →
      ∀ found, result = some found → found.id = target ∧ ∃ t ∈ queue, s.Above t found from
    hall queue seen (some found) h found rfl
  apply findAbove.partial_correctness s target fun queue _ result =>
    ∀ found, result = some found → found.id = target ∧ ∃ t ∈ queue, s.Above t found
  intro search ih queue seen result h found hfound
  subst hfound
  rcases queue with _ | ⟨t, queue⟩
  · cases h
  · dsimp only at h
    split at h
    · obtain ⟨hid, u, hu, habove⟩ := ih queue seen _ h found rfl
      exact ⟨hid, u, List.mem_cons_of_mem t hu, habove⟩
    · split at h
      · rename_i hid
        have hfound : t = found := Option.some.inj (Option.some.inj h)
        subst hfound
        exact ⟨hid, t, by simp, Above.refl t⟩
      · obtain ⟨hid, u, hu, habove⟩ := ih _ _ _ h found rfl
        rcases List.mem_append.mp hu with hu | hu
        · exact ⟨hid, u, List.mem_cons_of_mem t hu, habove⟩
        · exact ⟨hid, t, by simp, habove.head hu⟩

theorem above_of_findAbove {found : ClassType}
    (h : s.findAbove target [t] [] = some (some found)) : found.id = target ∧ s.Above t found := by
  obtain ⟨hid, t', ht', habove⟩ := findAbove_sound h
  rw [List.mem_singleton.mp ht'] at habove
  exact ⟨hid, habove⟩

/-- The invariant of the search: what has been looked at is not of the wanted class, and its direct
supertypes have been looked at or wait in the queue. -/
def SearchedThrough (s : Store) (target : ClassId) (queue seen : List ClassType) : Prop :=
  ∀ t ∈ seen, t.id ≠ target ∧ ∀ u ∈ s.directSupertypes t, u ∈ seen ∨ u ∈ queue

theorem SearchedThrough.skip {queue seen : List ClassType}
    (h : s.SearchedThrough target (t :: queue) seen) (ht : t ∈ seen) :
    s.SearchedThrough target queue seen := by
  intro u hu
  refine ⟨(h u hu).1, ?_⟩
  intro w hw
  rcases (h u hu).2 w hw with hseen | hqueue
  · exact Or.inl hseen
  · rcases List.mem_cons.mp hqueue with rfl | hqueue
    · exact Or.inl ht
    · exact Or.inr hqueue

theorem SearchedThrough.visit {queue seen : List ClassType}
    (h : s.SearchedThrough target (t :: queue) seen) (hid : t.id ≠ target) :
    s.SearchedThrough target (queue ++ s.directSupertypes t) (t :: seen) := by
  intro u hu
  rcases List.mem_cons.mp hu with rfl | hu
  · refine ⟨hid, ?_⟩
    intro w hw
    exact Or.inr (List.mem_append_right _ hw)
  · refine ⟨(h u hu).1, ?_⟩
    intro w hw
    rcases (h u hu).2 w hw with hseen | hqueue
    · exact Or.inl (List.mem_cons_of_mem t hseen)
    · rcases List.mem_cons.mp hqueue with rfl | hqueue
      · exact Or.inl (by simp)
      · exact Or.inr (List.mem_append_left _ hqueue)

theorem SearchedThrough.ne_of_above {seen : List ClassType}
    (h : s.SearchedThrough target [] seen) (ht : t ∈ seen) (habove : s.Above t u) :
    u.id ≠ target := by
  have hu : u ∈ seen := by
    induction habove with
    | refl => exact ht
    | tail _ hstep ih => simpa using (h _ ih).2 _ hstep
  exact (h u hu).1

theorem ne_of_findAbove_eq_none {queue seen : List ClassType}
    (h : s.findAbove target queue seen = some none)
    (hinv : s.SearchedThrough target queue seen) :
    ∀ t, t ∈ queue ∨ t ∈ seen → ∀ u, s.Above t u → u.id ≠ target := by
  suffices hall : ∀ queue seen result, s.findAbove target queue seen = some result →
      result = none → s.SearchedThrough target queue seen →
      ∀ t, t ∈ queue ∨ t ∈ seen → ∀ u, s.Above t u → u.id ≠ target from
    hall queue seen none h rfl hinv
  apply findAbove.partial_correctness s target fun queue seen result =>
    result = none → s.SearchedThrough target queue seen →
      ∀ t, t ∈ queue ∨ t ∈ seen → ∀ u, s.Above t u → u.id ≠ target
  intro search ih queue seen result h hresult hinv t ht u habove
  subst hresult
  rcases queue with _ | ⟨first, queue⟩
  · rcases ht with ht | ht
    · simp at ht
    · exact hinv.ne_of_above ht habove
  · dsimp only at h
    split at h
    · rename_i hseen
      refine ih _ _ _ h rfl (hinv.skip hseen) t ?_ u habove
      rcases ht with ht | ht
      · rcases List.mem_cons.mp ht with rfl | ht
        · exact Or.inr hseen
        · exact Or.inl ht
      · exact Or.inr ht
    · split at h
      · cases h
      · rename_i hid
        refine ih _ _ _ h rfl (hinv.visit hid) t ?_ u habove
        rcases ht with ht | ht
        · rcases List.mem_cons.mp ht with rfl | ht
          · exact Or.inr (by simp)
          · exact Or.inl (List.mem_append_left _ ht)
        · exact Or.inr (List.mem_cons_of_mem _ ht)

theorem viewAs_of_findAbove {view : Option ClassType}
    (h : s.findAbove target [t] [] = some view) : s.viewAs t target = view := by
  rw [viewAs, h, Option.join_some]

theorem isSome_iff_of_findAbove {view : Option ClassType}
    (h : s.findAbove target [t] [] = some view) :
    view.isSome ↔ ∃ u, s.Above t u ∧ u.id = target := by
  cases view with
  | some found =>
      obtain ⟨hid, habove⟩ := above_of_findAbove h
      exact iff_of_true rfl ⟨found, habove, hid⟩
  | none =>
      have hinv : s.SearchedThrough target [t] [] := by simp [SearchedThrough]
      refine iff_of_false Bool.false_ne_true ?_
      rintro ⟨u, habove, hid⟩
      exact ne_of_findAbove_eq_none h hinv t (by simp) u habove hid

/-- A finite set that the search does not leave: either a type of it is looked at for the first time
or the queue gets shorter. -/
theorem findAbove_isSome_of_closed (reach : Finset ClassType)
    (hclosed : ∀ t ∈ reach, ∀ u ∈ s.directSupertypes t, u ∈ reach) (queue seen : List ClassType)
    (hqueue : ∀ t ∈ queue, t ∈ reach) : (s.findAbove target queue seen).isSome := by
  induction hn : (reach.filter (· ∉ seen)).card using Nat.strong_induction_on
    generalizing queue seen with
  | _ n ihSeen =>
      induction queue with
      | nil => simp [findAbove]
      | cons t queue ihQueue =>
          rw [findAbove]
          have ht : t ∈ reach := hqueue t (by simp)
          have hrest : ∀ u ∈ queue, u ∈ reach := fun u hu => hqueue u (by simp [hu])
          split
          · exact ihQueue hrest
          · rename_i hseen
            split
            · rfl
            · have hfewer : (reach.filter (· ∉ t :: seen)).card < n := by
                rw [← hn]
                apply Finset.card_lt_card
                refine (Finset.ssubset_iff_of_subset ?_).mpr ⟨t, by simp [ht, hseen], by simp⟩
                intro u hu
                simp only [Finset.mem_filter, List.mem_cons, not_or] at hu ⊢
                exact ⟨hu.1, hu.2.2⟩
              refine ihSeen _ hfewer _ _ ?_ rfl
              intro u hu
              rcases List.mem_append.mp hu with hu | hu
              · exact hrest u hu
              · exact hclosed t ht u hu

theorem findAbove_isSome (hfinite : {u | s.Above t u}.Finite) :
    (s.findAbove target [t] []).isSome := by
  apply findAbove_isSome_of_closed hfinite.toFinset
  · intro u hu w hw
    simp only [Set.Finite.mem_toFinset, Set.mem_ofPred_eq] at hu ⊢
    exact hu.tail hw
  · intro u hu
    rw [List.mem_singleton.mp hu]
    simpa using Above.refl t

theorem exists_findAbove (hfinite : {u | s.Above t u}.Finite) (target : ClassId) :
    ∃ view, s.findAbove target [t] [] = some view :=
  Option.isSome_iff_exists.mp (findAbove_isSome hfinite)

theorem findAbove_of_above (hfinite : {u | s.Above t u}.Finite) (habove : s.Above t u) :
    ∃ found, s.findAbove u.id [t] [] = some (some found) ∧ found.id = u.id ∧
      s.Above t found := by
  obtain ⟨view, hview⟩ := exists_findAbove hfinite u.id
  obtain ⟨found, rfl⟩ :=
    Option.isSome_iff_exists.mp ((isSome_iff_of_findAbove hview).mpr ⟨u, habove, rfl⟩)
  obtain ⟨hid, hfound⟩ := above_of_findAbove hview
  exact ⟨found, hview, hid, hfound⟩

theorem mem_of_above {types : List ClassType}
    (hclosed : ∀ t ∈ types, ∀ u ∈ s.directSupertypes t, u ∈ types) (ht : t ∈ types)
    (habove : s.Above t u) : u ∈ types := by
  induction habove with
  | refl => exact ht
  | tail _ hstep ih => exact hclosed _ ih _ hstep

theorem finite_above_of_closed (types : List ClassType) (ht : t ∈ types)
    (hclosed : ∀ t ∈ types, ∀ u ∈ s.directSupertypes t, u ∈ types) : {u | s.Above t u}.Finite :=
  types.finite_toSet.subset fun _ hu => mem_of_above hclosed ht hu

/-- Class `c` names class `d` as its superclass or as one of its interfaces. -/
def Extends (s : Store) (c d : ClassId) : Prop :=
  ∃ cd, s.classDef? c = some cd ∧ ∃ args, .cls d args ∈ cd.supertypes

def Acyclic (s : Store) : Prop := ∀ c, ¬ Relation.TransGen s.Extends c c

theorem Acyclic.of_rank (rank : ClassId → Nat) (h : ∀ c d, s.Extends c d → rank d < rank c) :
    s.Acyclic := by
  have hlt : ∀ c d, Relation.TransGen s.Extends c d → rank d < rank c := by
    intro c d hcd
    induction hcd with
    | single hstep => exact h _ _ hstep
    | tail _ hstep ih => exact (h _ _ hstep).trans ih
  intro c hc
  exact Nat.lt_irrefl _ (hlt c c hc)

theorem index_lt_of_extends {c d : ClassId} (h : s.Extends c d) : c.index < s.classes.length := by
  obtain ⟨cd, hcd, -⟩ := h
  obtain ⟨entry, hentry, -⟩ := Option.bind_eq_some_iff.mp hcd
  exact (List.getElem?_eq_some_iff.mp hentry).1

theorem Acyclic.of_heights (height : Ty → Nat)
    (hargs : ∀ id args, height (.cls id args) = height (.cls id []))
    (h : ∀ i < s.classes.length, ∀ cd ∈ s.classDef? ⟨i⟩, ∀ sup ∈ cd.supertypes,
      height sup < height (.cls ⟨i⟩ [])) : s.Acyclic := by
  apply Acyclic.of_rank fun id => height (.cls id [])
  rintro ⟨c⟩ ⟨d⟩ hextends
  have hlt : c < s.classes.length := index_lt_of_extends hextends
  obtain ⟨cd, hcd, args, hmem⟩ := hextends
  rw [← hargs ⟨d⟩ args]
  exact h c hlt cd hcd (.cls ⟨d⟩ args) hmem

theorem Acyclic.wellFounded (h : s.Acyclic) : WellFounded fun d c => s.Extends c d := by
  rw [wellFounded_iff_isEmpty_descending_chain]
  refine ⟨fun chain => ?_⟩
  obtain ⟨f, hf⟩ := chain
  -- a chain without end would come back to one of the finitely many defined classes
  let position : Nat → Fin s.classes.length := fun n => ⟨(f n).index, index_lt_of_extends (hf n)⟩
  obtain ⟨i, j, hne, heq⟩ := Finite.exists_ne_map_eq_of_infinite position
  have hsame : f i = f j := by
    have hindex : (f i).index = (f j).index := congrArg Fin.val heq
    cases hi : f i
    cases hj : f j
    simpa [hi, hj] using hindex
  have hchain : ∀ {i j : Nat}, i < j → Relation.TransGen s.Extends (f i) (f j) :=
    fun hij => Nat.rel_of_forall_rel_succ_of_lt (Relation.TransGen s.Extends)
      (fun n => Relation.TransGen.single (hf n)) hij
  rcases Nat.lt_or_gt_of_ne hne with hij | hji
  · have hcycle := hchain hij
    rw [hsame] at hcycle
    exact h (f j) hcycle
  · have hcycle := hchain hji
    rw [hsame] at hcycle
    exact h (f j) hcycle

/-- A relation without endless chains that leads from each point to finitely many others reaches
finitely many points. -/
theorem finite_reflTransGen {α : Type} {r : α → α → Prop} (hwf : WellFounded fun b a => r a b)
    (hfinite : ∀ a, {b | r a b}.Finite) (a : α) : {b | Relation.ReflTransGen r a b}.Finite := by
  induction a using hwf.induction with
  | _ a ih =>
      have hrest : (⋃ b ∈ {b | r a b}, {c | Relation.ReflTransGen r b c}).Finite :=
        (hfinite a).biUnion fun b hb => ih b hb
      apply (hrest.insert a).subset
      intro c hc
      rcases Relation.ReflTransGen.cases_head hc with rfl | ⟨b, hab, hbc⟩
      · exact Set.mem_insert a _
      · exact Set.mem_insert_of_mem a (Set.mem_biUnion hab hbc)

/-- `u` is the superclass or an interface in the declaration of `t`. -/
def DeclaredBelow (s : Store) (t u : ClassType) : Prop :=
  ∃ d, s.classDef? t.id = some d ∧
    ∃ id args, .cls id args ∈ d.supertypes ∧ supertypeFrom? d t (.cls id args) = some u

theorem DeclaredBelow.mem (h : s.DeclaredBelow t u) : u ∈ s.directSupertypes t := by
  obtain ⟨d, hd, hsup⟩ := h
  exact mem_directSupertypes_iff.mpr ⟨d, hd, Or.inl hsup⟩

theorem finite_declaredAbove (h : s.Acyclic) (t : ClassType) :
    {u | Relation.ReflTransGen s.DeclaredBelow t u}.Finite := by
  apply finite_reflTransGen
  · apply Subrelation.wf _ (InvImage.wf ClassType.id h.wellFounded)
    rintro u t ⟨d, hd, id, args, hmem, hsup⟩
    refine ⟨d, hd, args, ?_⟩
    rw [id_of_supertypeFrom? hsup]
    exact hmem
  · intro t
    apply (s.directSupertypes t).finite_toSet.subset
    intro u hu
    exact hu.mem

theorem finite_above (h : s.Acyclic) (t : ClassType) : {u | s.Above t u}.Finite := by
  have hdeclared := (finite_declaredAbove h t).union (finite_declaredAbove h ⟨.object, []⟩)
  apply hdeclared.subset
  intro u hu
  induction hu with
  | refl => exact Or.inl Relation.ReflTransGen.refl
  | tail _ hstep ih =>
      obtain ⟨d, hd, hsup | ⟨-, rfl⟩⟩ := mem_directSupertypes_iff.mp hstep
      · rcases ih with hfrom | hroot
        · exact Or.inl (hfrom.tail ⟨d, hd, hsup⟩)
        · exact Or.inr (hroot.tail ⟨d, hd, hsup⟩)
      · exact Or.inr Relation.ReflTransGen.refl

end CallCatalog.Store
