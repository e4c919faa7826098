import CallCatalog.Proofs.Questions
import CallCatalog.Proofs.Renaming
import CallCatalog.Subtyping.Satisfaction

namespace CallCatalog

/-- Under other numbers `s'` declares what `s` declares. A class without a declaration keeps its
number. -/
structure Renaming.Carries (f : Renaming) (s s' : Store) : Prop where
  classDef : ∀ id, s'.classDef? (f.cls id) = (s.classDef? id).map (ClassDef.rename f)
  typeParam : ∀ v, s'.typeParam? (f.var v) = (s.typeParam? v).map (TypeParam.rename f)
  className : ∀ id, s'.className? (f.cls id) = s.className? id
  undefined : ∀ id, s.classDef? id = none → f.cls id = id

variable {f : Renaming} {s s' : Store}

namespace Store

theorem isRaw_rename (d : ClassDef) (t : ClassType) :
    isRaw (d.rename f) (t.rename f) = isRaw d t := by
  simp [isRaw, ClassType.rename, ClassDef.isGeneric, ClassDef.rename]

theorem supertypeFrom?_rename (d : ClassDef) (t : ClassType) (sup : Ty) :
    supertypeFrom? (d.rename f) (t.rename f) (sup.rename f) =
      (supertypeFrom? d t sup).map (ClassType.rename f) := by
  cases sup with
  | cls id args =>
      simp only [Ty.rename, supertypeFrom?, isRaw_rename, Ty.renameAll_eq_map]
      split
      · rfl
      · have hsubst := ClassType.rename_subst
          (Assignment.renames_ofPairs_zip f d.typeParams t.args) ⟨id, args⟩
        exact congrArg some hsubst.symm
  | _ => rfl

theorem directSupertypes_rename (h : f.Carries s s') (t : ClassType) :
    s'.directSupertypes (t.rename f) = (s.directSupertypes t).map (ClassType.rename f) := by
  have hdef : s'.classDef? (t.rename f).id = (s.classDef? t.id).map (ClassDef.rename f) :=
    h.classDef t.id
  unfold directSupertypes
  rw [hdef]
  cases s.classDef? t.id with
  | none => rfl
  | some d =>
      simp only [Option.map_some, ClassDef.supertypes_rename, List.filterMap_map,
        List.map_append, List.map_filterMap]
      congr 1
      · apply List.filterMap_congr
        intro sup _
        exact supertypeFrom?_rename d t sup
      · have hkind : (d.rename f).kind = d.kind := rfl
        rw [hkind]
        split
        · simp [ClassType.rename_root]
        · rfl

theorem mem_map_rename {t : ClassType} {ts : List ClassType} :
    t.rename f ∈ ts.map (ClassType.rename f) ↔ t ∈ ts :=
  List.mem_map_of_injective (ClassType.rename_injective f)

theorem findAbove_rename_of_eq_some (h : f.Carries s s') {target : ClassId}
    {queue seen : List ClassType} {result : Option ClassType}
    (hfind : s.findAbove target queue seen = some result) :
    s'.findAbove (f.cls target) (queue.map (ClassType.rename f))
      (seen.map (ClassType.rename f)) = some (result.map (ClassType.rename f)) := by
  -- The search need not end, so the induction is on the steps of one that does.
  revert queue seen result
  apply findAbove.partial_correctness s target fun queue seen result =>
    s'.findAbove (f.cls target) (queue.map (ClassType.rename f))
      (seen.map (ClassType.rename f)) = some (result.map (ClassType.rename f))
  intro search ih queue seen result hstep
  rcases queue with _ | ⟨t, queue⟩
  · cases hstep
    rw [List.map_nil, findAbove]
    rfl
  · dsimp only at hstep
    rw [List.map_cons, findAbove]
    simp only [mem_map_rename]
    split at hstep
    · rename_i hseen
      rw [if_pos hseen]
      exact ih _ _ _ hstep
    · rename_i hseen
      rw [if_neg hseen]
      split at hstep
      · rename_i hid
        cases hstep
        have hid' : (t.rename f).id = f.cls target := congrArg f.cls hid
        rw [if_pos hid']
        rfl
      · rename_i hid
        have hid' : (t.rename f).id ≠ f.cls target := fun heq => hid (f.cls_injective heq)
        rw [if_neg hid', directSupertypes_rename h, ← List.map_append]
        exact ih _ _ _ hstep

theorem isSome_findAbove_of_rename (h : f.Carries s s') {target : ClassId}
    {queue seen : List ClassType} {result : Option ClassType}
    (hfind : s'.findAbove (f.cls target) (queue.map (ClassType.rename f))
      (seen.map (ClassType.rename f)) = some result) :
    (s.findAbove target queue seen).isSome := by
  suffices hall : ∀ queue' seen' result, s'.findAbove (f.cls target) queue' seen' = some result →
      ∀ queue seen, queue' = queue.map (ClassType.rename f) →
        seen' = seen.map (ClassType.rename f) → (s.findAbove target queue seen).isSome from
    hall _ _ _ hfind queue seen rfl rfl
  apply findAbove.partial_correctness s' (f.cls target) fun queue' seen' _ =>
    ∀ queue seen, queue' = queue.map (ClassType.rename f) →
      seen' = seen.map (ClassType.rename f) → (s.findAbove target queue seen).isSome
  rintro search ih _ _ result hstep queue seen rfl rfl
  rcases queue with _ | ⟨t, queue⟩
  · simp [findAbove]
  · rw [List.map_cons] at hstep
    dsimp only at hstep
    rw [findAbove]
    simp only [mem_map_rename] at hstep
    split at hstep
    · rename_i hseen
      rw [if_pos hseen]
      exact ih _ _ _ hstep queue seen rfl rfl
    · rename_i hseen
      rw [if_neg hseen]
      split
      · rfl
      · rename_i hid
        have hid' : (t.rename f).id ≠ f.cls target := fun heq => hid (f.cls_injective heq)
        rw [if_neg hid', directSupertypes_rename h, ← List.map_append] at hstep
        exact ih _ _ _ hstep _ (t :: seen) rfl rfl

theorem findAbove_rename (h : f.Carries s s') (target : ClassId) (queue seen : List ClassType) :
    s'.findAbove (f.cls target) (queue.map (ClassType.rename f)) (seen.map (ClassType.rename f)) =
      (s.findAbove target queue seen).map (Option.map (ClassType.rename f)) := by
  cases hfind : s.findAbove target queue seen with
  | some result => exact findAbove_rename_of_eq_some h hfind
  | none =>
      rw [Option.map_none, Option.eq_none_iff_forall_ne_some]
      intro result hresult
      have hsome := isSome_findAbove_of_rename h hresult
      rw [hfind] at hsome
      cases hsome

end Store

section Questions

variable (f)

def Question.rename (q : Question) : Question :=
  ⟨q.opened.map f.var, q.sub.rename f, q.sup.rename f⟩

def Containment.rename : Containment → Containment
  | settled holds => settled holds
  | asks q => asks (q.rename f)

def Reduction.rename : Reduction → Reduction
  | settled holds => settled holds
  | anyOf questions => anyOf (questions.map (Question.rename f))
  | allOf parts => allOf (parts.map (Containment.rename f))

end Questions

theorem Reduction.rename_eq_map (r : Reduction) : r.rename f = r.map (Question.rename f) := by
  have hcontainment : Containment.rename f = Containment.map (Question.rename f) := by
    funext c
    cases c <;> rfl
  cases r with
  | allOf parts => simp only [rename, map, hcontainment]
  | _ => rfl

theorem Reduction.evaluate_rename (ask : Question → Option Bool) (r : Reduction) :
    (r.rename f).evaluate ask = r.evaluate fun q => ask (q.rename f) := by
  rw [rename_eq_map, evaluate_map]

theorem containment_of_rigid (opened : List TypeVarId) {formal : Ty} (actual : Ty)
    (h : formal.isWildcard = false) :
    containment opened formal actual = .settled (formal = actual) := by
  cases formal with
  | any => cases h
  | ext _ => cases h
  | sup _ => cases h
  | _ => rfl

theorem containment_rename (opened : List TypeVarId) (formal actual : Ty) :
    containment (opened.map f.var) (formal.rename f) (actual.rename f) =
      (containment opened formal actual).rename f := by
  cases hwildcard : formal.isWildcard with
  | false =>
      have hwildcard' : (formal.rename f).isWildcard = false := by simpa using hwildcard
      rw [containment_of_rigid _ _ hwildcard, containment_of_rigid _ _ hwildcard']
      simp [Containment.rename]
  | true =>
      cases formal with
      | any => rfl
      | ext upper =>
          cases actual with
          | any => simp [Ty.rename, containment, Containment.rename]
          | _ => rfl
      | sup lower => cases actual <;> rfl
      | _ => cases hwildcard

theorem zipWith_containment_rename (opened : List TypeVarId) (formals actuals : List Ty) :
    List.zipWith (containment (opened.map f.var)) (formals.map (Ty.rename f))
        (actuals.map (Ty.rename f)) =
      (List.zipWith (containment opened) formals actuals).map (Containment.rename f) := by
  rw [List.zipWith_map, List.map_zipWith]
  simp only [containment_rename]

theorem matchArguments_rename (opened : List TypeVarId) (args : List Ty)
    (found? : Option ClassType) :
    matchArguments (opened.map f.var) (args.map (Ty.rename f))
        (found?.map (ClassType.rename f)) =
      (matchArguments opened args found?).rename f := by
  cases found? with
  | none => rfl
  | some found =>
      simp only [Option.map_some, matchArguments, List.isEmpty_map, ClassType.rename,
        List.length_map, zipWith_containment_rename]
      split
      · rfl
      · split <;> rfl

namespace Store

theorem cls_eq_wellKnown_iff {c : ClassId} (hc : c.index < Store.wellKnownNames.length)
    (id : ClassId) : f.cls id = c ↔ id = c := by
  constructor
  · intro h
    rw [← f.cls_wellKnown c hc] at h
    exact f.cls_injective h
  · rintro rfl
    exact f.cls_wellKnown id hc

theorem reduce?_rename (h : f.Carries s s') (q : Question) :
    s'.reduce? (q.rename f) = (s.reduce? q).map (Reduction.rename f) := by
  obtain ⟨opened, sub, sup⟩ := q
  unfold reduce?
  simp only [Question.rename, Ty.rename_inj]
  split
  · rfl
  cases sub with
  | var v =>
      simp only [Ty.rename, Ty.mem_map_var, h.typeParam v]
      split
      · rfl
      cases s.typeParam? v with
      | none => rfl
      | some p =>
          simp only [Option.map_some, TypeParam.rename, Bound.uppers_rename, List.isEmpty_map,
            Ty.isRoot_rename]
          split
          · rfl
          · simp [Reduction.rename, Question.rename]
  | arr elem =>
      simp only [Ty.rename, Ty.isRoot_rename]
      split
      · rfl
      cases sup with
      | arr supElem =>
          simp only [Ty.rename, Ty.isReference_rename, Ty.isArrayTarget_rename]
          split <;> rfl
      | cls id args =>
          simp only [Ty.rename, Ty.renameAll_eq_map, List.isEmpty_map,
            cls_eq_wellKnown_iff (show ClassId.cloneable.index < _ by decide),
            cls_eq_wellKnown_iff (show ClassId.serializable.index < _ by decide)]
          rfl
      | _ => rfl
  | cls id args =>
      simp only [Ty.rename, Ty.isRoot_rename]
      split
      · rfl
      cases sup with
      | cls target supArgs =>
          simp only [Ty.rename, Ty.renameAll_eq_map]
          have hfind := findAbove_rename h target [⟨id, args⟩] []
          simp only [List.map_cons, List.map_nil, ClassType.rename] at hfind
          rw [hfind, Option.map_map, Option.map_map]
          congr 1
          funext found?
          exact matchArguments_rename opened supArgs found?
      | _ => rfl
  | _ => rfl

theorem answer?_rename_of_eq_some (h : f.Carries s s') {q : Question} {holds : Bool}
    (hq : s.answer? q = some holds) : s'.answer? (q.rename f) = some holds := by
  refine answer?_induction s
    (motive := fun q holds => s'.answer? (q.rename f) = some holds) ?_ q holds hq
  intro q r holds ask hr hask heval
  rw [answer?_eq, reduce?_rename h, hr, Option.map_some, Option.bind_some,
    Reduction.evaluate_rename]
  exact Reduction.evaluate_mono (fun q holds hq => (hask q holds hq).2) heval

theorem answer?_eq_some_of_rename (h : f.Carries s s') {q : Question} {holds : Bool}
    (hq : s'.answer? (q.rename f) = some holds) : s.answer? q = some holds := by
  suffices hall : ∀ q', s'.answer? q' = some holds →
      ∀ q, q' = q.rename f → s.answer? q = some holds from hall _ hq q rfl
  intro q' hq'
  refine answer?_induction s'
    (motive := fun q' holds => ∀ q, q' = q.rename f → s.answer? q = some holds) ?_ q' holds hq'
  rintro _ r' holds ask hr hask heval q rfl
  rw [reduce?_rename h] at hr
  obtain ⟨r, hreduce, rfl⟩ := Option.map_eq_some_iff.mp hr
  rw [Reduction.evaluate_rename] at heval
  rw [answer?_eq, hreduce, Option.bind_some]
  exact Reduction.evaluate_mono (fun q holds hq => (hask _ holds hq).2 q rfl) heval

/-- A question has the same answer, or has none, under any numbers. -/
theorem answer?_rename (h : f.Carries s s') (q : Question) :
    s'.answer? (q.rename f) = s.answer? q := by
  cases hq : s.answer? q with
  | some holds => exact answer?_rename_of_eq_some h hq
  | none =>
      rw [Option.eq_none_iff_forall_ne_some]
      intro holds hholds
      rw [answer?_eq_some_of_rename h hholds] at hq
      cases hq

theorem isSubtype_rename (h : f.Carries s s') (sub sup : Ty) :
    s'.isSubtype (sub.rename f) (sup.rename f) = s.isSubtype sub sup := by
  have hanswer := answer?_rename h ⟨[], sub, sup⟩
  simp only [Question.rename, List.map_nil] at hanswer
  rw [isSubtype, isSubtype, subtype?, subtype?, hanswer]

end Store

namespace Bound

variable {σ τ : Assignment}

mutual

theorem isSatisfiedBy_rename (h : f.Carries s s') (hσ : Assignment.Renames f σ τ) (t : Ty) :
    ∀ b : Bound, (b.rename f).isSatisfiedBy s' τ (t.rename f) = b.isSatisfiedBy s σ t
  | unconstrained => Ty.isReference_rename t
  | concrete upper => Store.isSubtype_rename h t upper
  | dependent upper _ => by
      simp only [rename, isSatisfiedBy, ← Ty.rename_subst hσ, Ty.mentionsVars_rename,
        Store.isSubtype_rename h]
  | all parts => isSatisfiedByAll_rename h hσ t parts

theorem isSatisfiedByAll_rename (h : f.Carries s s') (hσ : Assignment.Renames f σ τ) (t : Ty) :
    ∀ bs : List Bound,
      isSatisfiedByAll s' τ (t.rename f) (renameAll f bs) = isSatisfiedByAll s σ t bs
  | [] => rfl
  | b :: bs => by
      simp only [renameAll, isSatisfiedByAll, isSatisfiedBy_rename h hσ t b,
        isSatisfiedByAll_rename h hσ t bs]

end

end Bound

end CallCatalog
