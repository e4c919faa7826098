import CallCatalog.Proofs.SupertypeWalk
import CallCatalog.Types.Platform
import Mathlib.Data.List.Permutation

/-!
In which order the search through the supertypes comes to them. What has been looked at is skipped,
but this makes no difference to what is found: whatever lies above a skipped type lies above one
that came before it, and is met from there. So the search finds what it would find if it skipped
nothing, and then it goes through all types at one number of steps before those that are farther
away.
-/

namespace CallCatalog.Store

variable {s : Store} {t u w found : ClassType} {target : ClassId}
  {queue thinned seen : List ClassType}

/-- A search through `queue` that skips nothing ends at `found`. -/
inductive Finds (s : Store) (target : ClassId) : List ClassType → ClassType → Prop
  | here {t : ClassType} {queue : List ClassType} (hid : t.id = target) :
      Finds s target (t :: queue) t
  | later {t found : ClassType} {queue : List ClassType} (hid : t.id ≠ target)
      (rest : Finds s target (queue ++ s.directSupertypes t) found) :
      Finds s target (t :: queue) found

theorem Finds.unique (h : s.Finds target queue u) (h' : s.Finds target queue w) : u = w := by
  induction h with
  | here hid =>
      cases h' with
      | here => rfl
      | later hid' _ => exact absurd hid hid'
  | later hid _ ih =>
      cases h' with
      | here hid' => exact absurd hid' hid
      | later _ rest => exact ih rest

theorem Finds.of_front {front : List ClassType} (hfront : ∀ t ∈ front, t.id ≠ target)
    (h : s.Finds target (queue ++ front.flatMap s.directSupertypes) found) :
    s.Finds target (front ++ queue) found := by
  induction front generalizing queue with
  | nil => simpa using h
  | cons t front ih =>
      rw [List.cons_append]
      refine .later (hfront t (by simp)) ?_
      rw [List.append_assoc]
      apply ih fun u hu => hfront u (by simp [hu])
      simpa using h

/-- `thinned` is `queue` without some types, each of which has been seen or comes earlier. -/
inductive Thins : List ClassType → List ClassType → List ClassType → Prop
  | nil {seen : List ClassType} : Thins seen [] []
  | keep {t : ClassType} {seen queue thinned : List ClassType}
      (rest : Thins (t :: seen) queue thinned) : Thins seen (t :: queue) (t :: thinned)
  | drop {t : ClassType} {seen queue thinned : List ClassType} (ht : t ∈ seen)
      (rest : Thins seen queue thinned) : Thins seen (t :: queue) thinned

namespace Thins

theorem refl (seen queue : List ClassType) : Thins seen queue queue := by
  induction queue generalizing seen with
  | nil => exact .nil
  | cons t queue ih => exact .keep (ih (t :: seen))

theorem mono {seen' : List ClassType} (h : Thins seen queue thinned) (hsub : seen ⊆ seen') :
    Thins seen' queue thinned := by
  induction h generalizing seen' with
  | nil => exact .nil
  | keep _ ih => exact .keep (ih (List.cons_subset_cons _ hsub))
  | drop ht _ ih => exact .drop (hsub ht) (ih hsub)

theorem append_right (h : Thins seen queue thinned) (more : List ClassType) :
    Thins seen (queue ++ more) (thinned ++ more) := by
  induction h with
  | nil => exact refl _ more
  | keep _ ih => exact .keep ih
  | drop ht _ ih => exact .drop ht ih

theorem append_dropped {more : List ClassType} (h : Thins seen queue thinned)
    (hmore : ∀ t ∈ more, t ∈ seen ∨ t ∈ thinned) : Thins seen (queue ++ more) thinned := by
  induction h with
  | nil =>
      induction more with
      | nil => exact .nil
      | cons t more ih =>
          have ht : t ∈ _ := (hmore t (by simp)).resolve_right List.not_mem_nil
          exact .drop ht (ih fun u hu => hmore u (by simp [hu]))
  | @keep t seen queue thinned _ ih =>
      refine .keep (ih fun u hu => ?_)
      rcases hmore u hu with hseen | hthinned
      · exact Or.inl (List.mem_cons_of_mem t hseen)
      · rcases List.mem_cons.mp hthinned with rfl | hthinned
        · exact Or.inl (by simp)
        · exact Or.inr hthinned
  | drop ht _ ih => exact .drop ht (ih hmore)

theorem exists_front (h : Thins seen queue (t :: thinned)) :
    ∃ front rest, queue = front ++ t :: rest ∧ (∀ u ∈ front, u ∈ seen) ∧
      Thins (t :: seen) rest thinned := by
  generalize hkept : t :: thinned = kept at h
  induction h with
  | nil => cases hkept
  | keep rest _ =>
      cases hkept
      exact ⟨[], _, rfl, by simp, rest⟩
  | @drop u _ _ _ hu _ ih =>
      obtain ⟨front, rest, rfl, hfront, hrest⟩ := ih hkept
      refine ⟨u :: front, rest, rfl, ?_, hrest⟩
      intro v hv
      rcases List.mem_cons.mp hv with rfl | hv
      · exact hu
      · exact hfront v hv

theorem append_above {front rest : List ClassType}
    (hinv : s.SearchedThrough target (t :: thinned) seen) (hfront : ∀ u ∈ front, u ∈ seen)
    (h : Thins (t :: seen) rest thinned) :
    Thins (t :: seen) (rest ++ front.flatMap s.directSupertypes) thinned := by
  apply h.append_dropped
  intro w hw
  obtain ⟨u, hu, hw⟩ := List.mem_flatMap.mp hw
  rcases (hinv u (hfront u hu)).2 w hw with hseen | hwaits
  · exact Or.inl (List.mem_cons_of_mem t hseen)
  · rcases List.mem_cons.mp hwaits with rfl | hwaits
    · exact Or.inl List.mem_cons_self
    · exact Or.inr hwaits

end Thins

/-- The search finds what it would find if it skipped nothing. -/
theorem finds_of_findAbove (h : s.findAbove target thinned seen = some (some found))
    (hinv : s.SearchedThrough target thinned seen) (hthins : Thins seen queue thinned) :
    s.Finds target queue found := by
  suffices hall : ∀ thinned seen result, s.findAbove target thinned seen = some result →
      ∀ found, result = some found → s.SearchedThrough target thinned seen →
      ∀ queue, Thins seen queue thinned → s.Finds target queue found from
    hall thinned seen _ h found rfl hinv queue hthins
  apply findAbove.partial_correctness s target fun thinned seen result =>
    ∀ found, result = some found → s.SearchedThrough target thinned seen →
      ∀ queue, Thins seen queue thinned → s.Finds target queue found
  intro search ih thinned seen result h found hfound hinv queue hthins
  subst hfound
  rcases thinned with _ | ⟨t, thinned⟩
  · cases h
  · obtain ⟨front, rest, rfl, hfront, hrest⟩ := hthins.exists_front
    apply Finds.of_front fun u hu => (hinv u (hfront u hu)).1
    have habove : Thins (t :: seen) (rest ++ front.flatMap s.directSupertypes) thinned :=
      hrest.append_above hinv hfront
    rw [List.cons_append]
    dsimp only at h
    split at h
    · rename_i hseen
      have hskip := hinv.skip hseen
      refine .later (hinv t hseen).1 (ih _ _ _ h found rfl hskip _ ?_)
      have hsame : Thins seen (rest ++ front.flatMap s.directSupertypes) thinned :=
        habove.mono (List.cons_subset.mpr ⟨hseen, List.Subset.refl seen⟩)
      exact hsame.append_dropped (hskip t hseen).2
    · split at h
      · rename_i hid
        rw [← Option.some.inj (Option.some.inj h)]
        exact .here hid
      · rename_i hid
        exact .later hid (ih _ _ _ h found rfl (hinv.visit hid) _ (habove.append_right _))

theorem finds_of_findAbove_singleton (h : s.findAbove target [t] [] = some (some found)) :
    s.Finds target [t] found :=
  finds_of_findAbove h (by simp [SearchedThrough]) (Thins.refl [] [t])

/-- A chain of `n` steps leads from `t` to `u`, each to a direct supertype. -/
inductive AboveBy (s : Store) (t : ClassType) : Nat → ClassType → Prop
  | refl : AboveBy s t 0 t
  | tail {n : Nat} {u w : ClassType} (chain : AboveBy s t n u)
      (step : w ∈ s.directSupertypes u) : AboveBy s t (n + 1) w

theorem above_iff_exists_aboveBy : s.Above t u ↔ ∃ n, s.AboveBy t n u := by
  constructor
  · intro h
    induction h with
    | refl => exact ⟨0, .refl⟩
    | tail _ hstep ih =>
        obtain ⟨n, hn⟩ := ih
        exact ⟨n + 1, hn.tail hstep⟩
  · rintro ⟨n, h⟩
    induction h with
    | refl => exact Above.refl t
    | tail _ hstep ih => exact ih.tail hstep

/-- `u` is of the wanted class, and no shorter chain leads to a type of this class. -/
def Nearest (s : Store) (t : ClassType) (target : ClassId) (u : ClassType) : Prop :=
  u.id = target ∧ ∃ n, s.AboveBy t n u ∧ ∀ m w, s.AboveBy t m w → w.id = target → n ≤ m

/-- How far a search that skips nothing has come: it has gone through all that is nearer than `n`
steps and through `gone` of what is at `n` steps, and `waiting` is still to come. -/
structure AtLevel (s : Store) (t : ClassType) (target : ClassId) (n : Nat)
    (gone waiting : List ClassType) : Prop where
  here : ∀ u, s.AboveBy t n u ↔ u ∈ gone ++ waiting
  nearer : ∀ m < n, ∀ u, s.AboveBy t m u → u.id ≠ target
  missed : ∀ u ∈ gone, u.id ≠ target

namespace AtLevel

variable {n : Nat} {gone waiting : List ClassType}

theorem start (s : Store) (t : ClassType) (target : ClassId) : s.AtLevel t target 0 [] [t] where
  here u := by
    rw [List.nil_append, List.mem_singleton]
    constructor
    · rintro ⟨⟩
      rfl
    · rintro rfl
      exact .refl
  nearer m hm := absurd hm (Nat.not_lt_zero m)
  missed u hu := absurd hu List.not_mem_nil

theorem visit (h : s.AtLevel t target n gone (u :: waiting)) (hid : u.id ≠ target) :
    s.AtLevel t target n (gone ++ [u]) waiting where
  here w := by
    rw [List.append_assoc, List.singleton_append]
    exact h.here w
  nearer := h.nearer
  missed w hw := by
    rcases List.mem_append.mp hw with hw | hw
    · exact h.missed w hw
    · rwa [List.mem_singleton.mp hw]

theorem next (h : s.AtLevel t target n gone []) :
    s.AtLevel t target (n + 1) [] (gone.flatMap s.directSupertypes) where
  here w := by
    have hgone : ∀ u, s.AboveBy t n u ↔ u ∈ gone := by simpa using h.here
    rw [List.nil_append, List.mem_flatMap]
    constructor
    · rintro (_ | @⟨_, u, _, hchain, hstep⟩)
      exact ⟨u, (hgone u).mp hchain, hstep⟩
    · rintro ⟨u, hu, hstep⟩
      exact ((hgone u).mpr hu).tail hstep
  nearer m hm u hu := by
    rcases Nat.lt_succ_iff_lt_or_eq.mp hm with hm | rfl
    · exact h.nearer m hm u hu
    · exact h.missed u (by simpa using (h.here u).mp hu)
  missed u hu := absurd hu List.not_mem_nil

theorem nearest (h : s.AtLevel t target n gone (u :: waiting)) (hid : u.id = target) :
    s.Nearest t target u := by
  refine ⟨hid, n, (h.here u).mpr (by simp), ?_⟩
  intro m w hw hwid
  by_contra hlt
  exact h.nearer m (Nat.lt_of_not_le hlt) w hw hwid

theorem exists_of_queue (h : s.AtLevel t target n gone waiting)
    (hqueue : waiting ++ gone.flatMap s.directSupertypes = u :: queue) :
    ∃ n' gone' waiting', s.AtLevel t target n' gone' (u :: waiting') ∧
      queue = waiting' ++ gone'.flatMap s.directSupertypes := by
  cases waiting with
  | nil =>
      rw [List.nil_append] at hqueue
      refine ⟨n + 1, [], queue, ?_, by simp⟩
      rw [← hqueue]
      exact h.next
  | cons v waiting =>
      cases hqueue
      exact ⟨n, gone, waiting, h, rfl⟩

end AtLevel

theorem Finds.nearest {n : Nat} {gone waiting : List ClassType}
    (h : s.Finds target (waiting ++ gone.flatMap s.directSupertypes) found)
    (hlevel : s.AtLevel t target n gone waiting) : s.Nearest t target found := by
  generalize hqueue : waiting ++ gone.flatMap s.directSupertypes = queue at h
  induction h generalizing n gone waiting with
  | here hid =>
      obtain ⟨n', gone', waiting', hlevel', -⟩ := hlevel.exists_of_queue hqueue
      exact hlevel'.nearest hid
  | later hid _ ih =>
      obtain ⟨n', gone', waiting', hlevel', rfl⟩ := hlevel.exists_of_queue hqueue
      exact ih (hlevel'.visit hid) (by simp)

/-- If finitely many types lie above `t`, which is so without a cycle of declarations, the search
for a type of class `target` ends. It finds none exactly if none lies above, and otherwise one that
the shortest chain to a type of this class leads to. -/
theorem exists_findAbove_nearest (s : Store) (t : ClassType) (target : ClassId) :
    ({u | s.Above t u}.Finite →
      ∃ view, s.findAbove target [t] [] = some view ∧ s.viewAs t target = view ∧
        (view = none ↔ ∀ n u, s.AboveBy t n u → u.id ≠ target) ∧
        ∀ found, view = some found → s.Nearest t target found) ∧
    (s.Acyclic → {u | s.Above t u}.Finite) := by
  refine ⟨fun hfinite => ?_, fun hacyclic => finite_above hacyclic t⟩
  obtain ⟨view, hview⟩ := exists_findAbove hfinite target
  refine ⟨view, hview, viewAs_of_findAbove hview, ?_, ?_⟩
  · rw [← Option.not_isSome_iff_eq_none, isSome_iff_of_findAbove hview]
    simp only [above_iff_exists_aboveBy, not_exists, not_and, forall_exists_index]
    exact forall_comm
  · rintro found rfl
    have hfinds : s.Finds target ([t] ++ [].flatMap s.directSupertypes) found :=
      finds_of_findAbove_singleton hview
    exact hfinds.nearest (AtLevel.start s t target)

def ringStore : Store where
  classes := empty.classes ++ [
    { name := "Tag" },
    { name := "Link", definition? := some
        (Platform.concreteClass "Link" [⟨0⟩] (some (.cls ⟨8⟩ [.var ⟨0⟩]))
          [.cls ⟨6⟩ [.arr (.var ⟨0⟩)]] []) },
    { name := "Ring", definition? := some
        (Platform.concreteClass "Ring" [⟨1⟩] (some (.cls ⟨7⟩ [.var ⟨1⟩])) [] []) }]
  typeParams := [⟨"T", .unconstrained⟩, ⟨"T", .unconstrained⟩]

/-- How many declarations stand one above the other, counted from each class of the platform. -/
def platformHeight : Ty → Nat
  | .cls id _ =>
    ([0, 2, 2, 3, 1, 1, 1, 1, 3, 3, 2, 2, 2, 1, 2, 3, 4, 1, 2] : List Nat).getD id.index 0
  | _ => 0

theorem acyclic_platform : Platform.store.Acyclic :=
  .of_heights platformHeight (fun _ _ => rfl) (by decide)

/-- The search from `Ring<String>` goes round once and finds `Tag<String[]>`, and above
`ArrayList<String>` in the platform's store lie finitely many types. -/
theorem exists_findAbove_nearest_ring :
    {u | ringStore.Above ⟨⟨8⟩, [Platform.stringTy]⟩ u}.Finite ∧
    ringStore.viewAs ⟨⟨8⟩, [Platform.stringTy]⟩ ⟨6⟩ =
      some ⟨⟨6⟩, [.arr Platform.stringTy]⟩ ∧
    ringStore.Nearest ⟨⟨8⟩, [Platform.stringTy]⟩ ⟨6⟩ ⟨⟨6⟩, [.arr Platform.stringTy]⟩ ∧
    Platform.store.Acyclic ∧
    {u | Platform.store.Above ⟨Platform.arrayList, [Platform.stringTy]⟩ u}.Finite := by
  have hfinite : {u | ringStore.Above ⟨⟨8⟩, [Platform.stringTy]⟩ u}.Finite :=
    finite_above_of_closed [⟨⟨8⟩, [Platform.stringTy]⟩, ⟨⟨7⟩, [Platform.stringTy]⟩,
      ⟨⟨6⟩, [.arr Platform.stringTy]⟩] (by decide) (by decide)
  have hsearch : ringStore.findAbove ⟨6⟩ [⟨⟨8⟩, [Platform.stringTy]⟩] [] =
      some (some ⟨⟨6⟩, [.arr Platform.stringTy]⟩) := by
    cbv
  obtain ⟨view, hview, hsame, -, hnearest⟩ :=
    (exists_findAbove_nearest ringStore ⟨⟨8⟩, [Platform.stringTy]⟩ ⟨6⟩).1 hfinite
  have hfound : view = some ⟨⟨6⟩, [.arr Platform.stringTy]⟩ :=
    Option.some.inj (hview.symm.trans hsearch)
  exact ⟨hfinite, hsame.trans hfound, hnearest _ hfound, acyclic_platform,
    (exists_findAbove_nearest Platform.store _ .object).2 acyclic_platform⟩

end CallCatalog.Store
