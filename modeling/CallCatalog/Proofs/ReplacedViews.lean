import CallCatalog.Proofs.ReplacedWalks
import CallCatalog.Proofs.SearchOrder

/-!
What a replacement of type variables does to the search for a supertype. It may make two types one
that were different before, so that the search after the replacement skips what the search before
looked at. A search that skips nothing does not see the difference: it takes the same steps before
and after.
-/

namespace CallCatalog.Store

variable {s : Store} {t found : ClassType} {target : ClassId} {queue : List ClassType}

theorem Finds.subst (hs : s.ProperSupertypes) (σ : Assignment) (h : s.Finds target queue found)
    (hqueue : ∀ t ∈ queue, s.HasArity t.toTy) :
    s.Finds target (queue.map (ClassType.subst σ)) (found.subst σ) := by
  induction h with
  | here hid => exact .here hid
  | @later t found queue hid _ ih =>
      have harity : ∀ u ∈ queue ++ s.directSupertypes t, s.HasArity u.toTy := by
        intro u hu
        rcases List.mem_append.mp hu with hu | hu
        · exact hqueue u (by simp [hu])
        · exact hasArity_of_mem_directSupertypes hs hu
      have hrest := ih harity
      rw [List.map_append, ← directSupertypes_subst hs (hqueue t (by simp))] at hrest
      exact .later hid hrest

theorem finite_above_subst (hs : s.ProperSupertypes) (ht : s.HasArity t.toTy)
    (hfinite : {u | s.Above t u}.Finite) (σ : Assignment) :
    {w | s.Above (t.subst σ) w}.Finite := by
  apply (hfinite.image (ClassType.subst σ)).subset
  intro w hw
  obtain ⟨u, hu, rfl⟩ := exists_above_of_subst hs ht hw
  exact Set.mem_image_of_mem _ hu

/-- Seen as a `target`, a replaced type is what its type is seen as, replaced. Both searches end. -/
theorem exists_findAbove_subst (s : Store) (t : ClassType) (target : ClassId) (σ : Assignment)
    (hs : s.ProperSupertypes) (ht : s.HasArity t.toTy) (hfinite : {u | s.Above t u}.Finite) :
    ∃ view, s.findAbove target [t] [] = some view ∧
      s.findAbove target [t.subst σ] [] = some (view.map (ClassType.subst σ)) ∧
      s.viewAs (t.subst σ) target = (s.viewAs t target).map (ClassType.subst σ) := by
  obtain ⟨view, hview⟩ := exists_findAbove hfinite target
  obtain ⟨view', hview'⟩ := exists_findAbove (finite_above_subst hs ht hfinite σ) target
  have hboth : view'.isSome ↔ view.isSome := by
    rw [isSome_iff_of_findAbove hview, isSome_iff_of_findAbove hview']
    constructor
    · rintro ⟨w, hw, hid⟩
      obtain ⟨u, hu, rfl⟩ := exists_above_of_subst hs ht hw
      exact ⟨u, hu, hid⟩
    · rintro ⟨u, hu, hid⟩
      exact ⟨u.subst σ, above_subst hs ht hu, hid⟩
  have hreplaced : view' = view.map (ClassType.subst σ) := by
    cases view with
    | none => simpa using hboth
    | some found =>
        obtain ⟨found', rfl⟩ := Option.isSome_iff_exists.mp (hboth.mpr rfl)
        have hfinds : s.Finds target [t.subst σ] (found.subst σ) :=
          (finds_of_findAbove_singleton hview).subst hs σ (by simpa using ht)
        rw [(finds_of_findAbove_singleton hview').unique hfinds, Option.map_some]
  rw [hreplaced] at hview'
  refine ⟨view, hview, hview', ?_⟩
  rw [viewAs_of_findAbove hview, viewAs_of_findAbove hview']

def bothStore : Store where
  classes := empty.classes ++ [
    { name := "Root", definition? := some (Platform.interface "Root" [⟨0⟩] [] []) },
    { name := "Base", definition? := some
        (Platform.interface "Base" [⟨1⟩] [.cls ⟨6⟩ [.var ⟨1⟩]] []) },
    { name := "Both", definition? := some (Platform.concreteClass "Both" [⟨2⟩, ⟨3⟩] none
        [.cls ⟨7⟩ [.var ⟨2⟩], .cls ⟨7⟩ [.var ⟨3⟩]] []) }]
  typeParams := ["R", "B", "P", "Q"].map (⟨·, .unconstrained⟩)

theorem properSupertypes_both : bothStore.ProperSupertypes :=
  .of_classes (by decide)

/-- The two `Base`s above `Both<P, Q>` become one when `P` and `Q` are replaced by `String`. -/
theorem exists_findAbove_subst_both :
    bothStore.ProperSupertypes ∧ bothStore.HasArity (.cls ⟨8⟩ [.var ⟨2⟩, .var ⟨3⟩]) ∧
    {u | bothStore.Above ⟨⟨8⟩, [.var ⟨2⟩, .var ⟨3⟩]⟩ u}.Finite ∧
    bothStore.viewAs ⟨⟨8⟩, [.var ⟨2⟩, .var ⟨3⟩]⟩ ⟨6⟩ = some ⟨⟨6⟩, [.var ⟨2⟩]⟩ ∧
    bothStore.viewAs ⟨⟨8⟩, [Platform.stringTy, Platform.stringTy]⟩ ⟨6⟩ =
      some ⟨⟨6⟩, [Platform.stringTy]⟩ := by
  have harity : bothStore.HasArity (.cls ⟨8⟩ [.var ⟨2⟩, .var ⟨3⟩]) := by decide
  have hfinite : {u | bothStore.Above ⟨⟨8⟩, [.var ⟨2⟩, .var ⟨3⟩]⟩ u}.Finite :=
    finite_above_of_closed [⟨⟨8⟩, [.var ⟨2⟩, .var ⟨3⟩]⟩, ⟨⟨7⟩, [.var ⟨2⟩]⟩, ⟨⟨7⟩, [.var ⟨3⟩]⟩,
      ⟨⟨6⟩, [.var ⟨2⟩]⟩, ⟨⟨6⟩, [.var ⟨3⟩]⟩, ⟨.object, []⟩] (by decide) (by decide)
  have hview : bothStore.viewAs ⟨⟨8⟩, [.var ⟨2⟩, .var ⟨3⟩]⟩ ⟨6⟩ = some ⟨⟨6⟩, [.var ⟨2⟩]⟩ := by
    have hsearch : bothStore.findAbove ⟨6⟩ [⟨⟨8⟩, [.var ⟨2⟩, .var ⟨3⟩]⟩] [] =
        some (some ⟨⟨6⟩, [.var ⟨2⟩]⟩) := by
      cbv
    exact viewAs_of_findAbove hsearch
  obtain ⟨-, -, -, hreplaced⟩ := exists_findAbove_subst bothStore ⟨⟨8⟩, [.var ⟨2⟩, .var ⟨3⟩]⟩ ⟨6⟩
    (fun _ => some Platform.stringTy) properSupertypes_both harity hfinite
  rw [hview] at hreplaced
  exact ⟨properSupertypes_both, harity, hfinite, hview, hreplaced⟩

end CallCatalog.Store
