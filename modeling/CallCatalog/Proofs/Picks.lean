import CallCatalog.Proofs.CatalogContents
import CallCatalog.Proofs.Instantiations

/-!
What a pick depends on. The resolver goes from one class under test to the next, so a class changes
the picks of later classes exactly if it draws; and a class draws only if there is a choice.
-/

namespace CallCatalog

namespace Resolver

variable {r r' : Resolver} {s : Store} {u : Universe} {id : ClassId}

theorem options_choose (r : Resolver) (count : Nat) : (r.choose count).2.options = r.options := by
  unfold choose
  split <;> rfl

theorem options_instantiate (r : Resolver) (s : Store) (id : ClassId) (u : Universe) :
    (r.instantiate s id u).2.options = r.options := by
  cases hd : s.classDef? id with
  | none => simp only [instantiate, hd]
  | some d =>
      rw [instantiate_eq r hd]
      split
      · split
        · rfl
        · rename_i valid _
          rw [pick, ← options_choose r valid.length]
          dsimp only
          split <;> rfl
      · rfl

theorem choose_zero (r : Resolver) : r.choose 0 = (none, r) := by
  unfold choose
  split <;> rfl

theorem choose_of_first (h : r.options.selection = .first) (count : Nat) :
    r.choose count = (if count = 0 then none else some 0, r) := by
  simp only [choose, h]

theorem pick_of_first (h : r.options.selection = .first) (hoptions : r'.options = r.options)
    (d : ClassDef) (id : ClassId) (valid : List Substitution) :
    r'.pick d id valid = ((r.pick d id valid).1, r') := by
  have h' : r'.options.selection = .first := by rw [hoptions, h]
  rw [pick, pick, choose_of_first h, choose_of_first h']
  dsimp only
  split <;> rfl

theorem instantiate_of_first (h : r.options.selection = .first)
    (hoptions : r'.options = r.options) :
    r'.instantiate s id u = ((r.instantiate s id u).1, r') := by
  cases hd : s.classDef? id with
  | none => simp only [instantiate, hd]
  | some d =>
      rw [instantiate_eq r hd, instantiate_eq r' hd, hoptions]
      split
      · split
        · rfl
        · exact pick_of_first h hoptions d id _
      · rfl

end Resolver

namespace Store

variable {s : Store} {u : Universe} {r r' : Resolver} {id : ClassId}

/-- The classes for which there is nothing to choose: those that are not instantiated, those without
type parameters, and those with no substitution or no list of substitutions. -/
inductive DrawsNothing (s : Store) (u : Universe) (options : ResolverOptions) (id : ClassId) : Prop
  | undefined (h : s.classDef? id = none)
  | interface {d : ClassDef} (hd : s.classDef? id = some d) (h : d.kind = .interface)
  | abstractClass {d : ClassDef} (hd : s.classDef? id = some d) (habstract : d.isAbstract)
      (h : d.kind ≠ .enumeration)
  | notGeneric {d : ClassDef} (hd : s.classDef? id = some d) (h : d.typeParams = [])
  | failed {e : InstantiationError} (h : s.substitutions id u options.maxTuples = .error e)
  | empty (h : s.substitutions id u options.maxTuples = .ok [])

theorem instantiate_of_drawsNothing {d : ClassDef} (hd : s.classDef? id = some d)
    (h : d.typeParams = [] ∨ (∃ e, s.substitutions id u r.options.maxTuples = .error e) ∨
      s.substitutions id u r.options.maxTuples = .ok []) : (r.instantiate s id u).2 = r := by
  rw [Resolver.instantiate_eq r hd]
  rcases h with hparams | ⟨e, herror⟩ | hempty
  · rw [if_neg (by simp [ClassDef.isGeneric, hparams])]
  · rw [herror]
    split <;> rfl
  · have hpick : r.pick d id [] = (.error (.unresolvable d.name), r) := by
      rw [Resolver.pick, List.length_nil, Resolver.choose_zero]
      rfl
    rw [hempty]
    dsimp only
    rw [hpick]
    split <;> rfl

theorem attempt_snd_of_defined {d : ClassDef} (hd : s.classDef? id = some d) :
    (s.attempt u r id).2 =
      if d.isInstantiable then (r.instantiate s id u).2 else r := by
  simp only [attempt, hd]
  by_cases hkind : d.kind = .interface
  · have hinst : d.isInstantiable = false := by simp [ClassDef.isInstantiable, hkind]
    rw [if_pos hkind, hinst]
    rfl
  · rw [if_neg hkind]
    split
    · rcases r.instantiate s id u with ⟨e | i, next⟩ <;> rfl
    · rfl

theorem attempt_snd_of_undefined (hd : s.classDef? id = none) : (s.attempt u r id).2 = r := by
  simp only [attempt, hd]

theorem attempt_snd_of_drawsNothing (h : s.DrawsNothing u r.options id) :
    (s.attempt u r id).2 = r := by
  cases hd : s.classDef? id with
  | none => exact attempt_snd_of_undefined hd
  | some d =>
      rw [attempt_snd_of_defined hd]
      split
      swap
      · rfl
      rename_i hinst
      obtain ⟨hkind, habstract⟩ := Attempt.isInstantiable_iff.mp hinst
      apply instantiate_of_drawsNothing hd
      -- The resolver is asked, so the class is neither undefined nor one that is passed over.
      cases h with
      | undefined h =>
          rw [hd] at h
          cases h
      | interface hd' h =>
          obtain rfl := Option.some.inj (hd.symm.trans hd')
          exact absurd h hkind
      | abstractClass hd' habstract' h =>
          obtain rfl := Option.some.inj (hd.symm.trans hd')
          exact absurd (habstract habstract') h
      | notGeneric hd' h =>
          obtain rfl := Option.some.inj (hd.symm.trans hd')
          exact Or.inl h
      | failed h => exact Or.inr (Or.inl ⟨_, h⟩)
      | empty h => exact Or.inr (Or.inr h)

theorem options_attempt (r : Resolver) (id : ClassId) :
    (s.attempt u r id).2.options = r.options := by
  cases hd : s.classDef? id with
  | none => rw [attempt_snd_of_undefined hd]
  | some d =>
      rw [attempt_snd_of_defined hd]
      split
      · exact r.options_instantiate s id u
      · rfl

theorem attempt_of_first (h : r.options.selection = .first) (hoptions : r'.options = r.options) :
    s.attempt u r' id = ((s.attempt u r id).1, r') := by
  cases hd : s.classDef? id with
  | none => simp only [attempt, hd]
  | some d =>
      simp only [attempt, hd]
      split
      · rfl
      · split
        · rw [Resolver.instantiate_of_first h hoptions]
          rcases r.instantiate s id u with ⟨e | i, next⟩ <;> rfl
        · rfl

def resolverAfter (s : Store) (u : Universe) (r : Resolver) (ids : List ClassId) : Resolver :=
  ids.foldl (fun r id => (s.attempt u r id).2) r

theorem options_resolverAfter (r : Resolver) (ids : List ClassId) :
    (s.resolverAfter u r ids).options = r.options := by
  induction ids generalizing r with
  | nil => rfl
  | cons id ids ih => exact (ih _).trans (options_attempt r id)

theorem resolverAfter_append (r : Resolver) (front back : List ClassId) :
    s.resolverAfter u r (front ++ back) = s.resolverAfter u (s.resolverAfter u r front) back :=
  List.foldl_append

theorem attempts_cons (r : Resolver) (id : ClassId) (ids : List ClassId) :
    s.attempts u r (id :: ids) =
      ⟨id, r, (s.attempt u r id).1⟩ :: s.attempts u (s.attempt u r id).2 ids := rfl

theorem attempts_append (r : Resolver) (front back : List ClassId) :
    s.attempts u r (front ++ back) =
      s.attempts u r front ++ s.attempts u (s.resolverAfter u r front) back := by
  induction front generalizing r with
  | nil => rfl
  | cons id front ih =>
      rw [List.cons_append, attempts_cons, attempts_cons, List.cons_append, ih]
      rfl

theorem length_attempts (r : Resolver) (ids : List ClassId) :
    (s.attempts u r ids).length = ids.length := by
  rw [← List.length_map Attempt.id, map_id_attempts]

theorem attempt_resolverAfter (h : s.DrawsNothing u r.options id) (front : List ClassId) :
    (s.attempt u (s.resolverAfter u r front) id).2 = s.resolverAfter u r front := by
  apply attempt_snd_of_drawsNothing
  rwa [options_resolverAfter]

theorem resolverAfter_insert (h : s.DrawsNothing u r.options id) (front back : List ClassId) :
    s.resolverAfter u r (front ++ id :: back) = s.resolverAfter u r (front ++ back) := by
  rw [resolverAfter_append, resolverAfter_append]
  exact congrArg (s.resolverAfter u · back) (attempt_resolverAfter h front)

/-- The attempts at the other classes are the same if nothing is drawn for the new one, or if it is
the last. -/
theorem attempts_insert (front : List ClassId) {back : List ClassId}
    (h : s.DrawsNothing u r.options id ∨ back = []) :
    ∃ a, a.id = id ∧ s.attempts u r (front ++ id :: back) =
      s.attempts u r front ++ a :: s.attempts u (s.resolverAfter u r front) back := by
  refine ⟨⟨id, s.resolverAfter u r front, (s.attempt u (s.resolverAfter u r front) id).1⟩, rfl, ?_⟩
  rw [attempts_append, attempts_cons]
  rcases h with h | rfl
  · rw [attempt_resolverAfter h front]
  · rfl

theorem attempts_of_first (h : r.options.selection = .first) (hoptions : r'.options = r.options)
    (ids : List ClassId) :
    s.attempts u r' ids = (s.attempts u r ids).map fun a => { a with resolver := r' } := by
  induction ids with
  | nil => rfl
  | cons id ids ih =>
      rw [attempts_cons, attempts_cons, attempt_of_first h hoptions, attempt_of_first h rfl, ih]
      rfl

theorem resolverAfter_of_first (h : r.options.selection = .first) (ids : List ClassId) :
    s.resolverAfter u r ids = r := by
  induction ids with
  | nil => rfl
  | cons id ids ih =>
      have hnext : (s.attempt u r id).2 = r := by rw [attempt_of_first h rfl]
      rw [resolverAfter, List.foldl_cons, hnext]
      exact ih

end Store

namespace CatalogBuilder

variable {s : Store} {r : Resolver} {b b' : CatalogBuilder}

theorem foldl_addUnderTest_snd (u : Universe) (c : Catalog) (r : Resolver) (ids : List ClassId) :
    (ids.foldl (Catalog.addUnderTest s u) (c, r)).2 = s.resolverAfter u r ids := by
  induction ids generalizing c r with
  | nil => rfl
  | cons id ids ih =>
      rw [List.foldl_cons, Catalog.addUnderTest_eq]
      exact ih _ _

theorem build_snd (b : CatalogBuilder) (s : Store) (r : Resolver) :
    (b.build s r).2 = if (s.classDef? .object).isNone then r
      else s.resolverAfter b.inputTypes r b.classes.toList := by
  unfold build
  split
  · rfl
  · exact foldl_addUnderTest_snd b.inputTypes _ r _

/-- Of two builders that observe the same types, the second has one more class under test, for which
nothing is drawn or after which no other stands. -/
structure Extends (s : Store) (r : Resolver) (b b' : CatalogBuilder) (id : ClassId)
    (front back : List ClassId) : Prop where
  before : b.classes.toList = front ++ back
  after : b'.classes.toList = front ++ id :: back
  inputTypes : b'.inputTypes = b.inputTypes
  harmless : s.DrawsNothing b.inputTypes r.options id ∨ back = []

namespace Extends

variable {id : ClassId} {front back : List ClassId}

theorem attempts_eq (h : Extends s r b b' id front back) : ∃ a, a.id = id ∧
    b'.attempts s r = (b.attempts s r).take front.length ++
      a :: (b.attempts s r).drop front.length := by
  obtain ⟨a, ha, hattempts⟩ := Store.attempts_insert front h.harmless
  refine ⟨a, ha, ?_⟩
  have hlength := Store.length_attempts (s := s) (u := b.inputTypes) r front
  rw [attempts, attempts, h.before, h.after, h.inputTypes, hattempts, Store.attempts_append,
    ← hlength, List.take_left, List.drop_left]

theorem flatMap_filter_attempts {α : Type} (h : Extends s r b b' id front back)
    (f : Attempt → List α) (p : α → Bool)
    (hnew : ∀ a ∈ b'.attempts s r, a.id = id → ∀ x ∈ f a, p x = false) :
    ((b'.attempts s r).flatMap f).filter p = ((b.attempts s r).flatMap f).filter p := by
  obtain ⟨a, ha, hattempts⟩ := h.attempts_eq
  have hnone : (f a).filter p = [] := by
    rw [List.filter_eq_nil_iff]
    intro x hx
    rw [hnew a (by simp [hattempts]) ha x hx]
    exact Bool.false_ne_true
  conv_rhs => rw [← List.take_append_drop front.length (b.attempts s r)]
  rw [hattempts]
  simp only [List.flatMap_append, List.flatMap_cons, List.filter_append, hnone, List.nil_append]

theorem filter_classes (h : Extends s r b b' id front back)
    (hoperations : b'.operations = b.operations) :
    (b'.contents s r).classes.toList.filter (fun t => t.id ≠ id) =
      (b.contents s r).classes.toList.filter (fun t => t.id ≠ id) := by
  simp only [contents, OrderedSet.filter_toList_ofList, List.filter_append, hoperations]
  rw [h.flatMap_filter_attempts Attempt.types _ ?_]
  intro a ha hid t ht
  rw [decide_eq_false_iff_not, not_not, Attempt.id_of_mem_types ha ht, hid]

theorem filter_operations (h : Extends s r b b' id front back)
    (hoperations : b'.operations = b.operations) :
    (b'.contents s r).operations.toList.filter (fun op => op.declaring.id ≠ id) =
      (b.contents s r).operations.toList.filter (fun op => op.declaring.id ≠ id) := by
  simp only [contents, OrderedSet.filter_toList_ofList, List.filter_append, hoperations]
  rw [List.filter_comm, h.flatMap_filter_attempts Attempt.operations _ ?_, List.filter_comm]
  intro a ha hid op hop
  have htype := Attempt.declaring_of_mem_operations hop
  rw [decide_eq_false_iff_not, not_not, Attempt.id_of_mem_types ha htype, hid]

theorem eraseIdx_attempts (h : Extends s r b b' id front back) :
    (b'.attempts s r).eraseIdx front.length = b.attempts s r := by
  obtain ⟨a, -, hattempts⟩ := h.attempts_eq
  have hlength : ((b.attempts s r).take front.length).length = front.length := by
    rw [List.length_take, attempts, Store.length_attempts, h.before, List.length_append]
    omega
  rw [hattempts, List.eraseIdx_append_of_length_le hlength.le, hlength, Nat.sub_self,
    List.eraseIdx_cons_zero, List.take_append_drop]

theorem build_snd_eq (h : Extends s r b b' id front back)
    (hdraws : s.DrawsNothing b.inputTypes r.options id) :
    (b'.build s r).2 = (b.build s r).2 := by
  rw [build_snd, build_snd, h.before, h.after, h.inputTypes, Store.resolverAfter_insert hdraws]

end Extends

theorem prefix_classes : (b.attempts s r).flatMap Attempt.types <+:
    (b.contents s r).classes.toList := by
  have hsublist := Attempt.sublist_map_id_types (b.attempts s r)
    fun a ha t ht => Attempt.id_of_mem_types ha ht
  rw [attempts, Store.map_id_attempts] at hsublist
  have hnodup : ((b.attempts s r).flatMap Attempt.types).Nodup :=
    (b.classes.nodup.sublist hsublist).of_map _
  have hprefix := OrderedSet.prefix_toList_ofList ((b.attempts s r).flatMap Attempt.types)
    ((b.operations.filter Operation.isConcrete).map Operation.declaring ++ [root])
  rwa [OrderedSet.eraseDups_of_nodup hnodup, ← List.append_assoc] at hprefix

theorem prefix_operations :
    (((b.attempts s r).flatMap Attempt.operations).filter Operation.isConcrete).eraseDups <+:
      (b.contents s r).operations.toList := by
  have hprefix := OrderedSet.prefix_toList_ofList
    (((b.attempts s r).flatMap Attempt.operations).filter Operation.isConcrete)
    (b.operations.filter Operation.isConcrete ++ [.constructor root []])
  rwa [← List.append_assoc] at hprefix

theorem contents_of_first {r' : Resolver} (h : r.options.selection = .first)
    (hoptions : r'.options = r.options) : b.contents s r' = b.contents s r := by
  have hattempts : b.attempts s r' = (b.attempts s r).map fun a => { a with resolver := r' } :=
    Store.attempts_of_first h hoptions b.classes.toList
  unfold contents
  rw [hattempts]
  simp only [List.flatMap_map]
  rfl

/-- How little the picks for the classes under test depend on. -/
structure PicksStandAlone (b : CatalogBuilder) (s : Store) (r : Resolver) : Prop where
  /-- Each class under test is tried once, and the catalog begins with what comes of that. -/
  read : (b.attempts s r).map Attempt.id = b.classes.toList ∧
    ∀ c, (b.build s r).1 = .ok c →
      (b.attempts s r).flatMap Attempt.types <+: c.classes.toList ∧
      (((b.attempts s r).flatMap Attempt.operations).filter Operation.isConcrete).eraseDups <+:
        c.operations.toList ∧
      c.skipped = (b.attempts s r).flatMap (Attempt.skips s)
  /-- With one more class under test that draws nothing, wherever it stands, or with any class after
  all others, the attempts at the other classes are the same. -/
  extended : ∀ b' id front back, Extends s r b b' id front back →
    (b'.attempts s r).eraseIdx front.length = b.attempts s r
  /-- Nor does the catalog list anything else for the other classes. -/
  elsewhere : ∀ b' id front back, Extends s r b b' id front back → b'.operations = b.operations →
    ∀ c c', (b.build s r).1 = .ok c → (b'.build s r).1 = .ok c' →
      c'.classes.toList.filter (fun t => t.id ≠ id) =
        c.classes.toList.filter (fun t => t.id ≠ id) ∧
      c'.operations.toList.filter (fun op => op.declaring.id ≠ id) =
        c.operations.toList.filter (fun op => op.declaring.id ≠ id)
  undrawn : ∀ b' id front back, Extends s r b b' id front back →
    s.DrawsNothing b.inputTypes r.options id → (b'.build s r).2 = (b.build s r).2
  /-- Exercised classes and operations that are given directly influence nothing. -/
  unrelated : ∀ b' : CatalogBuilder, b'.classes = b.classes → b'.inputTypes = b.inputTypes →
    b'.attempts s r = b.attempts s r ∧ (b'.build s r).2 = (b.build s r).2
  /-- If the first substitution is taken, the source of randomness influences nothing. -/
  first : r.options.selection = .first → ∀ r' : Resolver, r'.options = r.options →
    (b.attempts s r').map (fun a => (a.id, a.outcome)) =
        (b.attempts s r).map (fun a => (a.id, a.outcome)) ∧
      (b.build s r').1 = (b.build s r).1 ∧ (b.build s r').2 = r'

end CatalogBuilder

end CallCatalog
