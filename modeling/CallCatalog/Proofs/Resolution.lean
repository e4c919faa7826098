import CallCatalog.Catalog.Contribution
import CallCatalog.Declaration.Extract
import CallCatalog.Proofs.Formation
import CallCatalog.Proofs.RenamedCatalogs

namespace CallCatalog

section Except

variable {ε α β γ : Type}

theorem bind_eq_ok_iff {x : Except ε α} {g : α → Except ε β} {b : β} :
    (x >>= g) = .ok b ↔ ∃ a, x = .ok a ∧ g a = .ok b := by
  cases x with
  | error _ => simp [bind, Except.bind]
  | ok a => simp [bind, Except.bind]

theorem pure_eq_ok_iff {a b : α} : (pure a : Except ε α) = .ok b ↔ b = a := by
  constructor
  · intro h
    cases h
    rfl
  · rintro rfl
    rfl

theorem mapM_eq_ok_iff {g : α → Except ε β} {as : List α} {bs : List β} :
    as.mapM g = .ok bs ↔ List.Forall₂ (fun a b => g a = .ok b) as bs := by
  induction as generalizing bs with
  | nil =>
      rw [List.mapM_nil, pure_eq_ok_iff, List.forall₂_nil_left_iff]
  | cons a as ih =>
      simp only [List.mapM_cons, bind_eq_ok_iff, pure_eq_ok_iff, ih, List.forall₂_cons_left_iff]
      constructor
      · rintro ⟨b, hb, bs', hbs, rfl⟩
        exact ⟨b, bs', hb, hbs, rfl⟩
      · rintro ⟨b, bs', hb, hbs, rfl⟩
        exact ⟨b, hb, bs', hbs, rfl⟩

theorem mapM_eq_ok_iff_exists [Nonempty β] {g : α → Except ε β} {as : List α} {bs : List β} :
    as.mapM g = .ok bs ↔ ∃ φ : α → β, (∀ a ∈ as, g a = .ok (φ a)) ∧ bs = as.map φ := by
  rw [mapM_eq_ok_iff]
  constructor
  · intro h
    let φ : α → β := fun a =>
      match g a with
      | .ok b => b
      | .error _ => Classical.arbitrary β
    have hφ : ∀ a b, g a = .ok b → φ a = b := fun a b hb => by simp only [φ, hb]
    refine ⟨φ, ?_⟩
    induction h with
    | nil => simp
    | cons hhead _ ih =>
        refine ⟨?_, ?_⟩
        · intro a ha
          rcases List.mem_cons.mp ha with rfl | ha
          · rw [hφ _ _ hhead]
            exact hhead
          · exact ih.1 a ha
        · rw [List.map_cons, hφ _ _ hhead, ← ih.2]
  · rintro ⟨φ, hφ, rfl⟩
    rw [List.forall₂_map_right_iff, List.forall₂_same]
    exact hφ

theorem exists_of_mapM_eq_ok {g : α → Except ε β} {as : List α} {bs : List β}
    (h : as.mapM g = .ok bs) {b : β} (hb : b ∈ bs) : ∃ a ∈ as, g a = .ok b := by
  have hall := mapM_eq_ok_iff.mp h
  induction hall with
  | nil => cases hb
  | @cons a b' as bs hhead htail ih =>
      rcases List.mem_cons.mp hb with rfl | hb
      · exact ⟨a, by simp, hhead⟩
      · obtain ⟨a', ha', hok⟩ := ih (mapM_eq_ok_iff.mpr htail) hb
        exact ⟨a', by simp [ha'], hok⟩

theorem mapM_eq_map {g : α → Except ε β} {g' : α → Except ε γ} {φ : β → γ} (as : List α)
    (h : ∀ a ∈ as, g' a = (g a).map φ) : as.mapM g' = (as.mapM g).map (List.map φ) := by
  induction as with
  | nil => rfl
  | cons a as ih =>
      rw [List.mapM_cons, List.mapM_cons, h a (by simp), ih fun a' ha' => h a' (by simp [ha'])]
      cases g a with
      | error _ => rfl
      | ok b =>
          cases as.mapM g <;> rfl

end Except

theorem lookup_map_snd {α β γ : Type} [BEq α] (g : β → γ) (key : α) (pairs : List (α × β)) :
    (pairs.map (Prod.map id g)).lookup key = (pairs.lookup key).map g := by
  induction pairs with
  | nil => rfl
  | cons p pairs ih =>
      obtain ⟨k, b⟩ := p
      simp only [List.map_cons, Prod.map, id, List.lookup_cons]
      split
      · rfl
      · exact ih

variable {f : Renaming}

theorem TypeRef.arrayOf_rename (layers : Nat) (t : Ty) :
    (arrayOf layers t).rename f = arrayOf layers (t.rename f) := by
  induction layers generalizing t with
  | zero => rfl
  | succ layers ih => exact ih (.arr t)

namespace Names

/-- Under other numbers `n'` knows what `n` knows. -/
structure Renames (f : Renaming) (n n' : Names) : Prop where
  classes : ∀ name, n'.class? name = (n.class? name).map (Prod.map f.cls id)
  scope : n'.scope = n.scope.map (Prod.map id f.var)

variable {n n' : Names}

theorem Renames.append (h : Renames f n n') {own own' : Scope}
    (hown : own' = own.map (Prod.map id f.var)) :
    Renames f { n with scope := n.scope ++ own } { n' with scope := n'.scope ++ own' } :=
  ⟨h.classes, by rw [h.scope, hown, List.map_append]⟩

theorem findClass_rename (h : Renames f n n') (name : String) :
    n'.findClass name = (n.findClass name).map (Prod.map f.cls id) := by
  unfold findClass
  rw [h.classes]
  cases n.class? name <;> rfl

theorem typeParam?_rename (h : Renames f n n') (name : String) :
    n'.typeParam? name = (n.typeParam? name).map f.var := by
  rw [typeParam?, typeParam?, h.scope, ← List.map_reverse, lookup_map_snd]

theorem resolveBase_rename (h : Renames f n n') (text name : String) (position : RefPosition) :
    n'.resolveBase text name position = (n.resolveBase text name position).map (Ty.rename f) := by
  unfold resolveBase
  rw [typeParam?_rename h, findClass_rename h]
  split
  · rfl
  split
  · split <;> rfl
  split
  · split <;> rfl
  split
  · split <;> rfl
  split
  · rfl
  cases n.typeParam? name with
  | some _ => rfl
  | none => cases n.findClass name <;> rfl

theorem resolveName_rename (h : Renames f n n') (text : String) (position : RefPosition) :
    n'.resolveName text position = (n.resolveName text position).map (Ty.rename f) := by
  unfold resolveName
  dsimp only
  generalize TypeRef.peelArrays text.toList.reverse text.toList.reverse = peeled
  generalize String.ofList (Blank.trim peeled.1.reverse) = name
  generalize String.ofList (Blank.trimStart peeled.1.reverse) = element
  split
  · exact resolveBase_rename h _ _ _
  · rw [resolveBase_rename h]
    cases n.resolveBase element name .value with
    | error _ => rfl
    | ok t => exact congrArg Except.ok (TypeRef.arrayOf_rename _ t).symm

mutual

theorem resolve_rename (h : Renames f n n') (position : RefPosition) :
    ∀ ref : TypeRef, n'.resolve position ref = (n.resolve position ref).map (Ty.rename f)
  | .named text => by simpa only [resolve] using resolveName_rename h text position
  | .applied name args => by
      simp only [resolve]
      rw [findClass_rename h, resolveAll_rename h .argument args]
      cases n.findClass name with
      | error _ => rfl
      | ok found =>
          simp only [Except.map, Prod.map, id, bind, Except.bind]
          split
          · rfl
          · cases n.resolveAll .argument args with
            | error _ => rfl
            | ok ts =>
                simp [pure, Except.pure, Ty.rename, Ty.renameAll_eq_map]
  | .ext upper => by
      simp only [resolve]
      rw [resolve_rename h .value upper]
      cases checkWildcard (.ext upper) position with
      | error _ => rfl
      | ok _ => cases n.resolve .value upper <;> rfl
  | .sup lower => by
      simp only [resolve]
      rw [resolve_rename h .value lower]
      cases checkWildcard (.sup lower) position with
      | error _ => rfl
      | ok _ => cases n.resolve .value lower <;> rfl

theorem resolveAll_rename (h : Renames f n n') (position : RefPosition) :
    ∀ refs : List TypeRef,
      n'.resolveAll position refs = (n.resolveAll position refs).map (List.map (Ty.rename f))
  | [] => rfl
  | ref :: refs => by
      simp only [resolveAll]
      rw [resolve_rename h position ref, resolveAll_rename h position refs]
      cases n.resolve position ref with
      | error _ => rfl
      | ok _ => cases n.resolveAll position refs <;> rfl

end

theorem superClass_rename (h : Renames f n n') (c : ClassDecl) (kind : ClassKind) :
    n'.superClass c kind = (n.superClass c kind).map (Option.map (Ty.rename f)) := by
  unfold superClass
  cases c.superClass with
  | some ref =>
      dsimp only
      rw [resolve_rename h]
      cases n.resolve .value ref <;> rfl
  | none =>
      dsimp only
      split
      · rfl
      · simp [Except.map, Ty.rename, Ty.renameAll, Ty.cls_object]

theorem constructorDef_rename (h : Renames f n n') (c : ConstructorDecl) :
    n'.constructorDef c = (n.constructorDef c).map (ConstructorDef.rename f) := by
  unfold constructorDef
  rw [resolveAll_rename h]
  cases n.resolveAll .value c.params <;> rfl

theorem resultType_rename (h : Renames f n n') (returns : Option TypeRef) :
    n'.resultType returns = (n.resultType returns).map (Ty.rename f) := by
  cases returns with
  | none => rfl
  | some ref => exact resolve_rename h .result ref

theorem methodDef_rename (h : Renames f n n') (m : MethodDecl) {own own' : Scope}
    (hown : own' = own.map (Prod.map id f.var)) :
    n'.methodDef m own' = (n.methodDef m own).map (MethodDef.rename f) := by
  have hinner := h.append hown
  unfold methodDef
  dsimp only
  rw [resultType_rename hinner, resolveAll_rename hinner]
  cases resultType _ m.returns with
  | error _ => rfl
  | ok returns =>
      cases resolveAll _ .value m.params with
      | error _ => rfl
      | ok params =>
          simp [Except.map, bind, Except.bind, pure, Except.pure, MethodDef.rename, hown,
            Function.comp_def]

theorem classId_rename (h : Renames f n n') (name : String) :
    n'.classId name = (n.classId name).map f.cls := by
  unfold classId
  rw [findClass_rename h]
  cases n.findClass name <;> rfl

theorem operation_rename (h : Renames f n n') (o : OperationDecl) :
    n'.operation o = (n.operation o).map (Operation.rename f) := by
  unfold operation
  rw [resolve_rename h, resolveAll_rename h, resultType_rename h]
  cases n.resolve .value o.declaring with
  | error _ => rfl
  | ok t =>
      cases t with
      | cls id args =>
          have hdeclaring : (⟨f.cls id, args.map (Ty.rename f)⟩ : ClassType) =
              (⟨id, args⟩ : ClassType).rename f := rfl
          simp only [Except.map, Ty.rename, Ty.renameAll_eq_map, bind, Except.bind, hdeclaring]
          cases n.resolveAll .value o.params with
          | error _ => rfl
          | ok params =>
              cases o.method with
              | none => exact congrArg Except.ok (Operation.constructor_rename _ _).symm
              | some name =>
                  dsimp only
                  cases n.resultType o.returns with
                  | error _ => rfl
                  | ok output => exact congrArg Except.ok (Operation.method_rename ..).symm
      | _ => rfl

theorem resolveBounds_rename (h : Renames f n n') (params : List TypeParamDecl) :
    n'.resolveBounds params =
      (n.resolveBounds params).map (List.map (List.map (Ty.rename f))) :=
  mapM_eq_map params fun p _ => resolveAll_rename h .value p.bounds

theorem resolveBounds_congr (h : Renames .refl n n') (params : List TypeParamDecl) :
    n'.resolveBounds params = n.resolveBounds params := by
  simp [resolveBounds_rename h]

/-- The class has a name under which it may be given so many type arguments. None at all is always
allowed. -/
def Takes (n : Names) (id : ClassId) (k : Nat) : Prop :=
  ∃ name arity, n.class? name = some (id, arity) ∧ (k = 0 ∨ k = arity)

/-- There is a name that refers to the type variable. -/
def Sees (n : Names) (v : TypeVarId) : Prop := ∃ name, n.typeParam? name = some v

def Knows (n : Names) (id : ClassId) : Prop := ∃ name arity, n.class? name = some (id, arity)

/-- There is a name for the type variable, though it may be hidden by another one. -/
def Scopes (n : Names) (v : TypeVarId) : Prop := v ∈ n.scope.map Prod.snd

/-- Everything in the type has a name, and it is a wildcard only where one may stand. -/
structure Admits (n : Names) (position : RefPosition) (t : Ty) : Prop where
  within : t.Within n.Knows n.Scopes
  isWildcard : position ≠ .argument → t.isWildcard = false

theorem takes_of_findClass {name : String} {id : ClassId} {arity k : Nat}
    (h : n.findClass name = .ok (id, arity)) (hk : k = 0 ∨ k = arity) : n.Takes id k := by
  unfold findClass at h
  split at h
  · rename_i found hfound
    cases h
    exact ⟨name, arity, hfound, hk⟩
  · cases h

theorem scopes_of_sees {v : TypeVarId} (h : n.Sees v) : n.Scopes v := by
  obtain ⟨name, hname⟩ := h
  obtain ⟨front, back, hsplit, -⟩ := List.lookup_eq_some_iff.mp hname
  have hmem : (name, v) ∈ n.scope.reverse := by simp [hsplit]
  exact List.mem_map.mpr ⟨(name, v), List.mem_reverse.mp hmem, rfl⟩

theorem formed_of_resolveBase {text name : String} {position : RefPosition} {t : Ty}
    (h : n.resolveBase text name position = .ok t) : t.Formed n.Takes n.Sees position := by
  unfold resolveBase at h
  split at h
  · cases h
  split at h
  · split at h
    · rename_i hposition
      cases h
      rw [hposition]
      exact .any
    · cases h
  split at h
  · split at h
    · rename_i hposition
      cases h
      rw [hposition]
      exact .void
    · cases h
  split at h
  · split at h
    · cases h
    · rename_i hposition
      cases h
      exact .primitive hposition
  split at h
  · cases h
  split at h
  · rename_i v hv
    cases h
    exact .var ⟨name, hv⟩
  · obtain ⟨⟨id, arity⟩, hfound, h⟩ := bind_eq_ok_iff.mp h
    rw [pure_eq_ok_iff] at h
    subst h
    exact .cls (takes_of_findClass hfound (Or.inl rfl)) (by simp)

theorem formed_of_resolveName {text : String} {position : RefPosition} {t : Ty}
    (h : n.resolveName text position = .ok t) : t.Formed n.Takes n.Sees position := by
  unfold resolveName at h
  dsimp only at h
  split at h
  · exact formed_of_resolveBase h
  · rename_i hlayers
    obtain ⟨element, helement, h⟩ := bind_eq_ok_iff.mp h
    rw [pure_eq_ok_iff] at h
    subst h
    exact (formed_of_resolveBase helement).arrayOf hlayers

theorem position_of_checkWildcard {ref : TypeRef} {position : RefPosition}
    (h : checkWildcard ref position = .ok ()) : position = .argument := by
  unfold checkWildcard at h
  split at h
  · assumption
  · cases h

theorem length_of_resolveAll {position : RefPosition} {refs : List TypeRef} {ts : List Ty}
    (h : n.resolveAll position refs = .ok ts) : ts.length = refs.length := by
  induction refs generalizing ts with
  | nil =>
      cases h
      rfl
  | cons ref refs ih =>
      rw [resolveAll] at h
      obtain ⟨t, -, h⟩ := bind_eq_ok_iff.mp h
      obtain ⟨rest, hrest, h⟩ := bind_eq_ok_iff.mp h
      rw [pure_eq_ok_iff] at h
      rw [h, List.length_cons, List.length_cons, ih hrest]

mutual

theorem formed_of_resolve {position : RefPosition} {t : Ty} :
    ∀ ref : TypeRef, n.resolve position ref = .ok t → t.Formed n.Takes n.Sees position
  | .named text, h => by
      rw [resolve] at h
      exact formed_of_resolveName h
  | .applied name args, h => by
      rw [resolve] at h
      obtain ⟨⟨id, arity⟩, hfound, h⟩ := bind_eq_ok_iff.mp h
      dsimp only at h
      split at h
      · cases h
      rename_i hcount
      obtain ⟨ts, hts, h⟩ := bind_eq_ok_iff.mp h
      rw [pure_eq_ok_iff] at h
      subst h
      have hlength : ts.length = 0 ∨ ts.length = arity := by
        rw [length_of_resolveAll hts, List.length_eq_zero_iff]
        exact Decidable.or_iff_not_not_and_not.mpr fun ⟨hne, hother⟩ => hcount ⟨hne, hother⟩
      exact .cls (takes_of_findClass hfound hlength) (formed_of_resolveAll args hts)
  | .ext upper, h => by
      rw [resolve] at h
      obtain ⟨_, hcheck, h⟩ := bind_eq_ok_iff.mp h
      obtain ⟨t, ht, h⟩ := bind_eq_ok_iff.mp h
      rw [pure_eq_ok_iff] at h
      rw [h, position_of_checkWildcard hcheck]
      exact .ext (formed_of_resolve upper ht)
  | .sup lower, h => by
      rw [resolve] at h
      obtain ⟨_, hcheck, h⟩ := bind_eq_ok_iff.mp h
      obtain ⟨t, ht, h⟩ := bind_eq_ok_iff.mp h
      rw [pure_eq_ok_iff] at h
      rw [h, position_of_checkWildcard hcheck]
      exact .sup (formed_of_resolve lower ht)

theorem formed_of_resolveAll {position : RefPosition} {ts : List Ty} :
    ∀ refs : List TypeRef, n.resolveAll position refs = .ok ts →
      ∀ t ∈ ts, t.Formed n.Takes n.Sees position
  | [], h, t, ht => by
      cases h
      cases ht
  | ref :: refs, h, t, ht => by
      rw [resolveAll] at h
      obtain ⟨t', ht', h⟩ := bind_eq_ok_iff.mp h
      obtain ⟨ts', hts', h⟩ := bind_eq_ok_iff.mp h
      rw [pure_eq_ok_iff] at h
      subst h
      rcases List.mem_cons.mp ht with rfl | ht
      · exact formed_of_resolve ref ht'
      · exact formed_of_resolveAll refs hts' t ht

end

theorem admits_of_formed {position : RefPosition} {t : Ty}
    (h : t.Formed n.Takes n.Sees position) : n.Admits position t := by
  refine ⟨Ty.Within.mono ?_ (fun v => scopes_of_sees) t h.within, h.isWildcard⟩
  rintro id ⟨k, name, arity, hclass, -⟩
  exact ⟨name, arity, hclass⟩

theorem admits_of_resolve {position : RefPosition} {t : Ty} (ref : TypeRef)
    (h : n.resolve position ref = .ok t) : n.Admits position t :=
  admits_of_formed (formed_of_resolve ref h)

theorem admits_of_resolveAll {position : RefPosition} {ts : List Ty} (refs : List TypeRef)
    (h : n.resolveAll position refs = .ok ts) : ∀ t ∈ ts, n.Admits position t :=
  fun t ht => admits_of_formed (formed_of_resolveAll refs h t ht)

theorem admits_of_resolveBounds {params : List TypeParamDecl} {bounds : List (List Ty)}
    (h : n.resolveBounds params = .ok bounds) :
    ∀ uppers ∈ bounds, ∀ t ∈ uppers, n.Admits .value t := by
  intro uppers huppers
  obtain ⟨p, -, hp⟩ := exists_of_mapM_eq_ok h huppers
  exact admits_of_resolveAll p.bounds hp

theorem formed_of_superClass {c : ClassDecl} {kind : ClassKind} {t : Ty}
    (h : n.superClass c kind = .ok (some t)) :
    t.Formed n.Takes n.Sees .value ∨ c.superClass = none ∧ t = .cls .object [] := by
  unfold superClass at h
  split at h
  · rename_i ref _
    rw [map_eq_pure_bind] at h
    obtain ⟨t', ht', h⟩ := bind_eq_ok_iff.mp h
    rw [pure_eq_ok_iff] at h
    cases h
    exact Or.inl (formed_of_resolve ref ht')
  · rename_i hnone
    split at h
    · cases h
    · cases h
      exact Or.inr ⟨hnone, rfl⟩

theorem within_of_superClass {C : ClassId → Prop} (hC : ∀ id, n.Knows id → C id)
    (hobject : C .object) {c : ClassDecl} {kind : ClassKind} {t : Ty}
    (h : n.superClass c kind = .ok (some t)) : t.Within C n.Scopes := by
  rcases formed_of_superClass h with hformed | ⟨-, rfl⟩
  · exact Ty.Within.mono hC (fun _ hv => hv) t (admits_of_formed hformed).within
  · exact ⟨hobject, trivial⟩

theorem formed_of_constructorDef {c : ConstructorDecl} {k : ConstructorDef}
    (h : n.constructorDef c = .ok k) : ∀ t ∈ k.params, t.Formed n.Takes n.Sees .value := by
  obtain ⟨params, hparams, h⟩ := bind_eq_ok_iff.mp h
  rw [pure_eq_ok_iff] at h
  subst h
  exact formed_of_resolveAll c.params hparams

theorem admits_of_constructorDef {c : ConstructorDecl} {k : ConstructorDef}
    (h : n.constructorDef c = .ok k) : ∀ t ∈ k.params, n.Admits .value t :=
  fun t ht => admits_of_formed (formed_of_constructorDef h t ht)

theorem formed_of_resultType {returns : Option TypeRef} {t : Ty}
    (h : n.resultType returns = .ok t) : t.Formed n.Takes n.Sees .result := by
  cases returns with
  | none =>
      cases h
      exact .void
  | some ref => exact formed_of_resolve ref h

theorem admits_of_resultType {returns : Option TypeRef} {t : Ty}
    (h : n.resultType returns = .ok t) : n.Admits .result t :=
  admits_of_formed (formed_of_resultType h)

theorem of_methodDef_eq_ok {m : MethodDecl} {own : Scope} {d : MethodDef}
    (h : n.methodDef m own = .ok d) :
    d.name = m.name ∧ d.isStatic = m.isStatic ∧ d.typeParams = own.map Prod.snd ∧
      resolveAll { n with scope := n.scope ++ own } .value m.params = .ok d.params ∧
      resultType { n with scope := n.scope ++ own } m.returns = .ok d.returns := by
  obtain ⟨returns, hreturns, h⟩ := bind_eq_ok_iff.mp h
  obtain ⟨params, hparams, h⟩ := bind_eq_ok_iff.mp h
  rw [pure_eq_ok_iff] at h
  subst h
  exact ⟨rfl, rfl, rfl, hparams, hreturns⟩

theorem admits_of_methodDef {m : MethodDecl} {own : Scope} {d : MethodDef}
    (h : n.methodDef m own = .ok d) :
    d.typeParams = own.map Prod.snd ∧
      (∀ t ∈ d.params, Admits { n with scope := n.scope ++ own } .value t) ∧
      Admits { n with scope := n.scope ++ own } .result d.returns := by
  obtain ⟨-, -, htypeParams, hparams, hreturns⟩ := of_methodDef_eq_ok h
  exact ⟨htypeParams, admits_of_resolveAll m.params hparams, admits_of_resultType hreturns⟩

theorem Admits.isConcrete (hscope : n.scope = []) {position : RefPosition} {t : Ty}
    (h : n.Admits position t) (hposition : position ≠ .argument) : t.isConcrete := by
  have hclosed : t.mentionsVars = false := by
    rw [Ty.mentionsVars_eq_false_iff]
    refine Ty.Within.mono (fun _ _ => trivial) (fun v hv => ?_) t h.within
    simp [Scopes, hscope] at hv
  exact Ty.isConcrete_iff.mpr ⟨h.isWildcard hposition, hclosed⟩

theorem isConcrete_of_operation (hscope : n.scope = []) {o : OperationDecl} {op : Operation}
    (h : n.operation o = .ok op) : op.isConcrete := by
  have hconcrete : ∀ {refs ts}, n.resolveAll .value refs = .ok ts → ts.all Ty.isConcrete := by
    intro refs ts hts
    rw [List.all_eq_true]
    exact fun t ht => (admits_of_resolveAll refs hts t ht).isConcrete hscope (by decide)
  obtain ⟨t, ht, h⟩ := bind_eq_ok_iff.mp h
  have htConcrete := (admits_of_resolve o.declaring ht).isConcrete hscope (by decide)
  cases t with
  | cls id args =>
      have hdeclaring : (⟨id, args⟩ : ClassType).isConcrete := by
        rw [← ClassType.isConcrete_toTy]
        exact htConcrete
      obtain ⟨params, hparams, h⟩ := bind_eq_ok_iff.mp h
      cases hmethod : o.method with
      | none =>
          rw [hmethod] at h
          dsimp only at h
          rw [pure_eq_ok_iff] at h
          rw [h, Operation.isConcrete_constructor, hdeclaring, hconcrete hparams]
          rfl
      | some name =>
          rw [hmethod] at h
          dsimp only at h
          obtain ⟨output, houtput, h⟩ := bind_eq_ok_iff.mp h
          rw [pure_eq_ok_iff] at h
          have houtputConcrete := (admits_of_resultType houtput).isConcrete hscope (by decide)
          rw [h, Operation.isConcrete_method, hdeclaring, hconcrete hparams, houtputConcrete]
          rfl
  | _ => cases h

end Names

end CallCatalog
