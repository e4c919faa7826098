import CallCatalog.Declaration.Extract
import CallCatalog.Proofs.Interning
import CallCatalog.Proofs.Resolution

namespace CallCatalog

/-- Where a type parameter is declared: by a class or by one of its methods. -/
structure ParamPlace where
  className : String
  method : Option Nat
  position : Nat
  deriving DecidableEq

abbrev Numbering := ParamPlace → TypeVarId

/-- The places of the type parameters in a declaration, from a position on. -/
def paramPlaces (className : String) (method : Option Nat) (position : Nat)
    (ps : List TypeParamDecl) : List ParamPlace :=
  (ps.zipIdx position).map fun p => ⟨className, method, p.2⟩

def methodPlaces (className : String) (method : Nat) (ms : List MethodDecl) : List ParamPlace :=
  (ms.zipIdx method).flatMap fun m => paramPlaces className (some m.2) 0 m.1.typeParams

namespace Numbering

/-- The places are numbered one after the other, beginning with `start`. -/
def Counts (ν : Numbering) (start : Nat) (places : List ParamPlace) : Prop :=
  ∀ i p, places[i]? = some p → ν p = ⟨start + i⟩

variable {ν : Numbering} {start : Nat}

theorem Counts.left {places more : List ParamPlace} (h : ν.Counts start (places ++ more)) :
    ν.Counts start places := by
  intro i p hp
  exact h i p (List.getElem?_append_left (List.getElem?_eq_some_iff.mp hp).choose ▸ hp)

theorem Counts.right {places more : List ParamPlace} (h : ν.Counts start (places ++ more)) :
    ν.Counts (start + places.length) more := by
  intro i p hp
  have hmore : (places ++ more)[places.length + i]? = some p := by
    rw [List.getElem?_append_right (Nat.le_add_right _ _), Nat.add_sub_cancel_left, hp]
  rw [h _ p hmore, Nat.add_assoc]

theorem Counts.head {p : ParamPlace} {places : List ParamPlace} (h : ν.Counts start (p :: places)) :
    ν p = ⟨start⟩ :=
  h 0 p rfl

theorem Counts.tail {p : ParamPlace} {places : List ParamPlace} (h : ν.Counts start (p :: places)) :
    ν.Counts (start + 1) places := by
  have hcons : ν.Counts start ([p] ++ places) := h
  exact hcons.right

def scope (ν : Numbering) (className : String) (method : Option Nat) (position : Nat)
    (ps : List TypeParamDecl) : Scope :=
  (ps.zipIdx position).map fun p => (p.1.name, ν ⟨className, method, p.2⟩)

/-- The scopes that the type parameters of methods make, from a method on. -/
def methodScopes (ν : Numbering) (className : String) (method : Nat) (ms : List MethodDecl) :
    List Scope :=
  (ms.zipIdx method).map fun m => ν.scope className (some m.2) 0 m.1.typeParams

theorem map_snd_scope (ν : Numbering) (className : String) (method : Option Nat) (position : Nat)
    (ps : List TypeParamDecl) :
    (ν.scope className method position ps).map Prod.snd =
      (paramPlaces className method position ps).map ν := by
  simp [scope, paramPlaces, Function.comp_def]

theorem map_fst_scope (ν : Numbering) (className : String) (method : Option Nat) (position : Nat)
    (ps : List TypeParamDecl) :
    (ν.scope className method position ps).map Prod.fst = ps.map TypeParamDecl.name := by
  rw [scope, List.map_map]
  conv_rhs => rw [← List.zipIdx_map_fst position ps, List.map_map]
  rfl

theorem flatMap_methodScopes (ν : Numbering) (className : String) (method : Nat)
    (ms : List MethodDecl) :
    (ν.methodScopes className method ms).flatMap (List.map Prod.snd) =
      (methodPlaces className method ms).map ν := by
  rw [methodScopes, methodPlaces, List.flatMap_map, List.map_flatMap]
  exact List.flatMap_congr fun m _ => map_snd_scope ν className _ 0 m.1.typeParams

theorem scope_rename {f : Renaming} {ν' : Numbering} {className : String} {method : Option Nat}
    {position : Nat} {ps : List TypeParamDecl}
    (h : ∀ p ∈ paramPlaces className method position ps, ν' p = f.var (ν p)) :
    ν'.scope className method position ps =
      (ν.scope className method position ps).map (Prod.map id f.var) := by
  rw [scope, scope, List.map_map]
  apply List.map_congr_left
  intro p hp
  have hplace := h ⟨className, method, p.2⟩ (List.mem_map.mpr ⟨p, hp, rfl⟩)
  simp only [Function.comp_def, Prod.map, id, hplace]

theorem methodScopes_rename {f : Renaming} {ν' : Numbering} {className : String} {method : Nat}
    {ms : List MethodDecl} (h : ∀ p ∈ methodPlaces className method ms, ν' p = f.var (ν p)) :
    ν'.methodScopes className method ms =
      (ν.methodScopes className method ms).map (List.map (Prod.map id f.var)) := by
  rw [methodScopes, methodScopes, List.map_map]
  apply List.map_congr_left
  intro m hm
  exact scope_rename fun p hp => h p (List.mem_flatMap.mpr ⟨m, hm, hp⟩)

theorem mem_of_mem_methodScopes {className : String} {method : Nat} {ms : List MethodDecl}
    {own : Scope} (h : own ∈ ν.methodScopes className method ms) {v : TypeVarId}
    (hv : v ∈ own.map Prod.snd) : ∃ p ∈ methodPlaces className method ms, ν p = v := by
  obtain ⟨m, hm, rfl⟩ := List.mem_map.mp h
  rw [map_snd_scope] at hv
  obtain ⟨p, hp, rfl⟩ := List.mem_map.mp hv
  exact ⟨p, List.mem_flatMap.mpr ⟨m, hm, hp⟩, rfl⟩

end Numbering

namespace ClassDecl

def ownPlaces (c : ClassDecl) : List ParamPlace := paramPlaces c.name none 0 c.typeParams

def placesOfMethods (c : ClassDecl) : List ParamPlace := methodPlaces c.name 0 c.methods

theorem mem_ownPlaces {c : ClassDecl} {p : ParamPlace} (h : p ∈ c.ownPlaces) :
    p.className = c.name ∧ p.method = none := by
  obtain ⟨-, -, rfl⟩ := List.mem_map.mp h
  exact ⟨rfl, rfl⟩

theorem mem_placesOfMethods {c : ClassDecl} {p : ParamPlace} (h : p ∈ c.placesOfMethods) :
    p.className = c.name ∧ p.method ≠ none := by
  obtain ⟨m, -, hp⟩ := List.mem_flatMap.mp h
  obtain ⟨-, -, rfl⟩ := List.mem_map.mp hp
  exact ⟨rfl, by simp⟩

theorem nodup_paramPlaces (className : String) (method : Option Nat) (position : Nat)
    (ps : List TypeParamDecl) : (paramPlaces className method position ps).Nodup := by
  have hmap : paramPlaces className method position ps =
      (List.range' position ps.length).map (ParamPlace.mk className method) := by
    rw [← List.zipIdx_map_snd, List.map_map]
    rfl
  rw [hmap]
  exact List.Nodup.map (fun i j h => (ParamPlace.mk.inj h).2.2) List.nodup_range'

theorem nodup_methodPlaces (className : String) (method : Nat) (ms : List MethodDecl) :
    (methodPlaces className method ms).Nodup := by
  rw [methodPlaces, List.nodup_flatMap]
  refine ⟨fun m _ => nodup_paramPlaces _ _ _ _, ?_⟩
  have hmethods : ((ms.zipIdx method).map Prod.snd).Nodup := by
    rw [List.zipIdx_map_snd]
    exact List.nodup_range'
  refine (List.pairwise_map.mp hmethods).imp ?_
  intro m m' hne p hp hp'
  obtain ⟨_, _, rfl⟩ := List.mem_map.mp hp
  obtain ⟨_, _, heq⟩ := List.mem_map.mp hp'
  exact hne (Option.some.inj (ParamPlace.mk.inj heq).2.1).symm

end ClassDecl

/-- The places of the type parameters of a description, in the order in which they are numbered. -/
def places (cs : List ClassDecl) : List ParamPlace :=
  cs.flatMap ClassDecl.ownPlaces ++ cs.flatMap ClassDecl.placesOfMethods

theorem nodup_flatMap_places {cs : List ClassDecl} (hnames : (cs.map ClassDecl.name).Nodup)
    {g : ClassDecl → List ParamPlace} (hnodup : ∀ c, (g c).Nodup)
    (hname : ∀ c, ∀ p ∈ g c, p.className = c.name) : (cs.flatMap g).Nodup := by
  rw [List.nodup_flatMap]
  refine ⟨fun c _ => hnodup c, (List.pairwise_map.mp hnames).imp ?_⟩
  intro c c' hne p hp hp'
  exact hne ((hname c p hp).symm.trans (hname c' p hp'))

theorem nodup_places {cs : List ClassDecl} (hnames : (cs.map ClassDecl.name).Nodup) :
    (places cs).Nodup := by
  rw [places, List.nodup_append]
  refine ⟨nodup_flatMap_places hnames (fun c => ClassDecl.nodup_paramPlaces _ _ _ _)
      fun c p hp => (ClassDecl.mem_ownPlaces hp).1,
    nodup_flatMap_places hnames (fun c => ClassDecl.nodup_methodPlaces _ _ _)
      fun c p hp => (ClassDecl.mem_placesOfMethods hp).1, ?_⟩
  rintro p hp _ hp' rfl
  obtain ⟨c, -, hc⟩ := List.mem_flatMap.mp hp
  obtain ⟨c', -, hc'⟩ := List.mem_flatMap.mp hp'
  exact (ClassDecl.mem_placesOfMethods hc').2 (ClassDecl.mem_ownPlaces hc).2

/-- The numbers that the type parameters of a description get in a store with `start` of them. -/
def numbering (start : Nat) (cs : List ClassDecl) : Numbering :=
  fun p => ⟨start + (places cs).idxOf p⟩

theorem counts_numbering {cs : List ClassDecl} (hnames : (cs.map ClassDecl.name).Nodup)
    (start : Nat) : (numbering start cs).Counts start (places cs) := by
  intro i p hp
  obtain ⟨hi, rfl⟩ := List.getElem?_eq_some_iff.mp hp
  rw [numbering, (nodup_places hnames).idxOf_getElem i hi]

end CallCatalog
