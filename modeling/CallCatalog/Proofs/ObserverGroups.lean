import CallCatalog.Proofs.CatalogContents
import Mathlib.Logic.ExistsUnique

/-!
The observers of a catalog. Operations are put into groups one after the other, and a group is
opened when its declaring type is first met. So the groups of a list of operations are the declaring
types, each where it first occurs, and in a group are all operations of its type, in order.
-/

namespace CallCatalog

/-- A value of the type can be checked without further calls. -/
inductive Store.Checkable (s : Store) : Ty → Prop
  | primitive (p : Primitive) : Checkable s (.primitive p)
  | string (args : List Ty) : Checkable s (.cls .string args)
  | enumeration {id : ClassId} {d : ClassDef} (args : List Ty) (hd : s.classDef? id = some d)
      (hkind : d.kind = .enumeration) : Checkable s (.cls id args)

/-- The operation is an accepted method whose result can be checked. -/
structure Store.Observes (s : Store) (accept : Operation → Bool) (op : Operation) : Prop where
  accepted : accept op
  method : op.kind ≠ .constructor
  checkable : s.Checkable op.output

namespace Catalog

variable {s : Store} {accept : Operation → Bool}

theorem isObservable_iff {t : Ty} : isObservable s t ↔ s.Checkable t := by
  constructor
  · intro h
    cases t with
    | primitive p => exact .primitive p
    | cls id args =>
        simp only [isObservable, Bool.or_eq_true, decide_eq_true_eq, Option.any_eq_true] at h
        rcases h with rfl | ⟨d, hd, hkind⟩
        · exact .string args
        · exact .enumeration args hd hkind
    | _ => cases h
  · intro h
    cases h with
    | primitive p => rfl
    | string args => rfl
    | enumeration args hd hkind => simp [isObservable, hd, hkind]

theorem observes_iff {op : Operation} :
    (!op.isConstructor && isObservable s op.output && accept op) = true ↔
      s.Observes accept op := by
  have hmethod : op.isConstructor = false ↔ op.kind ≠ .constructor := by
    unfold Operation.isConstructor
    cases op.kind <;> simp
  simp only [Bool.and_eq_true, Bool.not_eq_true', hmethod, isObservable_iff]
  exact ⟨fun ⟨⟨hkind, hchecked⟩, haccept⟩ => ⟨haccept, hkind, hchecked⟩,
    fun h => ⟨⟨h.method, h.checkable⟩, h.accepted⟩⟩

instance : DecidablePred (s.Observes accept) := fun _ => decidable_of_iff _ observes_iff

/-- The groups of a list of operations: each declaring type where it first occurs, with all
operations of the list that it declares. -/
def grouped (ops : List Operation) : List (ClassType × List Operation) :=
  (OrderedSet.ofList (ops.map Operation.declaring)).toList.map fun t =>
    (t, ops.filter fun op => op.declaring = t)

theorem addToGroup_map {keys : List ClassType} (hkeys : keys.Nodup)
    {members : ClassType → List Operation} (op : Operation)
    (hnew : op.declaring ∉ keys → members op.declaring = []) :
    addToGroup (keys.map fun t => (t, members t)) op =
      (if op.declaring ∈ keys then keys else keys ++ [op.declaring]).map fun t =>
        (t, members t ++ if op.declaring = t then [op] else []) := by
  induction keys with
  | nil => simp [addToGroup, hnew]
  | cons t keys ih =>
      obtain ⟨ht, hkeys⟩ := List.nodup_cons.mp hkeys
      rw [List.map_cons, addToGroup]
      by_cases hop : t = op.declaring
      · subst hop
        have hrest : ∀ u ∈ keys, op.declaring ≠ u := fun u hu heq => ht (heq ▸ hu)
        simp only [if_true, List.mem_cons, true_or, List.map_cons, List.cons.injEq, true_and]
        exact List.map_congr_left fun u hu => by rw [if_neg (hrest u hu), List.append_nil]
      · have hmem : op.declaring ∈ t :: keys ↔ op.declaring ∈ keys := by
          simp [Ne.symm hop]
        rw [if_neg hop, ih hkeys fun h => hnew fun h' => h (hmem.mp h')]
        simp only [hmem]
        split <;> simp [Ne.symm hop]

theorem addToGroup_grouped (ops : List Operation) (op : Operation) :
    addToGroup (grouped ops) op = grouped (ops ++ [op]) := by
  let keys := OrderedSet.ofList (ops.map Operation.declaring)
  have hkeys : OrderedSet.ofList ((ops ++ [op]).map Operation.declaring) =
      keys.insert op.declaring := by
    simp [keys, OrderedSet.ofList, OrderedSet.insertAll]
  have hnew : op.declaring ∉ keys.toList →
      (ops.filter fun o => o.declaring = op.declaring) = [] := by
    intro h
    rw [List.filter_eq_nil_iff]
    intro o ho heq
    refine h (OrderedSet.mem_def.mp (OrderedSet.mem_ofList.mpr ?_))
    rw [← of_decide_eq_true heq]
    exact List.mem_map_of_mem ho
  have hmembers : ∀ t, (ops ++ [op]).filter (fun o => o.declaring = t) =
      (ops.filter fun o => o.declaring = t) ++ if op.declaring = t then [op] else [] := by
    intro t
    rw [List.filter_append]
    by_cases hop : op.declaring = t <;> simp [hop]
  simp only [grouped, hkeys, hmembers, OrderedSet.toList_insert]
  exact addToGroup_map keys.nodup op hnew

theorem foldl_addToGroup (before ops : List Operation) :
    ops.foldl addToGroup (grouped before) = grouped (before ++ ops) := by
  induction ops generalizing before with
  | nil => rw [List.foldl_nil, List.append_nil]
  | cons op ops ih => rw [List.foldl_cons, addToGroup_grouped, ih, List.append_assoc,
      List.singleton_append]

theorem map_fst_grouped (ops : List Operation) :
    (grouped ops).map Prod.fst = (ops.map Operation.declaring).eraseDups := by
  rw [← OrderedSet.toList_ofList]
  simp [grouped, Function.comp_def]

theorem mem_grouped_iff {ops : List Operation} {g : ClassType × List Operation} :
    g ∈ grouped ops ↔ (∃ op ∈ ops, op.declaring = g.1) ∧
      g.2 = ops.filter fun op => op.declaring = g.1 := by
  obtain ⟨t, members⟩ := g
  simp only [grouped, List.mem_map, Prod.mk.injEq, ← OrderedSet.mem_def, OrderedSet.mem_ofList]
  constructor
  · rintro ⟨u, hu, rfl, rfl⟩
    exact ⟨hu, rfl⟩
  · rintro ⟨hop, hmembers⟩
    exact ⟨t, hop, rfl, hmembers.symm⟩

theorem observers_eq_grouped (c : Catalog) (s : Store) (accept : Operation → Bool) :
    c.observers s accept = grouped (c.operations.toList.filter (s.Observes accept)) := by
  have hgroups := foldl_addToGroup [] (c.operations.toList.filter (s.Observes accept))
  rw [List.nil_append] at hgroups
  rw [← hgroups, observers]
  congr 1
  exact List.filter_congr fun op _ => by rw [Bool.eq_iff_iff, observes_iff, decide_eq_true_eq]

/-- The groups are a stable partition of the observers of a catalog by declaring types. -/
structure Partitions (c : Catalog) (s : Store) (accept : Operation → Bool)
    (groups : List (ClassType × List Operation)) : Prop where
  /-- The keys come in the order in which observers of theirs first come in the catalog. -/
  keys : groups.map Prod.fst =
    ((c.operations.toList.filter (s.Observes accept)).map Operation.declaring).eraseDups
  distinct : (groups.map Prod.fst).Nodup
  listed : ∀ g ∈ groups, g.1 ∈ c.classes
  nonempty : ∀ g ∈ groups, g.2 ≠ []
  /-- In a group are the observers of its type, in the order of the catalog. -/
  members : ∀ g ∈ groups,
    g.2 = c.operations.toList.filter fun op => s.Observes accept op ∧ op.declaring = g.1
  once : ∀ op ∈ c.operations, s.Observes accept op → ∃! g, g ∈ groups ∧ op ∈ g.2
  only : ∀ g ∈ groups, ∀ op ∈ g.2, op ∈ c.operations ∧ s.Observes accept op

theorem partitions_observers {c : Catalog} (hclosed : ∀ op ∈ c.operations, op.declaring ∈ c.classes)
    (s : Store) (accept : Operation → Bool) : c.Partitions s accept (c.observers s accept) := by
  rw [observers_eq_grouped]
  have hobserves : ∀ {op}, op ∈ c.operations.toList.filter (s.Observes accept) ↔
      op ∈ c.operations ∧ s.Observes accept op := by simp [OrderedSet.mem_def]
  have honly : ∀ g ∈ grouped (c.operations.toList.filter (s.Observes accept)), ∀ op ∈ g.2,
      (op ∈ c.operations ∧ s.Observes accept op) ∧ op.declaring = g.1 := by
    intro g hg op hop
    rw [(mem_grouped_iff.mp hg).2, List.mem_filter, hobserves, decide_eq_true_eq] at hop
    exact hop
  constructor
  case keys => exact map_fst_grouped _
  case distinct =>
    rw [map_fst_grouped, ← OrderedSet.toList_ofList]
    exact (OrderedSet.ofList _).nodup
  case listed =>
    intro g hg
    obtain ⟨op, hop, hdeclaring⟩ := (mem_grouped_iff.mp hg).1
    rw [← hdeclaring]
    exact hclosed op (hobserves.mp hop).1
  case nonempty =>
    intro g hg
    obtain ⟨⟨op, hop, hdeclaring⟩, hmembers⟩ := mem_grouped_iff.mp hg
    rw [hmembers]
    exact List.ne_nil_of_mem (List.mem_filter.mpr ⟨hop, decide_eq_true hdeclaring⟩)
  case members =>
    intro g hg
    rw [(mem_grouped_iff.mp hg).2, List.filter_filter]
    exact List.filter_congr fun op _ => by simp [and_comm]
  case once =>
    intro op hop hobserved
    have hmem := hobserves.mpr ⟨hop, hobserved⟩
    let own := (c.operations.toList.filter (s.Observes accept)).filter
      fun o => o.declaring = op.declaring
    refine ⟨(op.declaring, own), ⟨mem_grouped_iff.mpr ⟨⟨op, hmem, rfl⟩, rfl⟩, ?_⟩, ?_⟩
    · exact List.mem_filter.mpr ⟨hmem, decide_eq_true rfl⟩
    · rintro g ⟨hg, hop'⟩
      have hkey := (honly g hg op hop').2
      have hmembers := (mem_grouped_iff.mp hg).2
      rw [← hkey] at hmembers
      exact Prod.ext hkey.symm hmembers
  case only => exact fun g hg op hop => (honly g hg op hop).1

end Catalog

namespace CatalogBuilder

/-- Whatever a catalog is built from, its observers are partitioned by their declaring types. -/
theorem partitions_observers_of_build (b : CatalogBuilder) (s : Store) (r : Resolver) (c : Catalog)
    (h : (b.build s r).1 = .ok c) (current : Store) (accept : Operation → Bool) :
    c.Partitions current accept (c.observers current accept) := by
  rw [contents_of_build h]
  exact Catalog.partitions_observers (fun op hop => declaring_mem_contents hop) current accept

def interleavedBuilder : CatalogBuilder where
  operations := [
    .method ⟨Platform.list, [.any]⟩ "size" false [] Platform.intTy,
    .method ⟨.string, []⟩ "length" false [] Platform.intTy,
    .method ⟨Platform.list, [.any]⟩ "clear" false [] .void,
    .method ⟨Platform.list, [.any]⟩ "isEmpty" false [] Platform.booleanTy]

theorem partitions_observers_of_build_interleaved :
    (interleavedBuilder.build Platform.store {}).1 =
      .ok (interleavedBuilder.contents Platform.store {}) ∧
    (interleavedBuilder.contents Platform.store {}).Partitions Platform.store (fun _ => true)
      ((interleavedBuilder.contents Platform.store {}).observers Platform.store fun _ => true) :=
  have hbuild := build_eq_contents rfl
  ⟨hbuild, partitions_observers_of_build _ _ {} _ hbuild _ _⟩

example : ((interleavedBuilder.contents Platform.store {}).observers Platform.store
    fun _ => true).map (fun g => (g.1, g.2.map Operation.name)) =
      [(⟨Platform.list, [.any]⟩, ["size", "isEmpty"]), (⟨.string, []⟩, ["length"])] := by
  decide

end CatalogBuilder

end CallCatalog
