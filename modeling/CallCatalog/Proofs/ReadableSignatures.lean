import CallCatalog.Proofs.UniqueReadability
import CallCatalog.Types.Platform

namespace CallCatalog

theorem append_cons_inj_of_all {c : Char} {r r' w w' : List Char} (hw : w.all (· != c))
    (hw' : w'.all (· != c)) (h : r ++ c :: w = r' ++ c :: w') : r = r' ∧ w = w' := by
  have hreverse : w.reverse ++ c :: r.reverse = w'.reverse ++ c :: r'.reverse := by
    simpa using congrArg List.reverse h
  have hsplit := append_inj_of_all (by rwa [List.all_reverse]) (by rwa [List.all_reverse])
    (by simp) (by simp) hreverse
  exact ⟨by simpa using hsplit.2, List.reverse_injective hsplit.1⟩

theorem all_ne_paren {w : List Char} (h : w.all isWordChar) : w.all (· != '(') := by
  rw [List.all_eq_true] at h ⊢
  intro c hc
  rw [bne_iff_ne]
  rintro rfl
  cases h '(' hc

namespace Store

variable {s : Store} {t : Ty} {ts : List Ty} {position : RefPosition}

theorem toList_intercalate_format (s : Store) (ts : List Ty) :
    (", ".intercalate (ts.map s.format)).toList = s.listText ts := by
  induction ts with
  | nil => simp [listText]
  | cons t ts ih =>
      cases ts with
      | nil => simp [listText, text, moreText_nil]
      | cons u ts =>
          rw [List.map_cons, List.map_cons, String.intercalate_cons_cons, ← List.map_cons,
            String.toList_append, String.toList_append, ih]
          simp [listText, text, moreText_cons]

theorem all_listText {p : Char → Bool} (hcomma : p ',') (hblank : p ' ')
    (h : ∀ t ∈ ts, (s.text t).all p) : (s.listText ts).all p := by
  induction ts with
  | nil => rfl
  | cons t ts ih =>
      have hrest := ih fun t ht => h t (by simp [ht])
      rw [listText, List.all_append, h t (by simp), Bool.true_and]
      cases ts with
      | nil => rw [moreText_nil, List.all_nil]
      | cons u ts => simp only [moreText_cons, List.all_cons, hcomma, hblank, hrest, Bool.and_self]

theorem Legible.all_text (h : s.Legible position t) : (s.text t).all (· != '(') := by
  induction h with
  | void =>
      simp only [text, format]
      decide
  | @primitive _ p =>
      simp only [text, format]
      cases p <;> decide
  | @cls _ id name args hid hname _ ih =>
      have hplain : name.toList.all (· != '(') := all_ne_paren hname.plain
      have hlist : (s.listText args).all (· != '(') := all_listText rfl rfl ih
      rw [text_cls hid, List.all_append, hplain, argumentsText]
      split
      · rfl
      · simp [hlist]
  | arr _ ih => simp [text_arr, ih]
  | any => simp [text_any]
  | ext _ ih => simp [text_ext, ih]
  | sup _ ih => simp [text_sup, ih]

theorem static_append_ne {id : ClassId} {args : List Ty} {l : List Char}
    (h : s.Legible position (.cls id args)) : "static ".toList ++ l ≠ s.text (.cls id args) := by
  cases h with
  | @cls _ _ name _ hid hname hargs =>
      intro heq
      have hstatic : "static ".toList ++ l = "static".toList ++ ' ' :: l := by simp
      rw [hstatic, text_cls hid] at heq
      have hhead : ∀ c ∈ (s.argumentsText args).head?, isWordChar c = false := by
        have hnone := head?_argumentsText_append (s := s) (k := []) (by simp) args
        rwa [List.append_nil] at hnone
      obtain ⟨-, hrest⟩ := append_inj_of_all (by decide) hname.plain
        (fun c hc => by rw [← Option.some.inj hc]; decide) hhead heq
      unfold argumentsText at hrest
      split at hrest
      · cases hrest
      · simp at hrest

end Store

namespace Operation

variable {s : Store} {op op' : Operation}

/-- The operation is a constructor or a method over legible types, and the name of a method may
stand for one. -/
inductive Legible (s : Store) : Operation → Prop
  | constructor {declaring : ClassType} {params : List Ty}
      (hdeclaring : s.Legible .value declaring.toTy)
      (hparams : ∀ t ∈ params, s.Legible .value t) : Legible s (constructor declaring params)
  | method {declaring : ClassType} {name : String} {isStatic : Bool} {params : List Ty}
      {output : Ty} (hdeclaring : s.Legible .value declaring.toTy) (hname : IsMethodName name)
      (hparams : ∀ t ∈ params, s.Legible .value t) (houtput : s.Legible .value output) :
      Legible s (method declaring name isStatic params output)

theorem params_method (declaring : ClassType) (name : String) (isStatic : Bool) (params : List Ty)
    (output : Ty) : (method declaring name isStatic params output).params = params := by
  cases isStatic <;> rfl

namespace Legible

theorem declaring (h : op.Legible s) : s.Legible .value op.declaring.toTy := by
  cases h with
  | constructor hdeclaring _ => exact hdeclaring
  | method hdeclaring _ _ _ => exact hdeclaring

theorem params (h : op.Legible s) : ∀ t ∈ op.params, s.Legible .value t := by
  cases h with
  | constructor _ hparams => exact hparams
  | method _ _ hparams _ =>
      rw [params_method]
      exact hparams

theorem output (h : op.Legible s) : s.Legible .value op.output := by
  cases h with
  | constructor hdeclaring _ => exact hdeclaring
  | method _ _ _ houtput => exact houtput

theorem name (h : op.Legible s) :
    op.name.toList.all (· != '(') ∧ op.name.toList.all (· != '.') := by
  cases h with
  | constructor _ _ =>
      have hinit : "<init>".toList.all (· != '(') ∧ "<init>".toList.all (· != '.') := by decide
      exact hinit
  | method _ hname _ _ => exact ⟨all_ne_paren hname.1, hname.2⟩

theorem ext (h : op.Legible s) (h' : op'.Legible s) (hstatic : op.isStatic = op'.isStatic)
    (hdeclaring : op.declaring = op'.declaring) (hname : op.name = op'.name)
    (hparams : op.params = op'.params) (houtput : op.output = op'.output) : op = op' := by
  have hnone : ∀ name, IsMethodName name → "<init>" ≠ name := by
    rintro name hname rfl
    exact absurd hname (by decide)
  cases h with
  | @constructor declaring params _ _ =>
      cases h' with
      | @constructor declaring' params' _ _ =>
          have hdeclaring : declaring = declaring' := hdeclaring
          have hparams : params = params' := hparams
          rw [hdeclaring, hparams]
      | method _ hmethod _ _ => exact absurd hname (hnone _ hmethod)
  | @method declaring name isStatic params output _ hmethod _ _ =>
      cases h' with
      | constructor _ _ => exact absurd hname.symm (hnone _ hmethod)
      | @method declaring' name' isStatic' params' output' _ _ _ _ =>
          have hdeclaring : declaring = declaring' := hdeclaring
          have hname : name = name' := hname
          have hstatic : isStatic = isStatic' := hstatic
          have houtput : output = output' := houtput
          rw [params_method, params_method] at hparams
          rw [hdeclaring, hname, hstatic, hparams, houtput]

end Legible

def headText (s : Store) (op : Operation) : List Char :=
  (if op.isStatic then "static ".toList else []) ++ s.text op.declaring.toTy

theorem toList_signature (s : Store) (op : Operation) :
    (op.signature s).toList = (op.headText s ++ '.' :: op.name.toList) ++
      '(' :: (s.listText op.params ++ ')' :: (" -> ".toList ++ s.text op.output)) := by
  simp only [signature, String.toList_append, Store.toList_intercalate_format, headText]
  split <;> simp [Store.text, Store.formatClass]

theorem Legible.all_headText (h : op.Legible s) :
    (op.headText s ++ '.' :: op.name.toList).all (· != '(') := by
  simp only [headText, List.all_append, List.all_cons, h.declaring.all_text, h.name.1,
    Bool.and_true]
  split <;> decide

theorem headText_inj (hs : (s.classes.map ClassEntry.name).Nodup) (h : op.Legible s)
    (h' : op'.Legible s) (heq : op.headText s = op'.headText s) :
    op.isStatic = op'.isStatic ∧ op.declaring = op'.declaring := by
  have hstatic : op.isStatic = op'.isStatic := by
    unfold headText at heq
    cases hfirst : op.isStatic with
    | true =>
        cases hsecond : op'.isStatic with
        | true => rfl
        | false =>
            rw [hfirst, hsecond] at heq
            exact absurd heq (Store.static_append_ne h'.declaring)
    | false =>
        cases hsecond : op'.isStatic with
        | true =>
            rw [hfirst, hsecond] at heq
            exact absurd heq.symm (Store.static_append_ne h.declaring)
        | false => rfl
  refine ⟨hstatic, ?_⟩
  rw [headText, headText, hstatic] at heq
  -- the word is the same in both texts, so it can be cancelled
  have htext := List.append_cancel_left heq
  exact ClassType.toTy_inj (Store.eq_of_text_eq hs h.declaring h'.declaring htext)

/-- The text of an operation comes apart at its first parenthesis and the last dot before it, and
all parts can be read back. -/
theorem eq_of_signature_eq (hs : (s.classes.map ClassEntry.name).Nodup) (h : op.Legible s)
    (h' : op'.Legible s) (heq : op.signature s = op'.signature s) : op = op' := by
  have hchars := congrArg String.toList heq
  rw [toList_signature, toList_signature] at hchars
  obtain ⟨hfront, hback⟩ := append_inj_of_all h.all_headText h'.all_headText (by simp) (by simp)
    hchars
  obtain ⟨hhead, hname⟩ := append_cons_inj_of_all h.name.2 h'.name.2 hfront
  obtain ⟨hstatic, hdeclaring⟩ := headText_inj hs h h' hhead
  have hcloses : ∀ rest, Store.Closes (')' :: rest) := fun rest => ⟨')', rest, rfl, Or.inr rfl⟩
  obtain ⟨hparams, hrest⟩ := Store.listText_append_inj hs
    (fun t ht => (h.params t ht).readsBack hs) (fun t ht => (h.params t ht).argument)
    (fun t ht => (h'.params t ht).argument) (hcloses _) (hcloses _) (List.cons.inj hback).2
  have houtput := Store.eq_of_text_eq hs h.output h'.output
    (List.append_cancel_left (List.cons.inj hrest).2)
  exact h.ext h' hstatic hdeclaring (String.toList_inj.mp hname) hparams houtput

end Operation

/-- With distinct class names in the store, types with the same text are the same, and so are
operations with the same signature. -/
theorem Store.format_signature_inj (s : Store) (hs : (s.classes.map ClassEntry.name).Nodup) :
    (∀ position position' t u, s.Legible position t → s.Legible position' u →
      s.format t = s.format u → t = u) ∧
    ∀ op op' : Operation, op.Legible s → op'.Legible s → op.signature s = op'.signature s →
      op = op' :=
  ⟨fun _ _ _ _ ht hu heq => eq_of_text_eq hs ht hu (congrArg String.toList heq),
    fun _ _ h h' heq => Operation.eq_of_signature_eq hs h h' heq⟩

theorem isClassName_platform {id : ClassId} {name : String}
    (h : Platform.store.className? id = some name) : IsClassName name := by
  have hall : ∀ name ∈ Platform.store.classes.map ClassEntry.name, name ≠ "" ∧
      name.toList.all isWordChar ∧ name ≠ "void" ∧ ∀ p ∈ Primitive.all, name ≠ p.keyword := by
    decide +kernel
  have hmem : name ∈ Platform.store.classes.map ClassEntry.name := by
    rw [Store.className?, ← List.getElem?_map] at h
    exact List.mem_of_getElem? h
  obtain ⟨hempty, hplain, hvoid, hkeyword⟩ := hall name hmem
  exact ⟨⟨hempty, hplain⟩, hvoid, fun p => hkeyword p (by cases p <;> decide)⟩

/-- `List<? super Integer>[]` is not written like `List<? extends Integer>[]`, and a static method
is not written like an instance method. -/
theorem format_signature_inj_platform :
    (Platform.store.classes.map ClassEntry.name).Nodup ∧
    Platform.store.format (.arr (.cls Platform.list [.sup (Platform.plain .integer)])) ≠
      Platform.store.format (.arr (.cls Platform.list [.ext (Platform.plain .integer)])) ∧
    ∀ isStatic, Operation.signature Platform.store
        (.method ⟨Platform.arrayList, [Platform.stringTy]⟩ "add" isStatic [Platform.stringTy]
          Platform.booleanTy) =
      Operation.signature Platform.store
        (.method ⟨Platform.arrayList, [Platform.stringTy]⟩ "add" false [Platform.stringTy]
          Platform.booleanTy) → isStatic = false := by
  have hnames : (Platform.store.classes.map ClassEntry.name).Nodup := by decide
  have hcls : ∀ id name args position, Platform.store.className? id = some name →
      (∀ a ∈ args, Platform.store.Legible .argument a) →
      Platform.store.Legible position (.cls id args) :=
    fun _ _ _ _ hid hargs => .cls hid (isClassName_platform hid) hargs
  have hinteger : Platform.store.Legible .value (Platform.plain .integer) :=
    hcls .integer "java.lang.Integer" [] .value rfl (by simp)
  have hstring : ∀ position, Platform.store.Legible position Platform.stringTy :=
    fun position => hcls .string "java.lang.String" [] position rfl (by simp)
  have hlist : ∀ a, Platform.store.Legible .argument a →
      Platform.store.Legible .value (.arr (.cls Platform.list [a])) :=
    fun a ha => .arr (hcls Platform.list "java.util.List" [a] .value rfl (by simpa using ha))
  have hdeclaring : Platform.store.Legible .value (.cls Platform.arrayList [Platform.stringTy]) :=
    hcls Platform.arrayList "java.util.ArrayList" _ .value rfl (by simpa using hstring .argument)
  have hadd : ∀ isStatic, Operation.Legible Platform.store
      (.method ⟨Platform.arrayList, [Platform.stringTy]⟩ "add" isStatic [Platform.stringTy]
        Platform.booleanTy) := by
    intro isStatic
    have hname : IsMethodName "add" := by decide
    exact .method hdeclaring hname (by simpa using hstring .value) .primitive
  obtain ⟨hformat, hsignature⟩ := Store.format_signature_inj Platform.store hnames
  refine ⟨hnames, fun heq => ?_, fun isStatic heq => ?_⟩
  · have hsame := hformat .value .value _ _ (hlist _ (.sup hinteger)) (hlist _ (.ext hinteger)) heq
    cases hsame
  · have hsame := hsignature _ _ (hadd isStatic) (hadd false) heq
    exact (OperationKind.method.inj (congrArg Operation.kind hsame)).2

end CallCatalog
