import CallCatalog.Proofs.DirectiveTexts
import Mathlib.Data.List.Induction

namespace CallCatalog

namespace LogFilter

def lastLevel? (ds : List LogDirective) (target : Option String) : Option LogLevel :=
  (ds.reverse.find? fun d => d.target = target).map LogDirective.level

theorem lastLevel?_append (ds es : List LogDirective) (target : Option String) :
    lastLevel? (ds ++ es) target = (lastLevel? es target).or (lastLevel? ds target) := by
  rw [lastLevel?, List.reverse_append, List.find?_append, Option.map_or]
  rfl

theorem lastLevel?_concat (ds : List LogDirective) (d : LogDirective) (target : Option String) :
    lastLevel? (ds ++ [d]) target =
      if d.target = target then some d.level else lastLevel? ds target := by
  rw [lastLevel?, List.reverse_concat, List.find?_cons]
  by_cases h : d.target = target
  · simp [h]
  · simp [h, lastLevel?]

theorem perm_add (f : LogFilter) (d : LogDirective) : (f.add d).directives.Perm
    (d :: f.directives.filter fun e => e.target ≠ d.target) := by
  rw [add]
  exact List.perm_middle.trans (by rw [List.takeWhile_append_dropWhile])

theorem ofList_concat (ds : List LogDirective) (d : LogDirective) :
    ofList (ds ++ [d]) = (ofList ds).add d := by
  rw [ofList, List.foldl_concat]
  rfl

theorem nodup_ofList (ds : List LogDirective) :
    ((ofList ds).directives.map LogDirective.target).Nodup := by
  induction ds using List.reverseRecOn with
  | nil => exact List.nodup_nil
  | append_singleton ds d ih =>
      rw [ofList_concat, ((perm_add (ofList ds) d).map _).nodup_iff, List.map_cons,
        List.nodup_cons]
      refine ⟨?_, ih.sublist (List.filter_sublist.map _)⟩
      simp

theorem mem_ofList (ds : List LogDirective) (target : Option String) (level : LogLevel) :
    ⟨target, level⟩ ∈ (ofList ds).directives ↔ lastLevel? ds target = some level := by
  induction ds using List.reverseRecOn with
  | nil => simp [ofList, lastLevel?]
  | append_singleton ds d ih =>
      rw [ofList_concat, (perm_add (ofList ds) d).mem_iff, lastLevel?_concat, List.mem_cons,
        List.mem_filter, ih]
      by_cases h : d.target = target
      · subst h
        cases d
        simp [eq_comm]
      · have hne : (⟨target, level⟩ : LogDirective) ≠ d := fun heq => h (heq ▸ rfl)
        simp [h, hne, Ne.symm h]

/-- What the filter in effect holds. The directives of the two texts are given, or none if the text
is malformed or, for the overriding one, not there. -/
structure Combines (f : LogFilter) (configured overriding : Option (List LogDirective)) : Prop where
  distinct : (f.directives.map LogDirective.target).Nodup
  /-- The last overriding directive for a target counts, or else the last configured one. -/
  both : ∀ ds es, configured = some ds → overriding = some es → ∀ target level,
    ⟨target, level⟩ ∈ f.directives ↔
      (lastLevel? es target).or (lastLevel? ds target) = some level
  /-- Malformed configured directives leave the overriding ones in effect. -/
  overridingOnly : ∀ es, configured = none → overriding = some es → ∀ target level,
    ⟨target, level⟩ ∈ f.directives ↔ lastLevel? es target = some level
  /-- Malformed overriding directives leave the configured ones in effect. -/
  configuredOnly : ∀ ds, configured = some ds → overriding = none → ∀ target level,
    ⟨target, level⟩ ∈ f.directives ↔ lastLevel? ds target = some level
  neither : configured = none → overriding = none → f.directives = [⟨none, .info⟩]

/-- The filter of two texts that are read, or of the one that is read. -/
def combine : Option (List LogDirective) → Option (List LogDirective) → LogFilter
  | some ds, some es => ofList (ds ++ es)
  | none, some es => ofList es
  | some ds, none => ofList ds
  | none, none => ⟨[⟨none, .info⟩]⟩

theorem combines_combine (configured overriding : Option (List LogDirective)) :
    (combine configured overriding).Combines configured overriding where
  distinct := by
    cases configured <;> cases overriding
    case none.none => exact List.pairwise_singleton _ _
    all_goals exact nodup_ofList _
  both := by
    rintro ds es rfl rfl target level
    rw [← lastLevel?_append]
    exact mem_ofList _ target level
  overridingOnly := by
    rintro es rfl rfl
    exact mem_ofList es
  configuredOnly := by
    rintro ds rfl rfl
    exact mem_ofList ds
  neither := by
    rintro rfl rfl
    rfl

end LogFilter

namespace LoggingSettings

open LogFilter

/-- The candidates amount to reading each of the two texts on its own. -/
theorem filter_eq_combine (s : LoggingSettings) (environment : Option String) :
    s.filter environment =
      combine (directives? s.directives) ((overrides environment).bind directives?) := by
  rw [filter, candidates]
  cases overrides environment with
  | none => cases h : directives? s.directives <;> simp [parse?_eq_map, h, combine]
  | some text =>
      cases hs : directives? s.directives <;> cases he : directives? text <;>
        simp [parse?_eq_map, directives?_append, hs, he, combine]

variable {directives : List (Option LogDirective)}

theorem isEmpty_trim_iff {text : String} (h : Written text directives) :
    (String.ofList (Blank.trim text.toList)).isEmpty ↔ directives = [] := by
  obtain ⟨texts, hwritten, htext⟩ := h
  rw [htext, String.ofList_toList]
  cases hwritten with
  | nil => simp
  | cons hfirst hrest =>
      have hne := hfirst.toList_ne_nil
      rw [String.isEmpty_iff, ← String.toList_inj, String.toList_intercalate]
      cases hrest <;> simp [List.intercalate, hne]

theorem directives?_info : directives? "info" = some [⟨none, .info⟩] := by
  have hwritten : LogDirective.Written "info" (some ⟨none, .info⟩) :=
    .level (LogLevel.toLower_eq_word (by decide))
  have hsingle : ",".intercalate ["info"] = "info" := rfl
  have hpieces : ∀ text ∈ ["info"], ',' ∉ text.toList ∧ text.toList ≠ [] := by decide
  rw [← hsingle, directives?_intercalate hpieces, List.mapM_cons,
    LogDirective.parse?_of_written hwritten]
  rfl

theorem directives?_directives {s : LoggingSettings} (h : Written s.level directives) :
    directives? s.directives =
      if directives = [] then some [⟨none, .info⟩] else directives.mapM id := by
  rw [LoggingSettings.directives]
  by_cases hnil : directives = []
  · rw [if_pos hnil, if_pos ((isEmpty_trim_iff h).2 hnil), directives?_info]
  · rw [if_neg hnil, if_neg (mt (isEmpty_trim_iff h).1 hnil), directives?_of_written h]

theorem directives?_overrides {environment : Option String}
    (h : Written (environment.getD "") directives) :
    (overrides environment).bind directives? =
      if directives = [] then none else directives.mapM id := by
  have hempty := isEmpty_trim_iff h
  cases environment with
  | none =>
      rw [if_pos (hempty.1 (by decide))]
      rfl
  | some text =>
      rw [Option.getD_some, String.isEmpty_iff] at hempty
      rw [overrides, Option.map_some]
      by_cases hnil : directives = []
      · rw [if_pos hnil, hempty.2 hnil]
        rfl
      · rw [if_neg hnil, ← directives?_of_written h]
        split
        case h_1 hblank => exact absurd (hempty.1 (Option.some.inj hblank)) hnil
        case h_2 => rfl

/-- Of texts that are written as directives with commas between them, the filter in effect holds
what is described by `Combines`. Blank configured directives stand for `info`, and a blank text in
the environment for none. -/
theorem combines_of_written (s : LoggingSettings) (environment : Option String)
    {configured overriding : List (Option LogDirective)}
    (hconfigured : Written s.level configured)
    (hoverriding : Written (environment.getD "") overriding) :
    (s.filter environment).Combines
      (if configured = [] then some [⟨none, .info⟩] else configured.mapM id)
      (if overriding = [] then none else overriding.mapM id) := by
  rw [filter_eq_combine, directives?_directives hconfigured, directives?_overrides hoverriding]
  exact combines_combine _ _

theorem combines_of_written_layered :
    Written "info,opmodel=debug" [some ⟨none, .info⟩, some ⟨some "opmodel", .debug⟩] ∧
      Written " opmodel=TRACE,warn" [some ⟨some "opmodel", .trace⟩, some ⟨none, .warn⟩] ∧
      (({ level := "info,opmodel=debug" } : LoggingSettings).filter
        (some " opmodel=TRACE,warn")).Combines
          (some [⟨none, .info⟩, ⟨some "opmodel", .debug⟩])
          (some [⟨some "opmodel", .trace⟩, ⟨none, .warn⟩]) := by
  have htarget : LogDirective.IsTarget "opmodel" := ⟨by decide, by decide, by decide, by decide⟩
  have hinfo : "info".toLower = LogLevel.info.word := LogLevel.toLower_eq_word (by decide)
  have hdebug : "debug".toLower = LogLevel.debug.word := LogLevel.toLower_eq_word (by decide)
  have htrace : "TRACE".toLower = LogLevel.trace.word := LogLevel.toLower_eq_word (by decide)
  have hwarn : "warn".toLower = LogLevel.warn.word := LogLevel.toLower_eq_word (by decide)
  have hconfigured : Written "info,opmodel=debug"
      [some ⟨none, .info⟩, some ⟨some "opmodel", .debug⟩] := by
    refine ⟨["info", "opmodel=debug"],
      .cons (.level hinfo) (.cons (.target htarget hdebug) .nil), ?_⟩
    rw [String.toList_intercalate]
    rfl
  have hoverriding : Written " opmodel=TRACE,warn"
      [some ⟨some "opmodel", .trace⟩, some ⟨none, .warn⟩] := by
    refine ⟨["opmodel=TRACE", "warn"],
      .cons (.target htarget htrace) (.cons (.level hwarn) .nil), ?_⟩
    rw [String.toList_intercalate]
    rfl
  have hcombines := combines_of_written ⟨"info,opmodel=debug", false, true⟩
    (some " opmodel=TRACE,warn") hconfigured hoverriding
  rw [if_neg (List.cons_ne_nil _ _), if_neg (List.cons_ne_nil _ _)] at hcombines
  exact ⟨hconfigured, hoverriding, hcombines⟩

end LoggingSettings

end CallCatalog
