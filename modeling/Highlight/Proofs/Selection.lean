import Highlight.Cli.Report
import Highlight.Proofs.Tallies
import Mathlib.Data.List.Infix

/-!
# What a filter leaves

The code of a fixture is tokenized before a filter is looked at, and each assertion is checked
on its own. So a filter leaves, of the results that there are without it, those whose label holds its
text, and takes no fault away. The same holds of a run, and of what the program makes of it.
-/

namespace Highlight.Check

def labelled (part : String) (results : List Result) : List Result :=
  results.filter fun r => part.toList <:+: r.assertion.label.toList

/-- One summary has, of the results of the other, those whose label holds the text, and counts these. -/
structure FileSummary.Narrows (part : String) (whole narrow : FileSummary) : Prop where
  path : narrow.path = whole.path
  results : narrow.results = labelled part whole.results
  counts : Tallies narrow.passed narrow.failed narrow.results

def FileSummary.narrow (part : String) (s : FileSummary) : FileSummary :=
  .ofResults s.path (labelled part s.results)

def RunSummary.narrow (part : String) (s : RunSummary) : RunSummary :=
  .ofFiles (s.files.map (FileSummary.narrow part))

theorem FileSummary.narrows_narrow (part : String) (s : FileSummary) : s.Narrows part (s.narrow part) where
  path := path_ofResults ..
  results := results_ofResults ..
  counts := (built_ofResults ..).tallies

/-! ## Fixtures -/

section

variable (h : Highlighter) (fs : Files.FileSystem) (part path source : String)

theorem selects_some (a : Assertion) : selects (some part) a = decide (part.toList <:+: a.label.toList) := by
  rw [Bool.eq_iff_iff, decide_eq_true_iff]
  exact Text.hasPart_iff

theorem selects_empty : selects (some "") = selects none := by
  funext a
  rw [selects_some]
  exact decide_eq_true (List.nil_infix (l := a.label.toList))

theorem checkSource_some :
    checkSource h (some part) path source = (checkSource h none path source).map (FileSummary.narrow part) := by
  rw [checkSource_eq_map, checkSource_eq_map, filter_selects_none, Results.map_map]
  congr 1
  funext tokens
  have hpart : selects (some part) = fun a => decide (part.toList <:+: a.label.toList) := funext (selects_some part)
  rw [Function.comp_apply, FileSummary.narrow, path_ofResults, results_ofResults, labelled, hpart, List.filter_map,
    Function.comp_def]

theorem checkSource_empty : checkSource h (some "") path source = checkSource h none path source := by
  unfold checkSource
  rw [selects_empty]

/-! ## Runs -/

theorem checkFile_some :
    checkFile fs h (some part) path = (checkFile fs h none path).map (FileSummary.narrow part) := by
  unfold checkFile
  simp only [checkSource_some, Results.map_bind]

theorem mapM_checkFile_some : ∀ paths : List String,
    paths.mapM (checkFile fs h (some part)) = (paths.mapM (checkFile fs h none)).map (List.map (FileSummary.narrow part))
  | [] => rfl
  | p :: paths => by
    rw [List.mapM_cons, List.mapM_cons, checkFile_some, mapM_checkFile_some paths]
    cases checkFile fs h none p with
    | error e => rfl
    | ok file =>
      cases paths.mapM (checkFile fs h none) with
      | error e => rfl
      | ok files => rfl

theorem checkPath_some :
    checkPath fs h (some part) path = (checkPath fs h none path).map (RunSummary.narrow part) := by
  rw [checkPath_eq_map, checkPath_eq_map, mapM_checkFile_some, Results.map_map, Results.map_map]
  congr 1
  funext files
  rw [Function.comp_apply, Function.comp_apply, RunSummary.narrow, files_ofFiles]

theorem checkPath_empty : checkPath fs h (some "") path = checkPath fs h none path := by
  have hfile : checkFile fs h (some "") = checkFile fs h none := by
    funext p
    unfold checkFile
    simp only [checkSource_empty]
  rw [checkPath_eq_map, checkPath_eq_map, hfile]

end

variable {h : Highlighter} {fs : Files.FileSystem} {filter : Option String} {part path : String} {s : RunSummary}
  {engine : Engine}

theorem RunSummary.built_narrow (part : String) (s : RunSummary) : (s.narrow part).Built := by
  refine built_ofFiles fun file hfile => ?_
  obtain ⟨whole, _, rfl⟩ := List.mem_map.mp hfile
  exact built_ofResults ..

/-- What is left out cannot make a run fail. -/
theorem RunSummary.exitCode_narrow (hs : s.Built) (hzero : s.exitCode = 0) : (s.narrow part).exitCode = 0 := by
  rw [(s.built_narrow part).counted.exitCode]
  intro file hfile r hr
  rw [narrow, files_ofFiles] at hfile
  obtain ⟨whole, hwhole, rfl⟩ := List.mem_map.mp hfile
  rw [(whole.narrows_narrow part).results] at hr
  exact hs.counted.exitCode.mp hzero whole hwhole r (List.mem_of_mem_filter hr)

/-! ## The program -/

/-- What is tested succeeds where a run does that finds no failure. -/
theorem exitCode_perform_test {grammar : String} {verbose : Bool} :
    (Cli.perform fs ⟨grammar, .test path filter verbose⟩ engine).exitCode = 0 ↔
      fs.exists path = true ∧
        ∃ h s, Highlighter.load fs grammar engine = .ok h ∧ checkPath fs h filter path = .ok s ∧ s.exitCode = 0 := by
  unfold Cli.perform Cli.withGrammar
  simp only [Results.bind_pure_eq_map]
  by_cases hpath : fs.exists path = true
  · simp only [hpath, Bool.not_true, Bool.false_eq_true, if_false, true_and]
    cases Highlighter.load fs grammar engine with
    | error e => simp [Cli.Report.exitCode]
    | ok h =>
      simp only [Except.ok.injEq, exists_and_left, exists_eq_left']
      cases checkPath fs h filter path with
      | error e => simp [Except.map, Cli.Report.exitCode]
      | ok s => simp [Except.map, Cli.Report.exitCode]
  · simp [hpath, Cli.Report.exitCode]

theorem exitCode_perform_some {grammar : String} {verbose : Bool}
    (hzero : (Cli.perform fs ⟨grammar, .test path none verbose⟩ engine).exitCode = 0) :
    (Cli.perform fs ⟨grammar, .test path (some part) verbose⟩ engine).exitCode = 0 := by
  obtain ⟨hpath, h, s, hload, hs, hzero⟩ := exitCode_perform_test.mp hzero
  refine exitCode_perform_test.mpr ⟨hpath, h, s.narrow part, hload, ?_, RunSummary.exitCode_narrow (built_of_checkPath hs) hzero⟩
  rw [checkPath_some, hs]
  rfl

/-- A filter changes nothing but which results there are: those whose label holds its text, in the
same order with the same outcomes. Faults stay, the empty filter leaves everything, and what
succeeds without a filter succeeds with each. -/
theorem filter_only_selects (part : String) :
    (∀ h path source,
      (∀ e, checkSource h (some part) path source = .error e ↔ checkSource h none path source = .error e) ∧
      (∀ whole, checkSource h none path source = .ok whole →
        ∃ narrow, checkSource h (some part) path source = .ok narrow ∧ whole.Narrows part narrow) ∧
      checkSource h (some "") path source = checkSource h none path source) ∧
    (∀ fs h path,
      (∀ e, checkPath fs h (some part) path = .error e ↔ checkPath fs h none path = .error e) ∧
      (∀ whole, checkPath fs h none path = .ok whole →
        ∃ narrow, checkPath fs h (some part) path = .ok narrow ∧
          List.Forall₂ (FileSummary.Narrows part) whole.files narrow.files ∧ narrow.Counted ∧
          (whole.exitCode = 0 → narrow.exitCode = 0)) ∧
      checkPath fs h (some "") path = checkPath fs h none path) ∧
    ∀ fs engine grammar path verbose, (Cli.perform fs ⟨grammar, .test path none verbose⟩ engine).exitCode = 0 →
      (Cli.perform fs ⟨grammar, .test path (some part) verbose⟩ engine).exitCode = 0 := by
  refine ⟨fun h path source => ⟨?_, ?_, checkSource_empty h path source⟩,
    fun fs h path => ⟨?_, ?_, checkPath_empty h fs path⟩, fun fs engine grammar path verbose => exitCode_perform_some⟩
  · intro e
    rw [checkSource_some, Results.map_eq_error]
  · intro whole hwhole
    rw [checkSource_some, hwhole]
    exact ⟨_, rfl, whole.narrows_narrow part⟩
  · intro e
    rw [checkPath_some, Results.map_eq_error]
  · intro whole hwhole
    rw [checkPath_some, hwhole]
    refine ⟨_, rfl, ?_, (whole.built_narrow part).counted, RunSummary.exitCode_narrow (built_of_checkPath hwhole)⟩
    rw [RunSummary.narrow, files_ofFiles, List.forall₂_map_right_iff, List.forall₂_same]
    exact fun file _ => file.narrows_narrow part

end Highlight.Check

namespace Highlight

/-- Labels of the fixture speak of no square brackets, so nothing is left of its results. -/
theorem filter_only_selects_brackets :
    ∃ narrow, Check.checkSource Brackets.highlighter (some "square") "f" "ab(\n--^ round\n)b" = .ok narrow ∧
      Check.FileSummary.Narrows "square" ⟨"f", [⟨"f", Brackets.assertion, .passed⟩], 1, 0⟩ narrow :=
  ((Check.filter_only_selects "square").1 Brackets.highlighter "f" "ab(\n--^ round\n)b").2.1 _ Brackets.checkSource_fixture

end Highlight
