import Highlight.Check.Run
import Highlight.Proofs.Judgement

/-!
# What a run tells

The counts of a summary are kept beside its results, for each file and again for the whole
run. They are the numbers of results that passed and failed, in whatever way a summary has been
put together. A run has a summary for each fixture, or it ends with the error of the first
fixture that cannot be checked.
-/

namespace Highlight.Check

/-! ## Counts -/

inductive FileSummary.Built : FileSummary → Prop
  | empty (path : String) : Built (.empty path)
  | add {s : FileSummary} (r : Result) : Built s → Built (s.add r)

inductive RunSummary.Built : RunSummary → Prop
  | empty : Built .empty
  | add {s : RunSummary} {file : FileSummary} : Built s → file.Built → Built (s.add file)

def RunSummary.results (s : RunSummary) : List Result :=
  s.files.flatMap (·.results)

structure Tallies (passed failed : Nat) (results : List Result) : Prop where
  passed : passed = results.countP fun r => r.outcome = .passed
  failed : failed = results.countP fun r => r.outcome.isFailed

structure RunSummary.Counted (s : RunSummary) : Prop where
  files : ∀ file ∈ s.files, Tallies file.passed file.failed file.results
  run : Tallies s.passed s.failed s.results
  exitCode : s.exitCode = 0 ↔ ∀ file ∈ s.files, ∀ r ∈ file.results, r.outcome.isFailed = false

theorem Outcome.eq_passed_iff {o : Outcome} : o = .passed ↔ o.isFailed = false := by
  cases o with
  | passed => simp [isFailed]
  | failed message => simp [isFailed]

namespace Tallies

variable {passed failed passed' failed' : Nat} {results results' : List Result}

theorem append (h : Tallies passed failed results) (h' : Tallies passed' failed' results') :
    Tallies (passed + passed') (failed + failed') (results ++ results') where
  passed := by rw [List.countP_append, ← h.passed, ← h'.passed]
  failed := by rw [List.countP_append, ← h.failed, ← h'.failed]

theorem singleton (r : Result) :
    Tallies (if r.outcome.isFailed then 0 else 1) (if r.outcome.isFailed then 1 else 0) [r] := by
  have hpassed := Outcome.eq_passed_iff (o := r.outcome)
  by_cases hr : r.outcome.isFailed = true
  · refine ⟨?_, ?_⟩
    · simp [hr, hpassed]
    · simp [hr]
  · refine ⟨?_, ?_⟩
    · simp [hr, hpassed]
    · simp [hr]

theorem failed_eq_zero_iff (h : Tallies passed failed results) :
    failed = 0 ↔ ∀ r ∈ results, r.outcome.isFailed = false := by
  rw [h.failed, List.countP_eq_zero]
  simp only [Bool.not_eq_true]

end Tallies

theorem FileSummary.Built.tallies {s : FileSummary} (h : s.Built) : Tallies s.passed s.failed s.results := by
  induction h with
  | empty path => exact ⟨rfl, rfl⟩
  | @add s r _ ih =>
    have hadd := ih.append (.singleton r)
    unfold FileSummary.add
    by_cases hr : r.outcome.isFailed = true
    · simp only [if_pos hr] at hadd ⊢
      exact hadd
    · simp only [if_neg hr] at hadd ⊢
      exact hadd

theorem RunSummary.exitCode_eq_zero_iff {s : RunSummary} : s.exitCode = 0 ↔ s.failed = 0 := by
  unfold exitCode hasFailures
  by_cases h : s.failed = 0
  · simp [h]
  · simp [Nat.pos_of_ne_zero h, h]

theorem RunSummary.Built.tallies {s : RunSummary} (h : s.Built) :
    (∀ file ∈ s.files, Tallies file.passed file.failed file.results) ∧ Tallies s.passed s.failed s.results := by
  induction h with
  | empty => exact ⟨List.forall_mem_nil _, rfl, rfl⟩
  | @add s file _ hfile ih =>
    refine ⟨?_, ?_⟩
    · intro file' hmem
      rcases List.mem_append.mp hmem with hmem | hmem
      · exact ih.1 file' hmem
      · exact List.mem_singleton.mp hmem ▸ hfile.tallies
    · have hresults : (s.add file).results = s.results ++ file.results := by
        show (s.files ++ [file]).flatMap _ = _
        rw [List.flatMap_append, List.flatMap_singleton]
        rfl
      rw [hresults]
      exact ih.2.append hfile.tallies

theorem RunSummary.Built.counted {s : RunSummary} (h : s.Built) : s.Counted where
  files := h.tallies.1
  run := h.tallies.2
  exitCode := by
    rw [exitCode_eq_zero_iff, h.tallies.2.failed_eq_zero_iff]
    unfold results
    simp only [List.mem_flatMap, forall_exists_index, and_imp]
    exact ⟨fun hall file hfile r hr => hall r file hfile hr, fun hall r file hfile hr => hall file hfile r hr⟩

theorem built_ofResults (path : String) (results : List Result) : (FileSummary.ofResults path results).Built := by
  have hfold : ∀ (results : List Result) (s : FileSummary), s.Built → (results.foldl FileSummary.add s).Built := by
    intro results
    induction results with
    | nil => exact fun s hs => hs
    | cons r results ih => exact fun s hs => ih (s.add r) (.add r hs)
  exact hfold results _ (.empty path)

theorem built_ofFiles {files : List FileSummary} (h : ∀ file ∈ files, file.Built) : (RunSummary.ofFiles files).Built := by
  have hfold : ∀ (files : List FileSummary) (s : RunSummary), (∀ file ∈ files, file.Built) → s.Built →
      (files.foldl RunSummary.add s).Built := by
    intro files
    induction files with
    | nil => exact fun s _ hs => hs
    | cons file files ih =>
      intro s hfiles hs
      obtain ⟨hfile, hfiles⟩ := List.forall_mem_cons.mp hfiles
      exact ih (s.add file) hfiles (.add hs hfile)
  exact hfold files _ h .empty

theorem files_foldl_add : ∀ (files : List FileSummary) (s : RunSummary),
    (files.foldl RunSummary.add s).files = s.files ++ files
  | [], s => (List.append_nil _).symm
  | file :: files, s => by
    rw [List.foldl_cons, files_foldl_add files]
    show s.files ++ [file] ++ files = _
    rw [List.append_assoc]
    rfl

/-! ## Runs -/

section

variable (fs : Files.FileSystem) (h : Highlighter)

def Checkable (path : String) : Prop :=
  ∃ source t, fs.readText path = .ok source ∧ h.tokenize (Fixture.parse source).code true = .ok t

inductive Faulty (path : String) : FileError → Prop
  | unreadable {e : Files.ReadError} : fs.readText path = .error e → Faulty path (.unreadable path e)
  | untokenizable {source : String} {e : TokenizeError} : fs.readText path = .ok source →
    h.tokenize (Fixture.parse source).code true = .error e → Faulty path (.untokenizable path e)

/-- The summary is what the text of the fixture gives on its own: the selected assertions in
the order of the text, each with its outcome. -/
def Reported (filter : Option String) (path : String) (file : FileSummary) : Prop :=
  ∃ source t, fs.readText path = .ok source ∧ h.tokenize (Fixture.parse source).code true = .ok t ∧
    checkSource h filter path source = .ok file ∧ file.path = path ∧
    file.results = ((Fixture.parse source).assertions.filter (selects filter)).map fun a =>
      ⟨path, a, outcome a t (.ofLines (Fixture.parse source).codeLines)⟩

end

variable {fs : Files.FileSystem} {h : Highlighter} {filter : Option String} {path : String}

theorem path_foldl_add : ∀ (results : List Result) (s : FileSummary), (results.foldl FileSummary.add s).path = s.path
  | [], _ => rfl
  | r :: results, s => path_foldl_add results (s.add r)

theorem checkFile_eq_ok {file : FileSummary} (hf : checkFile fs h filter path = .ok file) :
    Reported fs h filter path file ∧ file.Built := by
  obtain ⟨source, hread, hs⟩ := Results.bind_eq_ok.mp hf
  have hread := Results.mapError_eq_ok.mp hread
  obtain ⟨t, ht, hfile⟩ := Results.bind_eq_ok.mp hs
  have ht := Results.mapError_eq_ok.mp ht
  cases hfile
  exact ⟨⟨source, t, hread, ht, hs, path_foldl_add _ _, results_ofResults ..⟩, built_ofResults ..⟩

theorem exists_checkFile_iff : (∃ file, checkFile fs h filter path = .ok file) ↔ Checkable fs h path := by
  constructor
  · rintro ⟨file, hf⟩
    obtain ⟨⟨source, t, hread, ht, _⟩, _⟩ := checkFile_eq_ok hf
    exact ⟨source, t, hread, ht⟩
  · rintro ⟨source, t, hread, ht⟩
    exact ⟨_, Results.bind_eq_ok.mpr ⟨source, Results.mapError_eq_ok.mpr hread,
      Results.bind_eq_ok.mpr ⟨t, Results.mapError_eq_ok.mpr ht, rfl⟩⟩⟩

theorem checkFile_eq_error_iff {e : FileError} : checkFile fs h filter path = .error e ↔ Faulty fs h path e := by
  unfold checkFile readFile checkSource Highlighter.explain
  constructor
  · intro he
    cases hread : fs.readText path with
    | error d =>
      rw [hread] at he
      cases he
      exact .unreadable hread
    | ok source =>
      rw [hread] at he
      cases ht : h.tokenize (Fixture.parse source).code true with
      | error d =>
        simp only [Except.mapError, bind, Except.bind, ht] at he
        cases he
        exact .untokenizable hread ht
      | ok t =>
        simp only [Except.mapError, bind, Except.bind, ht] at he
        cases he
  · intro he
    cases he with
    | unreadable hread =>
      rw [hread]
      rfl
    | untokenizable hread ht =>
      rw [hread]
      simp only [Except.mapError, bind, Except.bind, ht]

theorem checkPath_eq_map : checkPath fs h filter path =
    ((fs.discoverIn .fixture path).mapM (checkFile fs h filter)).map RunSummary.ofFiles :=
  Results.bind_pure_eq_map _ _

theorem built_of_checkPath {s : RunSummary} (hs : checkPath fs h filter path = .ok s) : s.Built := by
  rw [checkPath_eq_map] at hs
  obtain ⟨files, hfiles, rfl⟩ := Results.map_eq_ok.mp hs
  refine built_ofFiles fun file hfile => ?_
  obtain ⟨p, _, hp⟩ := Results.exists_of_forall₂ (Results.forall₂_of_mapM hfiles) hfile
  exact (checkFile_eq_ok hp).2

theorem path_ofResults (path : String) (results : List Result) : (FileSummary.ofResults path results).path = path :=
  path_foldl_add results _

theorem files_ofFiles (files : List FileSummary) : (RunSummary.ofFiles files).files = files :=
  files_foldl_add files _

/-- A run checks all fixtures that there are, each on its own, or ends with the error of the
first one that cannot be checked. What it counts is what there is. -/
theorem checkPath_reports (fs : Files.FileSystem) (h : Highlighter) (filter : Option String) (path : String) :
    ((∃ s, checkPath fs h filter path = .ok s) ↔ ∀ p ∈ fs.discoverIn .fixture path, Checkable fs h p) ∧
    (∀ s, checkPath fs h filter path = .ok s →
      List.Forall₂ (Reported fs h filter) (fs.discoverIn .fixture path) s.files ∧ s.Counted) ∧
    (∀ e, checkPath fs h filter path = .error e ↔ ∃ before p after,
      fs.discoverIn .fixture path = before ++ p :: after ∧ Faulty fs h p e ∧ ∀ q ∈ before, Checkable fs h q) ∧
    (∀ s : FileSummary, s.Built → Tallies s.passed s.failed s.results) ∧
    (∀ s : RunSummary, s.Built → s.Counted) := by
  have hmap : checkPath fs h filter path =
      ((fs.discoverIn .fixture path).mapM (checkFile fs h filter)).map RunSummary.ofFiles := by
    unfold checkPath
    cases (fs.discoverIn .fixture path).mapM (checkFile fs h filter) with
    | error e => rfl
    | ok files => rfl
  refine ⟨?_, ?_, ?_, fun s hs => hs.tallies, fun s hs => hs.counted⟩
  · rw [← Results.fault?_eq_none, hmap, Results.fault?_map, Results.fault?_mapM, List.findSome?_eq_none_iff]
    simp only [Results.fault?_eq_none, exists_checkFile_iff]
  · intro s hs
    rw [hmap] at hs
    obtain ⟨files, hfiles, rfl⟩ := Results.map_eq_ok.mp hs
    have hall := (Results.forall₂_of_mapM hfiles).imp fun p file hf => checkFile_eq_ok hf
    refine ⟨?_, (built_ofFiles fun file hmem => ?_).counted⟩
    · have hsame : (RunSummary.ofFiles files).files = files := files_foldl_add files .empty
      rw [hsame]
      exact hall.imp fun p file hf => hf.1
    · obtain ⟨p, _, hf⟩ := Results.exists_of_forall₂ hall hmem
      exact hf.2
  · intro e
    rw [hmap, Results.map_eq_error, Results.mapM_eq_error]
    simp only [checkFile_eq_error_iff, exists_checkFile_iff]

end Highlight.Check
