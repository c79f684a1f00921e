import PhpTokens.Proofs.CommandLine.Invocation
import PhpTokens.Proofs.Corpus.Report

/-! What a survey of a directory prints. The files that count are those that a walk from the
directory comes to, and the report is made of their accounts, each by what is read at the path of
the file. -/

namespace PhpTokens.CommandLine

open Corpus (Accounts Account IsSourceName judge accountsOf reportLines)
open FileTree (Found Opens pathAt nameAt)

/-- These names lead from a directory of a file system to a source file that a walk comes to. -/
def Counted (fs : FileSystem) (directory : SystemText) (names : List SystemText) : Prop :=
  ∃ tree content, fs.find directory = .ok tree ∧ tree.Holds names content ∧
    Opens directory names ∧ IsSourceName (nameAt directory names)

/-- The files that a survey of a directory scans. -/
def counted (fs : FileSystem) (directory : SystemText) : List Found :=
  match fs.find directory with
  | .error _ => []
  | .ok tree => Corpus.sources directory tree

section Counted

variable {fs : FileSystem} (hfs : fs.root.Stored) {directory : SystemText}
include hfs

theorem stored_of_find {tree : FileTree} (hfind : fs.find directory = .ok tree) : tree.Stored :=
  (FileSystem.find_eq_ok_iff.mp hfind).1.stored hfs

theorem mem_counted {f : Found} :
    f ∈ counted fs directory ↔
      Counted fs directory f.names ∧ f.path = pathAt directory f.names := by
  rw [counted]
  cases hfind : fs.find directory with
  | error cause =>
    refine iff_of_false (List.not_mem_nil) ?_
    rintro ⟨⟨tree, content, hfound, -⟩, -⟩
    rw [hfind] at hfound
    cases hfound
  | ok tree =>
    rw [Corpus.mem_sources (stored_of_find hfs hfind)]
    constructor
    · rintro ⟨⟨content, hholds⟩, hopens, hsource, hpath⟩
      exact ⟨⟨tree, content, hfind, hholds, hopens, hsource⟩, hpath⟩
    · rintro ⟨⟨tree', content, hfound, hholds, hopens, hsource⟩, hpath⟩
      rw [hfind] at hfound
      cases hfound
      exact ⟨⟨content, hholds⟩, hopens, hsource, hpath⟩

theorem nodup_counted : ((counted fs directory).map (·.names)).Nodup := by
  rw [counted]
  cases hfind : fs.find directory with
  | error cause => exact List.nodup_nil
  | ok tree => exact Corpus.nodup_sources (stored_of_find hfs hfind)

/-- If every file below a directory can be read, its source files all count, and what is read of
them is what they hold. -/
theorem counted_and_read_iff {tree : FileTree} (hfind : fs.find directory = .ok tree)
    (hreadable : ∀ names content, tree.Holds names content →
      ∃ bytes, fs.read (pathAt directory names) = .ok bytes)
    {names : List SystemText} {result : Except ReadError ByteArray} :
    Counted fs directory names ∧ result = fs.read (pathAt directory names) ↔
      ∃ content, tree.Holds names content ∧ IsSourceName (nameAt directory names) ∧
        result = .ok content := by
  have hread {content : ByteArray} (hholds : tree.Holds names content) :
      (pathAt directory names).size ≤ FileTree.maxPath ∧
        fs.read (pathAt directory names) = .ok content := by
    obtain ⟨bytes, hbytes⟩ := hreadable names content hholds
    obtain ⟨hshort, rfl⟩ := (FileSystem.read_eq_ok_iff hfs hfind hholds).mp hbytes
    exact ⟨hshort, hbytes⟩
  constructor
  · rintro ⟨⟨tree', content, hfound, hholds, -, hsource⟩, rfl⟩
    rw [hfind] at hfound
    cases hfound
    exact ⟨content, hholds, hsource, (hread hholds).2⟩
  · rintro ⟨content, hholds, hsource, rfl⟩
    obtain ⟨hshort, hbytes⟩ := hread hholds
    exact ⟨⟨tree, content, hfind, hholds, FileTree.opens_of_size_le hshort, hsource⟩, hbytes.symm⟩

end Counted

section Run

variable {fs : FileSystem} {directory : SystemText} (hdirectory : directory.bytes ≠ [])
  (legacy lenient : Bool)
include hdirectory

/-- A survey reports on the files that count, by the rules that its flags ask for. -/
theorem run_survey_eq :
    ∃ log, Survey.run fs.find fs.read (surveyArguments legacy lenient directory) =
      let report := Corpus.Report.ofVerdicts
        ((counted fs directory).map (judge fs.read (rulesOf legacy lenient)))
      { status := if report.failed.isEmpty then 0 else 1
        output := report.toText directory
        log } := by
  rw [run_survey legacy lenient hdirectory, counted, ← rules_surveyOptions]
  cases fs.find directory with
  | error cause => exact ⟨_, rfl⟩
  | ok tree => exact ⟨_, rfl⟩

/-- The lines that a survey prints are made of the accounts of the files that count, and it fails
if one of these fails. -/
theorem survey_accounts (hfs : fs.root.Stored) :
    ∃ accounts,
      Accounts (rulesOf legacy lenient) directory
        (fun names result => Counted fs directory names ∧ result = fs.read (pathAt directory names))
        accounts ∧
      ∃ log, Survey.run fs.find fs.read (surveyArguments legacy lenient directory) =
        { status := if 0 < accounts.countP Account.failed then 1 else 0
          output := unlines (reportLines directory.display accounts)
          log } := by
  have hnames : ((counted fs directory).map (·.names)).Nodup := nodup_counted hfs
  have hpaths : ∀ f ∈ counted fs directory, f.path = pathAt directory f.names :=
    fun f hf => ((mem_counted hfs).mp hf).2
  have hmem (names : List SystemText) :
      names ∈ (counted fs directory).map (·.names) ↔ Counted fs directory names := by
    rw [List.mem_map]
    constructor
    · rintro ⟨f, hf, rfl⟩
      exact ((mem_counted hfs).mp hf).1
    · exact fun h => ⟨⟨pathAt directory names, names⟩, (mem_counted hfs).mpr ⟨h, rfl⟩, rfl⟩
  have haccounts : Accounts (rulesOf legacy lenient) directory
      (fun names result => Counted fs directory names ∧ result = fs.read (pathAt directory names))
      (accountsOf ((counted fs directory).map (judge fs.read (rulesOf legacy lenient)))) := by
    simpa only [hmem] using Corpus.accounts_accountsOf hnames hpaths
  obtain ⟨log, hrun⟩ := run_survey_eq hdirectory legacy lenient
  refine ⟨_, haccounts, log, ?_⟩
  rw [hrun, Corpus.countP_failed_accountsOf,
    ← Corpus.toText_ofVerdicts directory (Corpus.nodup_verdicts hnames)]
  simp only [List.isEmpty_iff, List.length_pos_iff, ne_eq, ite_not]

end Run

section Mixed

/-- A file without a stem, and a directory that is named as source files are and has one of them
that is no text and one that is. -/
def mixedTree : FileTree :=
  .directory
    [(.ofString ".php", .file "@".toUTF8),
      (.ofString "x.php", .directory
        [(.ofString "a.b.php", .file ⟨#[0xff]⟩), (.ofString "c.php", .file "<?php".toUTF8)])]

/-- The tree in the working directory, as `d`. -/
def mixedSystem : FileSystem :=
  { root := .directory [(.ofString "w", .directory [(.ofString "d", mixedTree)])]
    working := [.ofString "w"] }

theorem mixedSystem_stored : mixedSystem.root.Stored := by
  refine .directory (by decide) (by decide) (List.forall_mem_singleton.mpr ?_)
  refine .directory (by decide) (by decide) (List.forall_mem_singleton.mpr ?_)
  refine .directory (by decide) (by decide) ?_
  simp only [List.forall_mem_cons]
  refine ⟨.file _, .directory (by decide) (by decide) ?_, List.forall_mem_nil _⟩
  simp only [List.forall_mem_cons]
  exact ⟨.file _, .file _, List.forall_mem_nil _⟩

theorem mixedTree_readable (names : List SystemText) (content : ByteArray)
    (h : mixedTree.Holds names content) :
    ∃ bytes, mixedSystem.read (pathAt (.ofString "d") names) = .ok bytes := by
  obtain ⟨name, found, rest, rfl, hmem, hholds⟩ := FileTree.holds_directory_iff.mp h
  rcases List.mem_cons.mp hmem with heq | hmem
  · cases heq
    obtain ⟨rfl, -⟩ := FileTree.holds_file_iff.mp hholds
    exact ⟨_, rfl⟩
  · cases List.mem_singleton.mp hmem
    obtain ⟨name, found, rest, rfl, hmem, hholds⟩ := FileTree.holds_directory_iff.mp hholds
    rcases List.mem_pair.mp hmem with heq | heq
    all_goals
      cases heq
      obtain ⟨rfl, -⟩ := FileTree.holds_file_iff.mp hholds
      exact ⟨_, rfl⟩

-- a path may be absolute, and may lead out of the working directory and back
example : (counted mixedSystem (.ofString "/w/d/")).map (·.path) =
    [.ofString "/w/d/x.php/a.b.php", .ofString "/w/d/x.php/c.php"] := by decide +kernel

example : (counted mixedSystem (.ofString "../w/./d/x.php/c.php")).map (·.path) =
    [.ofString "../w/./d/x.php/c.php"] := by decide +kernel

end Mixed
end PhpTokens.CommandLine
