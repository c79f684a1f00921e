import Mathlib.Algebra.BigOperators.Group.List.Basic
import Mathlib.Algebra.Group.Prod
import Mathlib.Algebra.Order.Group.Multiset
import Mathlib.Logic.Relation
import Mathlib.Tactic.Abel
import PhpTokens.Proofs.CommandLine.Survey

/-! The survey as any number of workers carry it out. Each file is taken up once. A worker scans it
on its own and then touches what all share: it adds to one counter, and later to another, or hands
in a failure, and between any two of these steps the others may do theirs. What the tally will be
in the end is settled from the start: each step moves a part of it from what a job still owes to
what has been added up. -/

namespace PhpTokens.Corpus

open FileTree (Found pathAt nameAt)
open CommandLine (Result rulesOf surveyArguments mixedSystem mixedTree mixedSystem_stored
  mixedTree_readable)
open SystemText (Shows)

/-- The work on one file. -/
inductive Job where
  | waiting (file : Found)
  | scanned (verdict : Verdict)
  /-- Counted as a success, and its tokens are still to be added. -/
  | counted (tokens : Nat)
  | done

/-- What the workers share: two counters, and the failures that were handed in. -/
structure Tally where
  lexed : Nat := 0
  tokens : Nat := 0
  failed : List FailedFile := []

structure Pool where
  jobs : List Job
  tally : Tally := {}

/-- One step of the work on a file, with the tally before and after it. Failures are handed in at
any place among the others. -/
inductive Job.Advance (files : Files) (rules : Rules) : Job → Tally → Job → Tally → Prop where
  | scan (file : Found) (t : Tally) :
      Advance files rules (.waiting file) t (.scanned (judge files rules file)) t
  | count {v : Verdict} {n : Nat} (t : Tally) (h : v.outcome = .ok n) :
      Advance files rules (.scanned v) t (.counted n) { t with lexed := t.lexed + 1 }
  | add (n : Nat) (t : Tally) :
      Advance files rules (.counted n) t .done { t with tokens := t.tokens + n }
  | fail {v : Verdict} {failure : Failure} {t : Tally} {front back : List FailedFile}
      (h : v.outcome = .error failure) (ht : t.failed = front ++ back) :
      Advance files rules (.scanned v) t .done
        { t with failed := front ++ ⟨v.path, v.names, failure⟩ :: back }

namespace Pool

/-- Before the work begins. -/
def start (queue : List Found) : Pool := { jobs := queue.map .waiting }

/-- One of the workers does a step. -/
inductive Step (files : Files) (rules : Rules) : Pool → Pool → Prop where
  | work {job job' : Job} {t t' : Tally} (front back : List Job)
      (h : job.Advance files rules t job' t') :
      Step files rules ⟨front ++ job :: back, t⟩ ⟨front ++ job' :: back, t'⟩

/-- Some steps lead from one pool to another, in whatever order the workers do them. -/
def Reaches (files : Files) (rules : Rules) : Pool → Pool → Prop :=
  Relation.ReflTransGen (Step files rules)

def Finished (p : Pool) : Prop := ∀ job ∈ p.jobs, job = .done

/-- The report that is made of the tally. -/
def report (found : Nat) (p : Pool) : Report :=
  { found
    lexed := p.tally.lexed
    tokens := p.tally.tokens
    failed := inOrder FailedFile.names p.tally.failed }

/-- What the command leaves behind then, apart from the log. -/
def result (directory : SystemText) (found : Nat) (p : Pool) : Result :=
  { status := if (p.report found).failed.isEmpty then 0 else 1
    output := (p.report found).toText directory }

end Pool

/-- Successes, tokens and failures, as far as their order makes no difference. -/
abbrev Balance := Nat × Nat × Multiset FailedFile

def Verdict.balance (v : Verdict) : Balance :=
  match v.outcome with
  | .ok n => (1, n, 0)
  | .error failure => (0, 0, {⟨v.path, v.names, failure⟩})

def Tally.balance (t : Tally) : Balance := (t.lexed, t.tokens, t.failed)

section Balance

variable {files : Files} {rules : Rules}

/-- What a job has still to add. -/
def Job.owes (files : Files) (rules : Rules) : Job → Balance
  | .waiting file => (judge files rules file).balance
  | .scanned v => v.balance
  | .counted n => (0, n, 0)
  | .done => 0

/-- What the tally will be. -/
def Pool.balance (files : Files) (rules : Rules) (p : Pool) : Balance :=
  p.tally.balance + (p.jobs.map (Job.owes files rules)).sum

/-- A step adds to the tally what the job does not owe any more. -/
theorem Job.Advance.balance_eq {job job' : Job} {t t' : Tally}
    (h : job.Advance files rules t job' t') :
    t'.balance + job'.owes files rules = t.balance + job.owes files rules := by
  cases h with
  | scan => rfl
  | @count v n _ houtcome =>
    simp [Tally.balance, Job.owes, Verdict.balance, houtcome]
  | add n => simp [Tally.balance, Job.owes]
  | @fail v failure _ front back houtcome ht =>
    have hfailed : (front ++ ⟨v.path, v.names, failure⟩ :: back).Perm
        (t.failed ++ [⟨v.path, v.names, failure⟩]) := by
      rw [ht, List.append_assoc]
      exact (List.perm_append_singleton _ back).symm.append_left front
    simp only [Tally.balance, Job.owes, Verdict.balance, houtcome, add_zero,
      Multiset.coe_eq_coe.mpr hfailed]
    rfl

theorem Pool.Step.balance_eq {p q : Pool} (h : p.Step files rules q) :
    q.balance files rules = p.balance files rules := by
  cases h with
  | @work job job' t t' front back h =>
    have hjob := h.balance_eq
    let owes := Job.owes files rules
    simp only [Pool.balance, List.map_append, List.map_cons, List.sum_append, List.sum_cons]
    calc t'.balance + ((front.map owes).sum + (owes job' + (back.map owes).sum))
      _ = (t'.balance + owes job') + ((front.map owes).sum + (back.map owes).sum) := by abel
      _ = (t.balance + owes job) + ((front.map owes).sum + (back.map owes).sum) := by rw [hjob]
      _ = _ := by abel

/-- Whatever the workers do, what the tally will be stays the same. -/
theorem Pool.Reaches.balance_eq {p q : Pool} (h : p.Reaches files rules q) :
    q.balance files rules = p.balance files rules := by
  induction h with
  | refl => rfl
  | tail _ hstep ih => rw [hstep.balance_eq, ih]

end Balance

/-- The balance of verdicts is what a report on them counts. -/
theorem sum_balance (verdicts : List Verdict) :
    (verdicts.map Verdict.balance).sum =
      ((verdicts.filterMap Verdict.tokens?).length,
        (verdicts.filterMap Verdict.tokens?).foldr (· + ·) 0,
        ↑(verdicts.filterMap Verdict.failed?)) := by
  induction verdicts with
  | nil => rfl
  | cons v verdicts ih =>
    rw [List.map_cons, List.sum_cons, ih, List.filterMap_cons, List.filterMap_cons,
      Verdict.balance, Verdict.tokens?, Verdict.failed?]
    cases v.outcome with
    | ok n =>
      simp only [Except.toOption, Prod.mk_add_mk, List.length_cons, List.foldr_cons, zero_add,
        Nat.add_comm 1]
    | error failure =>
      simp only [Except.toOption, Prod.mk_add_mk, zero_add, Multiset.singleton_add,
        Multiset.cons_coe]

namespace Pool

variable {files : Files} {rules : Rules}

theorem balance_start (queue : List Found) :
    (start queue).balance files rules =
      ((queue.map (judge files rules)).map Verdict.balance).sum := by
  rw [balance, start, List.map_map, List.map_map]
  exact zero_add _

theorem Finished.balance_eq {p : Pool} (h : p.Finished) :
    p.balance files rules = p.tally.balance := by
  have hnone : (p.jobs.map (Job.owes files rules)).sum = 0 := by
    apply List.sum_eq_zero
    intro owed howed
    obtain ⟨job, hjob, rfl⟩ := List.mem_map.mp howed
    rw [h job hjob]
    rfl
  rw [balance, hnone, add_zero]

/-- When all work is done, the report is that on the verdicts, whatever the order. -/
theorem Reaches.report_eq {found queue : List Found} (hqueue : queue.Perm found)
    (hnames : (found.map (·.names)).Nodup) {p : Pool} (h : (start queue).Reaches files rules p)
    (hdone : p.Finished) :
    p.report queue.length = .ofVerdicts (found.map (judge files rules)) := by
  have hsame : ((queue.map (judge files rules)).map Verdict.balance).sum =
      ((found.map (judge files rules)).map Verdict.balance).sum :=
    ((hqueue.map _).map _).sum_eq
  have hbalance : p.tally.balance = ((found.map (judge files rules)).map Verdict.balance).sum := by
    rw [← hdone.balance_eq, h.balance_eq, balance_start, hsame]
  rw [sum_balance, Tally.balance, Prod.mk.injEq, Prod.mk.injEq, Multiset.coe_eq_coe] at hbalance
  obtain ⟨hlexed, htokens, hfailed⟩ := hbalance
  -- the failures came in some order, and the report sorts them
  have horder := inOrder_congr (nodup_filterMap names_of_failed? (nodup_verdicts hnames)) hfailed
  rw [report, hlexed, htokens, horder, hqueue.length_eq, Report.ofVerdicts, List.length_map]
  rfl

/-- As long as there is work left, some worker can do a step. -/
theorem exists_step {p : Pool} (h : ¬ p.Finished) : ∃ q, p.Step files rules q := by
  obtain ⟨jobs, t⟩ := p
  have hopen : ∃ job ∈ jobs, job ≠ .done := by
    simpa [Finished] using h
  obtain ⟨job, hjob, hopen⟩ := hopen
  obtain ⟨front, back, rfl⟩ := List.append_of_mem hjob
  cases job with
  | waiting file => exact ⟨_, .work front back (.scan file t)⟩
  | scanned v =>
    cases houtcome : v.outcome with
    | ok n => exact ⟨_, .work front back (.count t houtcome)⟩
    | error failure => exact ⟨_, .work front back (.fail houtcome (List.append_nil t.failed).symm)⟩
  | counted n => exact ⟨_, .work front back (.add n t)⟩
  | done => exact absurd rfl hopen

end Pool

/-- The greatest number of steps that a job still takes. -/
def Job.stepsLeft : Job → Nat
  | .waiting _ => 3
  | .scanned _ => 2
  | .counted _ => 1
  | .done => 0

def Pool.stepsLeft (p : Pool) : Nat := (p.jobs.map Job.stepsLeft).sum

theorem Pool.Step.stepsLeft_lt {files : Files} {rules : Rules} {p q : Pool}
    (h : p.Step files rules q) : q.stepsLeft < p.stepsLeft := by
  cases h with
  | @work job job' t t' front back h =>
    have hjob : job'.stepsLeft < job.stepsLeft := by
      cases h <;> simp only [Job.stepsLeft] <;> decide
    simp only [stepsLeft, List.map_append, List.map_cons, List.sum_append, List.sum_cons]
    omega

/-- When all work on the source files of a directory is done, what is left behind is what the
command leaves behind when it scans one after another. -/
theorem Pool.Reaches.result_eq {fs : FileSystem} (hfs : fs.root.Stored) {directory : SystemText}
    {tree : FileTree} (hfind : fs.find directory = .ok tree) {legacy lenient : Bool}
    {queue : List Found} (hqueue : queue.Perm (sources directory tree)) {p : Pool}
    (h : (start queue).Reaches fs.read (rulesOf legacy lenient) p) (hdone : p.Finished) :
    p.result directory queue.length =
      { CommandLine.Survey.run fs.find fs.read (surveyArguments legacy lenient directory) with
        log := [] } := by
  have hnames : ((sources directory tree).map (·.names)).Nodup :=
    nodup_sources (CommandLine.stored_of_find hfs hfind)
  obtain ⟨log, hrun⟩ := CommandLine.run_survey_eq
    (FileSystem.find_eq_ok_iff.mp hfind).1.ne_nil legacy lenient
  rw [Pool.result, h.report_eq hqueue hnames hdone, hrun, CommandLine.counted, hfind]

/-- The report does not depend on how the workers share the work. Survey a directory, or a file, of
a file system in which every file below it can be read, and let any number of workers take up its
source files in any order and do their steps in any order among each other. They come to an end, for
every step brings it nearer and some step can be done before it, and then what is left behind is
what the command leaves behind when it scans one file after another. That is status 1 if and only if
a source file fails, and the lines that the accounts of all source files make up by the rules that
the flags ask for; they are lines indeed as far as no path that is printed has a line feed, and then
there is a line of its own for each failed file and no other line that looks like it. -/
theorem survey_in_any_order {fs : FileSystem} (hfs : fs.root.Stored) {directory : SystemText}
    {tree : FileTree} (hfind : fs.find directory = .ok tree)
    (hreadable : ∀ names content, tree.Holds names content →
      ∃ bytes, fs.read (pathAt directory names) = .ok bytes)
    (legacy lenient : Bool) :
    let rules := rulesOf legacy lenient
    let survey :=
      CommandLine.Survey.run fs.find fs.read (surveyArguments legacy lenient directory)
    (∃ shown accounts, Shows directory.bytes shown.toList ∧
      Accounts rules directory
        (fun names result => ∃ content, tree.Holds names content ∧
          IsSourceName (nameAt directory names) ∧ result = .ok content)
        accounts ∧
      survey.output = unlines (reportLines shown accounts) ∧ survey.report = "" ∧
      survey.status = (if 0 < accounts.countP Account.failed then 1 else 0) ∧
      accounts.countP (fun a => !a.failed) + accounts.countP Account.failed = accounts.length ∧
      (0x0A ∉ directory.bytes →
        (∀ a ∈ accounts, a.failed = true → 0x0A ∉ (pathAt directory a.names).bytes) →
        linesOf survey.output = reportLines shown accounts ∧
          (linesOf survey.output).filter isFailLine = accounts.filterMap Account.failLine?)) ∧
    ∀ queue : List Found, queue.Perm (sources directory tree) →
      ∀ p : Pool, (Pool.start queue).Reaches fs.read rules p →
        (p.Finished ∨ ∃ q, p.Step fs.read rules q) ∧
        (∀ q, p.Step fs.read rules q → q.stepsLeft < p.stepsLeft) ∧
        (p.Finished → p.result directory queue.length = { survey with log := [] }) := by
  intro rules survey
  obtain ⟨accounts, haccounts, log, hrun⟩ := CommandLine.survey_accounts
    (FileSystem.find_eq_ok_iff.mp hfind).1.ne_nil legacy lenient hfs
  have haccounts := haccounts.congr fun names result =>
    CommandLine.counted_and_read_iff hfs hfind hreadable
  have hshown : Shows directory.bytes directory.display.toList :=
    SystemText.display_eq_iff.mp rfl
  have hsurvey : survey = _ := hrun
  constructor
  · rw [hsurvey]
    refine ⟨_, accounts, hshown, haccounts, rfl, rfl, rfl, countP_add_countP accounts,
      fun hplain hpaths => ?_⟩
    have hlines := haccounts.linesOf_unlines hshown (by simp) hplain hpaths
    rw [hlines]
    exact ⟨rfl, filter_isFailLine _ accounts⟩
  · intro queue hqueue p hreaches
    refine ⟨?_, fun q hstep => hstep.stepsLeft_lt, hreaches.result_eq hfs hfind hqueue⟩
    by_cases hdone : p.Finished
    · exact .inl hdone
    · exact .inr (Pool.exists_step hdone)

theorem survey_in_any_order_mixed :
    let directory := SystemText.ofString "d"
    let rules := rulesOf true false
    let survey := CommandLine.Survey.run mixedSystem.find mixedSystem.read
      (surveyArguments true false directory)
    mixedSystem.root.Stored ∧ mixedSystem.find directory = .ok mixedTree ∧
    (∀ names content, mixedTree.Holds names content →
      ∃ bytes, mixedSystem.read (pathAt directory names) = .ok bytes) ∧
    (∃ shown accounts, Shows directory.bytes shown.toList ∧
      Accounts rules directory
        (fun names result => ∃ content, mixedTree.Holds names content ∧
          IsSourceName (nameAt directory names) ∧ result = .ok content)
        accounts ∧
      survey.output = unlines (reportLines shown accounts) ∧ survey.report = "" ∧
      survey.status = (if 0 < accounts.countP Account.failed then 1 else 0) ∧
      accounts.countP (fun a => !a.failed) + accounts.countP Account.failed = accounts.length ∧
      (0x0A ∉ directory.bytes →
        (∀ a ∈ accounts, a.failed = true → 0x0A ∉ (pathAt directory a.names).bytes) →
        linesOf survey.output = reportLines shown accounts ∧
          (linesOf survey.output).filter isFailLine = accounts.filterMap Account.failLine?)) ∧
    ∀ queue : List Found, queue.Perm (sources directory mixedTree) →
      ∀ p : Pool, (Pool.start queue).Reaches mixedSystem.read rules p →
        (p.Finished ∨ ∃ q, p.Step mixedSystem.read rules q) ∧
        (∀ q, p.Step mixedSystem.read rules q → q.stepsLeft < p.stepsLeft) ∧
        (p.Finished → p.result directory queue.length = { survey with log := [] }) :=
  ⟨mixedSystem_stored, rfl, mixedTree_readable,
    survey_in_any_order mixedSystem_stored rfl mixedTree_readable true false⟩

/-- A source file whose name has a line feed in it, and that fails. -/
def dividedTree : FileTree := .directory [(.ofString "a\nFAIL b.php", .file "@".toUTF8)]

def dividedSystem : FileSystem :=
  { root := .directory [(.ofString "w", .directory [(.ofString "d", dividedTree)])]
    working := [.ofString "w"] }

theorem dividedSystem_stored : dividedSystem.root.Stored := by
  refine .directory (by decide) (by decide) (List.forall_mem_singleton.mpr ?_)
  refine .directory (by decide) (by decide) (List.forall_mem_singleton.mpr ?_)
  exact .directory (by decide) (by decide) (List.forall_mem_singleton.mpr (.file _))

/-- Where a path has a line feed, a failed file need not have one line: here one file is found and
has failed, and two lines of the report look as if they were about a failed file. -/
theorem fail_line_divided :
    let directory := SystemText.ofString "d"
    let survey := CommandLine.Survey.run dividedSystem.find dividedSystem.read
      (surveyArguments false false directory)
    dividedSystem.root.Stored ∧ dividedSystem.find directory = .ok dividedTree ∧
    (∀ names content, dividedTree.Holds names content →
      dividedSystem.read (pathAt directory names) = .ok content) ∧
    (sources directory dividedTree).map (·.names) = [[.ofString "a\nFAIL b.php"]] ∧
    tokens (rulesOf false false) "@" = .error ⟨.strayCharacter '@', 1, 1⟩ ∧
    (linesOf survey.output).filter isFailLine =
      ["FAIL d/a", "FAIL b.php: unexpected character '@' at line 1, column 1"] := by
  refine ⟨dividedSystem_stored, rfl, fun names content hholds => ?_, by decide, by decide +kernel,
    by decide +kernel⟩
  obtain ⟨name, found, rest, rfl, hmem, hholds⟩ := FileTree.holds_directory_iff.mp hholds
  cases List.mem_singleton.mp hmem
  obtain ⟨rfl, rfl⟩ := FileTree.holds_file_iff.mp hholds
  rfl

end PhpTokens.Corpus
