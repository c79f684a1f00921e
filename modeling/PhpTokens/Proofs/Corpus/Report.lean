import Mathlib.Algebra.BigOperators.Group.List.Basic
import Mathlib.Data.List.Lex
import Mathlib.Data.List.Nodup
import Mathlib.Data.List.TakeWhile
import Mathlib.Order.Lattice
import PhpTokens.Proofs.Corpus.Account
import PhpTokens.Proofs.FilePath
import PhpTokens.Proofs.Text.Lines

/-! What a report on a corpus says about the files. Every source file at any depth that can be
reached is scanned, once. The report counts the accounts of these files and prints the lines that
are made of them, in the order of the paths, component by component. -/

namespace PhpTokens.Corpus

open FileTree (Found namesOf namesOf_append_slash namesOf_of_plain exists_front_entryPath entryPath
  pathAt nameAt slash Opens)

section Names

theorem lastName_of_plain {bytes : List UInt8} (h : slash ∉ bytes) :
    lastName ⟨bytes⟩ = ⟨bytes⟩ := by
  have hall : bytes.reverse.takeWhile (· != slash) = bytes.reverse := by
    rw [List.takeWhile_eq_self_iff]
    intro b hb
    exact bne_iff_ne.mpr fun heq => h (heq ▸ List.mem_reverse.mp hb)
  rw [lastName, hall, List.reverse_reverse]

/-- What stands behind the last slash is the last name. -/
theorem lastName_append_slash (front : List UInt8) {name : SystemText} (h : slash ∉ name.bytes) :
    lastName ⟨front ++ slash :: name.bytes⟩ = name := by
  have hall : ∀ b ∈ name.bytes.reverse, (b != slash) = true := by
    intro b hb
    exact bne_iff_ne.mpr fun heq => h (heq ▸ List.mem_reverse.mp hb)
  rw [lastName, List.reverse_append, List.reverse_cons, List.append_assoc, List.singleton_append,
    List.takeWhile_append_of_pos hall, List.takeWhile_cons_of_neg (by simp), List.append_nil,
    List.reverse_reverse]

theorem lastName_entryPath (path : SystemText) {name : SystemText} (h : slash ∉ name.bytes) :
    lastName (entryPath path name) = name := by
  obtain ⟨front, hentry, -⟩ := exists_front_entryPath path name
  have hpath : entryPath path name = ⟨front ++ slash :: name.bytes⟩ := by
    rw [← hentry]
  rw [hpath, lastName_append_slash front h]

/-- The last name of a path is the last one of its names. -/
theorem getLastD_namesOf (path : SystemText) : (namesOf path).getLastD ⟨[]⟩ = lastName path := by
  obtain ⟨bytes⟩ := path
  by_cases hslash : slash ∈ bytes
  · obtain ⟨back, front, hsplit, hback⟩ := List.eq_append_cons_of_mem (List.mem_reverse.mpr hslash)
    have hbytes : bytes = front.reverse ++ slash :: back.reverse := by
      rw [← List.reverse_reverse bytes, hsplit]
      simp
    have hname : slash ∉ (SystemText.mk back.reverse).bytes :=
      fun h => hback (List.mem_reverse.mp h)
    have hlast := lastName_append_slash front.reverse hname
    rw [hbytes, namesOf_append_slash, namesOf_of_plain hname, List.getLastD_concat, hlast]
  · have hname : slash ∉ (SystemText.mk bytes).bytes := hslash
    rw [namesOf_of_plain hname, lastName_of_plain hslash]
    rfl

theorem nameAt_eq_lastName (path : SystemText) {names : List SystemText}
    (h : ∀ name ∈ names, slash ∉ name.bytes) :
    nameAt path names = lastName (pathAt path names) := by
  rcases List.eq_nil_or_concat names with rfl | ⟨front, name, rfl⟩
  · exact getLastD_namesOf path
  · rw [List.concat_eq_append] at h ⊢
    rw [FileTree.pathAt_concat, lastName_entryPath _ (h name (by simp)), nameAt,
      List.getLastD_concat]

end Names

theorem isSource_iff {path : SystemText} : isSource path = true ↔ IsSourceName (lastName path) := by
  generalize hname : lastName path = name
  rw [isSource, hname, Bool.and_eq_true, List.isSuffixOf_iff_suffix, decide_eq_true_eq]
  constructor
  · rintro ⟨⟨stem, hstem⟩, hlength⟩
    refine ⟨⟨stem⟩, ?_, ?_⟩
    · rintro rfl
      rw [SystemText.size, SystemText.size, ← hstem] at hlength
      exact Nat.lt_irrefl _ hlength
    · obtain ⟨bytes⟩ := name
      exact congrArg SystemText.mk hstem.symm
  · rintro ⟨stem, hstem, rfl⟩
    refine ⟨List.suffix_append _ _, ?_⟩
    have hpos := List.length_pos_iff.mpr hstem
    rw [SystemText.size, SystemText.size, SystemText.bytes_append, List.length_append]
    exact Nat.lt_add_of_pos_left hpos

section Sources

variable {directory : SystemText} {tree : FileTree} (htree : tree.Stored)
include htree

/-- The files that are scanned: those that names lead to, through directories that can be opened,
and that are named as source files are. -/
theorem mem_sources {f : Found} :
    f ∈ sources directory tree ↔
      (∃ content, tree.Holds f.names content) ∧ Opens directory f.names ∧
        IsSourceName (nameAt directory f.names) ∧ f.path = pathAt directory f.names := by
  have hmem : f ∈ (tree.walk directory []).filterMap Except.toOption ↔
      .ok f ∈ tree.walk directory [] := by
    rw [List.mem_filterMap]
    constructor
    · rintro ⟨result, hresult, hsome⟩
      cases result with
      | error _ => cases hsome
      | ok found =>
        cases hsome
        exact hresult
    · intro h
      exact ⟨_, h, rfl⟩
  have hname {names : List SystemText} {content : ByteArray} (h : tree.Holds names content) :=
    nameAt_eq_lastName directory fun name hname => (h.isName htree name hname).no_slash
  rw [sources, List.mem_filter, hmem, FileTree.mem_walk, isSource_iff]
  constructor
  · rintro ⟨⟨names, content, hholds, hopens, rfl⟩, hsource⟩
    rw [← hname hholds] at hsource
    exact ⟨⟨content, hholds⟩, hopens, hsource, rfl⟩
  · rintro ⟨⟨content, hholds⟩, hopens, hsource, hpath⟩
    rw [hpath, ← hname hholds]
    exact ⟨⟨f.names, content, hholds, hopens, by rw [List.nil_append, ← hpath]⟩, hsource⟩

theorem nodup_sources : ((sources directory tree).map (·.names)).Nodup := by
  have hfound : ((tree.walk directory []).filterMap Except.toOption).Pairwise
      fun f g => f.names ≠ g.names := by
    rw [List.pairwise_filterMap]
    refine (FileTree.pairwise_walk directory [] htree).imp ?_
    intro r s hapart f hf g hg
    cases r with
    | error _ => cases hf
    | ok found =>
      cases s with
      | error _ => cases hg
      | ok other =>
        cases hf
        cases hg
        exact hapart _ _ rfl rfl
  exact List.pairwise_map.mpr (hfound.filter _)

end Sources

section Order

/-- Lists are compared as the lists of the keys of their members are. -/
theorem lex_eq_true_iff {α β : Type} [DecidableEq α] [LinearOrder β] {key : α → β}
    {before : α → α → Bool} (hkey : Function.Injective key)
    (hbefore : ∀ a b, before a b = true ↔ key a < key b) (as bs : List α) :
    List.lex as bs before = true ↔ as.map key < bs.map key := by
  induction as generalizing bs with
  | nil => cases bs <;> simp
  | cons a as ih =>
    cases bs with
    | nil => simp
    | cons b bs =>
      rw [List.map_cons, List.map_cons, List.cons_lt_cons_iff, List.lex, Bool.or_eq_true,
        Bool.and_eq_true, hbefore, beq_iff_eq, ih, hkey.eq_iff]

theorem precedes_iff (s t : SystemText) :
    s.precedes t = true ↔ s.bytes.map UInt8.toNat < t.bytes.map UInt8.toNat :=
  lex_eq_true_iff (fun _ _ => UInt8.toNat_inj.mp)
    (fun _ _ => decide_eq_true_iff.trans UInt8.lt_iff_toNat_lt) s.bytes t.bytes

theorem bytes_injective : Function.Injective fun s : SystemText => s.bytes.map UInt8.toNat := by
  rintro ⟨bytes⟩ ⟨bytes'⟩ h
  exact congrArg SystemText.mk (List.map_injective_iff.mpr (fun _ _ => UInt8.toNat_inj.mp) h)

theorem bytesOf_injective : Function.Injective bytesOf := List.map_injective_iff.mpr bytes_injective

/-- Names are ordered by their bytes. -/
theorem not_lex_iff (names names' : List SystemText) :
    (!List.lex names' names SystemText.precedes) = true ↔ bytesOf names ≤ bytesOf names' := by
  rw [Bool.not_eq_true', ← Bool.not_eq_true, lex_eq_true_iff bytes_injective precedes_iff]
  exact not_lt

variable {α β : Type} {names : α → List SystemText} {items others : List α}

/-- Items in the order of the names that lead to them. -/
def inOrder (names : α → List SystemText) (items : List α) : List α :=
  items.mergeSort fun a b => !List.lex (names b) (names a) SystemText.precedes

theorem inOrder_perm : (inOrder names items).Perm items := List.mergeSort_perm items _

theorem inOrder_pairwise_le :
    (inOrder names items).Pairwise fun a b => bytesOf (names a) ≤ bytesOf (names b) := by
  have hsorted : (inOrder names items).Pairwise fun a b =>
      (!List.lex (names b) (names a) SystemText.precedes) = true := by
    apply List.pairwise_mergeSort
    · intro a b c hab hbc
      rw [not_lex_iff] at hab hbc ⊢
      exact le_trans hab hbc
    · intro a b
      rw [Bool.or_eq_true, not_lex_iff, not_lex_iff]
      exact le_total _ _
  exact hsorted.imp fun h => (not_lex_iff _ _).mp h

theorem inOrder_pairwise (hnames : (items.map names).Nodup) :
    (inOrder names items).Pairwise fun a b => bytesOf (names a) < bytesOf (names b) := by
  have hdistinct : (inOrder names items).Pairwise fun a b => names a ≠ names b :=
    List.pairwise_map.mp ((inOrder_perm.map names).nodup_iff.mpr hnames)
  exact (inOrder_pairwise_le.and hdistinct).imp fun h =>
    lt_of_le_of_ne h.1 fun heq => h.2 (bytesOf_injective heq)

/-- There is one order of items with different names. -/
theorem eq_inOrder (hnames : (items.map names).Nodup) (hperm : others.Perm items)
    (hsorted : others.Pairwise fun a b => bytesOf (names a) ≤ bytesOf (names b)) :
    others = inOrder names items := by
  refine List.Perm.eq_of_pairwise ?_ hsorted inOrder_pairwise_le
    (hperm.trans inOrder_perm.symm)
  intro a b ha hb hab hba
  have ha := hperm.mem_iff.mp ha
  have hb := inOrder_perm.mem_iff.mp hb
  exact List.inj_on_of_nodup_map hnames ha hb (bytesOf_injective (le_antisymm hab hba))

/-- The order does not depend on the order in which items were met. -/
theorem inOrder_congr (hnames : (items.map names).Nodup) (hperm : others.Perm items) :
    inOrder names others = inOrder names items :=
  eq_inOrder hnames (inOrder_perm.trans hperm) inOrder_pairwise_le

section Pick

variable {names' : β → List SystemText} {pick : α → Option β}
  (hpick : ∀ a b, pick a = some b → names' b = names a) (hnames : (items.map names).Nodup)
include hpick hnames

theorem nodup_filterMap : ((items.filterMap pick).map names').Nodup := by
  rw [List.Nodup, List.pairwise_map, List.pairwise_filterMap]
  refine (List.pairwise_map.mp hnames).imp fun hne a ha b hb => ?_
  rwa [hpick _ _ ha, hpick _ _ hb]

/-- What is picked from items in order is in order. -/
theorem filterMap_inOrder :
    (inOrder names items).filterMap pick = inOrder names' (items.filterMap pick) := by
  refine eq_inOrder (nodup_filterMap hpick hnames) (inOrder_perm.filterMap pick) ?_
  rw [List.pairwise_filterMap]
  refine inOrder_pairwise_le.imp fun hle a ha b hb => ?_
  rwa [hpick _ _ ha, hpick _ _ hb]

end Pick

end Order

section Lines

/-- The account that a verdict gives. -/
def accountOf (v : Verdict) : Account :=
  { names := v.names
    shown := v.path.display
    outcome := v.outcome.mapError Failure.message }

/-- The accounts that verdicts give, in order. -/
def accountsOf (verdicts : List Verdict) : List Account :=
  (inOrder Verdict.names verdicts).map accountOf

variable {verdicts : List Verdict}

theorem accountsOf_perm : (accountsOf verdicts).Perm (verdicts.map accountOf) :=
  inOrder_perm.map accountOf

theorem failLine?_accountOf (v : Verdict) :
    (accountOf v).failLine? =
      v.failed?.map fun f => "FAIL " ++ f.path.display ++ ": " ++ f.failure.message := by
  obtain ⟨path, names, outcome, events⟩ := v
  cases outcome <;> rfl

theorem failed_accountOf (v : Verdict) : (accountOf v).failed = v.failed?.isSome := by
  obtain ⟨path, names, outcome, events⟩ := v
  cases outcome <;> rfl

theorem not_failed_accountOf (v : Verdict) : (!(accountOf v).failed) = v.tokens?.isSome := by
  obtain ⟨path, names, outcome, events⟩ := v
  cases outcome <;> rfl

theorem tokens_accountOf (v : Verdict) : (accountOf v).tokens = v.tokens?.getD 0 := by
  obtain ⟨path, names, outcome, events⟩ := v
  cases outcome <;> rfl

theorem names_of_failed? (v : Verdict) (f : FailedFile) (h : v.failed? = some f) :
    f.names = v.names := by
  obtain ⟨path, names, outcome, events⟩ := v
  cases outcome with
  | ok _ => cases h
  | error _ =>
    cases h
    rfl

/-- Failed files have a line each, in order. -/
theorem failLines_accountsOf (hnames : (verdicts.map (·.names)).Nodup) :
    (accountsOf verdicts).filterMap Account.failLine? =
      (Report.ofVerdicts verdicts).failed.map fun f =>
        "FAIL " ++ f.path.display ++ ": " ++ f.failure.message := by
  have hfailed : (Report.ofVerdicts verdicts).failed =
      (inOrder Verdict.names verdicts).filterMap Verdict.failed? :=
    (filterMap_inOrder names_of_failed? hnames).symm
  rw [hfailed, accountsOf, List.filterMap_map, List.map_filterMap]
  exact congrArg (List.filterMap · _) (funext failLine?_accountOf)

theorem length_accountsOf : (accountsOf verdicts).length = (Report.ofVerdicts verdicts).found := by
  rw [accountsOf_perm.length_eq, List.length_map]
  rfl

theorem countP_failed_accountsOf :
    (accountsOf verdicts).countP Account.failed = (Report.ofVerdicts verdicts).failed.length := by
  have hfailed : (Report.ofVerdicts verdicts).failed.length =
      (verdicts.filterMap Verdict.failed?).length := inOrder_perm.length_eq
  rw [accountsOf_perm.countP_eq, List.countP_map, hfailed, List.length_filterMap_eq_countP]
  exact congrArg (List.countP · _) (funext failed_accountOf)

theorem countP_passed_accountsOf :
    ((accountsOf verdicts).countP fun a => !a.failed) = (Report.ofVerdicts verdicts).lexed := by
  have hlexed : (Report.ofVerdicts verdicts).lexed = (verdicts.filterMap Verdict.tokens?).length :=
    rfl
  rw [accountsOf_perm.countP_eq, List.countP_map, hlexed, List.length_filterMap_eq_countP]
  exact congrArg (List.countP · _) (funext not_failed_accountOf)

theorem sum_tokens_accountsOf :
    ((accountsOf verdicts).map Account.tokens).sum = (Report.ofVerdicts verdicts).tokens := by
  rw [(accountsOf_perm.map Account.tokens).sum_eq, List.map_map]
  induction verdicts with
  | nil => rfl
  | cons v verdicts ih =>
    rw [List.map_cons, List.sum_cons, ih, Function.comp_apply, tokens_accountOf]
    simp only [Report.ofVerdicts, List.filterMap_cons]
    cases v.tokens? with
    | none => exact Nat.zero_add _
    | some count => rfl

/-- A report prints the lines that its accounts make up. -/
theorem toText_ofVerdicts (directory : SystemText) (hnames : (verdicts.map (·.names)).Nodup) :
    (Report.ofVerdicts verdicts).toText directory =
      unlines (reportLines directory.display (accountsOf verdicts)) := by
  have hended : " PHP files\n" = " PHP files" ++ "\n" := rfl
  rw [unlines, reportLines, failLines_accountsOf hnames, length_accountsOf,
    countP_failed_accountsOf, countP_passed_accountsOf, sum_tokens_accountsOf, Report.toText,
    hended]
  simp only [List.map_append, List.map_map, List.map_cons, List.map_nil, Function.comp_def,
    String.append_assoc]

end Lines

section Accounts

variable {files : Files} {rules : Rules} {directory : SystemText} {found : List Found}

theorem nodup_verdicts (hnames : (found.map (·.names)).Nodup) :
    ((found.map (judge files rules)).map Verdict.names).Nodup := by
  have hsame : (found.map (judge files rules)).map Verdict.names = found.map (·.names) := by
    rw [List.map_map]
    exact List.map_congr_left fun f _ => judge_names
  rwa [hsame]

theorem accountOf_judge (f : Found) :
    accountOf (judge files rules f) =
      { names := f.names
        shown := f.path.display
        outcome := (judge files rules f).outcome.mapError Failure.message } := by
  rw [accountOf, judge_names, judge_path]

/-- Verdicts on files with different names give accounts of these files. -/
theorem accounts_accountsOf (hnames : (found.map (·.names)).Nodup)
    (hpaths : ∀ f ∈ found, f.path = pathAt directory f.names) :
    Accounts rules directory
      (fun names result => names ∈ found.map (·.names) ∧ result = files (pathAt directory names))
      (accountsOf (found.map (judge files rules))) where
  sorted := by
    rw [accountsOf, List.pairwise_map]
    exact inOrder_pairwise (nodup_verdicts hnames)
  mem_iff a := by
    rw [accountsOf_perm.mem_iff, List.map_map, List.mem_map]
    constructor
    · rintro ⟨f, hf, rfl⟩
      rw [Function.comp_apply, accountOf_judge]
      refine ⟨files f.path, ⟨List.mem_map_of_mem hf, by rw [hpaths f hf]⟩, ?_, outcome_judge⟩
      rw [← hpaths f hf]
      exact SystemText.display_eq_iff.mp rfl
    · rintro ⟨_, ⟨hmem, rfl⟩, hshown, houtcome⟩
      obtain ⟨f, hf, hnames⟩ := List.mem_map.mp hmem
      obtain ⟨names, shown, outcome⟩ := a
      dsimp only at hnames hshown houtcome
      subst hnames
      rw [← hpaths f hf] at hshown houtcome
      obtain rfl := SystemText.display_eq_iff.mpr hshown
      refine ⟨f, hf, ?_⟩
      rw [Function.comp_apply, accountOf_judge, outcome_judge.unique houtcome]

end Accounts

end PhpTokens.Corpus
