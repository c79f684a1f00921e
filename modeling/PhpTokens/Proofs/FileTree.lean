import PhpTokens.FileTree

/-! The files of a tree, by the names that lead to them. The walk meets each file once, except
below directories that cannot be opened, and the path and names of a file tell the way to it. -/

namespace PhpTokens.FileTree

/-- These names lead from the top of a tree to a file with this content. -/
inductive Holds : FileTree → List SystemText → ByteArray → Prop where
  | here (content : ByteArray) : Holds (.file content) [] content
  | inside {entries : List (SystemText × FileTree)} {name : SystemText} {found : FileTree}
      {names : List SystemText} {content : ByteArray} :
      (name, found) ∈ entries → Holds found names content →
      Holds (.directory entries) (name :: names) content

/-- A name that an entry of a directory can have. -/
structure IsName (name : SystemText) : Prop where
  ne_empty : name ≠ ⟨[]⟩
  ne_here : name ≠ .ofString "."
  ne_around : name ≠ .ofString ".."
  no_slash : slash ∉ name.bytes
  no_nul : 0 ∉ name.bytes
  size_le : name.size ≤ maxName

instance (name : SystemText) : Decidable (IsName name) :=
  decidable_of_iff
    (name ≠ ⟨[]⟩ ∧ name ≠ .ofString "." ∧ name ≠ .ofString ".." ∧ slash ∉ name.bytes ∧
      0 ∉ name.bytes ∧ name.size ≤ maxName)
    ⟨fun ⟨empty, here, around, slash, nul, size⟩ => ⟨empty, here, around, slash, nul, size⟩,
      fun h => ⟨h.ne_empty, h.ne_here, h.ne_around, h.no_slash, h.no_nul, h.size_le⟩⟩

/-- A tree as a file system holds it: the entries of a directory have names of their own. -/
inductive Stored : FileTree → Prop where
  | file (content : ByteArray) : Stored (.file content)
  | directory {entries : List (SystemText × FileTree)} (distinct : (entries.map Prod.fst).Nodup)
      (named : ∀ entry ∈ entries, IsName entry.1)
      (stored : ∀ entry ∈ entries, Stored entry.2) : Stored (.directory entries)

/-- The path of what names lead to from the place at `path`. -/
def pathAt (path : SystemText) (names : List SystemText) : SystemText := names.foldl entryPath path

/-- The last one of the names that lead to a place, and if there are none the last name of the path
they would start from. -/
def nameAt (path : SystemText) (names : List SystemText) : SystemText :=
  names.getLastD ((namesOf path).getLastD ⟨[]⟩)

/-- Every directory on the way has a path that is short enough for it to be opened. -/
def Opens (path : SystemText) (names : List SystemText) : Prop :=
  ∀ front name rest, names = front ++ name :: rest → (pathAt path front).size ≤ maxPath

theorem opens_nil (path : SystemText) : Opens path [] := by
  intro front name rest heq
  exact absurd heq.symm (by simp)

theorem opens_cons_iff {path name : SystemText} {names : List SystemText} :
    Opens path (name :: names) ↔ path.size ≤ maxPath ∧ Opens (entryPath path name) names := by
  constructor
  · intro h
    refine ⟨h [] name names rfl, fun front last rest heq => ?_⟩
    exact h (name :: front) last rest (by rw [heq]; rfl)
  · rintro ⟨htop, hrest⟩ front last rest heq
    cases front with
    | nil => exact htop
    | cons first front =>
      rw [List.cons_append, List.cons.injEq] at heq
      rw [← heq.1]
      exact hrest front last rest heq.2

theorem holds_file_iff {content content' : ByteArray} {names : List SystemText} :
    Holds (.file content) names content' ↔ names = [] ∧ content' = content := by
  constructor
  · rintro ⟨⟩
    exact ⟨rfl, rfl⟩
  · rintro ⟨rfl, rfl⟩
    exact .here content'

theorem holds_directory_iff {entries : List (SystemText × FileTree)} {names : List SystemText}
    {content : ByteArray} :
    Holds (.directory entries) names content ↔
      ∃ name found rest, names = name :: rest ∧ (name, found) ∈ entries ∧
        Holds found rest content := by
  constructor
  · rintro ⟨⟩
    next name found rest hmem hholds => exact ⟨name, found, rest, rfl, hmem, hholds⟩
  · rintro ⟨name, found, rest, rfl, hmem, hholds⟩
    exact .inside hmem hholds

/-- Names that lead to a file of a stored tree are names of entries. -/
theorem Holds.isName {tree : FileTree} {names : List SystemText} {content : ByteArray}
    (h : tree.Holds names content) (htree : tree.Stored) : ∀ name ∈ names, IsName name := by
  induction h with
  | here => exact List.forall_mem_nil _
  | inside hmem _ ih =>
    cases htree with
    | directory _ named stored =>
      exact List.forall_mem_cons.mpr ⟨named _ hmem, ih (stored _ hmem)⟩

mutual

/-- The files met on a walk are those that names lead to through directories that can be opened. -/
theorem mem_walk {f : Found} (path : SystemText) (before : List SystemText) :
    ∀ tree : FileTree, .ok f ∈ walk path before tree ↔
      ∃ names content, tree.Holds names content ∧ Opens path names ∧
        f = ⟨pathAt path names, before ++ names⟩
  | .file content => by
    rw [walk, List.mem_singleton, Except.ok.injEq]
    constructor
    · rintro rfl
      exact ⟨[], content, .here content, opens_nil path, by rw [List.append_nil]; rfl⟩
    · rintro ⟨_, _, hholds, -, rfl⟩
      obtain ⟨rfl, -⟩ := holds_file_iff.mp hholds
      rw [List.append_nil]
      rfl
  | .directory entries => by
    rw [walk]
    split
    · next hlong =>
      refine iff_of_false (by simp) ?_
      rintro ⟨_, content, hholds, hopens, -⟩
      obtain ⟨name, found, names, rfl, -, -⟩ := holds_directory_iff.mp hholds
      exact Nat.not_le.mpr hlong (opens_cons_iff.mp hopens).1
    · next hshort =>
      rw [mem_walkEntries path before entries]
      constructor
      · rintro ⟨name, found, names, content, hmem, hholds, hopens, rfl⟩
        exact ⟨name :: names, content, .inside hmem hholds,
          opens_cons_iff.mpr ⟨Nat.not_lt.mp hshort, hopens⟩, rfl⟩
      · rintro ⟨_, content, hholds, hopens, rfl⟩
        obtain ⟨name, found, names, rfl, hmem, hholds⟩ := holds_directory_iff.mp hholds
        exact ⟨name, found, names, content, hmem, hholds, (opens_cons_iff.mp hopens).2, rfl⟩

theorem mem_walkEntries {f : Found} (path : SystemText) (before : List SystemText) :
    ∀ entries : List (SystemText × FileTree), .ok f ∈ walkEntries path before entries ↔
      ∃ name found names content, (name, found) ∈ entries ∧ found.Holds names content ∧
        Opens (entryPath path name) names ∧
        f = ⟨pathAt path (name :: names), before ++ name :: names⟩
  | [] => by simp [walkEntries]
  | (name, found) :: entries => by
    rw [walkEntries, List.mem_append, mem_walk (entryPath path name) (before ++ [name]) found,
      mem_walkEntries path before entries]
    constructor
    · rintro (⟨names, content, hholds, hopens, rfl⟩ | ⟨name', found', names, content, hmem, h⟩)
      · refine ⟨name, found, names, content, List.mem_cons_self, hholds, hopens, ?_⟩
        rw [List.append_assoc, List.singleton_append]
        rfl
      · exact ⟨name', found', names, content, List.mem_cons_of_mem _ hmem, h⟩
    · rintro ⟨name', found', names, content, hmem, hholds, hopens, rfl⟩
      rcases List.mem_cons.mp hmem with heq | hmem
      · cases heq
        refine .inl ⟨names, content, hholds, hopens, ?_⟩
        rw [List.append_assoc, List.singleton_append]
        rfl
      · exact .inr ⟨name', found', names, content, hmem, hholds, hopens, rfl⟩

end

/-- Two results of a walk that are files are reached by different names. -/
def Apart (r s : Except SystemText Found) : Prop :=
  ∀ f g, r = .ok f → s = .ok g → f.names ≠ g.names

mutual

/-- No two files are reached by the same names. -/
theorem pairwise_walk (path : SystemText) (before : List SystemText) :
    ∀ {tree : FileTree}, tree.Stored → (walk path before tree).Pairwise Apart
  | .file content, _ => List.pairwise_singleton _ _
  | .directory entries, htree => by
    rw [walk]
    split
    · exact List.pairwise_singleton _ _
    · cases htree with
      | directory distinct _ stored => exact pairwise_walkEntries path before distinct stored

theorem pairwise_walkEntries (path : SystemText) (before : List SystemText) :
    ∀ {entries : List (SystemText × FileTree)}, (entries.map Prod.fst).Nodup →
      (∀ entry ∈ entries, entry.2.Stored) → (walkEntries path before entries).Pairwise Apart
  | [], _, _ => List.Pairwise.nil
  | (name, found) :: entries, distinct, stored => by
    obtain ⟨hfresh, hrest⟩ := List.nodup_cons.mp distinct
    rw [walkEntries, List.pairwise_append]
    refine ⟨pairwise_walk _ _ (stored _ List.mem_cons_self),
      pairwise_walkEntries _ _ hrest fun entry h => stored entry (List.mem_cons_of_mem _ h), ?_⟩
    -- names of files below different entries differ in the name of the entry
    rintro _ hf _ hg f g rfl rfl heq
    obtain ⟨names, content, -, -, rfl⟩ := (mem_walk _ _ found).mp hf
    obtain ⟨name', found', names', content', hmem, -, -, rfl⟩ :=
      (mem_walkEntries _ _ entries).mp hg
    simp only [List.append_assoc, List.singleton_append, List.append_cancel_left_eq,
      List.cons.injEq] at heq
    exact hfresh (List.mem_map.mpr ⟨_, hmem, heq.1.symm⟩)

end

theorem pathAt_concat (path : SystemText) (names : List SystemText) (name : SystemText) :
    pathAt path (names ++ [name]) = entryPath (pathAt path names) name := by
  rw [pathAt, List.foldl_append]
  rfl

end PhpTokens.FileTree
