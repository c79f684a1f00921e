import Mathlib.Data.List.Basic
import PhpTokens.Proofs.FileTree

/-! The paths of the files in a tree lead back to them. A path is made of the one that leads to the
top of the tree and of the names on the way, and following it passes the same directories again. -/

namespace PhpTokens

namespace FileTree

section Names

/-- A slash ends the names in front of it. -/
theorem namesOf_append_slash (front rest : List UInt8) :
    namesOf ⟨front ++ slash :: rest⟩ = namesOf ⟨front⟩ ++ namesOf ⟨rest⟩ := by
  rw [namesOf, List.splitOn_append_cons_self, List.map_append]
  rfl

theorem namesOf_of_plain {name : SystemText} (h : slash ∉ name.bytes) : namesOf name = [name] := by
  rw [namesOf, List.splitOn_eq_singleton h]
  rfl

/-- The path of an entry has the entry's name behind its last slash, and in front of that the path
of the directory, which may have the slash itself. -/
theorem exists_front_entryPath (path name : SystemText) :
    ∃ front, (entryPath path name).bytes = front ++ slash :: name.bytes ∧
      (path.bytes = front ∨ path.bytes = front ++ [slash]) := by
  rw [entryPath]
  split
  · next hslash =>
    obtain ⟨front, hfront⟩ := List.getLast?_eq_some_iff.mp hslash
    refine ⟨front, ?_, .inr hfront⟩
    rw [SystemText.bytes_append, hfront, List.append_assoc, List.singleton_append]
  · refine ⟨path.bytes, ?_, .inl rfl⟩
    rw [SystemText.bytes_append, SystemText.bytes_append, List.append_assoc, List.singleton_append]

end Names

section Following

/-- Where one name leads, and the directories around that. -/
def enter (around : List FileTree) (here : FileTree) (name : SystemText) :
    Except ReadError (List FileTree × FileTree) :=
  match here with
  | .file _ => .error .notDirectory
  | .directory entries =>
    if name = ⟨[]⟩ ∨ name = .ofString "." then .ok (around, here)
    else if name = .ofString ".." then .ok (around.tail, around.headD here)
    else if maxName < name.size then .error .nameTooLong
    else
      match entries.lookup name with
      | none => .error .notFound
      | some found => .ok (here :: around, found)

theorem follow_cons (around : List FileTree) (here : FileTree) (name : SystemText)
    (names : List SystemText) :
    follow around here (name :: names) =
      (enter around here name).bind fun place => follow place.1 place.2 names := by
  cases here with
  | file content => rfl
  | directory entries =>
    rw [follow, enter]
    split
    · rfl
    · split
      · rfl
      · split
        · rfl
        · cases entries.lookup name <;> rfl

/-- A name that follows needs a directory, and an empty one before it needs no more. -/
theorem follow_skip (around : List FileTree) (here : FileTree) (front : List SystemText)
    (name : SystemText) (names : List SystemText) :
    follow around here (front ++ ⟨[]⟩ :: name :: names) =
      follow around here (front ++ name :: names) := by
  induction front generalizing around here with
  | nil => cases here <;> rfl
  | cons first front ih => simp only [List.cons_append, follow_cons, ih]

/-- Where a row of names leads, more names are followed from there. -/
theorem follow_append {around : List FileTree} {here found : FileTree} {names : List SystemText}
    (h : follow around here names = .ok found) :
    ∃ around', ∀ rest, follow around here (names ++ rest) = follow around' found rest := by
  induction names generalizing around here with
  | nil =>
    cases h
    exact ⟨around, fun _ => rfl⟩
  | cons name names ih =>
    rw [follow_cons] at h
    cases hplace : enter around here name with
    | error cause =>
      rw [hplace] at h
      cases h
    | ok place =>
      rw [hplace] at h
      obtain ⟨around', hrest⟩ := ih h
      refine ⟨around', fun rest => ?_⟩
      rw [List.cons_append, follow_cons, hplace]
      exact hrest rest

theorem enter_name {name : SystemText} (h : IsName name) {entries : List (SystemText × FileTree)}
    {found : FileTree} (hfound : entries.lookup name = some found) (around : List FileTree) :
    enter around (.directory entries) name = .ok (.directory entries :: around, found) := by
  rw [enter, if_neg (not_or.mpr ⟨h.ne_empty, h.ne_here⟩), if_neg h.ne_around,
    if_neg (Nat.not_lt.mpr h.size_le), hfound]

theorem stored_of_lookup {entries : List (SystemText × FileTree)} {name : SystemText}
    {found : FileTree} (h : (directory entries).Stored) (hfound : entries.lookup name = some found) :
    found.Stored := by
  cases h with
  | directory _ _ stored =>
    obtain ⟨before, after, hentries, -⟩ := List.lookup_eq_some_iff.mp hfound
    exact stored (name, found) (by rw [hentries]; simp)

theorem lookup_of_mem {entries : List (SystemText × FileTree)} (h : (entries.map Prod.fst).Nodup)
    {name : SystemText} {found : FileTree} (hmem : (name, found) ∈ entries) :
    entries.lookup name = some found := by
  obtain ⟨before, after, rfl⟩ := List.append_of_mem hmem
  refine List.lookup_eq_some_iff.mpr ⟨before, after, rfl, fun entry hentry => ?_⟩
  rw [List.map_append, List.nodup_append] at h
  exact bne_iff_ne.mpr (Ne.symm (h.2.2 _ (List.mem_map_of_mem hentry) _ List.mem_cons_self))

theorem enter_stored {around : List FileTree} {here : FileTree} {name : SystemText}
    {place : List FileTree × FileTree} (haround : ∀ t ∈ around, t.Stored) (hhere : here.Stored)
    (h : enter around here name = .ok place) : (∀ t ∈ place.1, t.Stored) ∧ place.2.Stored := by
  cases here with
  | file content => cases h
  | directory entries =>
    rw [enter] at h
    split at h
    · cases h
      exact ⟨haround, hhere⟩
    · split at h
      · cases h
        refine ⟨fun t ht => haround t (List.mem_of_mem_tail ht), ?_⟩
        cases around with
        | nil => exact hhere
        | cons outer around => exact haround outer List.mem_cons_self
      · split at h
        · cases h
        · cases hfound : entries.lookup name with
          | none =>
            rw [hfound] at h
            cases h
          | some found =>
            rw [hfound] at h
            cases h
            exact ⟨List.forall_mem_cons.mpr ⟨hhere, haround⟩, stored_of_lookup hhere hfound⟩

theorem follow_stored {around : List FileTree} {here found : FileTree} {names : List SystemText}
    (haround : ∀ t ∈ around, t.Stored) (hhere : here.Stored)
    (h : follow around here names = .ok found) : found.Stored := by
  induction names generalizing around here with
  | nil =>
    cases h
    exact hhere
  | cons name names ih =>
    rw [follow_cons] at h
    cases hplace : enter around here name with
    | error cause =>
      rw [hplace] at h
      cases h
    | ok place =>
      rw [hplace] at h
      obtain ⟨haround', hhere'⟩ := enter_stored haround hhere hplace
      exact ih haround' hhere' h

end Following

end FileTree

namespace FileSystem
open FileTree

/-- The names of an entry's path are those of the directory's path and the name of the entry; a path
that ends in a slash has an empty name at its end, which is then left out. -/
theorem namesFromTop_entryPath (fs : FileSystem) {path name : SystemText} (hpath : path.bytes ≠ [])
    (hname : slash ∉ name.bytes) :
    ∃ front, fs.namesFromTop (entryPath path name) = front ++ [name] ∧
      (fs.namesFromTop path = front ∨ fs.namesFromTop path = front ++ [⟨[]⟩]) := by
  obtain ⟨front, hentry, hfront⟩ := exists_front_entryPath path name
  have hhead : (entryPath path name).bytes.head? = path.bytes.head? := by
    rcases hfront with hfront | hfront
    · rw [hentry, ← hfront, List.head?_append_of_ne_nil _ hpath]
    · rw [hentry, hfront]
      cases front <;> rfl
  have hnames : namesOf (entryPath path name) = namesOf ⟨front⟩ ++ [name] := by
    rw [← namesOf_of_plain hname, ← namesOf_append_slash, ← hentry]
  have hbefore : namesOf path = namesOf ⟨front⟩ ∨ namesOf path = namesOf ⟨front⟩ ++ [⟨[]⟩] := by
    rcases hfront with hfront | hfront
    · exact .inl (by rw [← hfront])
    · refine .inr ?_
      have hslash := namesOf_append_slash front []
      rwa [← hfront] at hslash
  rw [namesFromTop, namesFromTop, hhead, hnames]
  split
  · exact ⟨_, rfl, hbefore⟩
  · refine ⟨fs.working ++ namesOf ⟨front⟩, (List.append_assoc _ _ _).symm, ?_⟩
    rcases hbefore with hbefore | hbefore
    · exact .inl (by rw [hbefore])
    · exact .inr (by rw [hbefore, List.append_assoc])

/-- A path leads to a tree, however long it is. -/
structure Leads (fs : FileSystem) (path : SystemText) (found : FileTree) : Prop where
  no_nul : 0 ∉ path.bytes
  ne_nil : path.bytes ≠ []
  follow_eq : follow [] fs.root (fs.namesFromTop path) = .ok found

theorem find_eq_ok_iff {fs : FileSystem} {path : SystemText} {found : FileTree} :
    fs.find path = .ok found ↔ fs.Leads path found ∧ path.size ≤ maxPath := by
  rw [find]
  split
  · next hnul => exact iff_of_false nofun fun h => h.1.no_nul hnul
  · next hnul =>
    split
    · next hempty => exact iff_of_false nofun fun h => h.1.ne_nil hempty
    · next hempty =>
      split
      · next hlong => exact iff_of_false nofun fun h => Nat.not_le.mpr hlong h.2
      · next hlong =>
        exact ⟨fun h => ⟨⟨hnul, hempty, h⟩, Nat.not_lt.mp hlong⟩, fun h => h.1.follow_eq⟩

section Stored

variable {fs : FileSystem} (hfs : fs.root.Stored) {path : SystemText}
include hfs

theorem Leads.stored {found : FileTree} (h : fs.Leads path found) : found.Stored :=
  follow_stored (List.forall_mem_nil _) hfs h.follow_eq

omit hfs in
/-- A path that leads to a directory leads to its entries, when their names are put behind it. -/
theorem Leads.entry {name : SystemText} {found : FileTree}
    {entries : List (SystemText × FileTree)} (h : fs.Leads path (.directory entries))
    (hname : IsName name) (hfound : entries.lookup name = some found) :
    fs.Leads (entryPath path name) found where
  no_nul := by
    obtain ⟨front, hentry, hfront⟩ := exists_front_entryPath path name
    have hslash : (0 : UInt8) ≠ slash := by decide
    have hnul := h.no_nul
    rcases hfront with hfront | hfront <;> rw [hfront] at hnul <;>
      simp_all [hname.no_nul]
  ne_nil := by
    obtain ⟨front, hentry, -⟩ := exists_front_entryPath path name
    rw [hentry]
    exact List.append_ne_nil_of_right_ne_nil _ (List.cons_ne_nil _ _)
  follow_eq := by
    obtain ⟨around, hrest⟩ := follow_append h.follow_eq
    have hstep : follow around (.directory entries) [name] = .ok found := by
      rw [follow_cons, enter_name hname hfound]
      rfl
    obtain ⟨front, hentry, hpath | hpath⟩ := fs.namesFromTop_entryPath h.ne_nil hname.no_slash
    · rw [hentry, ← hpath, hrest, hstep]
    · rw [hentry, ← follow_skip, ← hstep, ← hrest, hpath, List.append_assoc]
      rfl

/-- The path made of the names on the way to a file leads to the file. -/
theorem Leads.pathAt {tree : FileTree} {names : List SystemText} {content : ByteArray}
    (hholds : tree.Holds names content) (h : fs.Leads path tree) :
    fs.Leads (FileTree.pathAt path names) (.file content) := by
  have htree := h.stored hfs
  induction hholds generalizing path with
  | here content => exact h
  | @inside entries name found names content hmem _ ih =>
    cases htree with
    | directory distinct named stored =>
      exact ih (h.entry (named _ hmem) (lookup_of_mem distinct hmem)) (stored _ hmem)

/-- A file can be read at its path if and only if that is not too long. -/
theorem read_eq_ok_iff {tree : FileTree} {names : List SystemText} {content bytes : ByteArray}
    (hfind : fs.find path = .ok tree) (hholds : tree.Holds names content) :
    fs.read (FileTree.pathAt path names) = .ok bytes ↔
      (FileTree.pathAt path names).size ≤ maxPath ∧ bytes = content := by
  have hleads := (find_eq_ok_iff.mp hfind).1.pathAt hfs hholds
  rw [read]
  constructor
  · intro hread
    cases hfound : fs.find (FileTree.pathAt path names) with
    | error cause =>
      rw [hfound] at hread
      cases hread
    | ok found =>
      obtain ⟨hfound', hshort⟩ := find_eq_ok_iff.mp hfound
      have hsame := hfound'.follow_eq.symm.trans hleads.follow_eq
      rw [hfound, Except.ok.inj hsame] at hread
      exact ⟨hshort, (Except.ok.inj hread).symm⟩
  · rintro ⟨hshort, rfl⟩
    rw [find_eq_ok_iff.mpr ⟨hleads, hshort⟩]
    rfl

end Stored

/-- What prevents a path from being followed is one of the causes that have a name. -/
theorem follow_ne_other {around : List FileTree} {here : FileTree} {names : List SystemText}
    {reason : String} : follow around here names ≠ .error (.other reason) := by
  fun_induction follow around here names <;> simp_all

theorem find_ne_other {fs : FileSystem} {path : SystemText} {reason : String} :
    fs.find path ≠ .error (.other reason) := by
  rw [find]
  split
  · nofun
  · split
    · nofun
    · split
      · nofun
      · exact follow_ne_other

theorem read_ne_other {fs : FileSystem} {path : SystemText} {reason : String} :
    fs.read path ≠ .error (.other reason) := by
  rw [read]
  cases hfound : fs.find path with
  | error cause =>
    intro h
    cases h
    exact find_ne_other hfound
  | ok found => cases found <;> nofun

end FileSystem

namespace FileTree

theorem size_entryPath_le (path name : SystemText) : path.size ≤ (entryPath path name).size := by
  rw [entryPath]
  split <;> simp only [SystemText.size, SystemText.bytes_append, List.length_append] <;> omega

theorem size_pathAt_le (path : SystemText) (names : List SystemText) :
    path.size ≤ (pathAt path names).size := by
  induction names generalizing path with
  | nil => exact Nat.le_refl _
  | cons name names ih => exact Nat.le_trans (size_entryPath_le path name) (ih _)

/-- If the path of a file can be used, so can those of the directories on the way. -/
theorem opens_of_size_le {path : SystemText} {names : List SystemText}
    (h : (pathAt path names).size ≤ maxPath) : Opens path names := by
  rintro front name rest rfl
  refine Nat.le_trans (size_pathAt_le _ (name :: rest)) ?_
  rwa [pathAt, List.foldl_append] at h

end FileTree
end PhpTokens
