import Mathlib.Algebra.GroupWithZero.Nat
import PhpTokens.Corpus
import PhpTokens.Proofs.FileTree
import PhpTokens.Proofs.SourceText
import PhpTokens.Proofs.Text.Lines
import PhpTokens.Proofs.Text.Quoted
import PhpTokens.Proofs.Text.Runs
import PhpTokens.Proofs.Text.SystemText

/-! What is to be printed about the source files below a directory, apart from how it comes about.
Every file has an account, which names its tokens or tells its error, and the lines of a report are
made of the accounts in the order of the names that lead to the files. -/

namespace PhpTokens.Corpus

open FileTree (Found pathAt nameAt)

/-- The name of a source file: a stem that is not empty, and the ending. -/
def IsSourceName (name : SystemText) : Prop :=
  ∃ stem : SystemText, stem.bytes ≠ [] ∧ name = stem ++ .ofString ".php"

/-- The text of an error in a text. -/
inductive Tells : ScanError → String → Prop where
  | strayCharacter {c : Char} {piece : List Char} (line column : Nat)
      (h : Quoted.LoneForm c piece) :
      Tells ⟨.strayCharacter c, line, column⟩
        ("unexpected character '" ++ String.ofList piece ++ "' at line " ++ toString line ++
          ", column " ++ toString column)
  | openString (line column : Nat) :
      Tells ⟨.openString, line, column⟩
        ("unterminated string literal starting at line " ++ toString line ++ ", column " ++
          toString column)
  | openComment (line column : Nat) :
      Tells ⟨.openComment, line, column⟩
        ("unterminated comment starting at line " ++ toString line ++ ", column " ++
          toString column)

/-- What becomes of a file with this path in print, given what is read of it: the number of its
tokens, the end of the text included, or the text of an error. -/
inductive Outcome (rules : Rules) (shown : String) :
    Except ReadError ByteArray → Except String Nat → Prop where
  | unread (cause : ReadError) :
      Outcome rules shown (.error cause)
        (.error ("cannot read source file " ++ shown ++ ": " ++ cause.message))
  | undecodable {content : ByteArray} (h : ∀ text : String, text.toUTF8 ≠ content) :
      Outcome rules shown (.ok content)
        (.error ("cannot read source file " ++ shown ++ ": stream did not contain valid UTF-8"))
  | faulty {content : ByteArray} {text message : String} {error : ScanError}
      (decodes : text.toUTF8 = content) (h : tokens rules text = .error error)
      (htells : Tells error message) : Outcome rules shown (.ok content) (.error message)
  | passed {content : ByteArray} {text : String} {ts : List Token}
      (decodes : text.toUTF8 = content) (h : tokens rules text = .ok ts) :
      Outcome rules shown (.ok content) (.ok ts.length)

/-- What is to be said about a source file. -/
structure Account where
  /-- The names that lead to the file. -/
  names : List SystemText
  /-- The path of the file in print. -/
  shown : String
  outcome : Except String Nat

namespace Account

def failed (a : Account) : Bool :=
  match a.outcome with
  | .ok _ => false
  | .error _ => true

/-- A file that fails adds no tokens. -/
def tokens (a : Account) : Nat :=
  match a.outcome with
  | .ok count => count
  | .error _ => 0

/-- The line about a file that fails. -/
def failLine? (a : Account) : Option String :=
  match a.outcome with
  | .ok _ => none
  | .error message => some ("FAIL " ++ a.shown ++ ": " ++ message)

end Account

/-- The lines of a report on a directory, given its path in print. -/
def reportLines (directory : String) (accounts : List Account) : List String :=
  ["Scanning directory: " ++ directory,
    "Found " ++ toString accounts.length ++ " PHP files"] ++
  accounts.filterMap Account.failLine? ++
  ["Lexed OK: " ++ toString (accounts.countP fun a => !a.failed),
    "Failed: " ++ toString (accounts.countP Account.failed),
    "Tokens: " ++ toString (accounts.map Account.tokens).sum]

/-- A printed line about a file that fails. -/
def isFailLine (line : String) : Bool := "FAIL ".toList.isPrefixOf line.toList

/-- The bytes of names as numbers, by which names are ordered: the first name that differs decides,
and in it the first byte. -/
def bytesOf (names : List SystemText) : List (List Nat) :=
  names.map fun name => name.bytes.map UInt8.toNat

/-- There is one account of each source file, and the accounts are in order. That names lead to a
source file of which this is read is what `source` says. -/
structure Accounts (rules : Rules) (directory : SystemText)
    (source : List SystemText → Except ReadError ByteArray → Prop) (accounts : List Account) :
    Prop where
  sorted : accounts.Pairwise fun a b => bytesOf a.names < bytesOf b.names
  mem_iff : ∀ a, a ∈ accounts ↔
    ∃ result, source a.names result ∧
      SystemText.Shows (pathAt directory a.names).bytes a.shown.toList ∧
      Outcome rules a.shown result a.outcome

section Messages

theorem message_strayCharacter (c : Char) (line column : Nat) :
    (ScanError.mk (.strayCharacter c) line column).message =
      "unexpected character '" ++ String.ofList (Quoted.encodeChar '\'' c) ++ "' at line " ++
        toString line ++ ", column " ++ toString column := by
  have hfront : "unexpected character '" = "unexpected character " ++ String.ofList ['\''] := rfl
  have hplace : "' at line " = String.ofList ['\''] ++ (" at " ++ "line ") := rfl
  rw [hfront, hplace, ScanError.message]
  simp only [Quoted.char, String.ofList_append, String.append_assoc]

theorem message_openString (line column : Nat) :
    (ScanError.mk .openString line column).message =
      "unterminated string literal starting at line " ++ toString line ++ ", column " ++
        toString column := by
  have hplace : "unterminated string literal starting at line " =
      "unterminated string literal starting at " ++ "line " := rfl
  rw [hplace, ScanError.message]
  simp only [String.append_assoc]

theorem message_openComment (line column : Nat) :
    (ScanError.mk .openComment line column).message =
      "unterminated comment starting at line " ++ toString line ++ ", column " ++
        toString column := by
  have hplace : "unterminated comment starting at line " =
      "unterminated comment starting at " ++ "line " := rfl
  rw [hplace, ScanError.message]
  simp only [String.append_assoc]

theorem message_undecodable (path : SystemText) :
    (Failure.unreadable path .invalidUtf8).message =
      "cannot read source file " ++ path.display ++ ": stream did not contain valid UTF-8" := by
  have hcause : ": stream did not contain valid UTF-8" =
      ": " ++ "stream did not contain valid UTF-8" := rfl
  rw [hcause]
  exact String.append_assoc

/-- The message of an error is its text. -/
theorem tells_iff {error : ScanError} {message : String} :
    Tells error message ↔ error.message = message := by
  constructor
  · rintro (⟨line, column, hform⟩ | ⟨line, column⟩ | ⟨line, column⟩)
    · rw [message_strayCharacter, Quoted.loneForm_iff.mp hform]
    · exact message_openString line column
    · exact message_openComment line column
  · rintro rfl
    obtain ⟨fault, line, column⟩ := error
    cases fault with
    | strayCharacter c =>
      rw [message_strayCharacter]
      exact .strayCharacter line column (Quoted.loneForm_iff.mpr rfl)
    | openString =>
      rw [message_openString]
      exact .openString line column
    | openComment =>
      rw [message_openComment]
      exact .openComment line column

end Messages

section Lines

theorem Tells.no_lineFeed {error : ScanError} {message : String} (h : Tells error message) :
    '\n' ∉ message.toList := by
  cases h with
  | strayCharacter line column hform =>
    simp [digits_no_lineFeed, hform.no_lineFeed]
  | openString line column => simp [digits_no_lineFeed]
  | openComment line column => simp [digits_no_lineFeed]

theorem message_no_lineFeed {cause : ReadError} (h : ∀ reason, cause ≠ .other reason) :
    '\n' ∉ cause.message.toList := by
  cases cause with
  | other reason => exact absurd rfl (h reason)
  | _ => decide

/-- The text of an error is on one line if the path of the file is, unless the system gives reasons
of its own. -/
theorem Outcome.no_lineFeed {rules : Rules} {shown message : String}
    {result : Except ReadError ByteArray} (h : Outcome rules shown result (.error message))
    (hcause : ∀ reason, result ≠ .error (.other reason)) (hshown : '\n' ∉ shown.toList) :
    '\n' ∉ message.toList := by
  cases h with
  | unread cause =>
    have hmessage := message_no_lineFeed fun reason heq => hcause reason (congrArg _ heq)
    simp [hshown, hmessage]
  | undecodable _ => simp [hshown]
  | faulty _ _ htells => exact htells.no_lineFeed

theorem reportLines_no_lineFeed {directory : String} {accounts : List Account}
    (hdirectory : '\n' ∉ directory.toList)
    (hfail : ∀ a ∈ accounts, ∀ line, a.failLine? = some line → '\n' ∉ line.toList) :
    ∀ line ∈ reportLines directory accounts, '\n' ∉ line.toList := by
  intro line hline
  simp only [reportLines, List.mem_append, List.mem_cons, List.not_mem_nil, or_false,
    List.mem_filterMap] at hline
  rcases hline with ((rfl | rfl) | ⟨a, ha, hsome⟩) | rfl | rfl | rfl
  · simp [hdirectory]
  · simp [digits_no_lineFeed]
  · exact hfail a ha line hsome
  all_goals simp [digits_no_lineFeed]

theorem countP_add_countP (accounts : List Account) :
    accounts.countP (fun a => !a.failed) + accounts.countP Account.failed = accounts.length := by
  rw [List.length_eq_countP_add_countP Account.failed, Nat.add_comm]
  simp

/-- Of the lines of a report those about failed files look like it, and no others. -/
theorem filter_isFailLine (directory : String) (accounts : List Account) :
    (reportLines directory accounts).filter isFailLine = accounts.filterMap Account.failLine? := by
  have hfail : ∀ line ∈ accounts.filterMap Account.failLine?, isFailLine line = true := by
    intro line hline
    obtain ⟨a, -, hsome⟩ := List.mem_filterMap.mp hline
    obtain ⟨names, shown, outcome⟩ := a
    cases outcome with
    | ok _ => cases hsome
    | error message =>
      cases hsome
      simp [isFailLine]
  rw [reportLines, List.filter_append, List.filter_append, List.filter_eq_self.mpr hfail]
  simp [isFailLine]

namespace Accounts

variable {rules : Rules} {directory : SystemText}
  {source source' : List SystemText → Except ReadError ByteArray → Prop} {accounts : List Account}
  (h : Accounts rules directory source accounts)
include h

theorem congr (hsource : ∀ names result, source names result ↔ source' names result) :
    Accounts rules directory source' accounts where
  sorted := h.sorted
  mem_iff a := by simp only [h.mem_iff, hsource]

/-- The lines of a report can be told apart if no path in them has a line feed. -/
theorem linesOf_unlines {shown : String} (hshown : SystemText.Shows directory.bytes shown.toList)
    (hcause : ∀ names reason, ¬ source names (.error (.other reason)))
    (hdirectory : 0x0A ∉ directory.bytes)
    (hpaths : ∀ a ∈ accounts, a.failed = true → 0x0A ∉ (pathAt directory a.names).bytes) :
    linesOf (unlines (reportLines shown accounts)) = reportLines shown accounts := by
  refine PhpTokens.linesOf_unlines (reportLines_no_lineFeed ?_ fun a ha line hline => ?_)
  · exact fun hmem => hdirectory (hshown.lineFeed_mem hmem)
  · obtain ⟨result, hresult, hpath, houtcome⟩ := (h.mem_iff a).mp ha
    obtain ⟨names, path, outcome⟩ := a
    cases outcome with
    | ok _ => cases hline
    | error message =>
      cases hline
      have hplain : '\n' ∉ path.toList := fun hmem =>
        hpaths _ ha rfl (hpath.lineFeed_mem hmem)
      have hmessage := houtcome.no_lineFeed
        (fun reason hother => hcause names reason (hother ▸ hresult)) hplain
      simp only [String.toList_append, List.mem_append, not_or]
      exact ⟨⟨⟨by decide, hplain⟩, by decide⟩, hmessage⟩

end Accounts

end Lines

section Judge

variable {files : Files} {rules : Rules} {file : Found}

theorem judge_path : (judge files rules file).path = file.path := by
  rw [judge]
  split <;> rfl

theorem judge_names : (judge files rules file).names = file.names := by
  rw [judge]
  split <;> rfl

theorem judge_of_decode {content : ByteArray} (hread : files file.path = .ok content) :
    (judge files rules file).outcome =
      match SourceText.decode content with
      | .error cause => .error (.unreadable file.path cause)
      | .ok text => ((tokens rules text).map List.length).mapError .lexical := by
  have hsource : (files file.path >>= SourceText.ofBytes file.path) =
      (SourceText.decode content).map fun text => { text, path := some file.path } := by
    rw [hread]
    rfl
  rw [judge, hsource]
  cases SourceText.decode content with
  | error cause => rfl
  | ok text =>
    simp only [Except.map, tokens]
    cases (Scanner.start rules text).drain.outcome <;> rfl

/-- What becomes of a file is what its account tells. -/
theorem outcome_judge :
    Outcome rules file.path.display (files file.path)
      ((judge files rules file).outcome.mapError Failure.message) := by
  cases hread : files file.path with
  | error cause =>
    have hjudge : (judge files rules file).outcome = .error (.unreadable file.path cause) := by
      rw [judge, hread]
      rfl
    rw [hjudge]
    exact .unread cause
  | ok content =>
    cases hdecode : SourceText.decode content with
    | error cause =>
      obtain ⟨rfl, hnone⟩ := SourceText.decode_eq_error_iff.mp hdecode
      rw [judge_of_decode hread, hdecode, Except.mapError, message_undecodable]
      exact .undecodable hnone
    | ok text =>
      have hcontent := SourceText.decode_eq_ok_iff.mp hdecode
      simp only [judge_of_decode hread, hdecode]
      cases htokens : tokens rules text with
      | error error => exact .faulty hcontent htokens (tells_iff.mpr rfl)
      | ok ts => exact .passed hcontent htokens

/-- What is read of a file leaves one outcome. -/
theorem Outcome.unique {shown : String} {result : Except ReadError ByteArray}
    {outcome outcome' : Except String Nat} (h : Outcome rules shown result outcome)
    (h' : Outcome rules shown result outcome') : outcome = outcome' := by
  cases h with
  | unread cause =>
    cases h'
    rfl
  | undecodable hnone =>
    cases h' with
    | undecodable _ => rfl
    | faulty decodes' _ _ => exact absurd decodes' (hnone _)
    | passed decodes' _ => exact absurd decodes' (hnone _)
  | faulty decodes htokens htells =>
    cases h' with
    | undecodable hnone => exact absurd decodes (hnone _)
    | faulty decodes' htokens' htells' =>
      cases String.toByteArray_inj.mp (decodes.trans decodes'.symm)
      cases htokens.symm.trans htokens'
      rw [← tells_iff.mp htells, tells_iff.mp htells']
    | passed decodes' htokens' =>
      cases String.toByteArray_inj.mp (decodes.trans decodes'.symm)
      cases htokens.symm.trans htokens'
  | passed decodes htokens =>
    cases h' with
    | undecodable hnone => exact absurd decodes (hnone _)
    | faulty decodes' htokens' _ =>
      cases String.toByteArray_inj.mp (decodes.trans decodes'.symm)
      cases htokens.symm.trans htokens'
    | passed decodes' htokens' =>
      cases String.toByteArray_inj.mp (decodes.trans decodes'.symm)
      cases htokens.symm.trans htokens'
      rfl

end Judge

end PhpTokens.Corpus
