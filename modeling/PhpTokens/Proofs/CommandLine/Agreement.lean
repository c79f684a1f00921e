import PhpTokens.Proofs.CommandLine.Survey
import PhpTokens.Proofs.CommandLine.TextListing
import PhpTokens.Proofs.Scan.Run

/-! The listing of a file and the survey of a directory that has the file. Both scan its bytes by
the same rules, so a file that the survey names as failed has no listing, for the same reason, and
the listing of any other file has as many lines as the survey counts tokens in it. -/

namespace PhpTokens.CommandLine

open Corpus (Account Accounts Outcome reportLines)
open FileTree (pathAt)
open SystemText (Shows)

/-- What a listing reports about a file where a survey says `message`, given what is read of the
file. If the file has a text, the message tells of an error in it and is the cause in the report;
else the message is what the report begins with, and the cause is the one that the message ends
with. -/
inductive Reports (shown : String) : Except ReadError ByteArray → String → String → Prop where
  | lexing (text message : String) :
      Reports shown (.ok text.toUTF8) message
        ("Error: lexing " ++ shown ++ "\n\nCaused by:\n    " ++ message ++ "\n")
  | reading {result : Except ReadError ByteArray} (cause : String)
      (h : ∀ text : String, result ≠ .ok text.toUTF8) :
      Reports shown result ("cannot read source file " ++ shown ++ ": " ++ cause)
        ("Error: cannot read source file " ++ shown ++ ": " ++ cause ++ "\n\nCaused by:\n    " ++
          cause ++ "\n")

/-- The line for the end of a text. -/
def endLine (positions : Bool) (place : Place) : String :=
  "Eof: \"\"" ++
    if positions then
      " @ " ++ toString place.line ++ ":" ++ toString place.column ++ "+" ++ toString place.length
    else ""

/-- What the listing of a file left behind goes with what a survey says about the file, given what
is read of it. -/
structure Agrees (positions : Bool) (result : Except ReadError ByteArray) (a : Account)
    (r : Result) : Prop where
  status_eq : r.status = if a.failed then 1 else 0
  failed : ∀ message, a.outcome = .error message →
    r.output = "" ∧ Reports a.shown result message r.report
  passed : ∀ count, a.outcome = .ok count → r.report = "" ∧ unlines (linesOf r.output) = r.output ∧
    (∃ front place, linesOf r.output = front ++ [endLine positions place]) ∧
    (linesOf r.output).length = count

/-- The number of lines is the number of tokens, if there are any. -/
theorem Agrees.tokens_eq {positions : Bool} {result : Except ReadError ByteArray} {a : Account}
    {r : Result} (h : Agrees positions result a r) :
    a.tokens = if a.failed then 0 else (linesOf r.output).length := by
  obtain ⟨names, shown, outcome⟩ := a
  cases outcome with
  | error message => rfl
  | ok count => exact (h.passed count rfl).2.2.2.symm

section Lines

/-- The form of a listing as text. -/
def textForm (positions : Bool) : ListingForm := if positions then .located else .plain

/-- The line of a token in a listing as text. -/
def textLine (positions : Bool) (t : Token) : String :=
  if positions then t.toLocatedText else t.toText

variable (positions : Bool) (ts : List Token)

theorem linesOf_text :
    linesOf (Listing.write (textForm positions) ts) = ts.map (textLine positions) := by
  cases positions with
  | false => exact linesOf_plain ts
  | true => exact linesOf_located ts

theorem unlines_text :
    unlines (ts.map (textLine positions)) = Listing.write (textForm positions) ts := by
  cases positions with
  | false => exact (write_plain ts).symm
  | true => exact (write_located ts).symm

theorem textLine_endOf (rules : Rules) (text : List Char) :
    textLine positions (endOf rules text) = endLine positions (endOf rules text).place := by
  have htext : (endOf rules text).toText = "Eof: \"\"" := rfl
  cases positions with
  | false => exact htext
  | true => rw [textLine, if_pos rfl, Token.toLocatedText, htext, String.append_assoc]; rfl

/-- The last token of a scan that succeeds is the one for the end of the text. -/
theorem exists_front_of_tokens {rules : Rules} {text : String} {ts : List Token}
    (h : tokens rules text = .ok ts) : ∃ front, ts = front ++ [endOf rules text.toList] := by
  obtain ⟨cuts, ending, hcut⟩ := exists_cutting rules (Nat.zero_le text.toList.length)
  rw [tokens_of_cutting hcut] at h
  cases ending with
  | complete => exact ⟨_, (Except.ok.inj h).symm⟩
  | broken start fault => cases h

end Lines

section Report

theorem indentLines_of_plain {s : String} (h : '\n' ∉ s.toList) : indentLines s = s := by
  have hsame : s.toList.flatMap (fun c => if c = '\n' then "\n    ".toList else [c]) =
      s.toList.flatMap fun c => [c] :=
    List.flatMap_congr fun c hc => if_neg fun (heq : c = '\n') => h (heq ▸ hc)
  rw [indentLines, hsame, List.flatMap_singleton', String.ofList_toList]

theorem failureReport_of_plain (context : String) {cause : String} (h : '\n' ∉ cause.toList) :
    failureReport context cause =
      "Error: " ++ context ++ "\n\nCaused by:\n    " ++ cause ++ "\n" := by
  rw [failureReport, indentLines_of_plain h]

variable {path : SystemText}

theorem report_source {cause : ReadError} (h : '\n' ∉ cause.message.toList) :
    (ListingFailure.source path cause).report =
      "Error: cannot read source file " ++ path.display ++ ": " ++ cause.message ++
        "\n\nCaused by:\n    " ++ cause.message ++ "\n" := by
  have hreport : (ListingFailure.source path cause).report =
      failureReport ("cannot read source file " ++ path.display ++ ": " ++ cause.message)
        cause.message := rfl
  have herror : "Error: cannot read source file " = "Error: " ++ "cannot read source file " := rfl
  rw [hreport, failureReport_of_plain _ h, herror]
  simp only [String.append_assoc]

theorem report_lexing {error : ScanError} {message : String} (h : Corpus.Tells error message) :
    (ListingFailure.lexing path error).report =
      "Error: lexing " ++ path.display ++ "\n\nCaused by:\n    " ++ message ++ "\n" := by
  have hreport : (ListingFailure.lexing path error).report =
      failureReport ("lexing " ++ path.display) error.message := rfl
  have herror : "Error: lexing " = "Error: " ++ "lexing " := rfl
  rw [hreport, Corpus.tells_iff.mp h, failureReport_of_plain _ h.no_lineFeed, herror]
  simp only [String.append_assoc]

end Report

section Listing

variable (positions : Bool) {legacy lenient : Bool} {files : Files} {path : SystemText}
  (hpath : path.bytes ≠ [])
include hpath

/-- A file without a text has no listing, and the listing reports the cause. -/
theorem agrees_of_unread {names : List SystemText} {result : Except ReadError ByteArray}
    {cause : ReadError} (hread : files path = result)
    (hdecode : (result >>= SourceText.decode) = .error cause)
    (htext : ∀ text : String, result ≠ .ok text.toUTF8) (hcause : '\n' ∉ cause.message.toList) :
    Agrees positions result
      { names
        shown := path.display
        outcome := .error ("cannot read source file " ++ path.display ++ ": " ++ cause.message) }
      (Listing.run files (listingArguments (textForm positions) legacy lenient path)) := by
  subst hread
  obtain ⟨log, hrun⟩ := runWith_of_unread
    (rules_listingOptions (textForm positions) legacy lenient files) hdecode
  rw [run_listing _ legacy lenient hpath, hrun]
  refine ⟨rfl, fun message hmessage => ⟨rfl, ?_⟩, nofun⟩
  cases hmessage
  simp only [listingOptions, report_source hcause]
  exact .reading cause.message htext

/-- A file whose text has an error has no listing, and the listing reports the error. -/
theorem agrees_of_fault {names : List SystemText} {text message : String} {error : ScanError}
    (hread : files path = .ok text.toUTF8) (h : tokens (rulesOf legacy lenient) text = .error error)
    (htells : Corpus.Tells error message) :
    Agrees positions (.ok text.toUTF8) { names, shown := path.display, outcome := .error message }
      (Listing.run files (listingArguments (textForm positions) legacy lenient path)) := by
  obtain ⟨log, hrun⟩ := runWith_of_fault
    (rules_listingOptions (textForm positions) legacy lenient files) hread rfl h
  rw [run_listing _ legacy lenient hpath, hrun]
  refine ⟨rfl, fun message' hmessage => ⟨rfl, ?_⟩, nofun⟩
  cases hmessage
  simp only [listingOptions, report_lexing htells]
  exact .lexing text message

/-- Tokens are listed in lines, one for each. -/
theorem agrees_of_tokens {names : List SystemText} {text : String} {ts : List Token}
    (hread : files path = .ok text.toUTF8) (h : tokens (rulesOf legacy lenient) text = .ok ts) :
    Agrees positions (.ok text.toUTF8) { names, shown := path.display, outcome := .ok ts.length }
      (Listing.run files (listingArguments (textForm positions) legacy lenient path)) := by
  obtain ⟨log, hrun⟩ := run_listing_of_tokens (textForm positions) legacy lenient hpath hread rfl h
  obtain ⟨front, hfront⟩ := exists_front_of_tokens h
  rw [hrun]
  refine ⟨rfl, nofun, fun count hcount => ⟨rfl, ?_, ?_, ?_⟩⟩
  · rw [linesOf_text, unlines_text]
  · refine ⟨front.map (textLine positions), (endOf (rulesOf legacy lenient) text.toList).place, ?_⟩
    rw [linesOf_text, hfront, List.map_append, List.map_singleton, textLine_endOf]
  · rw [linesOf_text, List.length_map]
    exact Except.ok.inj hcount

/-- The listing of a file agrees with an account that tells what becomes of it. -/
theorem agrees_of_outcome {result : Except ReadError ByteArray} (hread : files path = result)
    (hcause : ∀ reason, result ≠ .error (.other reason)) {names : List SystemText}
    {outcome : Except String Nat}
    (h : Outcome (rulesOf legacy lenient) path.display result outcome) :
    Agrees positions result { names, shown := path.display, outcome }
      (Listing.run files (listingArguments (textForm positions) legacy lenient path)) := by
  cases h with
  | unread cause =>
    exact agrees_of_unread positions hpath hread rfl nofun
      (Corpus.message_no_lineFeed fun reason heq => hcause reason (congrArg _ heq))
  | @undecodable content hnone =>
    rw [← Corpus.message_undecodable]
    exact agrees_of_unread positions hpath hread
      (SourceText.decode_eq_error_iff.mpr ⟨rfl, hnone⟩)
      (fun text heq => hnone text (Except.ok.inj heq).symm) (by decide)
  | faulty decodes h htells =>
    subst decodes
    exact agrees_of_fault positions hpath hread h htells
  | passed decodes h =>
    subst decodes
    exact agrees_of_tokens positions hpath hread h

end Listing

/-- The two commands agree. Survey any directory, and list each source file that counts, at its path
and with the same flags. The listing fails if and only if the survey names the file as failed, and
then it reports the error that the survey names and prints nothing. Else what it prints ends with
the line for the end of the text, and it has as many lines as the survey counts tokens in the file;
so the sum of these is the survey's total. -/
theorem listings_agree_with_survey {fs : FileSystem} (hfs : fs.root.Stored)
    {directory : SystemText} (hdirectory : directory.bytes ≠ [])
    (legacy lenient positions : Bool) :
    let survey := Survey.run fs.find fs.read (surveyArguments legacy lenient directory)
    let listing (a : Account) := Listing.run fs.read
      (listingArguments (textForm positions) legacy lenient (pathAt directory a.names))
    ∃ shown accounts, Shows directory.bytes shown.toList ∧
      Accounts (rulesOf legacy lenient) directory
        (fun names result => Counted fs directory names ∧ result = fs.read (pathAt directory names))
        accounts ∧
      survey.output = unlines (reportLines shown accounts) ∧
      (∀ a ∈ accounts, Agrees positions (fs.read (pathAt directory a.names)) a (listing a)) ∧
      (accounts.map Account.tokens).sum =
        ((accounts.filter fun a => !a.failed).map
          fun a => (linesOf (listing a).output).length).sum := by
  intro survey listing
  obtain ⟨accounts, haccounts, log, hrun⟩ := survey_accounts hdirectory legacy lenient hfs
  have hagrees : ∀ a ∈ accounts,
      Agrees positions (fs.read (pathAt directory a.names)) a (listing a) := by
    intro a ha
    obtain ⟨result, ⟨-, rfl⟩, hshown, houtcome⟩ := (haccounts.mem_iff a).mp ha
    obtain ⟨names, shown, outcome⟩ := a
    dsimp only at hshown houtcome
    obtain rfl := SystemText.display_eq_iff.mpr hshown
    have hpath : (pathAt directory names).bytes ≠ [] :=
      List.length_pos_iff.mp (Nat.lt_of_lt_of_le (List.length_pos_iff.mpr hdirectory)
        (FileTree.size_pathAt_le directory names))
    exact agrees_of_outcome positions hpath rfl (fun _ => FileSystem.read_ne_other) houtcome
  refine ⟨_, accounts, SystemText.display_eq_iff.mp rfl, haccounts, ?_, hagrees, ?_⟩
  · simp only [survey, hrun]
  · rw [List.map_congr_left fun a ha => (hagrees a ha).tokens_eq, List.sum_map_ite]
    simp [listing]

theorem listings_agree_with_survey_mixed :
    let directory := SystemText.ofString "d"
    let survey :=
      Survey.run mixedSystem.find mixedSystem.read (surveyArguments true false directory)
    let listing (a : Account) := Listing.run mixedSystem.read
      (listingArguments (textForm true) true false (pathAt directory a.names))
    mixedSystem.root.Stored ∧ directory.bytes ≠ [] ∧
    ∃ shown accounts, Shows directory.bytes shown.toList ∧
      Accounts (rulesOf true false) directory
        (fun names result => Counted mixedSystem directory names ∧
          result = mixedSystem.read (pathAt directory names))
        accounts ∧
      survey.output = unlines (reportLines shown accounts) ∧
      (∀ a ∈ accounts, Agrees true (mixedSystem.read (pathAt directory a.names)) a (listing a)) ∧
      (accounts.map Account.tokens).sum =
        ((accounts.filter fun a => !a.failed).map
          fun a => (linesOf (listing a).output).length).sum :=
  ⟨mixedSystem_stored, by decide,
    listings_agree_with_survey mixedSystem_stored (by decide) true false true⟩

end PhpTokens.CommandLine
