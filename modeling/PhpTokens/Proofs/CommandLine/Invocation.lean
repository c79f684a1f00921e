import PhpTokens.CommandLine.Listing
import PhpTokens.CommandLine.Survey
import PhpTokens.Proofs.SourceText

/-! The two commands with the flags that both know. Flags come first, and two dashes stand in front
of the path, so that it may begin with a dash. What a flag asks for is said here apart from how the
arguments are read. -/

namespace PhpTokens.CommandLine

/-- The flags for the legacy rules and for lenience, as arguments. -/
def flagArguments (legacy lenient : Bool) : List SystemText :=
  (if legacy then [.ofString "--legacy"] else []) ++
    (if lenient then [.ofString "--lenient"] else [])

/-- The rules that these flags ask for. -/
def rulesOf (legacy lenient : Bool) : Rules :=
  match legacy, lenient with
  | false, false => {}
  | true, false => .legacy
  | false, true => Rules.lenient {}
  | true, true => Rules.lenient .legacy

/-- The arguments for the survey of a directory. -/
def surveyArguments (legacy lenient : Bool) (directory : SystemText) : List SystemText :=
  flagArguments legacy lenient ++ [.ofString "--", directory]

/-- The flag for the form of a listing, as an argument. -/
def formArguments : ListingForm → List SystemText
  | .plain => []
  | .located => [.ofString "--positions"]
  | .json => [.ofString "--json"]

/-- The arguments for the listing of a file. -/
def listingArguments (form : ListingForm) (legacy lenient : Bool) (path : SystemText) :
    List SystemText :=
  formArguments form ++ flagArguments legacy lenient ++ [.ofString "--", path]

theorem operand?_of_ne_nil {given : List String} {values : List (String × SystemText)}
    {path : SystemText} (h : path.bytes ≠ []) :
    (Arguments.mk given values [path]).operand? = some path := if_neg h

section Survey

variable (legacy lenient : Bool) {directory : SystemText} (h : directory.bytes ≠ [])

theorem rules_surveyOptions :
    (SurveyOptions.mk directory legacy lenient 0).rules = rulesOf legacy lenient := by
  cases legacy <;> cases lenient <;> rfl

include h

theorem ofArguments?_survey :
    SurveyOptions.ofArguments? (surveyArguments legacy lenient directory) =
      some ⟨directory, legacy, lenient, 0⟩ := by
  have hparse : parse? SurveyOptions.forms (surveyArguments legacy lenient directory) =
      some ⟨(if legacy then ["legacy"] else []) ++ (if lenient then ["lenient"] else []), [],
        [directory]⟩ := by
    cases legacy <;> cases lenient <;> rfl
  rw [SurveyOptions.ofArguments?, hparse, Option.bind_eq_bind, Option.bind_some,
    operand?_of_ne_nil h]
  cases legacy <;> cases lenient <;> rfl

/-- The survey scans what is found at the path. -/
theorem run_survey (find : SystemText → Except ReadError FileTree) (files : Files) :
    Survey.run find files (surveyArguments legacy lenient directory) =
      Survey.runWith ⟨directory, legacy, lenient, 0⟩ (find directory) files := by
  rw [Survey.run, ofArguments?_survey legacy lenient h]

end Survey

section Listing

variable (form : ListingForm) (legacy lenient : Bool) {path : SystemText} (h : path.bytes ≠ [])

/-- The options for the listing of a file with these flags. -/
def listingOptions (path : SystemText) : ListingOptions :=
  ⟨path, form, if legacy then .legacy else .standard, lenient, 0⟩

include h

theorem ofArguments?_listing :
    ListingOptions.ofArguments? (listingArguments form legacy lenient path) =
      some (listingOptions form legacy lenient path) := by
  have hparse : parse? ListingOptions.forms (listingArguments form legacy lenient path) =
      some ⟨(match form with | .plain => [] | .located => ["positions"] | .json => ["json"]) ++
        (if legacy then ["legacy"] else []) ++ (if lenient then ["lenient"] else []), [],
        [path]⟩ := by
    cases form <;> cases legacy <;> cases lenient <;> rfl
  rw [ListingOptions.ofArguments?, hparse, Option.bind_eq_bind, Option.bind_some,
    operand?_of_ne_nil h]
  cases form <;> cases legacy <;> cases lenient <;> rfl

theorem run_listing (files : Files) :
    Listing.run files (listingArguments form legacy lenient path) =
      Listing.runWith files (listingOptions form legacy lenient path) := by
  rw [Listing.run, ofArguments?_listing form legacy lenient h]

omit h in
theorem rules_listingOptions (files : Files) :
    Listing.rules files (listingOptions form legacy lenient path) =
      .ok (rulesOf legacy lenient) := by
  cases legacy <;> cases lenient <;> rfl

end Listing

section Runs

variable {files : Files} {options : ListingOptions}

theorem runWith_of_error {failure : ListingFailure}
    (h : (Listing.scan files options).1 = .error failure) :
    ∃ log, Listing.runWith files options = { status := 1, report := failure.report, log } := by
  cases hscan : Listing.scan files options with
  | mk outcome events =>
    rw [hscan] at h
    cases h
    rw [Listing.runWith, hscan]
    exact ⟨_, rfl⟩

theorem runWith_of_ok {ts : List Token} (h : (Listing.scan files options).1 = .ok ts) :
    ∃ log, Listing.runWith files options =
      { status := 0, output := Listing.write options.form ts, log } := by
  cases hscan : Listing.scan files options with
  | mk outcome events =>
    rw [hscan] at h
    cases h
    rw [Listing.runWith, hscan]
    exact ⟨_, rfl⟩

variable {rules : Rules} (hrules : Listing.rules files options = .ok rules)
include hrules

/-- Once there are rules, the file is read, decoded and scanned. -/
theorem scan_of_rules :
    (Listing.scan files options).1 =
      match files options.file >>= SourceText.decode with
      | .error cause => .error (.source options.file cause)
      | .ok text => (tokens rules text).mapError (.lexing options.file) := by
  have hsource : (files options.file >>= SourceText.ofBytes options.file) =
      (files options.file >>= SourceText.decode).map
        fun text => { text, path := some options.file } := by
    cases files options.file <;> rfl
  simp only [Listing.scan, hrules, hsource]
  cases files options.file >>= SourceText.decode <;> rfl

theorem runWith_of_unread {cause : ReadError}
    (h : (files options.file >>= SourceText.decode) = .error cause) :
    ∃ log, Listing.runWith files options =
      { status := 1, report := (ListingFailure.source options.file cause).report, log } := by
  have hscan := scan_of_rules hrules
  rw [h] at hscan
  exact runWith_of_error hscan

variable {content : ByteArray} {text : String} (hread : files options.file = .ok content)
  (hdecode : text.toUTF8 = content)
include hread hdecode

theorem scan_of_text :
    (Listing.scan files options).1 = (tokens rules text).mapError (.lexing options.file) := by
  have htext : (files options.file >>= SourceText.decode) = .ok text := by
    rw [hread]
    exact SourceText.decode_eq_ok_iff.mpr hdecode
  rw [scan_of_rules hrules, htext]

theorem runWith_of_fault {error : ScanError} (h : tokens rules text = .error error) :
    ∃ log, Listing.runWith files options =
      { status := 1, report := (ListingFailure.lexing options.file error).report, log } := by
  have hscan := scan_of_text hrules hread hdecode
  rw [h] at hscan
  exact runWith_of_error hscan

/-- What is printed for a text that has tokens is their listing, and nothing else is. -/
theorem runWith_of_tokens {ts : List Token} (h : tokens rules text = .ok ts) :
    ∃ log, Listing.runWith files options =
      { status := 0, output := Listing.write options.form ts, log } := by
  have hscan := scan_of_text hrules hread hdecode
  rw [h] at hscan
  exact runWith_of_ok hscan

end Runs

/-- A run with the flag for a form prints the listing in this form of the tokens of the file. -/
theorem run_listing_of_tokens (form : ListingForm) (legacy lenient : Bool) {files : Files}
    {path : SystemText} (hpath : path.bytes ≠ []) {content : ByteArray}
    (hread : files path = .ok content) {text : String} (hdecode : text.toUTF8 = content)
    {ts : List Token} (h : tokens (rulesOf legacy lenient) text = .ok ts) :
    ∃ log, Listing.run files (listingArguments form legacy lenient path) =
      { status := 0, output := Listing.write form ts, log } := by
  rw [run_listing form legacy lenient hpath]
  exact runWith_of_tokens (rules_listingOptions form legacy lenient files) hread hdecode h

end PhpTokens.CommandLine
