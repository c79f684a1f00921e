import Mathlib.Data.List.Basic
import Mathlib.Data.List.Forall2
import PhpTokens.Proofs.CommandLine.Invocation
import PhpTokens.Proofs.Text.Lines
import PhpTokens.Proofs.Text.Quoted
import PhpTokens.Proofs.Token.Basic

/-! Listings as text. Every token has a line of its own, however many lines its text has, and from
the lines with positions a reader finds the kind, the text and the place of every token again. -/

namespace PhpTokens.CommandLine

/-- What a line with a position shows of a token: all but its extent. -/
structure Shown where
  kind : Kind
  text : String
  place : Place
  deriving DecidableEq, Repr

def Shown.ofToken (t : Token) : Shown := { kind := t.kind, text := t.text, place := t.place }

/-- The line of a token, where `hidden` are the characters that are not shown as they are. -/
def LineForm (hidden : Char → Prop) (t : Token) (line : String) : Prop :=
  ∃ pieces, List.Forall₂ (Quoted.Form hidden) t.text.toList pieces ∧
    line = t.kind.label ++ ": \"" ++ String.ofList pieces.flatten ++ "\" @ " ++
      toString t.place.line ++ ":" ++ toString t.place.column ++ "+" ++ toString t.place.length

/-- A place, with nothing behind it. -/
def readPlace? (cs : List Char) : Option Place := do
  let (line, cs) ← readNatural? cs
  let cs ← [':'].isPrefixOf? cs
  let (column, cs) ← readNatural? cs
  let cs ← ['+'].isPrefixOf? cs
  let (length, cs) ← readNatural? cs
  if cs.isEmpty then some { line, column, length } else none

/-- What a line with a position shows. -/
def readLine? (line : String) : Option Shown := do
  let cs := line.toList
  let kind ← Kind.ofLabel? (String.ofList (cs.takeWhile Char.isAlpha))
  let cs ← [':', ' ', '"'].isPrefixOf? (cs.dropWhile Char.isAlpha)
  let (text, cs) ← Quoted.decode? cs
  let cs ← [' ', '@', ' '].isPrefixOf? cs
  let place ← readPlace? cs
  return { kind, text := String.ofList text, place }

/-- What a listing with positions shows. -/
def readListing? (text : String) : Option (List Shown) := (linesOf text).mapM readLine?

section Lines

theorem toList_placeText (p : Place) :
    p.toText.toList = (toString p.line).toList ++
      ':' :: ((toString p.column).toList ++ '+' :: (toString p.length).toList) := by
  simp only [Place.toText, String.toList_append, List.append_assoc]
  rfl

theorem toList_tokenText (t : Token) :
    t.toText.toList =
      t.kind.label.toList ++ ':' :: ' ' :: '"' :: (Quoted.encode '"' t.text.toList ++ ['"']) := by
  simp only [Token.toText, Quoted.text, String.toList_append, String.toList_ofList,
    List.append_assoc]
  rfl

theorem toList_locatedText (t : Token) :
    t.toLocatedText.toList = t.kind.label.toList ++ ':' :: ' ' :: '"' ::
      (Quoted.encode '"' t.text.toList ++ '"' :: ' ' :: '@' :: ' ' :: t.place.toText.toList) := by
  simp only [Token.toLocatedText, String.toList_append, toList_tokenText, List.append_assoc,
    List.cons_append]
  rfl

theorem placeText_no_lineFeed (p : Place) : '\n' ∉ p.toText.toList := by
  simp [toList_placeText, digits_no_lineFeed]

theorem tokenText_no_lineFeed (t : Token) : '\n' ∉ t.toText.toList := by
  have hlabel : '\n' ∉ t.kind.label.toList := fun h => by
    cases t.kind.isAlpha_of_mem_label _ h
  simp [toList_tokenText, hlabel, Quoted.encode_no_lineFeed]

theorem locatedText_no_lineFeed (t : Token) : '\n' ∉ t.toLocatedText.toList := by
  have htext := tokenText_no_lineFeed t
  rw [Token.toLocatedText, String.toList_append, String.toList_append, List.mem_append,
    List.mem_append]
  rintro ((h | h) | h)
  · exact htext h
  · exact absurd h (by decide)
  · exact placeText_no_lineFeed t.place h

theorem write_plain (tokens : List Token) :
    Listing.write .plain tokens = unlines (tokens.map Token.toText) := by
  rw [Listing.write, unlines, List.map_map]
  rfl

theorem write_located (tokens : List Token) :
    Listing.write .located tokens = unlines (tokens.map Token.toLocatedText) := by
  rw [Listing.write, unlines, List.map_map]
  rfl

theorem linesOf_plain (tokens : List Token) :
    linesOf (Listing.write .plain tokens) = tokens.map Token.toText := by
  rw [write_plain, linesOf_unlines]
  simpa using fun t _ => tokenText_no_lineFeed t

theorem linesOf_located (tokens : List Token) :
    linesOf (Listing.write .located tokens) = tokens.map Token.toLocatedText := by
  rw [write_located, linesOf_unlines]
  simpa using fun t _ => locatedText_no_lineFeed t

end Lines

section Reading

theorem isPrefixOf?_append (front cs : List Char) : front.isPrefixOf? (front ++ cs) = some cs :=
  List.isPrefixOf?_eq_some_iff_append_eq.mpr rfl

theorem readPlace?_toText (p : Place) : readPlace? p.toText.toList = some p := by
  have hline (cs : List Char) := readNatural?_decimal p.line (stops_cons (c := ':') rfl cs)
  have hcolumn (cs : List Char) := readNatural?_decimal p.column (stops_cons (c := '+') rfl cs)
  have hend : Stops Char.isDigit ([] : List Char).head? := by rintro _ ⟨⟩
  have hlength := readNatural?_decimal p.length hend
  rw [List.append_nil] at hlength
  have hcolon : ∀ cs, [':'].isPrefixOf? (':' :: cs) = some cs := isPrefixOf?_append [':']
  have hplus : ∀ cs, ['+'].isPrefixOf? ('+' :: cs) = some cs := isPrefixOf?_append ['+']
  simp only [readPlace?, toList_placeText, Option.bind_eq_bind, hline, hcolon, hcolumn, hplus,
    hlength, Option.bind_some]
  rfl

/-- Every line is read back. -/
theorem readLine?_locatedText (t : Token) : readLine? t.toLocatedText = some (.ofToken t) := by
  have hlabel := t.kind.isAlpha_of_mem_label
  have hstops (rest : List Char) : Stops Char.isAlpha (':' :: rest).head? := stops_cons rfl rest
  have hquote : ∀ cs, [':', ' ', '"'].isPrefixOf? (':' :: ' ' :: '"' :: cs) = some cs :=
    isPrefixOf?_append [':', ' ', '"']
  have hat : ∀ cs, [' ', '@', ' '].isPrefixOf? (' ' :: '@' :: ' ' :: cs) = some cs :=
    isPrefixOf?_append [' ', '@', ' ']
  simp only [readLine?, toList_locatedText, takeWhile_append_of_stops hlabel (hstops _),
    dropWhile_append_of_stops hlabel (hstops _), String.ofList_toList, Kind.ofLabel?_label,
    Option.bind_eq_bind, Option.bind_some, hquote, Quoted.decode?_encode, hat, readPlace?_toText]
  rfl

theorem readListing?_located (tokens : List Token) :
    readListing? (Listing.write .located tokens) = some (tokens.map .ofToken) := by
  rw [readListing?, linesOf_located, mapM_of_read readLine?_locatedText]

end Reading

/-- Every token has a line in the form of its text. -/
theorem lineForm_locatedText (t : Token) : LineForm Quoted.IsHidden t t.toLocatedText := by
  refine ⟨t.text.toList.map (Quoted.encodeChar '"'), ?_, ?_⟩
  · rw [List.forall₂_map_right_iff, List.forall₂_same]
    exact fun c _ => Quoted.form_encodeChar c
  · apply String.toList_inj.mp
    rw [toList_locatedText, toList_placeText, Quoted.encode, List.flatMap_def]
    simp only [String.toList_append, String.toList_ofList, List.append_assoc]
    rfl

/-- A listing with positions loses nothing that it shows: each token has one ended line in the form
of its text, what all lines show is read back from them, and so two lists of tokens have one listing
only if they show the same. -/
theorem located_listing_lossless (tokens : List Token) :
    let output := Listing.write .located tokens
    unlines (linesOf output) = output ∧ (linesOf output).length = tokens.length ∧
      List.Forall₂ (LineForm Quoted.IsHidden) tokens (linesOf output) ∧
      readListing? output = some (tokens.map .ofToken) ∧
      ∀ others : List Token, Listing.write .located others = output →
        others.map Shown.ofToken = tokens.map Shown.ofToken := by
  intro output
  have hlines : linesOf output = tokens.map Token.toLocatedText := linesOf_located tokens
  refine ⟨?_, ?_, ?_, readListing?_located tokens, fun others heq => ?_⟩
  · rw [hlines]
    exact (write_located tokens).symm
  · rw [hlines, List.length_map]
  · rw [hlines, List.forall₂_map_right_iff, List.forall₂_same]
    exact fun t _ => lineForm_locatedText t
  · have hread := readListing?_located others
    rw [heq] at hread
    exact Option.some.inj (hread.symm.trans (readListing?_located tokens))

/-- A run that lists a file with positions prints the listing of its tokens, from which what the
lines show of the tokens is read. -/
theorem run_located {files : Files} {path : SystemText} (hpath : path.bytes ≠ [])
    {content : ByteArray} (hread : files path = .ok content) {text : String}
    (hdecode : text.toUTF8 = content) {legacy lenient : Bool} {ts : List Token}
    (h : tokens (rulesOf legacy lenient) text = .ok ts) :
    let r := Listing.run files (listingArguments .located legacy lenient path)
    r.status = 0 ∧ r.report = "" ∧ r.output = Listing.write .located ts ∧
      readListing? r.output = some (ts.map .ofToken) := by
  intro r
  obtain ⟨log, hrun⟩ := run_listing_of_tokens .located legacy lenient hpath hread hdecode h
  simp only [r, hrun]
  exact ⟨trivial, trivial, trivial, readListing?_located ts⟩

/-- A name that is a sound mark alone. -/
def soundMark : Token :=
  { kind := .identifier, text := "\uff9e", place := ⟨1, 1, 1⟩, extent := ⟨0, 3⟩ }

/-- Not every extending character is written by its code point, whichever characters count as
unprintable: the sound marks are not. -/
theorem extender_shown_as_it_is :
    ¬ ∃ unprintable : Char → Prop,
      List.Forall₂ (LineForm fun c => CodeSet.graphemeExtend.contains c = true ∨ unprintable c)
        [soundMark] (linesOf (Listing.write .located [soundMark])) := by
  rintro ⟨unprintable, hforms⟩
  rw [linesOf_located, List.map_singleton, List.forall₂_cons] at hforms
  obtain ⟨pieces, hpieces, hline⟩ := hforms.1
  rw [show soundMark.text.toList = ['\uff9e'] by rfl] at hpieces
  obtain ⟨piece, rest, hform, hrest, rfl⟩ := List.forall₂_cons_left_iff.mp hpieces
  cases List.forall₂_nil_left_iff.mp hrest
  cases hform with
  | escape hmem => simp [Quoted.escapes] at hmem
  | code _ _ => exact absurd hline (by decide +kernel)
  | plain _ hshown => exact hshown (.inl (by decide +kernel))

end PhpTokens.CommandLine
