import PhpTokens.Proofs.CommandLine.Invocation
import PhpTokens.Proofs.JsonText.Decoding
import PhpTokens.Proofs.JsonText.Written
import PhpTokens.Proofs.Text.Lines
import PhpTokens.Proofs.Token.Basic

/-! Listings as JSON. What is written for tokens is JSON, and from it a reader finds every part of
every token again. -/

namespace PhpTokens

open JsonText

section Reading

def memberOf? (name : String) : Datum → Option Datum
  | .object members => members.lookup name
  | _ => none

def stringOf? : Datum → Option String
  | .string s => some s
  | _ => none

/-- A natural number without fraction and exponent. -/
def naturalOf? : Datum → Option Nat
  | .number numeral =>
    match readNatural? numeral with
    | some (n, []) => some n
    | _ => none
  | _ => none

def Place.ofDatum? (d : Datum) : Option Place := do
  let line ← naturalOf? (← memberOf? "line" d)
  let column ← naturalOf? (← memberOf? "column" d)
  let length ← naturalOf? (← memberOf? "length" d)
  return { line, column, length }

def Extent.ofDatum? (d : Datum) : Option Extent := do
  let start ← naturalOf? (← memberOf? "start" d)
  let stop ← naturalOf? (← memberOf? "end" d)
  return { start, stop }

/-- The token that a value describes; its members may have any order, and others may be there. -/
def Token.ofDatum? (d : Datum) : Option Token := do
  let kind ← Kind.ofLabel? (← stringOf? (← memberOf? "kind" d))
  let text ← stringOf? (← memberOf? "text" d)
  let place ← Place.ofDatum? (← memberOf? "position" d)
  let extent ← Extent.ofDatum? (← memberOf? "span" d)
  return { kind, text, place, extent }

/-- The token that a JSON text describes. -/
def Token.ofJson? (text : String) : Option Token := do Token.ofDatum? (← decode? text)

/-- The tokens that a JSON text lists. -/
def tokensOfJson? (text : String) : Option (List Token) := do
  match ← decode? text with
  | .array items => items.mapM Token.ofDatum?
  | _ => none

end Reading

section Writing

/-- The value that stands for a number. -/
def naturalDatum (n : Nat) : Datum := .number (toString n).toList

def Place.datum (p : Place) : Datum :=
  .object [("line", naturalDatum p.line), ("column", naturalDatum p.column),
    ("length", naturalDatum p.length)]

def Extent.datum (s : Extent) : Datum :=
  .object [("start", naturalDatum s.start), ("end", naturalDatum s.stop)]

/-- The value that a token is written as. -/
def Token.datum (t : Token) : Datum :=
  .object [("kind", .string t.kind.label), ("text", .string t.text),
    ("position", t.place.datum), ("span", t.extent.datum)]

theorem datum_toJson (t : Token) : t.toJson.datum = t.datum := rfl

theorem itemData_toJson (tokens : List Token) :
    Json.itemData (tokens.map Token.toJson) = tokens.map Token.datum := by
  induction tokens with
  | nil => rfl
  | cons t tokens ih => rw [List.map_cons, Json.itemData, datum_toJson, ih, List.map_cons]

theorem naturalOf?_naturalDatum (n : Nat) : naturalOf? (naturalDatum n) = some n := by
  have hend : Stops Char.isDigit ([] : List Char).head? := by
    intro c hc
    cases hc
  have hread := readNatural?_decimal n hend
  rw [List.append_nil] at hread
  rw [naturalDatum, naturalOf?, hread]

theorem Place.ofDatum?_datum (p : Place) : Place.ofDatum? p.datum = some p := by
  have hline : memberOf? "line" p.datum = some (naturalDatum p.line) := rfl
  have hcolumn : memberOf? "column" p.datum = some (naturalDatum p.column) := rfl
  have hlength : memberOf? "length" p.datum = some (naturalDatum p.length) := rfl
  simp only [Place.ofDatum?, hline, hcolumn, hlength, Option.bind_eq_bind, Option.bind_some,
    naturalOf?_naturalDatum]
  rfl

theorem Extent.ofDatum?_datum (s : Extent) : Extent.ofDatum? s.datum = some s := by
  have hstart : memberOf? "start" s.datum = some (naturalDatum s.start) := rfl
  have hstop : memberOf? "end" s.datum = some (naturalDatum s.stop) := rfl
  simp only [Extent.ofDatum?, hstart, hstop, Option.bind_eq_bind, Option.bind_some,
    naturalOf?_naturalDatum]
  rfl

theorem Token.ofDatum?_datum (t : Token) : Token.ofDatum? t.datum = some t := by
  have hkind : memberOf? "kind" t.datum = some (.string t.kind.label) := rfl
  have htext : memberOf? "text" t.datum = some (.string t.text) := rfl
  have hplace : memberOf? "position" t.datum = some t.place.datum := rfl
  have hextent : memberOf? "span" t.datum = some t.extent.datum := rfl
  simp only [Token.ofDatum?, hkind, htext, hplace, hextent, Option.bind_eq_bind, Option.bind_some,
    stringOf?, Kind.ofLabel?_label, Place.ofDatum?_datum, Extent.ofDatum?_datum]
  rfl

/-- A text is read for the token that it is a JSON text of. -/
theorem ofJson?_of_isText {t : Token} {text : String} (h : IsText t.datum text) :
    Token.ofJson? text = some t := by
  rw [Token.ofJson?, decode?_of_isText h]
  exact t.ofDatum?_datum

/-- The listing of tokens as JSON is the text of an array of them. -/
theorem isText_listing (tokens : List Token) :
    IsText (.array (tokens.map Token.datum)) (CommandLine.Listing.write .json tokens) := by
  have h := Json.isText_pretty 0 (.array (tokens.map Token.toJson)) "\n" (by decide)
  rwa [Json.datum, itemData_toJson] at h

theorem tokensOfJson?_listing (tokens : List Token) :
    tokensOfJson? (CommandLine.Listing.write .json tokens) = some tokens := by
  rw [tokensOfJson?, decode?_of_isText (isText_listing tokens)]
  have hitems : (tokens.map Token.datum).mapM Token.ofDatum? = some (tokens.map id) :=
    mapM_of_read Token.ofDatum?_datum tokens
  rwa [List.map_id] at hitems

end Writing

/-- JSON loses nothing. What is written for a token is a JSON text, on one line or over several, and
the token is read from it; a listing as JSON is the text of an array, and all its tokens are read
from it in order. -/
theorem json_listing_lossless :
    (∀ t : Token, IsText t.datum t.toJson.compact ∧
      Token.ofJson? t.toJson.compact = some t ∧
      ∀ level, IsText t.datum (t.toJson.pretty level) ∧
        Token.ofJson? (t.toJson.pretty level) = some t) ∧
    ∀ tokens : List Token,
      IsText (.array (tokens.map Token.datum)) (CommandLine.Listing.write .json tokens) ∧
      tokensOfJson? (CommandLine.Listing.write .json tokens) = some tokens := by
  constructor
  · intro t
    have hcompact : IsText t.datum t.toJson.compact := by
      rw [← datum_toJson]
      exact Json.isText_compact t.toJson
    refine ⟨hcompact, ofJson?_of_isText hcompact, fun level => ?_⟩
    have hpretty : IsText t.datum (t.toJson.pretty level) := by
      have h := Json.isText_pretty level t.toJson "" Json.isBlanks_nil
      rwa [String.append_empty, datum_toJson] at h
    exact ⟨hpretty, ofJson?_of_isText hpretty⟩
  · intro tokens
    exact ⟨isText_listing tokens, tokensOfJson?_listing tokens⟩

/-- A run that lists a file as JSON prints the listing of its tokens, from which they are read. -/
theorem run_json {files : Files} {path : SystemText} (hpath : path.bytes ≠ [])
    {content : ByteArray} (hread : files path = .ok content) {text : String}
    (hdecode : text.toUTF8 = content) {legacy lenient : Bool} {ts : List Token}
    (h : tokens (CommandLine.rulesOf legacy lenient) text = .ok ts) :
    let r := CommandLine.Listing.run files (CommandLine.listingArguments .json legacy lenient path)
    r.status = 0 ∧ r.report = "" ∧ r.output = CommandLine.Listing.write .json ts ∧
      tokensOfJson? r.output = some ts := by
  intro r
  obtain ⟨log, hrun⟩ :=
    CommandLine.run_listing_of_tokens .json legacy lenient hpath hread hdecode h
  simp only [r, hrun]
  exact ⟨trivial, trivial, trivial, tokensOfJson?_listing ts⟩

end PhpTokens
