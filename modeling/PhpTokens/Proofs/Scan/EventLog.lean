import Mathlib.Data.List.Forall2
import PhpTokens.Proofs.Scan.OpenEnd
import PhpTokens.Proofs.Scan.Reading

/-! What a scan leaves in the log. Every token in front of the end of the text is reported once, in
the order of the text and with the place that it has. A piece that swallows the rest of the text is
announced by a warning, which names the place of its first character wherever tokens are anchored;
there is one under the lenient rule exactly where the strict rule would have refused the text. The
last event tells how the scan has ended. -/

namespace PhpTokens

/-- The character that is looked for to close a piece. -/
def Kind.closing? : Kind → Option Char
  | .stringLiteral => some '"'
  | .comment => some '\n'
  | _ => none

namespace Token

/-- The token reaches the end of the text for want of a character that closes it. -/
def RunsOut (text : List Char) (t : Token) : Prop :=
  t.extent.stop = Utf8.size text ∧
    ∃ mark, t.kind.closing? = some mark ∧ mark ∉ t.text.toList.tail

/-- The event that reports a token. -/
def event (t : Token) : Event := .token t.kind t.place.line t.place.column

/-- The events of one token. A token that runs out has begun at the index `s`. -/
inductive Logs (rules : Rules) (text : List Char) (t : Token) : List Event → Prop where
  | alone (ends : ¬ t.RunsOut text) : Logs rules text t [t.event]
  | openString {s : Nat} (runsOut : t.RunsOut text) (kind_eq : t.kind = .stringLiteral)
      (start_eq : t.extent.start = Utf8.size (text.take s)) (here : text[s]? = some '"') :
      Logs rules text t
        [.openString (rules.newlines.line text s) (rules.newlines.column text s), t.event]
  | openComment {s : Nat} (runsOut : t.RunsOut text) (kind_eq : t.kind = .comment)
      (start_eq : t.extent.start = Utf8.size (text.take s)) (here : text[s]? = some '#') :
      Logs rules text t
        [.openComment (rules.newlines.line text s) (rules.newlines.column text s), t.event]

end Token

/-- The events of one level. -/
def Event.atLevel (level : Level) (events : List Event) : List Event :=
  events.filter (·.level == level)

theorem Event.atLevel_append (level : Level) (events more : List Event) :
    atLevel level (events ++ more) = atLevel level events ++ atLevel level more :=
  List.filter_append ..

/-- The event that ends the log of a scan. -/
def Scan.lastEvent (scan : Scan) : Event :=
  match scan.outcome with
  | .ok tokens => .finished tokens.length
  | .error error => .failed error

theorem Scan.atLevel_lastEvent (level : Level) (scan : Scan) :
    Event.atLevel level [scan.lastEvent] = if level = .debug then [scan.lastEvent] else [] := by
  have hlevel : scan.lastEvent.level = .debug := by
    rw [lastEvent]
    split <;> rfl
  simp only [Event.atLevel, List.filter_singleton, hlevel]
  cases level <;> rfl

namespace Lexeme

variable {rules : Rules} {w : List Char} {next : Option Char} {piece : Lexeme}

/-- A piece that is closed has the character that closes it, or leaves it to what comes next. -/
theorem Reads.closes (h : Reads rules w next piece) (hclosed : piece.isClosed = true) {mark : Char}
    (hmark : piece.kind.closing? = some mark) : mark ∈ w.tail ∨ next ≠ none := by
  cases h with
  | string inner =>
    cases hmark
    exact .inl (List.mem_append_right _ List.mem_cons_self)
  | comment inner => exact .inr (Option.some_ne_none _)
  | openString _ _ | openComment _ _ => cases hclosed
  | _ => cases hmark

/-- A piece that is not closed is a literal or a comment behind which nothing comes. -/
theorem Reads.runsOut (h : Reads rules w next piece) (hopen : piece.isClosed = false) :
    next = none ∧
      (piece.kind = .stringLiteral ∧ w.head? = some '"' ∧ '"' ∉ w.tail ∨
        piece.kind = .comment ∧ w.head? = some '#' ∧ '\n' ∉ w.tail) := by
  cases h with
  | openString _ inner => exact ⟨rfl, .inl ⟨rfl, rfl, inner⟩⟩
  | openComment _ inner => exact ⟨rfl, .inr ⟨rfl, rfl, inner⟩⟩
  | _ => cases hopen

end Lexeme

/-- A token reaches the end of the text if no character stands behind it. -/
theorem Cut.stop_eq_size_iff (rules : Rules) (text : List Char) (c : Cut) :
    (c.token rules text).extent.stop = Utf8.size text ↔ text.drop c.stop = [] := by
  have hsplit := Utf8.size_take_add_drop c.stop text
  change Utf8.size (text.take c.stop) = Utf8.size text ↔ _
  constructor
  · intro hsize
    by_contra hne
    have hpos := Utf8.size_pos hne
    omega
  · intro hnil
    rw [hnil, Utf8.size_nil] at hsplit
    exact hsplit

section Announced

variable {piece : Lexeme}

theorem openEndEvents_closed (h : piece.isClosed = true) (k : TextReader) :
    Scanner.openEndEvents piece k = [] := by
  rw [Scanner.openEndEvents, if_pos h]

theorem openEndEvents_string (h : piece.isClosed = false) (hkind : piece.kind = .stringLiteral)
    (k : TextReader) : Scanner.openEndEvents piece k = [.openString k.line k.column] := by
  rw [Scanner.openEndEvents, if_neg (by simp [h]), hkind]

theorem openEndEvents_comment (h : piece.isClosed = false) (hkind : piece.kind = .comment)
    (k : TextReader) : Scanner.openEndEvents piece k = [.openComment k.line k.column] := by
  rw [Scanner.openEndEvents, if_neg (by simp [h]), hkind]

end Announced

theorem Cut.step_events (rules : Rules) (text : List Char) (c : Cut) :
    (c.step rules text).events =
      Scanner.openEndEvents c.piece (.behind rules.newlines text c.start) ++
        [(c.token rules text).event] := rfl

/-- The events of a cut are those of its token. -/
theorem Cutting.logs {rules : Rules} {text : List Char} {n : Nat} {cuts : List Cut}
    {ending : Ending} (h : Cutting rules text n cuts ending) {c : Cut} (hc : c ∈ cuts) :
    (c.token rules text).Logs rules text (c.step rules text).events := by
  obtain ⟨after, hdrop, hreads, _⟩ := h.exists_reads hc
  have htext : (c.token rules text).text.toList = c.chars text := String.toList_ofList
  have hafter : text.drop c.stop = after := by
    rw [Cut.stop, ← List.drop_drop, hdrop, hreads.length_eq, List.drop_left]
  have hstop := c.stop_eq_size_iff rules text
  rw [hafter, ← List.head?_eq_none_iff] at hstop
  rw [Cut.step_events]
  cases hclosed : c.piece.isClosed with
  | true =>
    rw [openEndEvents_closed hclosed]
    refine .alone ?_
    rintro ⟨hend, mark, hmark, hnot⟩
    rw [htext] at hnot
    rcases hreads.closes hclosed hmark with hmem | hnext
    · exact hnot hmem
    · exact hnext (hstop.mp hend)
  | false =>
    obtain ⟨hnone, hkind⟩ := hreads.runsOut hclosed
    have hend := hstop.mpr hnone
    have hhere : text[c.start]? = (c.chars text).head? := by
      rw [← List.head?_drop, hdrop, List.head?_append_of_ne_nil _ hreads.ne_nil]
    rcases hkind with ⟨hkind, hhead, hnot⟩ | ⟨hkind, hhead, hnot⟩
    · rw [openEndEvents_string hclosed hkind]
      exact .openString ⟨hend, '"', congrArg Kind.closing? hkind, htext ▸ hnot⟩ hkind rfl
        (hhere.trans hhead)
    · rw [openEndEvents_comment hclosed hkind]
      exact .openComment ⟨hend, '\n', congrArg Kind.closing? hkind, htext ▸ hnot⟩ hkind rfl
        (hhere.trans hhead)

section Levels

variable {rules : Rules} {text : List Char}

theorem Token.Logs.at_trace {t : Token} {events : List Event} (h : t.Logs rules text events) :
    Event.atLevel .trace events = [t.event] := by
  cases h <;> rfl

theorem Token.Logs.at_debug {t : Token} {events : List Event} (h : t.Logs rules text events) :
    Event.atLevel .debug events = [] := by
  cases h <;> rfl

variable {ts : List Token} {logged : List (List Event)}

theorem flatten_at_trace (h : List.Forall₂ (Token.Logs rules text) ts logged) :
    Event.atLevel .trace logged.flatten = ts.map Token.event := by
  induction h with
  | nil => rfl
  | cons hlogs _ ih =>
    rw [List.flatten_cons, Event.atLevel_append, hlogs.at_trace, ih, List.map_cons,
      List.singleton_append]

theorem flatten_at_debug (h : List.Forall₂ (Token.Logs rules text) ts logged) :
    Event.atLevel .debug logged.flatten = [] := by
  induction h with
  | nil => rfl
  | cons hlogs _ ih =>
    rw [List.flatten_cons, Event.atLevel_append, hlogs.at_debug, ih, List.nil_append]

end Levels

/-- The events of cuts, in turn. -/
def cutEvents (rules : Rules) (text : List Char) (cuts : List Cut) : List (List Event) :=
  cuts.map fun c => (c.step rules text).events

theorem Cutting.forall₂_logs {rules : Rules} {text : List Char} {n : Nat} {cuts : List Cut}
    {ending : Ending} (h : Cutting rules text n cuts ending) :
    List.Forall₂ (Token.Logs rules text) (cuts.map (Cut.token rules text))
      (cutEvents rules text cuts) := by
  rw [cutEvents, List.forall₂_map_left_iff, List.forall₂_map_right_iff]
  exact List.forall₂_same.mpr fun c hc => h.logs hc

/-- The tokens in front of the end of the text are those of the cuts. -/
theorem filter_emitted_of_cutting {rules : Rules} {text : String} {cuts : List Cut}
    {ending : Ending} (h : Cutting rules text.toList 0 cuts ending) :
    (emitted rules text).filter (·.kind != .endOfInput) =
      cuts.map (Cut.token rules text.toList) := by
  have hcuts : (cuts.map (Cut.token rules text.toList)).filter (·.kind != .endOfInput) =
      cuts.map (Cut.token rules text.toList) := by
    refine List.filter_eq_self.mpr fun t ht => ?_
    obtain ⟨c, hc, rfl⟩ := List.mem_map.mp ht
    exact bne_iff_ne.mpr (h.inner c hc).1
  rw [emitted_of_cutting h, List.filter_append, hcuts]
  cases ending with
  | complete => exact List.append_nil _
  | broken start fault => exact List.append_nil _

/-- The log of a scan: the events of the cuts, and how the scan has ended. -/
theorem events_of_cutting {rules : Rules} {text : String} {cuts : List Cut} {ending : Ending}
    (h : Cutting rules text.toList 0 cuts ending) :
    (Scanner.start rules text).drain.events =
      (cutEvents rules text.toList cuts).flatten ++
        [(Scanner.start rules text).drain.lastEvent] := by
  have hsteps := Scanner.steps_behind h
  rw [← Scanner.start_eq_behind] at hsteps
  have houtcome := tokens_of_cutting h
  rw [tokens] at houtcome
  have hevents : (Scanner.start rules text).drain.events =
      (Scanner.start rules text).steps.flatMap (·.events) ++
        match (Scanner.start rules text).drain.outcome with
        | .ok tokens => [.finished tokens.length]
        | .error _ => [] := rfl
  have hcuts : (cuts.map (Cut.step rules text.toList)).flatMap (·.events) =
      (cutEvents rules text.toList cuts).flatten := by
    rw [List.flatMap_map, List.flatMap_def, cutEvents]
  rw [hevents, hsteps, List.flatMap_append, hcuts, List.append_assoc, Scan.lastEvent, houtcome]
  cases ending <;> rfl

/-- The number of cuts whose pieces are not closed. -/
def openCount (cuts : List Cut) : Nat := cuts.countP fun c => !c.piece.isClosed

/-- The strict rule leaves no piece open. -/
theorem Cutting.openCount_eq_zero {rules : Rules} {text : List Char} {n : Nat} {cuts : List Cut}
    {ending : Ending} (h : Cutting rules text n cuts ending)
    (hstrict : rules.unterminated = .strict) : openCount cuts = 0 := by
  rw [openCount, List.countP_eq_zero]
  intro c hc
  obtain ⟨_, _, hreads, _⟩ := h.exists_reads hc
  simp [hreads.isClosed (.inl hstrict)]

/-- A cut is announced by one warning if its piece is not closed. -/
theorem Cut.length_warnings (rules : Rules) (text : List Char) (c : Cut) :
    (Event.atLevel .warn (c.step rules text).events).length = openCount [c] := by
  rw [step_events]
  cases hclosed : c.piece.isClosed with
  | true =>
    rw [openEndEvents_closed hclosed]
    simp [openCount, hclosed, Event.atLevel, Token.event, Event.level]
  | false =>
    rw [Scanner.openEndEvents, if_neg (by simp [hclosed])]
    split <;> simp [openCount, hclosed, Event.atLevel, Token.event, Event.level]

theorem length_warnings (rules : Rules) (text : List Char) (cuts : List Cut) :
    (Event.atLevel .warn (cutEvents rules text cuts).flatten).length = openCount cuts := by
  induction cuts with
  | nil => rfl
  | cons c cuts ih =>
    rw [cutEvents, List.map_cons, List.flatten_cons, Event.atLevel_append, List.length_append,
      c.length_warnings, ← cutEvents, ih]
    simp only [openCount, ← List.countP_append, List.singleton_append]

theorem length_warnings_of_cutting {rules : Rules} {text : String} {cuts : List Cut}
    {ending : Ending} (h : Cutting rules text.toList 0 cuts ending) :
    (Event.atLevel .warn (Scanner.start rules text).drain.events).length = openCount cuts := by
  rw [events_of_cutting h, Event.atLevel_append, Scan.atLevel_lastEvent, if_neg (by decide),
    List.append_nil, length_warnings]

/-- The strict rule refuses the text because a literal or a comment is not closed. -/
def LeftOpen (rules : Rules) (text : String) : Prop :=
  ∃ error, tokens { rules with unterminated := .strict } text = .error error ∧
    (error.fault = .openString ∨ error.fault = .openComment)

/-- Under the lenient rule there is one warning if the strict rule refuses an open end, and none
otherwise. -/
theorem length_warnings_lenient (rules : Rules) (text : String) :
    LeftOpen rules text ∧ (Event.atLevel .warn (Scanner.start
        { rules with unterminated := .lenient } text).drain.events).length = 1 ∨
      ¬ LeftOpen rules text ∧ (Event.atLevel .warn (Scanner.start
        { rules with unterminated := .lenient } text).drain.events).length = 0 := by
  obtain ⟨cuts, ending, hcut⟩ :=
    exists_cutting { rules with unterminated := .strict } (Nat.zero_le text.toList.length)
  have hstrict := tokens_of_cutting hcut
  have hclosed := hcut.openCount_eq_zero rfl
  by_cases hopen : ∃ s fault, ending = .broken s fault ∧ fault.openKind?.isSome = true
  · obtain ⟨s, fault, rfl, hsome⟩ := hopen
    obtain ⟨kind, hkind⟩ := Option.isSome_iff_exists.mp hsome
    obtain ⟨piece, _, hpiece, _, hlenient⟩ := hcut.lenient_of_open rfl hkind
    refine .inl ⟨⟨_, hstrict, Fault.openKind?_isSome_iff.mp hsome⟩, ?_⟩
    rw [length_warnings_of_cutting hlenient, openCount, List.countP_append, ← openCount, hclosed]
    simp [hpiece]
  · have hlenient := hcut.lenient_of_strict fun s fault hending =>
      Option.not_isSome_iff_eq_none.mp fun hsome => hopen ⟨s, fault, hending, hsome⟩
    refine .inr ⟨?_, (length_warnings_of_cutting hlenient).trans hclosed⟩
    rintro ⟨error, herror, hfault⟩
    cases ending with
    | complete => cases hstrict.symm.trans herror
    | broken s fault =>
      cases hstrict.symm.trans herror
      exact hopen ⟨s, fault, rfl, Fault.openKind?_isSome_iff.mpr hfault⟩

/-- The log mirrors the scan. It has the events of the tokens in front of the end of the text, one
token after the other, and then one event for the outcome. So each of these tokens is traced once,
the outcome is the only event for debugging, and the warnings stand directly in front of tokens that
run out, with the place of their first character. Under the strict rule there is no warning, and
under the lenient rule there is at most one, namely if the strict rule refuses an open end. -/
theorem log_mirrors_scan (rules : Rules) (text : String) :
    let scan := (Scanner.start rules text).drain
    let inner := (emitted rules text).filter (·.kind != .endOfInput)
    (∀ ts, scan.outcome = .ok ts → emitted rules text = ts) ∧
      (∃ logged, List.Forall₂ (Token.Logs rules text.toList) inner logged ∧
        scan.events = logged.flatten ++ [scan.lastEvent]) ∧
      Event.atLevel .trace scan.events = inner.map Token.event ∧
      Event.atLevel .debug scan.events = [scan.lastEvent] ∧
      (rules.unterminated = .strict → Event.atLevel .warn scan.events = []) ∧
      (rules.unterminated = .lenient → (Event.atLevel .warn scan.events).length ≤ 1 ∧
        ((Event.atLevel .warn scan.events).length = 1 ↔ LeftOpen rules text)) := by
  intro scan inner
  obtain ⟨cuts, ending, hcut⟩ := exists_cutting rules (Nat.zero_le text.toList.length)
  have hinner : inner = cuts.map (Cut.token rules text.toList) := filter_emitted_of_cutting hcut
  have hlogs := hcut.forall₂_logs
  have hevents := events_of_cutting hcut
  rw [hinner]
  refine ⟨fun ts => emitted_of_tokens, ⟨_, hlogs, hevents⟩, ?_, ?_, ?_, ?_⟩
  · rw [hevents, Event.atLevel_append, flatten_at_trace hlogs, Scan.atLevel_lastEvent,
      if_neg (by decide), List.append_nil]
  · rw [hevents, Event.atLevel_append, flatten_at_debug hlogs, Scan.atLevel_lastEvent, if_pos rfl,
      List.nil_append]
  · intro hstrict
    have hwarnings := length_warnings_of_cutting hcut
    rw [hcut.openCount_eq_zero hstrict] at hwarnings
    exact List.length_eq_zero_iff.mp hwarnings
  · intro hlenient
    have hrules : rules = { rules with unterminated := .lenient } := by
      rw [← hlenient]
    have hcount := length_warnings_lenient rules text
    rw [← hrules] at hcount
    rcases hcount with ⟨hopen, hone⟩ | ⟨hclosed, hnone⟩
    · exact ⟨Nat.le_of_eq hone, iff_of_true hone hopen⟩
    · rw [hnone]
      exact ⟨Nat.zero_le 1, iff_of_false Nat.zero_ne_one hclosed⟩

/-- The warning names the quote, and the token the place behind it. -/
example : (Scanner.start .legacy "a \"é").drain.events =
    [.token .identifier 1 2, .openString 1 3, .token .stringLiteral 1 5, .finished 3] := by
  decide +kernel

end PhpTokens
