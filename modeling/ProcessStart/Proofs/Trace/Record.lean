import ProcessStart.Proofs.Log.RoundTrip
import ProcessStart.Proofs.Text.Numerals
import ProcessStart.Proofs.Time.Text
import ProcessStart.Proofs.Trace.Buffer

/-!
The record of a start decision against the log. The record is put together by
hand, the log has its own writer and its own schema; the two agree for every
record there is. The record is the line of an entry, the buffer holds it
whatever its values are, and the schema accepts it exactly if the strategy is
the one of the generation.
-/
namespace ProcessStart.Trace

namespace Record

/-- The entry that a record is, with its details in the order of the line. -/
def entry (r : Record) : Log.Entry where
  timestamp := String.ofList r.time.text
  traceId := String.ofList ("libcshim::startup::".toList ++ Text.decimal r.pid.toNat)
  level := .info
  event := Log.startDecision
  apiFamily := some "startup"
  symbol := some startMain
  outcome := some .pass
  details := some (.object [("generation", .text r.generation.label),
    ("strategy", .text r.strategy.label),
    ("start_main", .text (String.ofList (Text.address r.routine.toNat)))])

theorem isPlain_generation (g : Generation) : Text.IsPlain g.label.toList := by
  cases g <;> decide

theorem isPlain_strategy (s : Strategy) : Text.IsPlain s.label.toList := by
  cases s <;> decide

/-- The fixed texts of a record, with any texts between them. What is proved of all texts does not
work out the date of a record. -/
def assembled (time pid generation strategy address : List Char) : List (List Char) :=
  ["\x7b\"timestamp\":\"".toList, time, "\",\"trace_id\":\"libcshim::startup::".toList, pid,
    "\",\"level\":\"info\",\"event\":\"".toList, Log.startDecision.toList,
    "\",\"api_family\":\"startup\",\"symbol\":\"".toList, startMain.toList,
    "\",\"outcome\":\"pass\",\"details\":\x7b\"generation\":\"".toList, generation,
    "\",\"strategy\":\"".toList, strategy, "\",\"start_main\":\"".toList, address,
    "\"\x7d\x7d\n".toList]

theorem pieces_eq_assembled (r : Record) :
    r.pieces = assembled r.time.text (Text.decimal r.pid.toNat) r.generation.label.toList
      r.strategy.label.toList (Text.address r.routine.toNat) := rfl

section

variable {time pid generation strategy address : List Char}

/-- A record fits its buffer as long as its time takes no more than 137 bytes. -/
theorem length_assembled_le (ht : time.length ≤ 137) (hp : pid.length ≤ 10)
    (hg : generation.length ≤ 6) (hs : strategy.length ≤ 12) (ha : address.length ≤ 18) :
    (assembled time pid generation strategy address).flatten.length ≤ capacity := by
  have hsum : 219 + time.length + pid.length + generation.length + strategy.length +
      address.length ≤ capacity := by
    rw [capacity]
    omega
  refine Nat.le_trans (Nat.le_of_eq ?_) hsum
  simp only [assembled, List.length_flatten, List.map_cons, List.map_nil, List.sum_cons,
    List.sum_nil, Log.startDecision, startMain, String.reduceToList, List.length_cons,
    List.length_nil, Nat.reduceAdd]
  omega

theorem isAscii_assembled (ht : Text.IsAscii time) (hp : Text.IsAscii pid)
    (hg : Text.IsAscii generation) (hs : Text.IsAscii strategy) (ha : Text.IsAscii address) :
    Text.IsAscii (assembled time pid generation strategy address).flatten := by
  simp only [assembled, List.flatten_cons, List.flatten_nil, Text.isAscii_append, ht, hp, hg, hs,
    ha, true_and]
  decide

/-- The fixed texts are what the writer puts around the texts of an entry. -/
theorem assembled_eq_write (ht : Text.IsPlain time) (hp : Text.IsPlain pid)
    (hg : Text.IsPlain generation) (hs : Text.IsPlain strategy) (ha : Text.IsPlain address) :
    (assembled time pid generation strategy address).flatten =
    Json.write (.object [("timestamp", .text (String.ofList time)),
      ("trace_id", .text (String.ofList ("libcshim::startup::".toList ++ pid))),
      ("level", .text Log.Level.info.label), ("event", .text Log.startDecision),
      ("api_family", .text "startup"), ("symbol", .text startMain),
      ("outcome", .text Log.Outcome.pass.label),
      ("details", .object [("generation", .text (String.ofList generation)),
        ("strategy", .text (String.ofList strategy)),
        ("start_main", .text (String.ofList address))])]) ++ ['\n'] := by
  have hid : Json.writeText ("libcshim::startup::".toList ++ pid) =
      '"' :: ("libcshim::startup::".toList ++ pid) ++ ['"'] :=
    Json.writeText_plain (Text.isPlain_append.mpr ⟨by decide, hp⟩)
  have hevent : Json.writeText Log.startDecision.toList =
      '"' :: Log.startDecision.toList ++ ['"'] := Json.writeText_plain (by decide)
  have hsymbol : Json.writeText startMain.toList = '"' :: startMain.toList ++ ['"'] :=
    Json.writeText_plain (by decide)
  have hfirst : "\x7b\"timestamp\":\"".toList =
      '{' :: Json.writeText "timestamp".toList ++ [':', '"'] := rfl
  have hsecond : "\",\"trace_id\":\"libcshim::startup::".toList =
      '"' :: ',' :: Json.writeText "trace_id".toList ++
        ':' :: '"' :: "libcshim::startup::".toList := rfl
  have hthird : "\",\"level\":\"info\",\"event\":\"".toList =
      '"' :: ',' :: Json.writeText "level".toList ++
        ':' :: Json.writeText Log.Level.info.label.toList ++
        ',' :: Json.writeText "event".toList ++ [':', '"'] := rfl
  have hfourth : "\",\"api_family\":\"startup\",\"symbol\":\"".toList =
      '"' :: ',' :: Json.writeText "api_family".toList ++
        ':' :: Json.writeText "startup".toList ++
        ',' :: Json.writeText "symbol".toList ++ [':', '"'] := rfl
  have hfifth : "\",\"outcome\":\"pass\",\"details\":\x7b\"generation\":\"".toList =
      '"' :: ',' :: Json.writeText "outcome".toList ++
        ':' :: Json.writeText Log.Outcome.pass.label.toList ++
        ',' :: Json.writeText "details".toList ++
        ':' :: '{' :: Json.writeText "generation".toList ++ [':', '"'] := rfl
  have hsixth : "\",\"strategy\":\"".toList =
      '"' :: ',' :: Json.writeText "strategy".toList ++ [':', '"'] := rfl
  have hseventh : "\",\"start_main\":\"".toList =
      '"' :: ',' :: Json.writeText "start_main".toList ++ [':', '"'] := rfl
  have hlast : "\"\x7d\x7d\n".toList = ['"', '}', '}', '\n'] := rfl
  rw [assembled, hfirst, hsecond, hthird, hfourth, hfifth, hsixth, hseventh, hlast]
  simp only [Json.write, Json.writeMembers, Json.commaSeparated_cons_cons,
    Json.commaSeparated_singleton, String.toList_ofList, Json.writeText_plain ht, hid, hevent,
    hsymbol, Json.writeText_plain hg, Json.writeText_plain hs, Json.writeText_plain ha,
    List.flatten_cons, List.flatten_nil, List.cons_append, List.append_assoc, List.append_nil,
    List.nil_append]

end

/-- A record is the line of its entry. -/
theorem line_eq (r : Record) : r.line = r.entry.line ++ ['\n'] := by
  have h := assembled_eq_write r.time.isPlain_text (Text.isPlain_decimal r.pid.toNat)
    (isPlain_generation r.generation) (isPlain_strategy r.strategy)
    (Text.isPlain_address r.routine.toNat)
  rw [String.ofList_toList, String.ofList_toList, ← pieces_eq_assembled] at h
  exact h

/-- A record is ASCII throughout. -/
theorem isAscii_line (r : Record) : Text.IsAscii r.line := by
  rw [line, pieces_eq_assembled]
  exact isAscii_assembled r.time.isPlain_text.isAscii (Text.isPlain_decimal _).isAscii
    (isPlain_generation r.generation).isAscii (isPlain_strategy r.strategy).isAscii
    (Text.isPlain_address _).isAscii

/-- The longest record fits the buffer. -/
theorem length_line_le (r : Record) : r.line.length ≤ capacity := by
  have hpid := Text.length_decimal_le_ten r.pid
  have hgeneration : r.generation.label.toList.length ≤ 6 := by
    cases r.generation <;> decide
  have hstrategy : r.strategy.label.toList.length ≤ 12 := by
    cases r.strategy <;> decide
  have haddress : (Text.address r.routine.toNat).length ≤ 18 := by
    have hlen := Text.length_hexadecimal_le r.routine
    rw [Text.address, List.length_cons, List.length_cons]
    omega
  rw [line, pieces_eq_assembled]
  exact length_assembled_le r.time.length_text_le hpid hgeneration hstrategy haddress

/-- The buffer holds every record. -/
theorem render_content (r : Record) :
    ∃ b, r.render = .ok b ∧ b.content = Text.utf8Encode r.line := by
  have hlength : (Text.utf8Encode r.line).length ≤ capacity := by
    rw [Text.utf8Encode_ascii r.isAscii_line, List.length_map]
    exact r.length_line_le
  rw [line] at hlength ⊢
  exact Buffer.pushPieces_empty hlength

/-- The details of a record in the order of the log. -/
theorem details_settled (r : Record) : r.entry.settled.details =
    some (.object [("generation", .text r.generation.label),
      ("start_main", .text (String.ofList (Text.address r.routine.toNat))),
      ("strategy", .text r.strategy.label)]) := by
  have hbehind : ¬ "strategy" < "generation" := by decide
  have hbetween : ¬ "start_main" < "generation" := by decide
  have hbefore : "start_main" < "strategy" := by decide
  simp only [Log.Entry.settled, entry, Option.map_some, Json.ordered, Json.orderedMembers,
    Json.ofMembers, List.foldl_cons, List.foldl_nil, Json.put, if_neg hbehind, if_neg hbetween,
    if_pos hbefore, String.reduceEq, if_false]

theorem exact_details (r : Record) : ∀ v, r.entry.details = some v → v.Exact ∧ v.depth ≤ 126 := by
  intro v hv
  cases hv
  simp [Json.depth, Json.depthMembers]

theorem hasDetail_generation {r : Record} {label : String} :
    r.entry.settled.HasDetail "generation" label ↔ r.generation.label = label := by
  simp [Log.Entry.HasDetail, details_settled]

theorem hasDetail_strategy {r : Record} {label : String} :
    r.entry.settled.HasDetail "strategy" label ↔ r.strategy.label = label := by
  simp [Log.Entry.HasDetail, details_settled, List.lookup_cons]

theorem inScope_traceId (r : Record) : [':', ':'] <:+: r.entry.settled.traceId.toList := by
  refine ⟨"libcshim".toList, "startup::".toList ++ Text.decimal r.pid.toNat, ?_⟩
  simp [Log.Entry.settled, entry]

/-- Nothing in a record can be complained of but its strategy. -/
theorem breaks_iff {r : Record} {c : Log.Complaint} : r.entry.settled.Breaks c ↔
    r.strategy ≠ r.generation.strategy ∧
      c = .wrongStrategy r.generation (some r.strategy.label) := by
  cases c with
  | unscopedTraceId id =>
    simp only [reduceCtorEq, and_false, iff_false]
    rintro ⟨rfl, hid⟩
    exact hid r.inScope_traceId
  | unknownGeneration found =>
    simp only [reduceCtorEq, and_false, iff_false]
    rintro ⟨-, -, hlegacy, hmodern⟩
    rw [hasDetail_generation] at hlegacy hmodern
    cases hg : r.generation with
    | legacy => exact hlegacy (by rw [hg]; rfl)
    | modern => exact hmodern (by rw [hg]; rfl)
  | wrongStrategy g found =>
    constructor
    · rintro ⟨-, hfound, hg, hs⟩
      rw [hasDetail_generation] at hg
      rw [hasDetail_strategy] at hs
      cases Generation.eq_of_label hg
      rw [(hfound r.strategy.label).mpr (hasDetail_strategy.mpr rfl)]
      exact ⟨fun he => hs (congrArg Strategy.label he), rfl⟩
    · rintro ⟨hne, he⟩
      cases he
      refine ⟨rfl, ?_, hasDetail_generation.mpr rfl, ?_⟩
      · intro text
        rw [hasDetail_strategy, Option.some.injEq]
      · rw [hasDetail_strategy]
        exact fun he => hne (Strategy.eq_of_label he)
  | _ =>
    simp only [reduceCtorEq, and_false, iff_false]
    exact id

/-- A record breaks no rule exactly if its strategy is that of its generation. -/
theorem sound_iff {r : Record} : r.entry.settled.Sound ↔ r.strategy = r.generation.strategy := by
  rw [Log.Entry.sound_iff]
  constructor
  · intro h
    exact Classical.byContradiction fun hne => h _ (breaks_iff.mpr ⟨hne, rfl⟩)
  · intro h c hc
    exact (breaks_iff.mp hc).1 h

/-- A record that is refused is refused once. -/
theorem complaints_eq {r : Record} {found : List Log.Complaint}
    (hfound : ∀ c, c ∈ found ↔ r.entry.settled.Breaks c)
    (hfields : found.map Log.Complaint.field ∈ Log.Entry.refusals) :
    found = [.wrongStrategy r.generation (some r.strategy.label)] := by
  have hall : ∀ c ∈ found, c = .wrongStrategy r.generation (some r.strategy.label) :=
    fun c hc => (breaks_iff.mp ((hfound c).mp hc)).2
  cases found with
  | nil => simp [Log.Entry.refusals] at hfields
  | cons a rest =>
    have ha := hall a (by simp)
    cases rest with
    | nil => rw [ha]
    | cons b rest =>
      have hb := hall b (by simp)
      simp [ha, hb, Log.Complaint.field, Log.Entry.refusals] at hfields

/-- An entry that says what the record says, and no more. -/
structure Tells (r : Record) (e : Log.Entry) : Prop where
  timestamp : e.timestamp = String.ofList r.time.text
  traceId : e.traceId.toList = "libcshim::startup::".toList ++ Text.decimal r.pid.toNat
  level : e.level = .info
  event : e.event = "startup_decision"
  apiFamily : e.apiFamily = some "startup"
  symbol : e.symbol = some "__libc_start_main"
  outcome : e.outcome = some .pass
  exitCode : e.exitCode = none
  artifactRefs : e.artifactRefs = none
  details : ∃ digits : List Char,
    e.details = some (.object [("generation", .text r.generation.label),
      ("start_main", .text (String.ofList ('0' :: 'x' :: digits))),
      ("strategy", .text r.strategy.label)]) ∧
    Text.numeral? 16 0xffffffffffffffff digits = some r.routine.toNat

/-- The entry read back says what the record says. -/
theorem tells_readBack (r : Record) : r.Tells r.entry.settled.readBack := by
  refine ⟨rfl, String.toList_ofList, rfl, rfl, rfl, rfl, rfl, rfl, rfl, ?_⟩
  refine ⟨Text.hexadecimal r.routine.toNat, ?_, Text.numeral?_hexadecimal r.routine⟩
  rw [Log.Entry.readBack, details_settled]
  rfl

/-- The bytes of a record are those of one line, and its end. -/
theorem encode_line (r : Record) :
    Text.utf8Encode r.line = Text.utf8Encode r.entry.line ++ [10] ∧
      10 ∉ Text.utf8Encode r.entry.line ∧
      Text.utf8Decode? (Text.utf8Encode r.entry.line) = some r.entry.line := by
  have hascii := r.isAscii_line
  rw [line_eq, Text.isAscii_append] at hascii
  refine ⟨?_, ?_, Text.utf8Decode?_encode hascii.1⟩
  · rw [line_eq, Text.utf8Encode_append]
    rfl
  · rw [Text.mem_utf8Encode hascii.1]
    exact r.entry.unbroken.no_line_feed

/-- A record whose strategy is the one of its generation is accepted for the entry that it is. -/
theorem check_of_sound {r : Record} (h : r.strategy = r.generation.strategy) (number : Nat) :
    Log.Schema.check r.entry.line number = .ok r.entry.settled.readBack :=
  ((Log.Entry.check_settled r.exact_details number).1 _).mpr ⟨sound_iff.mpr h, rfl⟩

section

variable {r : Record} {e : Log.Entry} (h : r.Tells e)

include h

theorem Tells.hasDetail_generation {label : String} :
    e.HasDetail "generation" label ↔ r.generation.label = label := by
  obtain ⟨digits, hdetails, -⟩ := h.details
  simp [Log.Entry.HasDetail, hdetails]

theorem Tells.hasDetail_strategy {label : String} :
    e.HasDetail "strategy" label ↔ r.strategy.label = label := by
  obtain ⟨digits, hdetails, -⟩ := h.details
  simp [Log.Entry.HasDetail, hdetails, List.lookup_cons]

theorem Tells.hasDetail_routine : ∃ digits : List Char,
    e.HasDetail "start_main" (String.ofList ('0' :: 'x' :: digits)) ∧
      Text.numeral? 16 0xffffffffffffffff digits = some r.routine.toNat := by
  obtain ⟨digits, hdetails, hvalue⟩ := h.details
  refine ⟨digits, ?_, hvalue⟩
  simp [Log.Entry.HasDetail, hdetails, List.lookup_cons]

end

/-- Whatever is in a record, the buffer holds it; it is ASCII on one line, with the line feed at the
end; and the line without it is accepted by the schema exactly if the strategy is the one of the
generation, as an entry that says what the record says, and is otherwise refused for the strategy
alone. -/
theorem render_checked (r : Record) :
    ∃ (b : Buffer) (bytes : List UInt8) (line : List Char),
      r.render = .ok b ∧ b.content.length ≤ 512 ∧ b.content = bytes ++ [10] ∧ 10 ∉ bytes ∧
      (∀ byte ∈ b.content, byte < 0x80) ∧ Text.utf8Decode? bytes = some line ∧
      ∀ number : Nat,
        ((∃ e, Log.Schema.check line number = .ok e) ↔ r.strategy = r.generation.strategy) ∧
        (∀ e, Log.Schema.check line number = .ok e → r.Tells e) ∧
        (r.strategy ≠ r.generation.strategy → ∃ c : Log.Complaint,
          c.field = "details.strategy" ∧ Log.Schema.check line number = .error [⟨number, c⟩]) := by
  have hascii := r.isAscii_line
  obtain ⟨b, hrender, hcontent⟩ := r.render_content
  have hfront : Text.IsAscii r.entry.line := by
    rw [line_eq, Text.isAscii_append] at hascii
    exact hascii.1
  refine ⟨b, Text.utf8Encode r.entry.line, r.entry.line, hrender, b.length_le, ?_, ?_, ?_,
    Text.utf8Decode?_encode hfront, ?_⟩
  · rw [hcontent, line_eq, Text.utf8Encode_append]
    rfl
  · rw [Text.mem_utf8Encode hfront]
    exact r.entry.unbroken.no_line_feed
  · intro byte hbyte
    rw [hcontent, Text.utf8Encode_ascii hascii] at hbyte
    obtain ⟨c, hc, rfl⟩ := List.mem_map.mp hbyte
    exact Text.byte_lt (hascii.toNat_lt hc)
  · intro number
    obtain ⟨haccept, hrefuse⟩ := Log.Entry.check_settled r.exact_details number
    rw [sound_iff] at hrefuse
    simp only [sound_iff] at haccept
    refine ⟨?_, ?_, ?_⟩
    · constructor
      · rintro ⟨e, he⟩
        exact ((haccept e).mp he).1
      · intro h
        exact ⟨_, (haccept _).mpr ⟨h, rfl⟩⟩
    · intro e he
      rw [((haccept e).mp he).2]
      exact r.tells_readBack
    · intro hne
      obtain ⟨found, hfound, hfields, hcheck⟩ := hrefuse hne
      rw [complaints_eq hfound hfields] at hcheck
      exact ⟨_, rfl, hcheck⟩

end Record
end ProcessStart.Trace
