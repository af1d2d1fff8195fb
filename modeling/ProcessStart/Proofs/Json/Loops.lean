import ProcessStart.Json.Reader
import ProcessStart.Json.Writer
import ProcessStart.Proofs.Json.Numbers

/-!
The loops over items and members, whatever is read there. If every item that
was written is read again, so is the list of them with its commas and the
closing bracket; blanks may stand in front of items, members and brackets.
What is gathered from members is a state that depends on those read so far.
-/
namespace ProcessStart.Json

theorem skipBlank_cons {c : Char} (h : isJsonBlank c = false) (s : List Char) :
    skipBlank (c :: s) = c :: s := by simp [skipBlank, h]

theorem commaSeparated_cons (t : List Char) (ts : List (List Char)) :
    commaSeparated (t :: ts) = t ++ ts.flatMap (',' :: ·) := by
  induction ts generalizing t with
  | nil => simp
  | cons u us ih => rw [commaSeparated_cons_cons, ih]; simp

/-- Every text but the first has a comma of its own. -/
theorem length_le_commaSeparated (ts : List (List Char)) :
    ts.length ≤ (commaSeparated ts).length + 1 := by
  have htail : ∀ us : List (List Char), us.length ≤ (us.flatMap (',' :: ·)).length := by
    intro us
    induction us with
    | nil => simp
    | cons u us ih =>
      simp only [List.flatMap_cons, List.length_append, List.length_cons]
      omega
  cases ts with
  | nil => simp
  | cons t ts =>
    have hts := htail ts
    rw [commaSeparated_cons]
    simp only [List.length_cons, List.length_append]
    omega

/-- A number ends at the comma behind it, or at what closes the brackets. -/
theorem endsNumber_tail (ts : List (List Char)) {close : List Char} (h : EndsNumber close) :
    EndsNumber (ts.flatMap (',' :: ·) ++ close) := by
  cases ts with
  | nil => simpa using h
  | cons t ts => exact endsNumber_cons.mpr ⟨rfl, by decide, rfl⟩

theorem nextItem_closed (first : Bool) {s t : List Char} (h : skipBlank s = ']' :: t) :
    nextItem first s = .ok (.closed t) := by simp [nextItem, h]

theorem nextItem_first {c : Char} {s t : List Char} (h : skipBlank s = c :: t) (hc : c ≠ ']') :
    nextItem true s = .ok (.item (c :: t)) := by simp [nextItem, h]

theorem nextItem_comma {c : Char} {s t : List Char} (h : skipBlank s = c :: t) (hc : c ≠ ']') :
    nextItem false (',' :: s) = .ok (.item (c :: t)) := by
  have hblank : skipBlank (',' :: s) = ',' :: s := skipBlank_cons rfl s
  simp [nextItem, hblank, h, hc]

section

variable {α β : Type} {item : List Char → Except Fault (Scanned α)}

theorem scanItems_closed {first : Bool} {s t : List Char} (h : nextItem first s = .ok (.closed t))
    (fuel : Nat) : scanItems item first (fuel + 1) s = .ok ([], t) := by
  simp only [scanItems, h, bind, Except.bind]

theorem scanItems_item {first : Bool} {s t u : List Char} {a : α}
    (h : nextItem first s = .ok (.item t)) (ha : item t = .ok (a, u)) (fuel : Nat) :
    scanItems item first (fuel + 1) s =
      (scanItems item false fuel u).bind fun r => .ok (a :: r.1, r.2) := by
  simp only [scanItems, h, ha, bind, Except.bind]

/-- Where an item is due, this text is read as this value, behind any blanks. -/
def ReadsItem (item : List Char → Except Fault (Scanned α)) (text : List Char) (a : α) : Prop :=
  ∀ rest, EndsNumber rest →
    ∃ c s, skipBlank (text ++ rest) = c :: s ∧ c ≠ ']' ∧ item (c :: s) = .ok (a, rest)

/-- The items behind the first are read, each after its comma, up to the closing bracket. -/
theorem scanItems_tail {text : β → List Char} {value : β → α} {items : List β}
    {close rest : List Char} (hitems : ∀ b ∈ items, ReadsItem item (text b) (value b))
    (hclose : skipBlank close = ']' :: rest) (hend : EndsNumber close) {fuel : Nat}
    (hf : items.length < fuel) :
    scanItems item false fuel ((items.map text).flatMap (',' :: ·) ++ close) =
      .ok (items.map value, rest) := by
  induction items generalizing fuel with
  | nil =>
    cases fuel with
    | zero => exact absurd hf (Nat.not_lt_zero _)
    | succ fuel => exact scanItems_closed (nextItem_closed false hclose) fuel
  | cons b bs ih =>
    cases fuel with
    | zero => exact absurd hf (Nat.not_lt_zero _)
    | succ fuel =>
      have hlt : bs.length < fuel := by simpa using hf
      obtain ⟨c, s, hs, hc, ha⟩ := hitems b (by simp) _ (endsNumber_tail (bs.map text) hend)
      simp only [List.map_cons, List.flatMap_cons, List.append_assoc, List.cons_append]
      rw [scanItems_item (nextItem_comma hs hc) ha,
        ih (fun b hb => hitems b (by simp [hb])) hlt]
      rfl

/-- Written items are read up to the closing bracket. -/
theorem scanItems_written {text : β → List Char} {value : β → α} {items : List β}
    {close rest : List Char} (hitems : ∀ b ∈ items, ReadsItem item (text b) (value b))
    (hclose : skipBlank close = ']' :: rest) (hend : EndsNumber close) {fuel : Nat}
    (hf : items.length < fuel) :
    scanItems item true fuel (commaSeparated (items.map text) ++ close) =
      .ok (items.map value, rest) := by
  cases fuel with
  | zero => exact absurd hf (Nat.not_lt_zero _)
  | succ fuel =>
    cases items with
    | nil => exact scanItems_closed (nextItem_closed true hclose) fuel
    | cons b bs =>
      have hlt : bs.length < fuel := by simpa using hf
      obtain ⟨c, s, hs, hc, ha⟩ := hitems b (by simp) _ (endsNumber_tail (bs.map text) hend)
      rw [List.map_cons, commaSeparated_cons, List.append_assoc,
        scanItems_item (nextItem_first hs hc) ha,
        scanItems_tail (fun b hb => hitems b (by simp [hb])) hclose hend hlt]
      rfl

end

theorem nextMember_closed (first : Bool) {s t : List Char} (h : skipBlank s = '}' :: t) :
    nextMember first s = .ok (.closed t) := by simp [nextMember, h]

theorem scanKey_quoted {s u : List Char} {key : String} (h : scanText s = .ok (key, u)) :
    scanKey ('"' :: s) = .ok (.member key u) := by simp [scanKey, h, bind, Except.bind]

theorem nextMember_first {s t u : List Char} {key : String} (h : skipBlank s = '"' :: t)
    (hk : scanText t = .ok (key, u)) : nextMember true s = .ok (.member key u) := by
  simp [nextMember, h, scanKey_quoted hk]

theorem nextMember_comma {s t u : List Char} {key : String} (h : skipBlank s = '"' :: t)
    (hk : scanText t = .ok (key, u)) : nextMember false (',' :: s) = .ok (.member key u) := by
  have hblank : skipBlank (',' :: s) = ',' :: s := skipBlank_cons rfl s
  simp [nextMember, hblank, h, scanKey_quoted hk]

section

variable {σ β : Type} {member : σ → String → List Char → Except Fault (Scanned σ)}

theorem scanMembers_closed {first : Bool} {s t : List Char}
    (h : nextMember first s = .ok (.closed t)) (fuel : Nat) (state : σ) :
    scanMembers member first (fuel + 1) state s = .ok (state, t) := by
  simp only [scanMembers, h, bind, Except.bind]

theorem scanMembers_member {first : Bool} {s t u : List Char} {key : String} {state next : σ}
    (h : nextMember first s = .ok (.member key t)) (hm : member state key t = .ok (next, u))
    (fuel : Nat) :
    scanMembers member first (fuel + 1) state s = scanMembers member false fuel next u := by
  simp only [scanMembers, h, hm, bind, Except.bind]

/-- Where a member is due, this text is read as one that takes this state to the next. -/
def StepsMember (member : σ → String → List Char → Except Fault (Scanned σ)) (text : List Char)
    (state next : σ) : Prop :=
  ∀ rest, EndsNumber rest → ∃ key s t, skipBlank (text ++ rest) = '"' :: s ∧
    scanText s = .ok (key, t) ∧ member state key t = .ok (next, rest)

/-- Each of the members leads from the state that those before it make to the next. -/
def StepsMembers (member : σ → String → List Char → Except Fault (Scanned σ))
    (text : β → List Char) (state : List β → σ) (ms : List β) : Prop :=
  ∀ done b left, ms = done ++ b :: left →
    StepsMember member (text b) (state done) (state (done ++ [b]))

/-- The members behind the first are read, each after its comma, up to the closing brace. -/
theorem scanMembers_tail {text : β → List Char} {state : List β → σ} {ms done bs : List β}
    {close rest : List Char} (hms : StepsMembers member text state ms) (hbs : ms = done ++ bs)
    (hclose : skipBlank close = '}' :: rest) (hend : EndsNumber close) {fuel : Nat}
    (hf : bs.length < fuel) :
    scanMembers member false fuel (state done) ((bs.map text).flatMap (',' :: ·) ++ close) =
      .ok (state ms, rest) := by
  induction bs generalizing fuel done with
  | nil =>
    rw [List.append_nil] at hbs
    subst hbs
    cases fuel with
    | zero => exact absurd hf (Nat.not_lt_zero _)
    | succ fuel => exact scanMembers_closed (nextMember_closed false hclose) fuel _
  | cons b bs ih =>
    cases fuel with
    | zero => exact absurd hf (Nat.not_lt_zero _)
    | succ fuel =>
      have hlt : bs.length < fuel := by simpa using hf
      obtain ⟨key, s, t, hs, hk, hm⟩ := hms done b bs hbs _ (endsNumber_tail (bs.map text) hend)
      simp only [List.map_cons, List.flatMap_cons, List.append_assoc, List.cons_append]
      rw [scanMembers_member (nextMember_comma hs hk) hm]
      exact ih (by simp [hbs]) hlt

/-- Written members are read up to the closing brace. -/
theorem scanMembers_written {text : β → List Char} {state : List β → σ} {ms : List β}
    {close rest : List Char} (hms : StepsMembers member text state ms)
    (hclose : skipBlank close = '}' :: rest) (hend : EndsNumber close) {fuel : Nat}
    (hf : ms.length < fuel) :
    scanMembers member true fuel (state []) (commaSeparated (ms.map text) ++ close) =
      .ok (state ms, rest) := by
  cases fuel with
  | zero => exact absurd hf (Nat.not_lt_zero _)
  | succ fuel =>
    cases ms with
    | nil => exact scanMembers_closed (nextMember_closed true hclose) fuel _
    | cons b bs =>
      have hlt : bs.length < fuel := by simpa using hf
      obtain ⟨key, s, t, hs, hk, hm⟩ := hms [] b bs rfl _ (endsNumber_tail (bs.map text) hend)
      rw [List.map_cons, commaSeparated_cons, List.append_assoc,
        scanMembers_member (nextMember_first hs hk) hm]
      exact scanMembers_tail hms rfl hclose hend hlt

end

end ProcessStart.Json
