import ProcessStart.Proofs.Json.Decoding
import ProcessStart.Proofs.Json.Ordered
import ProcessStart.Proofs.Json.RoundTrip

/-!
Repeated keys. Beside the reader stands one that keeps every member of the
outermost object as it stands in the text; of several with one key, the reader
has kept the last.
-/
namespace ProcessStart.Json

/-- Goes on behind a key like `scanMember`, but keeps what was there before. -/
def scanOccurrence (depth : Nat) (ms : List (String × Json)) (key : String) (s : List Char) :
    Except Fault (Scanned (List (String × Json))) := do
  let (v, s) ← scanValue depth (← scanColon s)
  .ok (ms ++ [(key, v)], s)

/-- The members of the outermost object in the order of the text, repeated keys included. -/
def occurrences (s : List Char) : Except Fault (List (String × Json)) :=
  match skipBlank s with
  | '{' :: s => do
    let (ms, rest) ← scanMembers (scanOccurrence (nestingLimit - 1)) true (s.length + 1) [] s
    scanEnd rest
    .ok ms
  | s => peeking .noValue s

/-- What is gathered in one way from the members can be gathered in another way just as far as each
member can. -/
theorem scanMembers_map {σ τ : Type} {f : σ → τ}
    {one : σ → String → List Char → Except Fault (Scanned σ)}
    {other : τ → String → List Char → Except Fault (Scanned τ)}
    (h : ∀ state key s, other (f state) key s = (one state key s).map fun r => (f r.1, r.2))
    (first : Bool) (fuel : Nat) (state : σ) (s : List Char) :
    scanMembers other first fuel (f state) s =
      (scanMembers one first fuel state s).map fun r => (f r.1, r.2) := by
  induction fuel generalizing first state s with
  | zero => rfl
  | succ fuel ih =>
    cases hn : nextMember first s with
    | error e => simp only [scanMembers, hn]; rfl
    | ok next =>
      cases next with
      | closed t => rw [scanMembers_closed hn, scanMembers_closed hn]; rfl
      | member key t =>
        cases hm : one state key t with
        | error e =>
          have ho : other (f state) key t = .error e := by rw [h, hm]; rfl
          simp only [scanMembers, hn, hm, ho, bind, Except.bind]
          rfl
        | ok r =>
          obtain ⟨after, u⟩ := r
          have ho : other (f state) key t = .ok (f after, u) := by rw [h, hm]; rfl
          rw [scanMembers_member hn hm, scanMembers_member hn ho]
          exact ih false after u

/-- Repeated members may be gathered at once or kept and gathered later. -/
theorem scanMember_gathered (depth : Nat) (ms : List (String × Json)) (key : String)
    (s : List Char) : scanMember depth (gathered ms) key s =
      (scanOccurrence depth ms key s).map fun r => (gathered r.1, r.2) := by
  cases hc : scanColon s with
  | error e => simp only [scanMember, scanOccurrence, hc]; rfl
  | ok t =>
    cases hv : scanValue depth t with
    | error e => simp only [scanMember, scanOccurrence, hc, hv, bind, Except.bind]; rfl
    | ok r =>
      simp only [scanMember, scanOccurrence, hc, hv, bind, Except.bind, Except.map, gathered,
        List.foldl_append, List.foldl_cons, List.foldl_nil]

/-- Only an opening brace leads to an object. -/
theorem scanValue_eq_object {depth : Nat} {s rest : List Char} {ms : List (String × Json)}
    (h : scanValue (depth + 1) s = .ok (.object ms, rest)) : ∃ t, skipBlank s = '{' :: t ∧
      scanMembers (scanMember depth) true (t.length + 1) [] t = .ok (ms, rest) := by
  rw [scanValue.eq_def] at h
  split at h
  · contradiction
  · obtain ⟨t, -, he⟩ := bind_eq_ok.mp h; cases he
  · obtain ⟨t, -, he⟩ := bind_eq_ok.mp h; cases he
  · obtain ⟨t, -, he⟩ := bind_eq_ok.mp h; cases he
  · obtain ⟨t, -, he⟩ := bind_eq_ok.mp h; cases he
  · obtain ⟨t, -, he⟩ := bind_eq_ok.mp h; cases he
  · obtain ⟨t, -, he⟩ := bind_eq_ok.mp h; cases he
  · rename_i t ht
    obtain ⟨r, hr, he⟩ := bind_eq_ok.mp h
    cases he
    exact ⟨t, ht, hr⟩
  · split at h
    · obtain ⟨t, -, he⟩ := bind_eq_ok.mp h; cases he
    · contradiction

/-- Reading and keeping all members go together: what is read holds, under every key, the last that
the text has under it. -/
theorem readChars_of_occurrences {s : List Char} {all : List (String × Json)}
    (h : occurrences s = .ok all) :
    ∃ ms, readChars s = .ok (.object ms) ∧ ∀ key, ms.lookup key = all.reverse.lookup key := by
  unfold occurrences at h
  split at h
  · rename_i t ht
    obtain ⟨⟨ms, rest⟩, hall, hend⟩ := bind_eq_ok.mp h
    obtain ⟨⟨⟩, hclosed, he⟩ := bind_eq_ok.mp hend
    cases he
    have hmap := scanMembers_map (scanMember_gathered (nestingLimit - 1)) true (t.length + 1) [] t
    have hgathered : scanMembers (scanMember (nestingLimit - 1)) true (t.length + 1) [] t =
        .ok (gathered all, rest) := by
      rw [hall] at hmap
      exact hmap
    have hobject : scanValue nestingLimit s = .ok (.object (gathered all), rest) := by
      rw [nestingLimit, scanValue.eq_def, ht]
      exact bind_eq_ok.mpr ⟨_, hgathered, rfl⟩
    refine ⟨gathered all, ?_, fun key => lookup_gathered key all⟩
    simp only [readChars, hobject, bind, Except.bind, hclosed]
  · contradiction

/-- An object that was read holds, under every key, the last that the text has under it. -/
theorem lookup_of_readChars {s : List Char} {ms : List (String × Json)}
    (h : readChars s = .ok (.object ms)) :
    ∃ all, occurrences s = .ok all ∧ ∀ key, ms.lookup key = all.reverse.lookup key := by
  obtain ⟨⟨v, rest⟩, hscan, hend⟩ := bind_eq_ok.mp h
  obtain ⟨⟨⟩, hclosed, hv⟩ := bind_eq_ok.mp hend
  cases hv
  obtain ⟨t, ht, hms⟩ := scanValue_eq_object hscan
  have hmap := scanMembers_map (scanMember_gathered (nestingLimit - 1)) true (t.length + 1) [] t
  have hsame : scanMembers (scanMember (nestingLimit - 1)) true (t.length + 1) (gathered []) t =
      .ok (ms, rest) := hms
  rw [hsame] at hmap
  obtain ⟨⟨all, u⟩, hall, he⟩ := map_eq_ok.mp hmap.symm
  cases he
  refine ⟨all, ?_, ?_⟩
  · have hlast : scanEnd u = .ok () := hclosed
    simp only [occurrences, ht, hall, bind, Except.bind, hlast]
  · intro key
    exact lookup_gathered key all

end ProcessStart.Json
