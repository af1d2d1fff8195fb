import ProcessStart.Loader.Vector

/-!
The entries of an environment. A cursor gives the texts in the slots up to the
first null one, as many as it may, and then nothing any more; it reads each of
these slots once and each text up to its zero, so nothing that lies behind the
end of the vector or of a text.
-/
namespace ProcessStart.Loader

/-- No zero among so many bytes, and one behind them, unless the bound comes first. -/
structure EndsAt (m : Memory) (index bound length : Nat) : Prop where
  le_bound : length ≤ bound
  ne_zero : ∀ i < length, m (index + i) ≠ 0
  zero : length < bound → m (index + length) = 0

theorem exists_endsAt (m : Memory) (bound index : Nat) : ∃ length, EndsAt m index bound length := by
  induction bound generalizing index with
  | zero => exact ⟨0, Nat.le_refl 0, nofun, nofun⟩
  | succ bound ih =>
    by_cases hzero : m index = 0
    · exact ⟨0, Nat.zero_le _, nofun, fun _ => hzero⟩
    · obtain ⟨length, hle, hne, hend⟩ := ih (index + 1)
      refine ⟨length + 1, Nat.succ_le_succ hle, ?_, ?_⟩
      · intro i hi
        cases i with
        | zero => exact hzero
        | succ i =>
          rw [← Nat.add_assoc, Nat.add_right_comm]
          exact hne i (Nat.lt_of_succ_lt_succ hi)
      · intro hlt
        rw [← Nat.add_assoc, Nat.add_right_comm]
        exact hend (Nat.lt_of_succ_lt_succ hlt)

/-- A scan reads up to the zero and not beyond it, nor beyond the bound. -/
theorem EndsAt.scanFrom_eq {m : Memory} {index bound length : Nat}
    (h : EndsAt m index bound length) : scanFrom m bound index =
      ⟨⟨index + length, decide (length < bound)⟩, List.range' index (min (length + 1) bound)⟩ := by
  induction bound generalizing index length with
  | zero =>
    have hlength : length = 0 := Nat.le_zero.mp h.le_bound
    subst hlength
    rfl
  | succ bound ih =>
    obtain ⟨hle, hne, hend⟩ := h
    cases length with
    | zero =>
      have hzero : m index = 0 := hend (Nat.succ_pos bound)
      rw [scanFrom_of_zero hzero, Nat.zero_add, Nat.min_eq_left (Nat.succ_pos bound)]
      rfl
    | succ length =>
      have hrest : EndsAt m (index + 1) bound length := by
        refine ⟨Nat.le_of_succ_le_succ hle, ?_, ?_⟩
        · intro i hi
          rw [Nat.add_right_comm]
          exact hne (i + 1) (Nat.succ_lt_succ hi)
        · intro hlt
          rw [Nat.add_right_comm]
          exact hend (Nat.succ_lt_succ hlt)
      have hfirst : m index ≠ 0 := hne 0 (Nat.succ_pos length)
      rw [scanFrom_of_ne_zero hfirst, ih hrest, Nat.add_min_add_right, List.range'_succ]
      simp [Nat.add_right_comm, Nat.add_assoc]

/-- The bytes of a text that is in memory, before its zero, but no more than a bound. -/
structure IsCut (m : Memory) (bound : Nat) (bytes : List UInt8) : Prop where
  within : bytes.length ≤ bound
  held : ∀ i (h : i < bytes.length), bytes[i] = m i
  no_zero : 0 ∉ bytes
  ended : bytes.length < bound → m bytes.length = 0

theorem IsCut.ne_zero {m : Memory} {bound : Nat} {bytes : List UInt8} (h : IsCut m bound bytes)
    {i : Nat} (hi : i < bytes.length) : m i ≠ 0 := by
  intro hzero
  apply h.no_zero
  rw [← hzero, ← h.held i hi]
  exact List.getElem_mem hi

/-- Every memory holds a text up to a bound, even one without a zero. -/
theorem exists_isCut (m : Memory) (bound : Nat) : ∃ bytes, IsCut m bound bytes := by
  obtain ⟨length, hle, hne, hend⟩ := exists_endsAt m bound 0
  refine ⟨(List.range length).map m, ?_, ?_, ?_, ?_⟩
  · simpa using hle
  · simp
  · intro hmem
    obtain ⟨i, hi, hzero⟩ := List.mem_map.mp hmem
    exact hne i (List.mem_range.mp hi) (by simpa using hzero)
  · simpa using hend

/-- The reads of a text: its bytes and the zero, as far as the bound goes. -/
theorem IsCut.terminated_eq {m : Memory} {bound : Nat} {bytes : List UInt8}
    (h : IsCut m bound bytes) :
    terminated m bound = ⟨bytes, List.range (min (bytes.length + 1) bound)⟩ := by
  have hends : EndsAt m 0 bound bytes.length := by
    refine ⟨h.within, ?_, ?_⟩
    · intro i hi
      rw [Nat.zero_add]
      exact h.ne_zero hi
    · rw [Nat.zero_add]
      exact h.ended
  have hbytes : (List.range bytes.length).map m = bytes := by
    apply List.ext_getElem
    · simp
    · intro i hi hi'
      rw [List.getElem_map, List.getElem_range]
      exact (h.held i hi').symm
  have hscan := hends.scanFrom_eq
  rw [Nat.zero_add, ← List.range_eq_range'] at hscan
  rw [terminated, scan, hscan]
  exact congrArg (Logged.mk · _) hbytes

/-- The texts in the slots from a place on, up to the first null slot, but no more than a limit. -/
structure Entries (slots : Slots) (place limit : Nat) (texts : List (List UInt8)) : Prop where
  within : texts.length ≤ limit
  held : ∀ i (h : i < texts.length), ∃ m, slots (place + i) = some m ∧ IsCut m byteLimit texts[i]
  ended : texts.length < limit → slots (place + texts.length) = none

namespace Entries

variable {slots : Slots} {place limit : Nat} {text : List UInt8} {texts : List (List UInt8)}

theorem none_left (slots : Slots) (place : Nat) : Entries slots place 0 [] :=
  ⟨Nat.le_refl 0, nofun, nofun⟩

theorem null (h : slots place = none) (limit : Nat) : Entries slots place (limit + 1) [] :=
  ⟨Nat.zero_le _, nofun, fun _ => h⟩

theorem cons {m : Memory} (hm : slots place = some m) (ht : IsCut m byteLimit text)
    (h : Entries slots (place + 1) limit texts) :
    Entries slots place (limit + 1) (text :: texts) := by
  refine ⟨Nat.succ_le_succ h.within, ?_, ?_⟩
  · intro i hi
    cases i with
    | zero => exact ⟨m, hm, ht⟩
    | succ i =>
      have hheld := h.held i (Nat.lt_of_succ_lt_succ hi)
      rwa [Nat.add_right_comm] at hheld
  · intro hlt
    have hended := h.ended (Nat.lt_of_succ_lt_succ hlt)
    rwa [Nat.add_right_comm] at hended

/-- The entries begin with the slot in front. -/
theorem of_cons (h : Entries slots place (limit + 1) (text :: texts)) :
    (∃ m, slots place = some m ∧ IsCut m byteLimit text) ∧
      Entries slots (place + 1) limit texts := by
  refine ⟨h.held 0 (Nat.succ_pos _), Nat.le_of_succ_le_succ h.within, ?_, ?_⟩
  · intro i hi
    have hheld := h.held (i + 1) (Nat.succ_lt_succ hi)
    rwa [← Nat.add_assoc, Nat.add_right_comm] at hheld
  · intro hlt
    have hended := h.ended (Nat.succ_lt_succ hlt)
    rwa [List.length_cons, ← Nat.add_assoc, Nat.add_right_comm] at hended

end Entries

/-- Whatever stands in the slots, they hold entries up to a limit. -/
theorem exists_entries (slots : Slots) (place limit : Nat) :
    ∃ texts, Entries slots place limit texts := by
  induction limit generalizing place with
  | zero => exact ⟨[], .none_left slots place⟩
  | succ limit ih =>
    cases hm : slots place with
    | none => exact ⟨[], .null hm limit⟩
    | some m =>
      obtain ⟨text, ht⟩ := exists_isCut m byteLimit
      obtain ⟨texts, hrest⟩ := ih (place + 1)
      exact ⟨text :: texts, .cons hm ht hrest⟩

namespace Cursor

theorem next_of_none {slots : Slots} {place : Nat} (h : slots place = none) (limit : Nat) :
    next slots ⟨place, limit + 1⟩ = ⟨(none, ⟨place, 0⟩), [.slot place]⟩ := by
  simp only [next, bind, h]
  rfl

/-- An entry is read slot first, then byte by byte up to its zero or the cut. -/
theorem next_of_some {slots : Slots} {place : Nat} {m : Memory} {text : List UInt8}
    (h : slots place = some m) (ht : IsCut m byteLimit text) (limit : Nat) :
    next slots ⟨place, limit + 1⟩ = ⟨(some text, ⟨place + 1, limit⟩), .slot place ::
      (List.range (min (text.length + 1) byteLimit)).map (.byte place)⟩ := by
  simp only [next, bind, h, ht.terminated_eq, Logged.mapLog]
  simp [pure]

/-- The reads of texts in the slots from a place on: each slot, then the text in it. -/
def textReads (place : Nat) : List (List UInt8) → List Read
  | [] => []
  | text :: texts => .slot place ::
      (List.range (min (text.length + 1) byteLimit)).map (.byte place) ++
        textReads (place + 1) texts

/-- The null slot is read if the cursor gets there. -/
def endReads (place limit : Nat) : List Read := if 0 < limit then [.slot place] else []

section

variable {slots : Slots}

/-- A cursor that is done reads nothing and gives nothing. -/
theorem answers_done (n place : Nat) :
    answers slots n ⟨place, 0⟩ = ⟨List.replicate n none, []⟩ := by
  induction n with
  | zero => rfl
  | succ n ih =>
    rw [answers, next_of_none_remaining, List.replicate_succ]
    simp only [bind, pure, Functor.map, ih, List.append_nil]

/-- The answers are the entries in order, and then none for ever. -/
theorem answers_eq {place limit : Nat} {texts : List (List UInt8)}
    (h : Entries slots place limit texts) (n : Nat) : answers slots n ⟨place, limit⟩ =
      ⟨(texts.take n).map some ++ List.replicate (n - texts.length) none,
        textReads place (texts.take n) ++
          if texts.length < n then endReads (place + texts.length) (limit - texts.length)
          else []⟩ := by
  induction n generalizing place limit texts with
  | zero => simp [answers, textReads, pure]
  | succ n ih =>
    cases texts with
    | nil =>
      cases limit with
      | zero => rw [answers_done]; rfl
      | succ limit =>
        have hnull : slots place = none := h.ended (Nat.succ_pos limit)
        simp only [answers, next_of_none hnull, bind, Functor.map, answers_done]
        rfl
    | cons text texts =>
      cases limit with
      | zero => exact absurd h.within (Nat.not_succ_le_zero _)
      | succ limit =>
        obtain ⟨⟨m, hm, ht⟩, hrest⟩ := h.of_cons
        simp only [answers, next_of_some hm ht, bind, Functor.map, ih hrest, List.take_succ_cons,
          List.map_cons, List.length_cons, textReads, Nat.succ_sub_succ, Nat.succ_lt_succ_iff]
        simp [Nat.add_assoc, Nat.add_comm 1]

/-- Collecting the entries is calling until there is none. -/
theorem take_eq {place limit : Nat} {texts : List (List UInt8)}
    (h : Entries slots place limit texts) : take slots limit ⟨place, limit⟩ =
      ⟨texts, textReads place texts ++ endReads (place + texts.length) (limit - texts.length)⟩ := by
  induction limit generalizing place texts with
  | zero =>
    have hnil : texts = [] := List.eq_nil_of_length_eq_zero (Nat.le_zero.mp h.within)
    subst hnil
    rfl
  | succ limit ih =>
    cases texts with
    | nil =>
      have hnull : slots place = none := h.ended (Nat.succ_pos limit)
      simp only [take, next_of_none hnull, bind]
      rfl
    | cons text texts =>
      obtain ⟨⟨m, hm, ht⟩, hrest⟩ := h.of_cons
      simp only [take, next_of_some hm ht, bind, Functor.map, ih hrest, List.length_cons,
        textReads, Nat.succ_sub_succ]
      simp [Nat.add_assoc, Nat.add_comm 1]

/-- A read of texts is that of a slot, or of a byte up to the zero or the cut. -/
theorem mem_textReads {read : Read} {place : Nat} {texts : List (List UInt8)}
    (h : read ∈ textReads place texts) : ∃ i, ∃ hi : i < texts.length,
      read = .slot (place + i) ∨
        ∃ k < min (texts[i].length + 1) byteLimit, read = .byte (place + i) k := by
  induction texts generalizing place with
  | nil => exact nomatch h
  | cons text texts ih =>
    rw [textReads, List.mem_append, List.mem_cons] at h
    rcases h with (rfl | hbyte) | hrest
    · exact ⟨0, Nat.succ_pos _, .inl rfl⟩
    · obtain ⟨k, hk, rfl⟩ := List.mem_map.mp hbyte
      exact ⟨0, Nat.succ_pos _, .inr ⟨k, List.mem_range.mp hk, rfl⟩⟩
    · obtain ⟨i, hi, hread⟩ := ih hrest
      rw [Nat.add_right_comm, Nat.add_assoc] at hread
      exact ⟨i + 1, Nat.succ_lt_succ hi, hread⟩

end

end Cursor

/-- What may be read of an environment: the slots up to the first null one, of which there are no
more than 4096, and the bytes of a text up to its zero, of which there are no more than 256. -/
def Permitted (slots : Slots) (first : Nat) : Read → Prop
  | .slot j => first ≤ j ∧ j < first + 4096 ∧ ∀ k, first ≤ k → k < j → slots k ≠ none
  | .byte j i => first ≤ j ∧ j < first + 4096 ∧ (∀ k, first ≤ k → k < j → slots k ≠ none) ∧
    i < 256 ∧ ∃ m, slots j = some m ∧ ∀ k < i, m k ≠ 0

namespace Entries

variable {slots : Slots} {first : Nat} {texts : List (List UInt8)}

theorem ne_none (h : Entries slots first entryLimit texts) {k : Nat} (hfirst : first ≤ k)
    (hk : k < first + texts.length) : slots k ≠ none := by
  obtain ⟨m, hm, -⟩ := h.held (k - first) (by omega)
  rw [Nat.add_sub_cancel' hfirst] at hm
  rw [hm]
  exact nofun

theorem permitted_slot (h : Entries slots first entryLimit texts) {i : Nat}
    (hi : i ≤ texts.length) (hlimit : i < entryLimit) :
    Permitted slots first (.slot (first + i)) :=
  ⟨Nat.le_add_right _ _, Nat.add_lt_add_left hlimit first,
    fun _ hfirst hk => h.ne_none hfirst (Nat.lt_of_lt_of_le hk (Nat.add_le_add_left hi first))⟩

theorem permitted_byte (h : Entries slots first entryLimit texts) {i k : Nat}
    (hi : i < texts.length) (hk : k < min (texts[i].length + 1) byteLimit) :
    Permitted slots first (.byte (first + i) k) := by
  obtain ⟨hplace, hlimit, hnull⟩ := h.permitted_slot (Nat.le_of_lt hi)
    (Nat.lt_of_lt_of_le hi h.within)
  obtain ⟨m, hm, hcut⟩ := h.held i hi
  obtain ⟨hzero, hbound⟩ := Nat.lt_min.mp hk
  refine ⟨hplace, hlimit, hnull, hbound, m, hm, ?_⟩
  intro j hj
  exact hcut.ne_zero (Nat.lt_of_lt_of_le hj (Nat.le_of_lt_succ hzero))

/-- Reading any first part of the entries reads only what may be read. -/
theorem permitted_textReads (h : Entries slots first entryLimit texts) (n : Nat) :
    ∀ read ∈ Cursor.textReads first (texts.take n), Permitted slots first read := by
  intro read hread
  obtain ⟨i, hi, hread⟩ := Cursor.mem_textReads hread
  have hin : i < texts.length := Nat.lt_of_lt_of_le hi (List.length_take_le' n texts)
  rw [List.getElem_take] at hread
  rcases hread with rfl | ⟨k, hk, rfl⟩
  · exact h.permitted_slot (Nat.le_of_lt hin) (Nat.lt_of_lt_of_le hin h.within)
  · exact h.permitted_byte hin hk

/-- The slot behind the entries may be read, if the limit leaves it. -/
theorem permitted_endReads (h : Entries slots first entryLimit texts) :
    ∀ read ∈ Cursor.endReads (first + texts.length) (entryLimit - texts.length),
      Permitted slots first read := by
  intro read hread
  rw [Cursor.endReads] at hread
  split at hread
  · rw [List.mem_singleton.mp hread]
    exact h.permitted_slot (Nat.le_refl _) (by omega)
  · cases hread

end Entries

/-- The environment of a process, call by call: behind the arguments, whose count is none if it is
negative, lie the entries up to the first null slot, but no more than 4096, each up to its zero, but
no more than 256 bytes of it. These are the answers, in order, and behind them there is none,
however often one asks; on the way nothing is read that is not permitted. A null vector has no
environment and nothing of it is read. -/
theorem Cursor.answers_environment (argc : Int32) (slots : Slots) :
    (environment argc none = none ∧ entries slots (start none) = ⟨[], []⟩ ∧
      ∀ n, answers slots n (start none) = ⟨List.replicate n none, []⟩) ∧
    ∀ place, ∃ (first : Nat) (texts : List (List UInt8)),
      environment argc (some place) = some first ∧
      first = place + (argc.toInt.toNat + 1) ∧
      texts.length ≤ 4096 ∧ (texts.length < 4096 → slots (first + texts.length) = none) ∧
      (∀ i (h : i < texts.length), ∃ m, slots (first + i) = some m ∧ texts[i].length ≤ 256 ∧
        (∀ k (hk : k < texts[i].length), texts[i][k] = m k ∧ m k ≠ 0) ∧
        (texts[i].length < 256 → m texts[i].length = 0)) ∧
      (entries slots (start (some first))).value = texts ∧
      (∀ read ∈ (entries slots (start (some first))).log, Permitted slots first read) ∧
      ∀ n, (answers slots n (start (some first))).value =
          (texts.take n).map some ++ List.replicate (n - texts.length) none ∧
        ∀ read ∈ (answers slots n (start (some first))).log, Permitted slots first read := by
  refine ⟨⟨rfl, rfl, fun n => answers_done n 0⟩, ?_⟩
  intro place
  obtain ⟨texts, h⟩ := exists_entries slots (place + (argc.toInt.toNat + 1)) entryLimit
  have hentries := take_eq h
  refine ⟨place + (argc.toInt.toNat + 1), texts, rfl, rfl, h.within, h.ended, ?_,
    congrArg Logged.value hentries, ?_, ?_⟩
  · intro i hi
    obtain ⟨m, hm, hcut⟩ := h.held i hi
    exact ⟨m, hm, hcut.within, fun k hk => ⟨hcut.held k hk, hcut.ne_zero hk⟩, hcut.ended⟩
  · intro read hread
    rw [entries, start, hentries, List.mem_append] at hread
    cases hread with
    | inl hread =>
      rw [← List.take_length (l := texts)] at hread
      exact h.permitted_textReads texts.length read hread
    | inr hread => exact h.permitted_endReads read hread
  · intro n
    rw [start, answers_eq h]
    refine ⟨rfl, ?_⟩
    intro read hread
    cases List.mem_append.mp hread with
    | inl hread => exact h.permitted_textReads n read hread
    | inr hread =>
      split at hread
      · exact h.permitted_endReads read hread
      · cases hread

end ProcessStart.Loader
