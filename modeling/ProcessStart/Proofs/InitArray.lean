import ProcessStart.InitArray

/-!
Runs of an init array and of its parts. A run calls the entries that are not
null, each once for every place where it stands, in the order of the places. A
part is bounded by addresses: it has the entries that lie wholly between them,
so the parts on the two sides of an entry's address run what the whole runs.
-/
namespace ProcessStart.InitArray

variable {ρ : Type}

/-- These are calls of the entries that are not null, one for each place of the array where such an
entry stands, in the order of the places, and all with the same arguments. -/
def RunInOrder (entries : InitArray ρ) (arguments : InitArguments) (calls : List (InitCall ρ)) :
    Prop :=
  ∃ made : List (Nat × ρ), made.Pairwise (fun m n => m.1 < n.1) ∧
    (∀ place routine, (place, routine) ∈ made ↔ entries[place]? = some (some routine)) ∧
    calls = made.map fun m => .entry m.2 arguments

/-- These are calls of the entries that are not null and lie wholly between two addresses, one for
each place of the array where such an entry stands, in the order of the places, and all with the
same arguments. -/
def RunBetween (entries : InitArray ρ) (start stop : Nat) (arguments : InitArguments)
    (calls : List (InitCall ρ)) : Prop :=
  ∃ made : List (Nat × ρ), made.Pairwise (fun m n => m.1 < n.1) ∧
    (∀ place routine, (place, routine) ∈ made ↔
      entries[place]? = some (some routine) ∧ start ≤ 8 * place ∧ 8 * (place + 1) ≤ stop) ∧
    calls = made.map fun m => .entry m.2 arguments

/-- A routine stands at a place, where the places are counted from `first`. -/
def Stands (entries : InitArray ρ) (first place : Nat) (routine : ρ) : Prop :=
  ∃ k, place = first + k ∧ entries[k]? = some (some routine)

theorem not_stands_nil {first place : Nat} {routine : ρ} :
    ¬ Stands ([] : InitArray ρ) first place routine := by
  rintro ⟨k, -, hk⟩
  cases hk

theorem stands_cons {entry : Option ρ} {entries : InitArray ρ} {first place : Nat} {routine : ρ} :
    Stands (entry :: entries) first place routine ↔
      place = first ∧ entry = some routine ∨ Stands entries (first + 1) place routine := by
  constructor
  · rintro ⟨k, hplace, hk⟩
    cases k with
    | zero => exact .inl ⟨hplace, Option.some.inj hk⟩
    | succ k => exact .inr ⟨k, by omega, hk⟩
  · rintro (⟨hplace, hentry⟩ | ⟨k, hplace, hk⟩)
    · exact ⟨0, hplace, congrArg some hentry⟩
    · exact ⟨k + 1, by omega, hk⟩

theorem stands_zero {entries : InitArray ρ} {place : Nat} {routine : ρ} :
    Stands entries 0 place routine ↔ entries[place]? = some (some routine) := by
  constructor
  · rintro ⟨k, rfl, hk⟩
    rwa [Nat.zero_add]
  · intro h
    exact ⟨place, (Nat.zero_add place).symm, h⟩

/-- The calls of an array, by the places of its entries. -/
theorem calls_at_places (entries : InitArray ρ) (arguments : InitArguments) (first : Nat) :
    ∃ made : List (Nat × ρ), made.Pairwise (fun m n => m.1 < n.1) ∧
      (∀ place routine, (place, routine) ∈ made ↔ entries.Stands first place routine) ∧
      entries.calls arguments = made.map fun m => .entry m.2 arguments := by
  -- With the count as a variable, the entries behind the first one keep their places.
  induction entries generalizing first with
  | nil =>
    refine ⟨[], List.Pairwise.nil, ?_, rfl⟩
    intro place routine
    exact iff_of_false List.not_mem_nil not_stands_nil
  | cons entry entries ih =>
    obtain ⟨made, horder, hmade, hcalls⟩ := ih (first + 1)
    cases entry with
    | none =>
      refine ⟨made, horder, ?_, hcalls⟩
      intro place routine
      rw [hmade, stands_cons]
      simp
    | some routine =>
      refine ⟨(first, routine) :: made, List.Pairwise.cons ?_ horder, ?_, ?_⟩
      · rintro ⟨place, other⟩ hmem
        obtain ⟨k, rfl, -⟩ := (hmade place other).mp hmem
        exact Nat.lt_of_lt_of_le (Nat.lt_succ_self first) (Nat.le_add_right _ k)
      · intro place other
        rw [List.mem_cons, hmade, stands_cons, Prod.mk.injEq, Option.some.injEq,
          eq_comm (a := other)]
      · rw [calls_cons_some, hcalls, List.map_cons]

/-- Going through an array calls each entry that is not null once, in order. -/
theorem calls_runInOrder (entries : InitArray ρ) (arguments : InitArguments) :
    entries.RunInOrder arguments (entries.calls arguments) := by
  obtain ⟨made, horder, hmade, hcalls⟩ := calls_at_places entries arguments 0
  refine ⟨made, horder, ?_, hcalls⟩
  intro place routine
  rw [hmade, stands_zero]

section

variable (entries : InitArray ρ)

@[simp] theorem between_null (stop : Option Nat) : entries.between none stop = [] := by
  cases stop <;> rfl

theorem between_of_le {start stop : Nat} (h : stop ≤ start) :
    entries.between (some start) (some stop) = [] := if_pos h

/-- A part that begins with an entry, as the entries of its places. -/
theorem between_eq_take (first stop : Nat) : entries.between (some (8 * first)) (some stop) =
    (entries.drop first).take (stop / 8 - first) := by
  by_cases h : stop ≤ 8 * first
  · have hnone : stop / 8 - first = 0 := by omega
    rw [between_of_le entries h, hnone, List.take_zero]
  · have hplaces : (stop - 8 * first) / 8 = stop / 8 - first := by omega
    rw [between, if_neg h, entrySize, Nat.mul_div_cancel_left first (by decide), hplaces]

/-- An entry is between two addresses as long as all of it lies before the second. -/
theorem getElem?_between (first stop k : Nat) :
    (entries.between (some (8 * first)) (some stop))[k]? =
      if 8 * (first + k + 1) ≤ stop then entries[first + k]? else none := by
  have hbound : k < stop / 8 - first ↔ 8 * (first + k + 1) ≤ stop := by omega
  rw [between_eq_take, List.getElem?_take, List.getElem?_drop]
  simp only [hbound]

theorem stands_between {first stop place : Nat} {routine : ρ} :
    Stands (entries.between (some (8 * first)) (some stop)) first place routine ↔
      entries[place]? = some (some routine) ∧ 8 * first ≤ 8 * place ∧ 8 * (place + 1) ≤ stop := by
  constructor
  · rintro ⟨k, rfl, hk⟩
    rw [getElem?_between] at hk
    split at hk
    · rename_i hstop
      exact ⟨hk, by omega, hstop⟩
    · cases hk
  · rintro ⟨hplace, hstart, hstop⟩
    obtain ⟨k, rfl⟩ : ∃ k, place = first + k := ⟨place - first, by omega⟩
    refine ⟨k, rfl, ?_⟩
    rw [getElem?_between, if_pos hstop]
    exact hplace

/-- Going through a part calls the entries that lie wholly in it. -/
theorem calls_runBetween (first stop : Nat) (arguments : InitArguments) :
    entries.RunBetween (8 * first) stop arguments
      ((entries.between (some (8 * first)) (some stop)).calls arguments) := by
  obtain ⟨made, horder, hmade, hcalls⟩ :=
    calls_at_places (entries.between (some (8 * first)) (some stop)) arguments first
  refine ⟨made, horder, ?_, hcalls⟩
  intro place routine
  rw [hmade, stands_between]

/-- Two parts that meet at the address of an entry. -/
theorem between_append {start mid stop : Nat} (hstart : 8 ∣ start) (hmid : 8 ∣ mid)
    (h : start ≤ mid) (h' : mid ≤ stop) :
    entries.between (some start) (some mid) ++ entries.between (some mid) (some stop) =
      entries.between (some start) (some stop) := by
  obtain ⟨first, rfl⟩ := hstart
  obtain ⟨middle, rfl⟩ := hmid
  have hfirst : 8 * middle / 8 - first = middle - first := by omega
  have hcount : stop / 8 - first = (middle - first) + (stop / 8 - middle) := by omega
  have hmiddle : first + (middle - first) = middle := by omega
  rw [between_eq_take, between_eq_take, between_eq_take, hfirst, hcount, List.take_add,
    List.drop_drop, hmiddle]

theorem between_all : entries.between (some 0) (some (8 * entries.length)) = entries := by
  have hcount : 8 * entries.length / 8 - 0 = entries.length := by omega
  have h := between_eq_take entries 0 (8 * entries.length)
  rw [hcount, List.drop_zero, List.take_length] at h
  exact h

end

/-- Addresses of entries that cut a part into parts. -/
inductive IsPartition : Nat → List Nat → Nat → Prop where
  | whole {start stop : Nat} (h : start ≤ stop) : IsPartition start [] stop
  | cut {start mid stop : Nat} {cuts : List Nat} (h : start ≤ mid) (haligned : 8 ∣ mid)
      (hrest : IsPartition mid cuts stop) : IsPartition start (mid :: cuts) stop

/-- A part does not end before it begins. -/
theorem IsPartition.le {start stop : Nat} {cuts : List Nat} (h : IsPartition start cuts stop) :
    start ≤ stop := by
  induction h with
  | whole h => exact h
  | cut h _ _ ih => exact Nat.le_trans h ih

/-- Runs the parts between the cuts one after the other, without the constructor. -/
def runParts (entries : InitArray ρ) (arguments : InitArguments) :
    Nat → List Nat → Nat → List (InitCall ρ)
  | start, [], stop => (entries.between (some start) (some stop)).run false arguments
  | start, mid :: cuts, stop =>
    (entries.between (some start) (some mid)).run false arguments ++
      runParts entries arguments mid cuts stop

/-- The parts run what the whole runs. -/
theorem IsPartition.runParts_eq {start stop : Nat} {cuts : List Nat}
    (h : IsPartition start cuts stop) (hstart : 8 ∣ start) (entries : InitArray ρ)
    (arguments : InitArguments) : entries.runParts arguments start cuts stop =
      (entries.between (some start) (some stop)).run false arguments := by
  induction h with
  | whole h => rfl
  | cut h haligned hrest ih =>
    rw [runParts, ih haligned, ← between_append entries hstart haligned h hrest.le]
    exact (calls_append _ _ arguments).symm

/-- The part between the address of an entry and any other address in the array has the entries from
the one place up to the other, without the one that the second address falls into; it has none if
the second is not behind the first, or if the first is null. Run, it calls those of them that are
not null, in order. Wherever it is cut at the address of an entry, its parts make the same calls as
the whole, so an array that is run in parts is run once. -/
theorem run_parts_once (entries : InitArray ρ) (arguments : InitArguments) {start stop : Nat}
    (haligned : 8 ∣ start) (hstop : stop ≤ 8 * entries.length) :
    (start < stop →
      (entries.between (some start) (some stop)).length = stop / 8 - start / 8 ∧
      ∀ k, start / 8 + k < stop / 8 →
        (entries.between (some start) (some stop))[k]? = entries[start / 8 + k]?) ∧
    (stop ≤ start → entries.between (some start) (some stop) = []) ∧
    (∀ bound, entries.between none bound = []) ∧
    entries.RunBetween start stop arguments
      ((entries.between (some start) (some stop)).run false arguments) ∧
    (∀ mid, 8 ∣ mid → start ≤ mid → mid ≤ stop →
      (entries.between (some start) (some mid)).run false arguments ++
        (entries.between (some mid) (some stop)).run false arguments =
      (entries.between (some start) (some stop)).run false arguments) ∧
    (∀ cuts, IsPartition start cuts stop → entries.runParts arguments start cuts stop =
      (entries.between (some start) (some stop)).run false arguments) ∧
    ∀ cuts, IsPartition 0 cuts (8 * entries.length) →
      entries.RunInOrder arguments (entries.runParts arguments 0 cuts (8 * entries.length)) := by
  obtain ⟨first, rfl⟩ := haligned
  have hfirst : 8 * first / 8 = first := by omega
  rw [hfirst]
  refine ⟨?_, between_of_le entries, between_null entries,
    calls_runBetween entries first stop arguments, ?_, ?_, ?_⟩
  · intro _
    constructor
    · rw [between_eq_take, List.length_take, List.length_drop]
      omega
    · intro k hk
      rw [getElem?_between, if_pos (by omega)]
  · intro mid hmid h h'
    rw [← between_append entries (Nat.dvd_mul_right 8 first) hmid h h']
    exact (calls_append _ _ arguments).symm
  · intro cuts hcuts
    exact hcuts.runParts_eq (Nat.dvd_mul_right 8 first) entries arguments
  · intro cuts hcuts
    rw [hcuts.runParts_eq (Nat.dvd_zero 8), between_all]
    exact calls_runInOrder entries arguments

/-- An end inside the last entry, which is left out; and cuts two of which fall together. -/
theorem run_parts_once_sparse :
    8 ∣ 8 ∧ 31 ≤ 8 * [none, some 1, none, some 2].length ∧ IsPartition 0 [8, 8, 24] 32 ∧
    RunBetween [none, some 1, none, some 2] 8 31 ⟨-1, none, none⟩
      [.entry 1 ⟨-1, none, none⟩] ∧
    RunInOrder [none, some 1, none, some 2] ⟨-1, none, none⟩
      [.entry 1 ⟨-1, none, none⟩, .entry 2 ⟨-1, none, none⟩] := by
  have hcuts : IsPartition 0 [8, 8, 24] 32 :=
    .cut (by decide) (by decide) (.cut (by decide) (by decide)
      (.cut (by decide) (by decide) (.whole (by decide))))
  have haligned : 8 ∣ 8 := by decide
  have hstop : 31 ≤ 8 * [none, some 1, none, some 2].length := by decide
  obtain ⟨-, -, -, hpart, -, -, hwhole⟩ :=
    run_parts_once [none, some 1, none, some 2] ⟨-1, none, none⟩ haligned hstop
  exact ⟨haligned, hstop, hcuts, hpart, hwhole _ hcuts⟩

end ProcessStart.InitArray
