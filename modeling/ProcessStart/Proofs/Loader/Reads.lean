import ProcessStart.Loader.TraceFlag

/-!
How much of the loader's memory is read. A text is read up to the bound of a
scan, the environment up to the limit of entries, so that the flag costs a
bounded number of reads, whatever stands in memory.
-/
namespace ProcessStart.Loader

theorem length_log_scanFrom_le (m : Memory) (bound index : Nat) :
    (scanFrom m bound index).log.length ≤ bound := by
  induction bound generalizing index with
  | zero => exact Nat.le_refl 0
  | succ bound ih =>
    by_cases h : m index = 0
    · rw [scanFrom_of_zero h]
      simp
    · rw [scanFrom_of_ne_zero h]
      exact Nat.succ_le_succ (ih (index + 1))

theorem length_log_terminated_le (m : Memory) (bound : Nat) :
    (terminated m bound).log.length ≤ bound := length_log_scanFrom_le m bound 0

/-- One slot, and the bytes of the entry in it. -/
theorem Cursor.length_log_next_le (slots : Slots) (c : Cursor) :
    (c.next slots).log.length ≤ byteLimit + 1 := by
  unfold next
  split
  · exact Nat.zero_le _
  · rw [Logged.log_bind, List.length_append]
    split
    · simp
    · next m _ =>
      have hbytes := length_log_terminated_le m byteLimit
      simp only [Logged.log_note, Logged.log_bind, Logged.log_mapLog, Logged.log_pure,
        List.append_nil, List.length_map, List.length_singleton]
      omega

/-- Each entry that is looked at costs as much, and there are no more than may be looked at. -/
theorem TraceFlag.length_log_within_le (slots : Slots) (n : Nat) (c : Cursor) :
    (within slots n c).log.length ≤ n * (byteLimit + 1) := by
  induction n generalizing c with
  | zero => exact Nat.zero_le _
  | succ n ih =>
    have hnext := c.length_log_next_le slots
    rw [within, Logged.log_bind, List.length_append, Nat.succ_mul]
    split
    · simp only [Logged.log_pure, List.length_nil]
      omega
    · next entry c' _ =>
      have hrest := ih c'
      split
      · simp only [Logged.log_pure, List.length_nil]
        omega
      · omega

/-- For each of the entries one slot is read and no more than 256 bytes. -/
theorem TraceFlag.length_log_ofEnvironment_le (slots : Slots) (place : Pointer) :
    (ofEnvironment slots place).log.length ≤ entryLimit * (byteLimit + 1) := by
  have hwithin := length_log_within_le slots (Cursor.start place).remaining (Cursor.start place)
  cases place with
  | none => exact Nat.zero_le _
  | some place => exact hwithin

end ProcessStart.Loader
