import ProcessStart.Trace.Descriptor

/-!
What a descriptor takes of what it is sent. It is offered all that it has not
taken, so nothing is left out or sent twice, in however small pieces it takes
it. As each write but the last takes something, there are no more writes than
bytes; and if the last does too, nothing is left.
-/
namespace ProcessStart.Trace.Descriptor

/-- Takes something of every offer. -/
def Reliable (d : Descriptor) : Prop := ∀ number bytes, bytes ≠ [] → 0 < d number bytes

variable {d : Descriptor}

/-- A write offers what those before it have left and gets the answer of its number. If it takes
nothing, it is the last. -/
theorem sendFrom_split (d : Descriptor) (number : Nat) (bytes : List UInt8) :
    ∀ before call after, d.sendFrom number bytes = before ++ call :: after →
      delivered before ++ call.offered = bytes ∧ call.offered ≠ [] ∧
        call.answer = d (number + before.length) call.offered ∧
        (call.answer ≤ 0 → after = []) := by
  -- On what is left: the write in question is the first one, or one of those that get the rest.
  fun_induction sendFrom d number bytes with
  | case1 =>
    intro before call after h
    exact absurd h.symm (List.append_ne_nil_of_right_ne_nil before (List.cons_ne_nil _ _))
  | case2 number b bs answer hanswer =>
    intro before call after h
    cases before with
    | nil =>
      cases h
      exact ⟨rfl, List.cons_ne_nil b bs, rfl, fun _ => rfl⟩
    | cons first before =>
      have hnil := (List.cons.inj h).2
      exact absurd hnil.symm (List.append_ne_nil_of_right_ne_nil before (List.cons_ne_nil _ _))
  | case3 number b bs answer hanswer ih =>
    intro before call after h
    cases before with
    | nil =>
      cases h
      refine ⟨rfl, List.cons_ne_nil b bs, rfl, ?_⟩
      intro hle
      exact absurd hle hanswer
    | cons first before =>
      obtain ⟨rfl, hrest⟩ := List.cons.inj h
      obtain ⟨hoffered, hne, hcall, hlast⟩ := ih before call after hrest
      refine ⟨?_, hne, ?_, hlast⟩
      · rw [delivered_cons, List.append_assoc, hoffered]
        exact List.take_append_drop answer.toNat (b :: bs)
      · rw [hcall, List.length_cons, Nat.add_assoc, Nat.add_comm 1]

theorem answer_of_mem {number : Nat} {bytes : List UInt8} {call : WriteCall}
    (h : call ∈ d.sendFrom number bytes) :
    call.offered ≠ [] ∧ ∃ n, call.answer = d n call.offered := by
  obtain ⟨before, after, hsplit⟩ := List.append_of_mem h
  obtain ⟨-, hne, hcall, -⟩ := sendFrom_split d number bytes before call after hsplit
  exact ⟨hne, _, hcall⟩

/-- What is left at the end is what has not been taken, and something is left exactly if a write has
taken nothing. -/
theorem exists_left (d : Descriptor) (number : Nat) (bytes : List UInt8) :
    ∃ left, delivered (d.sendFrom number bytes) ++ left = bytes ∧
      (left = [] ↔ ∀ call ∈ d.sendFrom number bytes, 0 < call.answer) := by
  fun_induction sendFrom d number bytes with
  | case1 => exact ⟨[], rfl, iff_of_true rfl nofun⟩
  | case2 number b bs answer hanswer =>
    refine ⟨b :: bs, ?_, ?_⟩
    · rw [delivered_cons, delivered_nil, WriteCall.accepted, Int.toNat_of_nonpos hanswer]
      rfl
    · rw [List.forall_mem_singleton]
      exact iff_of_false (List.cons_ne_nil b bs) (Int.not_lt.mpr hanswer)
  | case3 number b bs answer hanswer ih =>
    obtain ⟨left, htaken, hleft⟩ := ih
    refine ⟨left, ?_, ?_⟩
    · rw [delivered_cons, List.append_assoc, htaken]
      exact List.take_append_drop answer.toNat (b :: bs)
    · rw [hleft, List.forall_mem_cons, and_iff_right (Int.not_le.mp hanswer)]

/-- Whatever a descriptor answers, it takes a first part of the bytes. -/
theorem delivered_sendFrom_prefix (d : Descriptor) (number : Nat) (bytes : List UInt8) :
    delivered (d.sendFrom number bytes) <+: bytes := by
  obtain ⟨left, htaken, -⟩ := exists_left d number bytes
  exact ⟨left, htaken⟩

/-- All is taken exactly if every write takes something. -/
theorem delivered_sendFrom_eq_iff (d : Descriptor) (number : Nat) (bytes : List UInt8) :
    delivered (d.sendFrom number bytes) = bytes ↔
      ∀ call ∈ d.sendFrom number bytes, 0 < call.answer := by
  obtain ⟨left, htaken, hleft⟩ := exists_left d number bytes
  rw [← hleft]
  constructor
  · intro h
    exact List.self_eq_append_right.mp (h.trans htaken.symm)
  · intro h
    rwa [h, List.append_nil] at htaken

/-- A descriptor that takes something of every offer is given all bytes. -/
theorem delivered_sendFrom (hd : d.Reliable) (number : Nat) (bytes : List UInt8) :
    delivered (d.sendFrom number bytes) = bytes := by
  rw [delivered_sendFrom_eq_iff]
  intro call hcall
  obtain ⟨hne, n, hanswer⟩ := answer_of_mem hcall
  rw [hanswer]
  exact hd n call.offered hne

theorem delivered_send (hd : d.Reliable) (bytes : List UInt8) : delivered (d.send bytes) = bytes :=
  delivered_sendFrom hd 0 bytes

/-- There is a byte for each write, since a write that takes nothing is the last. -/
theorem length_sendFrom_le (d : Descriptor) (number : Nat) (bytes : List UInt8) :
    (d.sendFrom number bytes).length ≤ bytes.length := by
  fun_induction sendFrom d number bytes with
  | case1 => exact Nat.le_refl 0
  | case2 number b bs answer h => simp
  | case3 number b bs answer h ih =>
    simp only [List.length_drop, List.length_cons] at ih ⊢
    omega

end ProcessStart.Trace.Descriptor
