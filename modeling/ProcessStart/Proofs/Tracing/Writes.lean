import ProcessStart.Proofs.Tracing

/-!
The writes of a trace, whatever they are answered. What is left of the line is
offered until nothing is left or a write takes nothing; so the descriptor has
a front of the line, without a gap and without a byte twice, and the whole of
it exactly if no write failed.
-/
namespace ProcessStart.Launch

/-- However the descriptor answers, as long as no write takes more than it is offered, there are no
more writes than the line has bytes. Each offers the line without what the writes before it have
taken, and what it takes lies within the line; one that takes nothing, or fails, is the last. What
is taken in all is a front of the line, and the line itself exactly if every write took
something. -/
theorem traceWrites_take_front (s : Surroundings) (p : Plan)
    (hd : ∀ call ∈ traceWrites s p, call.answer ≤ call.offered.length) :
    ∃ b : Trace.Buffer, (Trace.Record.ofPlan s.clock s.pid p).render = .ok b ∧
      b.content = Text.utf8Encode (Trace.Record.ofPlan s.clock s.pid p).line ∧
      (traceWrites s p).length ≤ b.length ∧
      (∀ before call after, traceWrites s p = before ++ call :: after →
        Trace.delivered before ++ call.offered = b.content ∧ call.offered ≠ [] ∧
        call.answer = s.diagnostics before.length call.offered ∧
        call.accepted.length = call.answer.toNat ∧
        ((Trace.delivered before).length : Int) + call.answer ≤ b.length ∧
        (call.answer ≤ 0 → after = [])) ∧
      Trace.delivered (traceWrites s p) <+: b.content ∧
      (Trace.delivered (traceWrites s p) = b.content ↔
        ∀ call ∈ traceWrites s p, 0 < call.answer) := by
  obtain ⟨b, hrender, hsent, hcontent⟩ := traceWrites_eq s p
  rw [hsent, Trace.Descriptor.send] at hd ⊢
  refine ⟨b, hrender, hcontent, Trace.Descriptor.length_sendFrom_le _ 0 _, ?_,
    Trace.Descriptor.delivered_sendFrom_prefix _ 0 _,
    Trace.Descriptor.delivered_sendFrom_eq_iff _ 0 _⟩
  intro before call after hsplit
  obtain ⟨hrest, hne, hanswer, hlast⟩ :=
    Trace.Descriptor.sendFrom_split _ 0 b.content before call after hsplit
  have hwithin : call.answer ≤ call.offered.length := by
    apply hd
    rw [hsplit]
    exact List.mem_append_right before List.mem_cons_self
  have hlength : (Trace.delivered before).length + call.offered.length = b.length := by
    rw [← List.length_append, hrest]
    rfl
  rw [Nat.zero_add] at hanswer
  refine ⟨hrest, hne, hanswer, ?_, by omega, hlast⟩
  rw [Trace.WriteCall.accepted, List.length_take]
  omega

/-- Takes seven bytes and fails from then on. -/
def faltering : Trace.Descriptor := fun number _ => if number = 0 then 7 else -1

def falteringStart : Surroundings := ⟨fun _ => none, ⟨0, 0⟩, 42, faltering⟩

def legacyPlan : Plan := ⟨⟨0x1000, by decide⟩, .legacy, .fallback⟩

theorem traceWrites_take_front_faltering :
    (∀ call ∈ traceWrites falteringStart legacyPlan, call.answer ≤ call.offered.length) ∧
    ∃ b : Trace.Buffer,
      (Trace.Record.ofPlan falteringStart.clock falteringStart.pid legacyPlan).render = .ok b ∧
      (traceWrites falteringStart legacyPlan).length ≤ b.length ∧
      Trace.delivered (traceWrites falteringStart legacyPlan) <+: b.content ∧
      (Trace.delivered (traceWrites falteringStart legacyPlan) = b.content ↔
        ∀ call ∈ traceWrites falteringStart legacyPlan, 0 < call.answer) := by
  have hd : ∀ call ∈ traceWrites falteringStart legacyPlan,
      call.answer ≤ call.offered.length := by
    intro call hcall
    obtain ⟨b, -, hsent, hcontent⟩ := traceWrites_eq falteringStart legacyPlan
    rw [hsent] at hcall
    obtain ⟨before, after, hsplit⟩ := List.append_of_mem hcall
    obtain ⟨hrest, -, hanswer, -⟩ := Trace.Descriptor.sendFrom_split _ 0 _ _ _ _ hsplit
    rw [hanswer, Nat.zero_add]
    cases before with
    | nil =>
      have hlong : 14 ≤ call.offered.length := by
        rw [Trace.delivered_nil, List.nil_append] at hrest
        rw [hrest, hcontent]
        exact Trace.Buffer.le_size_line _
      change (7 : Int) ≤ call.offered.length
      omega
    | cons first before =>
      change (-1 : Int) ≤ call.offered.length
      omega
  obtain ⟨b, hrender, -, hcount, -, hfront, hwhole⟩ :=
    traceWrites_take_front falteringStart legacyPlan hd
  exact ⟨hd, b, hrender, hcount, hfront, hwhole⟩

end ProcessStart.Launch
