import ProcessStart.Plan

/-!
What a plan says about the lookups behind it. The first lookup that answers
gives the routine; whether it was the one at the cut-over version gives the
generation, and with it what is handed over as `init`.
-/
namespace ProcessStart

namespace Resolver

def only (q : Lookup) (a : SymbolAddress) : Resolver := fun x => if x = q then some a else none

/-- The first answer, without the lookups made on the way. -/
theorem value_firstAnswer (r : Resolver) (qs : List Lookup) :
    (r.firstAnswer qs).value = qs.findSome? fun q => (r q).map (q, ·) := by
  induction qs with
  | nil => rfl
  | cons q qs ih =>
    cases h : r q with
    | none => rw [firstAnswer_of_none h]; simp [h, ih]
    | some a => rw [firstAnswer_of_some h]; simp [h]

/-- An answer belongs to one of the lookups that were made. -/
theorem firstAnswer_mem {r : Resolver} {qs : List Lookup} {q : Lookup} {a : SymbolAddress}
    (h : (r.firstAnswer qs).value = some (q, a)) : q ∈ qs ∧ r q = some a := by
  rw [value_firstAnswer] at h
  obtain ⟨x, hx, ha⟩ := List.exists_of_findSome?_eq_some h
  obtain ⟨b, hb, he⟩ := Option.map_eq_some_iff.mp ha
  obtain ⟨rfl, rfl⟩ := Prod.mk.inj he
  exact ⟨hx, hb⟩

/-- The first of different lookups is the one that is answered exactly if it has an answer. -/
theorem firstAnswer_at_head {r : Resolver} {q q' : Lookup} {qs : List Lookup} {a : SymbolAddress}
    (hq : q ∉ qs) (h : (r.firstAnswer (q :: qs)).value = some (q', a)) :
    (q' == q) = (r q).isSome := by
  cases hr : r q with
  | none =>
    rw [firstAnswer_of_none hr] at h
    have hne : q' ≠ q := by
      intro he
      exact hq (he ▸ (firstAnswer_mem h).1)
    simpa using hne
  | some b =>
    rw [firstAnswer_of_some hr] at h
    simp only [Option.some.injEq, Prod.mk.injEq] at h
    simp [h.1]

end Resolver

/-- A label belongs to one generation. -/
theorem Generation.eq_of_label {g g' : Generation} (h : g.label = g'.label) : g = g' := by
  have hg := Generation.ofLabel?_label g
  rw [h, Generation.ofLabel?_label] at hg
  exact (Option.some.inj hg).symm

/-- No two strategies have one label. -/
theorem Strategy.eq_of_label {s t : Strategy} (h : s.label = t.label) : s = t := by
  cases s <;> cases t <;> first | rfl | exact absurd h (by decide)

namespace Plan

/-- A plan is made of the first answer. -/
theorem judge_ok {self : SymbolAddress} {answer : Option (Lookup × SymbolAddress)} {p : Plan}
    (h : judge self answer = .ok p) : ∃ q, answer = some (q, p.routine) ∧
      p.generation = Generation.ofFound (q == .cutover) ∧ p.strategy = p.generation.strategy := by
  cases answer with
  | none => simp [judge] at h
  | some found =>
    obtain ⟨q, a⟩ := found
    simp only [judge] at h
    split at h
    · exact nomatch h
    split at h
    · exact nomatch h
    · simp only [Except.ok.injEq] at h
      subst h
      exact ⟨q, rfl, rfl, rfl⟩

/-- Only an answer at the cut-over version makes a plan modern. -/
theorem strategy_of_plan {r : Resolver} {self : SymbolAddress} {p : Plan}
    (h : (plan r self).value = .ok p) :
    p.strategy = (Generation.ofFound (r .cutover).isSome).strategy := by
  have hjudge : judge self (r.firstAnswer candidates).value = .ok p := h
  obtain ⟨q, hq, hg, hs⟩ := judge_ok hjudge
  rw [hs, hg, Resolver.firstAnswer_at_head (by decide) hq]

/-- The caller's `init` goes on from the cut-over version on, and only then. -/
theorem pick_of_plan {α : Type} {r : Resolver} {self : SymbolAddress} {p : Plan}
    (h : (plan r self).value = .ok p) (caller substitute : α) :
    p.strategy.pick caller substitute = if (r .cutover).isSome then caller else substitute := by
  rw [strategy_of_plan h]
  cases (r .cutover).isSome <;> rfl

end Plan
end ProcessStart
