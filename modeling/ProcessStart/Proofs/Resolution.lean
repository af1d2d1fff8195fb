import ProcessStart.Proofs.Decision

/-!
The lookups behind a plan, and what a plan makes of their answers. They are
made in order and end with the first that is answered, so none is made twice,
and what the others would have been answered has no part in the plan. The
address found is refused or called; it is never passed over for another one.
-/
namespace ProcessStart

namespace Resolver

/-- Lookups are made in their order, and none is left out before the last one made. -/
theorem log_firstAnswer_prefix (r : Resolver) (qs : List Lookup) :
    (r.firstAnswer qs).log <+: qs := by
  induction qs with
  | nil => exact List.prefix_rfl
  | cons q qs ih =>
    cases h : r q with
    | none =>
      rw [firstAnswer_of_none h]
      exact (List.prefix_cons_inj q).mpr ih
    | some a =>
      rw [firstAnswer_of_some h]
      exact ⟨qs, rfl⟩

/-- Only the lookups that are made have a say. -/
theorem firstAnswer_congr {r r' : Resolver} {qs : List Lookup}
    (h : ∀ q ∈ (r.firstAnswer qs).log, r' q = r q) : r'.firstAnswer qs = r.firstAnswer qs := by
  induction qs with
  | nil => rfl
  | cons q qs ih =>
    cases hq : r q with
    | none =>
      rw [firstAnswer_of_none hq] at h ⊢
      have hq' : r' q = none := (h q (by simp)).trans hq
      rw [firstAnswer_of_none hq', ih fun x hx => h x (by simp [hx])]
    | some a =>
      rw [firstAnswer_of_some hq] at h ⊢
      have hq' : r' q = some a := (h q (by simp)).trans hq
      rw [firstAnswer_of_some hq']

/-- The address under which the start routine is found, if it is found at all. -/
def found? (r : Resolver) : Option SymbolAddress :=
  (r .cutover).or ((r .baseline).or (r .default))

/-- The first of the candidates to be answered is where the routine is found. -/
theorem firstAnswer_candidates (r : Resolver) :
    (r.firstAnswer Plan.candidates).value.map Prod.snd = r.found? := by
  rw [value_firstAnswer, Plan.candidates, found?]
  cases hc : r .cutover with
  | some a => simp [hc]
  | none =>
    cases hb : r .baseline with
    | some a => simp [hc, hb]
    | none => cases hd : r .default <;> simp [hc, hb, hd]

end Resolver

/-- An address is implausible only if it is the highest; the null address answers no lookup. -/
theorem isPlausible_iff (a : SymbolAddress) :
    isPlausible a.val = true ↔ a.val ≠ 0xffffffffffffffff := by
  simp [isPlausible, a.ne_zero]

theorem Generation.eq_ofFound {g : Generation} {found : Bool} :
    g = ofFound found ↔ (g = .modern ↔ found = true) := by
  cases g <;> cases found <;> simp [ofFound]

theorem Strategy.eq_strategy {s : Strategy} {g : Generation} :
    s = g.strategy ↔ (s = .passThrough ↔ g = .modern) := by
  cases s <;> cases g <;> simp [Generation.strategy]

namespace Plan

variable {self : SymbolAddress} {answer : Option (Lookup × SymbolAddress)}

/-- What becomes of an address that was found. -/
theorem judge_some (self : SymbolAddress) (q : Lookup) (a : SymbolAddress) :
    judge self (some (q, a)) =
      if a.val = 0xffffffffffffffff then .error (.pseudoAddress a.val)
      else if a = self then .error (.resolvedToSelf a.val)
      else .ok ⟨a, Generation.ofFound (q == .cutover),
        (Generation.ofFound (q == .cutover)).strategy⟩ := by
  by_cases ha : a.val = 0xffffffffffffffff
  · have himplausible : isPlausible a.val = false := by
      rw [ha]
      decide
    simp only [judge, himplausible, Bool.not_false, if_true, if_pos ha]
  · simp only [judge, (isPlausible_iff a).mpr ha, Bool.not_true, Bool.false_eq_true, if_false,
      if_neg ha]

/-- A start is unresolved exactly if no lookup was answered. -/
theorem judge_eq_unresolved : judge self answer = .error .unresolved ↔ answer = none := by
  cases answer with
  | none => simp [judge]
  | some found =>
    obtain ⟨q, a⟩ := found
    rw [judge_some]
    split
    · simp
    split <;> simp

/-- The pseudo handle is refused, whichever lookup gave it. -/
theorem judge_eq_pseudoAddress {w : UInt64} :
    judge self answer = .error (.pseudoAddress w) ↔
      ∃ a, answer.map Prod.snd = some a ∧ a.val = 0xffffffffffffffff ∧ w = a.val := by
  cases answer with
  | none => simp [judge]
  | some found =>
    obtain ⟨q, a⟩ := found
    rw [judge_some]
    constructor
    · intro h
      split at h
      case isTrue ha =>
        cases h
        exact ⟨a, rfl, ha, rfl⟩
      case isFalse => split at h <;> cases h
    · rintro ⟨b, hb, ha, rfl⟩
      cases hb
      exact if_pos ha

/-- The address of the substitute is refused, unless it is the pseudo handle. -/
theorem judge_eq_resolvedToSelf {w : UInt64} :
    judge self answer = .error (.resolvedToSelf w) ↔
      ∃ a, answer.map Prod.snd = some a ∧ a = self ∧ a.val ≠ 0xffffffffffffffff ∧ w = a.val := by
  cases answer with
  | none => simp [judge]
  | some found =>
    obtain ⟨q, a⟩ := found
    rw [judge_some]
    constructor
    · intro h
      split at h
      case isTrue => cases h
      case isFalse ha =>
        split at h
        case isTrue hself =>
          cases h
          exact ⟨a, rfl, hself, ha, rfl⟩
        case isFalse => cases h
    · rintro ⟨b, hb, hself, ha, rfl⟩
      cases hb
      rw [if_neg ha, if_pos hself]

/-- A plan is made of an address that is neither the highest nor one's own; which lookup found it
says the rest. -/
theorem judge_eq_ok {p : Plan} :
    judge self answer = .ok p ↔
      ∃ q, answer = some (q, p.routine) ∧ p.routine.val ≠ 0xffffffffffffffff ∧ p.routine ≠ self ∧
        p.generation = Generation.ofFound (q == .cutover) ∧
        p.strategy = p.generation.strategy := by
  constructor
  · intro h
    obtain ⟨q, rfl, hg, hs⟩ := judge_ok h
    rw [judge_some] at h
    split at h
    case isTrue => cases h
    case isFalse ha =>
      split at h
      case isTrue => cases h
      case isFalse hself => exact ⟨q, rfl, ha, hself, hg, hs⟩
  · rintro ⟨q, rfl, ha, hself, hg, hs⟩
    rw [judge_some, if_neg ha, if_neg hself, ← hg, ← hs]

end Plan

section

variable (r : Resolver) (self : SymbolAddress)

theorem plan_value : (plan r self).value =
    Plan.judge self (r.firstAnswer Plan.candidates).value := rfl

theorem plan_log : (plan r self).log = (r.firstAnswer Plan.candidates).log := rfl

/-- A lookup is made exactly if those before it have no answer. -/
theorem plan_log_eq : (plan r self).log =
    .cutover :: if (r .cutover).isSome then [] else
      .baseline :: if (r .baseline).isSome then [] else [.default] := by
  rw [plan_log, Plan.candidates]
  cases hc : r .cutover with
  | some a => rw [Resolver.firstAnswer_of_some hc]; rfl
  | none =>
    rw [Resolver.firstAnswer_of_none hc]
    cases hb : r .baseline with
    | some a => rw [Resolver.firstAnswer_of_some hb]; rfl
    | none =>
      rw [Resolver.firstAnswer_of_none hb]
      cases hd : r .default with
      | some a => rw [Resolver.firstAnswer_of_some hd]; rfl
      | none => rw [Resolver.firstAnswer_of_none hd]; rfl

/-- No lookup is made twice. -/
theorem plan_log_nodup : (plan r self).log.Nodup :=
  (r.log_firstAnswer_prefix Plan.candidates).sublist.nodup (by decide)

variable {r self}

/-- A plan is the same wherever the lookups that it made are answered alike. -/
theorem plan_congr {r' : Resolver} (h : ∀ q ∈ (plan r self).log, r' q = r q) :
    plan r' self = plan r self := by
  have hanswer : r'.firstAnswer Plan.candidates = r.firstAnswer Plan.candidates :=
    Resolver.firstAnswer_congr h
  rw [plan, plan, hanswer]

/-- A plan is the routine found, if it can be called, with what follows from the cut-over lookup. -/
theorem plan_eq_ok {p : Plan} : (plan r self).value = .ok p ↔
    r.found? = some p.routine ∧ p.routine.val ≠ 0xffffffffffffffff ∧ p.routine ≠ self ∧
      p.generation = Generation.ofFound (r .cutover).isSome ∧
      p.strategy = p.generation.strategy := by
  rw [plan_value, Plan.judge_eq_ok, ← Resolver.firstAnswer_candidates]
  have hfirst : ∀ q a, (r.firstAnswer Plan.candidates).value = some (q, a) →
      (q == .cutover) = (r .cutover).isSome :=
    fun q a h => Resolver.firstAnswer_at_head (by decide) h
  constructor
  · rintro ⟨q, hq, ha, hself, hg, hs⟩
    rw [hfirst q _ hq] at hg
    exact ⟨by rw [hq]; rfl, ha, hself, hg, hs⟩
  · rintro ⟨hanswer, ha, hself, hg, hs⟩
    obtain ⟨⟨q, a⟩, hq, rfl⟩ := Option.map_eq_some_iff.mp hanswer
    refine ⟨q, hq, ha, hself, ?_, hs⟩
    rw [hfirst q _ hq]
    exact hg

/-- The lookup at the cut-over version, made alone, shows the generation of the plan. -/
theorem observe_of_plan {p : Plan} (h : (plan r self).value = .ok p) :
    Generation.observe r = ⟨p.generation, [.cutover]⟩ := by
  obtain ⟨-, -, -, hg, -⟩ := plan_eq_ok.mp h
  rw [hg]
  rfl

end

/-- The start routine is sought at the cut-over version, then at the baseline, then without a
version, up to the first answer; what was found is refused if it is the highest address or one's
own, and is otherwise planned with, by the generation that the first lookup shows. Lookups that are
not made change nothing, so the lookup without version, which can find the substitute itself, is
without influence where a version is found. -/
theorem plan_by_answers (r : Resolver) (self : SymbolAddress) :
    (Lookup.cutover = ⟨"__libc_start_main", some "GLIBC_2.34"⟩ ∧
      Lookup.baseline = ⟨"__libc_start_main", some "GLIBC_2.2.5"⟩ ∧
      Lookup.default = ⟨"__libc_start_main", none⟩) ∧
    ((plan r self).log = .cutover :: if (r .cutover).isSome then [] else
      .baseline :: if (r .baseline).isSome then [] else [.default]) ∧
    ((plan r self).log.count .cutover = 1 ∧ ∀ q, (plan r self).log.count q ≤ 1) ∧
    ((plan r self).value = .error .unresolved ↔
      r .cutover = none ∧ r .baseline = none ∧ r .default = none) ∧
    (∀ w, (plan r self).value = .error (.pseudoAddress w) ↔
      ∃ a, r.found? = some a ∧ a.val = 0xffffffffffffffff ∧ w = a.val) ∧
    (∀ w, (plan r self).value = .error (.resolvedToSelf w) ↔
      ∃ a, r.found? = some a ∧ a = self ∧ a.val ≠ 0xffffffffffffffff ∧ w = a.val) ∧
    (∀ p, (plan r self).value = .ok p ↔
      r.found? = some p.routine ∧ p.routine.val ≠ 0xffffffffffffffff ∧ p.routine ≠ self ∧
        (p.generation = .modern ↔ (r .cutover).isSome) ∧
        (p.strategy = .passThrough ↔ p.generation = .modern)) ∧
    (∀ p, (plan r self).value = .ok p →
      p.routine.val ≠ 0 ∧ p.routine.val ≠ 0xffffffffffffffff ∧ p.routine ≠ self ∧
        (Generation.observe r).value = p.generation) ∧
    (∀ r' : Resolver, (∀ q ∈ (plan r self).log, r' q = r q) → plan r' self = plan r self) ∧
    ∀ r' : Resolver, r' .cutover = r .cutover → r' .baseline = r .baseline →
      ((r .cutover).isSome ∨ (r .baseline).isSome) → plan r' self = plan r self := by
  have honce := List.nodup_iff_count.mp (plan_log_nodup r self)
  have hcutover : (plan r self).log.count .cutover = 1 := by
    rw [plan_log_eq]
    cases (r .cutover).isSome <;> cases (r .baseline).isSome <;> decide
  refine ⟨⟨rfl, rfl, rfl⟩, plan_log_eq r self, ⟨hcutover, honce⟩, ?_, ?_, ?_, ?_, ?_,
    fun r' h => plan_congr h, ?_⟩
  · rw [plan_value, Plan.judge_eq_unresolved, ← Option.map_eq_none_iff (f := Prod.snd),
      Resolver.firstAnswer_candidates, Resolver.found?, Option.or_eq_none_iff,
      Option.or_eq_none_iff]
  · intro w
    rw [plan_value, Plan.judge_eq_pseudoAddress, Resolver.firstAnswer_candidates]
  · intro w
    rw [plan_value, Plan.judge_eq_resolvedToSelf, Resolver.firstAnswer_candidates]
  · intro p
    rw [plan_eq_ok, Generation.eq_ofFound, Strategy.eq_strategy]
  · intro p hp
    obtain ⟨-, hmax, hself, -⟩ := plan_eq_ok.mp hp
    exact ⟨p.routine.ne_zero, hmax, hself, congrArg Logged.value (observe_of_plan hp)⟩
  · intro r' hc hb hsome
    apply plan_congr
    intro q hq
    rw [plan_log_eq] at hq
    cases hsome with
    | inl h =>
      rw [if_pos h, List.mem_singleton] at hq
      rw [hq, hc]
    | inr h =>
      rw [if_pos h] at hq
      have hmade : q = .cutover ∨ q = .baseline := by
        split at hq <;> simp_all
      cases hmade with
      | inl he => rw [he, hc]
      | inr he => rw [he, hb]

end ProcessStart
