import ProcessStart.Json.Decode

/-!
Typed reading of values. Of computations that can fail, two in a row give a
value exactly if both do; so a decoder accepts the values that stand for
something of its type, and no others. A field that may be left out may also be
null.
-/
namespace ProcessStart

section

variable {ε α β : Type}

/-- Two steps succeed exactly if the first does and the second does on its result. -/
theorem bind_eq_ok {x : Except ε α} {f : α → Except ε β} {b : β} :
    (x >>= f) = .ok b ↔ ∃ a, x = .ok a ∧ f a = .ok b := by
  cases x with
  | error e => simp [bind, Except.bind]
  | ok a => simp [bind, Except.bind]

theorem mapError_error {δ : Type} (f : ε → δ) (e : ε) :
    (Except.error e : Except ε α).mapError f = .error (f e) := rfl

theorem mapError_eq_ok {δ : Type} {x : Except ε α} {f : ε → δ} {a : α} :
    x.mapError f = .ok a ↔ x = .ok a := by
  cases x with
  | error e => exact ⟨nofun, nofun⟩
  | ok b =>
    constructor
    · intro h
      cases h
      rfl
    · intro h
      cases h
      rfl

theorem map_eq_ok {x : Except ε α} {f : α → β} {b : β} :
    x.map f = .ok b ↔ ∃ a, x = .ok a ∧ f a = b := by
  cases x with
  | error e => simp [Except.map]
  | ok a => simp [Except.map]

theorem map_eq_error {x : Except ε α} {f : α → β} {e : ε} :
    x.map f = .error e ↔ x = .error e := by
  cases x with
  | error e' => simp [Except.map]
  | ok a => simp [Except.map]

theorem toOption_eq_some {x : Except ε α} {a : α} : x.toOption = some a ↔ x = .ok a := by
  cases x with
  | error e => simp [Except.toOption]
  | ok b => simp [Except.toOption]

end

namespace Json

/-- A name that is given as a text, or as the only key of an object with nothing under it. -/
def IsVariant (v : Json) (name : String) : Prop := v = .text name ∨ v = .object [(name, .null)]

theorem IsVariant.eq_of_text {label name : String} (h : (Json.text label).IsVariant name) :
    label = name := by
  obtain h | h := h
  · cases h
    rfl
  · cases h

/-- A field that can be left out: nothing or null stands for nothing. -/
def IsOptional {α : Type} (is : Json → α → Prop) (found : Option Json) : Option α → Prop
  | none => found = none ∨ found = some .null
  | some a => ∃ v, found = some v ∧ v ≠ .null ∧ is v a

theorem decodeText_eq_ok {v : Json} {s : String} : decodeText v = .ok s ↔ v = .text s := by
  cases v <;> simp [decodeText]

theorem decodeInt32_eq_ok {v : Json} {n : Int32} :
    decodeInt32 v = .ok n ↔ v = .number (.integer n.toInt) := by
  constructor
  · intro h
    unfold decodeInt32 at h
    split at h
    · rename_i i
      split at h
      · rename_i hrange
        cases h
        rw [Int32.toInt_ofInt_of_le hrange.1 hrange.2]
      · contradiction
    · contradiction
  · rintro rfl
    have hlow := n.le_toInt
    have hhigh := n.toInt_lt
    simp only [decodeInt32]
    rw [if_pos ⟨hlow, hhigh⟩, Int32.ofInt_toInt]

/-- Where one value is decoded exactly as it is written, so is a list of them. -/
theorem decodeItems_eq_ok {α : Type} {decode : Json → Except Mismatch α} {write : α → Json}
    (h : ∀ v a, decode v = .ok a ↔ v = write a) {vs : List Json} {as : List α} :
    decodeItems decode vs = .ok as ↔ vs = as.map write := by
  induction vs generalizing as with
  | nil => cases as <;> simp [decodeItems]
  | cons v vs ih =>
    have hstep : decodeItems decode (v :: vs) = .ok as ↔
        ∃ a, decode v = .ok a ∧ ∃ bs, decodeItems decode vs = .ok bs ∧ a :: bs = as := by
      rw [decodeItems]
      exact bind_eq_ok.trans (exists_congr fun a => and_congr_right fun _ => map_eq_ok)
    rw [hstep]
    constructor
    · rintro ⟨a, ha, bs, hbs, rfl⟩
      rw [List.map_cons, (h v a).mp ha, ih.mp hbs]
    · intro he
      cases as with
      | nil => simp at he
      | cons a as =>
        obtain ⟨hv, hvs⟩ := List.cons.inj he
        exact ⟨a, (h v a).mpr hv, as, ih.mpr hvs, rfl⟩

theorem decodeArray_eq_ok {α : Type} {decode : Json → Except Mismatch α} {write : α → Json}
    (h : ∀ v a, decode v = .ok a ↔ v = write a) {v : Json} {as : List α} :
    decodeArray decode v = .ok as ↔ v = .array (as.map write) := by
  cases v with
  | array items => simpa [decodeArray] using decodeItems_eq_ok h
  | _ => simp [decodeArray]

theorem findVariant_eq_ok {α : Type} {choice : List (String × α)} {name : String} {a : α} :
    findVariant choice name = .ok a ↔ choice.lookup name = some a := by
  unfold findVariant
  cases choice.lookup name <;> simp

/-- A choice is decoded from the two shapes of a name in it, and from nothing else. -/
theorem decodeVariant_eq_ok {α : Type} {choice : List (String × α)} {v : Json} {a : α} :
    decodeVariant choice v = .ok a ↔ ∃ name, choice.lookup name = some a ∧ v.IsVariant name := by
  cases v with
  | text name => simp [decodeVariant, findVariant_eq_ok, IsVariant]
  | object ms =>
    cases ms with
    | nil => simp [decodeVariant, IsVariant]
    | cons m ms =>
      obtain ⟨name, v⟩ := m
      cases ms with
      | cons n ms => simp [decodeVariant, IsVariant]
      | nil =>
        refine bind_eq_ok.trans ?_
        cases v <;> simp [findVariant_eq_ok, IsVariant]
  | _ => simp [decodeVariant, IsVariant]

theorem decodeOptional_eq_ok {α : Type} {decode : Json → Except Mismatch α} {v : Json}
    {found : Option α} : decodeOptional decode v = .ok found ↔
      v = .null ∧ found = none ∨ v ≠ .null ∧ ∃ a, decode v = .ok a ∧ found = some a := by
  unfold decodeOptional
  split
  · simp [eq_comm]
  · rename_i hv
    have hne : v ≠ .null := fun h => hv h
    rw [map_eq_ok]
    simp [hne, eq_comm]

/-- A field that can be left out, decoded: what it stands for, if it stands for anything. -/
theorem decodeField_optional {α : Type} {decode : Json → Except Mismatch α}
    {is : Json → α → Prop} (h : ∀ v a, decode v = .ok a ↔ is v a) {ms : List (String × Json)}
    {name : String} {found : Option α} :
    (∃ field, decodeField ms name (decodeOptional decode) = .ok field ∧ field.join = found) ↔
      IsOptional is (ms.lookup name) found := by
  cases hl : ms.lookup name with
  | none => cases found <;> simp [decodeField, hl, IsOptional]
  | some v =>
    have hstep : ∀ field, decodeField ms name (decodeOptional decode) = .ok field ↔
        ∃ o, decodeOptional decode v = .ok o ∧ some o = field := by
      intro field
      simp only [decodeField, hl]
      exact map_eq_ok
    simp only [hstep, decodeOptional_eq_ok]
    cases found with
    | none =>
      simp only [IsOptional]
      constructor
      · rintro ⟨_, ⟨o, ⟨rfl, rfl⟩ | ⟨-, a, -, rfl⟩, rfl⟩, hj⟩
        · exact .inr rfl
        · simp at hj
      · rintro (hn | hn)
        · contradiction
        · cases hn
          exact ⟨some none, ⟨none, .inl ⟨rfl, rfl⟩, rfl⟩, rfl⟩
    | some a =>
      simp only [IsOptional]
      constructor
      · rintro ⟨_, ⟨o, ⟨rfl, rfl⟩ | ⟨hv, b, hb, rfl⟩, rfl⟩, hj⟩
        · simp at hj
        · cases hj
          exact ⟨v, rfl, hv, (h v a).mp hb⟩
      · rintro ⟨w, hw, hv, ha⟩
        cases hw
        exact ⟨some (some a), ⟨some a, .inr ⟨hv, a, (h v a).mpr ha, rfl⟩, rfl⟩, rfl⟩

/-- A field that must be there, decoded. -/
theorem decodeField_required {α : Type} {decode : Json → Except Mismatch α}
    {is : Json → α → Prop} (h : ∀ v a, decode v = .ok a ↔ is v a) {ms : List (String × Json)}
    {name : String} {a : α} :
    (∃ field, decodeField ms name decode = .ok field ∧ require name field = .ok a) ↔
      ∃ v, ms.lookup name = some v ∧ is v a := by
  cases hl : ms.lookup name with
  | none => simp [decodeField, hl, require]
  | some v =>
    have hstep : ∀ field, decodeField ms name decode = .ok field ↔
        ∃ b, decode v = .ok b ∧ some b = field := by
      intro field
      simp only [decodeField, hl]
      exact map_eq_ok
    simp only [hstep]
    constructor
    · rintro ⟨_, ⟨b, hb, rfl⟩, hr⟩
      cases hr
      exact ⟨v, rfl, (h v a).mp hb⟩
    · rintro ⟨w, hw, ha⟩
      cases hw
      exact ⟨some a, ⟨a, (h v a).mpr ha, rfl⟩, rfl⟩

end Json

end ProcessStart
