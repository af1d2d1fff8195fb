import ProcessStart.Json.Value

/-!
Values with their members in order. Putting members in one by one leaves the
last of those with one key, and changes nothing that is in order already; a
value is exact if all its numbers are integers of 64 bits. Induction over
values goes through items and members.
-/
namespace ProcessStart.Json

/-- What passes from the items and members of a value on to the value holds of every value. -/
@[induction_eliminator]
theorem induct {motive : Json → Prop} (null : motive .null) (bool : ∀ b, motive (.bool b))
    (number : ∀ n, motive (.number n)) (text : ∀ s, motive (.text s))
    (array : ∀ items, (∀ v ∈ items, motive v) → motive (.array items))
    (object : ∀ ms, (∀ m ∈ ms, motive m.2) → motive (.object ms)) (v : Json) : motive v :=
  @Json.rec motive (fun items => ∀ v ∈ items, motive v) (fun ms => ∀ m ∈ ms, motive m.2)
    (fun m => motive m.2) null bool number text array object
    (fun _ h => nomatch h)
    (fun v vs hv hvs w hw => by
      cases hw with
      | head => exact hv
      | tail _ hw => exact hvs w hw)
    (fun _ h => nomatch h)
    (fun m ms hm hms n hn => by
      cases hn with
      | head => exact hm
      | tail _ hn => exact hms n hn)
    (fun _ _ hv => hv) v

def gathered (ms : List (String × Json)) : List (String × Json) :=
  ms.foldl (fun done m => put m.1 m.2 done) []

theorem ofMembers_eq_gathered (ms : List (String × Json)) : ofMembers ms = .object (gathered ms) :=
  rfl

/-- Of the members put in under a key, the last one is found. -/
theorem lookup_foldl_put (key : String) (ms done : List (String × Json)) :
    (ms.foldl (fun done m => put m.1 m.2 done) done).lookup key =
      (ms.reverse.lookup key).or (done.lookup key) := by
  induction ms generalizing done with
  | nil => rfl
  | cons m ms ih =>
    rw [List.foldl_cons, ih, List.reverse_cons, List.lookup_append, Option.or_assoc]
    congr 1
    obtain ⟨k, v⟩ := m
    by_cases h : key = k
    · subst h
      simp [lookup_put]
    · have hne : (key == k) = false := by simpa using h
      rw [lookup_put_other h, List.lookup_cons, hne]
      rfl

/-- The last member under a key counts. -/
theorem lookup_gathered (key : String) (ms : List (String × Json)) :
    (gathered ms).lookup key = ms.reverse.lookup key := by
  rw [gathered, lookup_foldl_put]
  exact Option.or_none

/-- A member behind all others of smaller keys. -/
theorem put_last {key : String} {value : Json} {ms : List (String × Json)}
    (h : ∀ m ∈ ms, m.1 < key) : put key value ms = ms ++ [(key, value)] := by
  induction ms with
  | nil => rfl
  | cons m ms ih =>
    have hlt : m.1 < key := h m (by simp)
    have hrest := ih (fun n hn => h n (by simp [hn]))
    rw [put, if_neg (String.lt_asymm hlt), if_neg, hrest, List.cons_append]
    intro he
    exact String.lt_irrefl key (he ▸ hlt)

/-- Members in ascending order are left where they are. -/
theorem foldl_put_of_pairwise {ms done : List (String × Json)}
    (h : ((done ++ ms).map Prod.fst).Pairwise (· < ·)) :
    ms.foldl (fun done m => put m.1 m.2 done) done = done ++ ms := by
  induction ms generalizing done with
  | nil => simp
  | cons m ms ih =>
    have hlast : ∀ n ∈ done, n.1 < m.1 := by
      intro n hn
      rw [List.map_append, List.pairwise_append] at h
      exact h.2.2 n.1 (List.mem_map_of_mem hn) m.1 (by simp)
    rw [List.foldl_cons, put_last hlast, ih (by simpa using h)]
    simp

/-- Members in ascending order stay as they are. -/
theorem ofMembers_of_pairwise {ms : List (String × Json)}
    (h : (ms.map Prod.fst).Pairwise (· < ·)) : ofMembers ms = .object ms := by
  rw [ofMembers, foldl_put_of_pairwise (by simpa using h)]
  rfl

mutual

/-- The value with the members of every object in it put in order. -/
def ordered : Json → Json
  | .array items => .array (orderedItems items)
  | .object ms => ofMembers (orderedMembers ms)
  | .null => .null
  | .bool b => .bool b
  | .number n => .number n
  | .text s => .text s

def orderedItems : List Json → List Json
  | [] => []
  | v :: vs => ordered v :: orderedItems vs

def orderedMembers : List (String × Json) → List (String × Json)
  | [] => []
  | (k, v) :: ms => (k, ordered v) :: orderedMembers ms

end

theorem orderedItems_eq_map (items : List Json) : orderedItems items = items.map ordered := by
  induction items with
  | nil => rfl
  | cons v vs ih => rw [orderedItems, ih, List.map_cons]

theorem orderedMembers_eq_map (ms : List (String × Json)) :
    orderedMembers ms = ms.map fun m => (m.1, m.2.ordered) := by
  induction ms with
  | nil => rfl
  | cons m ms ih => rw [orderedMembers, ih, List.map_cons]

theorem canonicalItems_iff (items : List Json) :
    CanonicalItems items ↔ ∀ v ∈ items, v.Canonical := by
  induction items with
  | nil => simp [CanonicalItems]
  | cons v vs ih => simp [CanonicalItems, ih]

theorem canonicalMembers_iff (ms : List (String × Json)) :
    CanonicalMembers ms ↔ ∀ m ∈ ms, m.2.Canonical := by
  induction ms with
  | nil => simp [CanonicalMembers]
  | cons m ms ih => simp [CanonicalMembers, ih]

/-- What is in order stays as it is. -/
theorem Canonical.ordered_eq {v : Json} (h : v.Canonical) : v.ordered = v := by
  induction v with
  | null => rfl
  | bool b => rfl
  | number n => rfl
  | text s => rfl
  | array items ih =>
    rw [Canonical, canonicalItems_iff] at h
    have hmap : items.map Json.ordered = items.map id :=
      List.map_congr_left fun v hv => ih v hv (h v hv)
    rw [ordered, orderedItems_eq_map, hmap, List.map_id]
  | object ms ih =>
    rw [Canonical, canonicalMembers_iff] at h
    have hmap : ms.map (fun m => (m.1, m.2.ordered)) = ms.map id := by
      apply List.map_congr_left
      intro m hm
      rw [ih m hm (h.2 m hm)]
      rfl
    rw [ordered, orderedMembers_eq_map, hmap, List.map_id, ofMembers_of_pairwise h.1]

mutual

/-- All numbers are integers of 64 bits; members may stand in any order. -/
def Exact : Json → Prop
  | .null => True
  | .bool _ => True
  | .number n => n.InRange
  | .text _ => True
  | .array items => ExactItems items
  | .object ms => ExactMembers ms

def ExactItems : List Json → Prop
  | [] => True
  | v :: vs => Exact v ∧ ExactItems vs

def ExactMembers : List (String × Json) → Prop
  | [] => True
  | (_, v) :: ms => Exact v ∧ ExactMembers ms

end

@[simp] theorem exact_text (s : String) : (Json.text s).Exact := trivial

@[simp] theorem exact_array (items : List Json) :
    (Json.array items).Exact ↔ ∀ v ∈ items, v.Exact := by
  induction items with
  | nil => simp [Exact, ExactItems]
  | cons v vs ih => simpa [Exact, ExactItems] using fun _ => ih

@[simp] theorem exact_object (ms : List (String × Json)) :
    (Json.object ms).Exact ↔ ∀ m ∈ ms, m.2.Exact := by
  induction ms with
  | nil => simp [Exact, ExactMembers]
  | cons m ms ih => simpa [Exact, ExactMembers] using fun _ => ih

theorem Canonical.exact {v : Json} (h : v.Canonical) : v.Exact := by
  induction v with
  | null => trivial
  | bool b => trivial
  | number n => exact h
  | text s => trivial
  | array items ih =>
    rw [Canonical, canonicalItems_iff] at h
    exact (exact_array items).mpr fun v hv => ih v hv (h v hv)
  | object ms ih =>
    rw [Canonical, canonicalMembers_iff] at h
    exact (exact_object ms).mpr fun m hm => ih m hm (h.2 m hm)

theorem depth_array_le {items : List Json} {d : Nat} :
    (Json.array items).depth ≤ d + 1 ↔ ∀ v ∈ items, v.depth ≤ d := by
  have hitems : depthItems items ≤ d ↔ ∀ v ∈ items, v.depth ≤ d := by
    induction items with
    | nil => simp [depthItems]
    | cons v vs ih => rw [depthItems, Nat.max_le, ih, List.forall_mem_cons]
  simpa [depth] using hitems

theorem depth_object_le {ms : List (String × Json)} {d : Nat} :
    (Json.object ms).depth ≤ d + 1 ↔ ∀ m ∈ ms, m.2.depth ≤ d := by
  have hmembers : depthMembers ms ≤ d ↔ ∀ m ∈ ms, m.2.depth ≤ d := by
    induction ms with
    | nil => simp [depthMembers]
    | cons m ms ih => rw [depthMembers, Nat.max_le, ih, List.forall_mem_cons]
  simpa [depth] using hmembers

end ProcessStart.Json
