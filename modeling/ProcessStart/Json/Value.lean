import ProcessStart.Binary64

/-!
JSON values. An integer is exact; every other number is a binary64. An object
holds its members in ascending order of their keys, each key once: putting a
member in replaces an older one of the same key. Values that a reader produces
are canonical in this sense; a writer also takes others and keeps their order.
-/
namespace ProcessStart

inductive Json.Number where
  | integer (n : Int)
  | float (x : Binary64)
  deriving DecidableEq, Repr

inductive Json where
  | null
  | bool (b : Bool)
  | number (n : Json.Number)
  | text (s : String)
  | array (items : List Json)
  | object (members : List (String × Json))
  deriving Inhabited, Repr

namespace Json

/-- Puts a member at its place among members in ascending order. -/
def put (key : String) (value : Json) : List (String × Json) → List (String × Json)
  | [] => [(key, value)]
  | (k, v) :: ms =>
    if key < k then (key, value) :: (k, v) :: ms
    else if key = k then (key, value) :: ms
    else (k, v) :: put key value ms

/-- An object of these members; of several with the same key the last one counts. -/
def ofMembers (ms : List (String × Json)) : Json :=
  .object (ms.foldl (fun done m => put m.1 m.2 done) [])

def optionalMember (name : String) : Option Json → List (String × Json)
  | none => []
  | some v => [(name, v)]

@[simp] theorem optionalMember_none (name : String) : optionalMember name none = [] := rfl

@[simp] theorem optionalMember_some (name : String) (v : Json) :
    optionalMember name (some v) = [(name, v)] := rfl

def text? : Json → Option String
  | .text s => some s
  | _ => none

def members? : Json → Option (List (String × Json))
  | .object ms => some ms
  | _ => none

/-- Integers that fit 64 bits, signed or unsigned. -/
def Number.InRange : Number → Prop
  | .integer n => -0x8000000000000000 ≤ n ∧ n < 0x10000000000000000
  | .float _ => False

mutual

/-- Objects in ascending order of keys, and numbers that are integers of 64 bits. -/
def Canonical : Json → Prop
  | .null => True
  | .bool _ => True
  | .number n => n.InRange
  | .text _ => True
  | .array items => CanonicalItems items
  | .object ms => (ms.map Prod.fst).Pairwise (· < ·) ∧ CanonicalMembers ms

def CanonicalItems : List Json → Prop
  | [] => True
  | v :: vs => Canonical v ∧ CanonicalItems vs

def CanonicalMembers : List (String × Json) → Prop
  | [] => True
  | (_, v) :: ms => Canonical v ∧ CanonicalMembers ms

end

mutual

/-- How deep arrays and objects nest. -/
def depth : Json → Nat
  | .null => 0
  | .bool _ => 0
  | .number _ => 0
  | .text _ => 0
  | .array items => depthItems items + 1
  | .object ms => depthMembers ms + 1

def depthItems : List Json → Nat
  | [] => 0
  | v :: vs => max (depth v) (depthItems vs)

def depthMembers : List (String × Json) → Nat
  | [] => 0
  | (_, v) :: ms => max (depth v) (depthMembers ms)

end

@[simp] theorem put_nil (key : String) (value : Json) : put key value [] = [(key, value)] := rfl

/-- What was put in is found. -/
theorem lookup_put (key : String) (value : Json) (ms : List (String × Json)) :
    (put key value ms).lookup key = some value := by
  induction ms with
  | nil => simp
  | cons m ms ih =>
    obtain ⟨k, v⟩ := m
    by_cases hlt : key < k
    · simp [put, hlt]
    · by_cases heq : key = k
      · subst heq
        rw [put, if_neg hlt, if_pos rfl]
        simp
      · have hne : (key == k) = false := by simpa using heq
        simp [put, hlt, heq, List.lookup_cons, hne, ih]

/-- Other members are found as before. -/
theorem lookup_put_other {key other : String} (h : other ≠ key) (value : Json)
    (ms : List (String × Json)) : (put key value ms).lookup other = ms.lookup other := by
  have hne : (other == key) = false := by simpa using h
  induction ms with
  | nil => simp [h]
  | cons m ms ih =>
    obtain ⟨k, v⟩ := m
    by_cases hlt : key < k
    · simp [put, hlt, List.lookup_cons, hne]
    · by_cases heq : key = k
      · subst heq
        rw [put, if_neg hlt, if_pos rfl]
        simp [List.lookup_cons, hne]
      · simp [put, hlt, heq, List.lookup_cons, ih]

end Json
end ProcessStart
