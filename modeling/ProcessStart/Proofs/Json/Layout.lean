import Mathlib.Data.List.DropRight
import ProcessStart.Proofs.Json.Loops
import ProcessStart.Proofs.Json.RoundTrip

/-!
The two ways of writing a value as one. They differ only in blanks: those
before an item, a member or a closing bracket, and the one behind a colon.
-/
namespace ProcessStart.Json

/-- Nothing but blanks. -/
def Blanks (s : List Char) : Prop := ∀ c ∈ s, isJsonBlank c = true

theorem blanks_nil : Blanks [] := by simp [Blanks]

theorem blanks_newLine (indent : Nat) : Blanks (newLine indent) := by
  intro c hc
  cases hc with
  | head => rfl
  | tail _ hc => rw [(List.mem_replicate.mp hc).2]; rfl

theorem skipBlank_append {b : List Char} (h : Blanks b) (s : List Char) :
    skipBlank (b ++ s) = skipBlank s := List.dropWhile_append_of_pos h

theorem skipBlank_skipBlank (s : List Char) : skipBlank (skipBlank s) = skipBlank s :=
  List.dropWhile_idempotent isJsonBlank s

theorem length_skipBlank_le (s : List Char) : (skipBlank s).length ≤ s.length :=
  (List.dropWhile_suffix _).length_le

theorem EndsNumber.blanks_append {b s : List Char} (hb : Blanks b) (h : EndsNumber s) :
    EndsNumber (b ++ s) := by
  cases b with
  | nil => exact h
  | cons c b =>
    have hc : isJsonBlank c = true := hb c (by simp)
    simp only [isJsonBlank, Bool.or_eq_true, decide_eq_true_eq] at hc
    rw [List.cons_append, endsNumber_cons]
    obtain ((rfl | rfl) | rfl) | rfl := hc <;> decide

/-- What a value begins with: neither a blank nor a closing bracket. -/
def Begins (text : List Char) : Prop :=
  ∃ c s, text = c :: s ∧ isJsonBlank c = false ∧ c ≠ ']'

theorem Begins.skipBlank_append {text : List Char} (h : Begins text) (rest : List Char) :
    skipBlank (text ++ rest) = text ++ rest := by
  obtain ⟨c, s, rfl, hc, -⟩ := h
  exact skipBlank_cons hc _

/-- On one line, or on several, and then indented so far. -/
inductive Layout where
  | compact
  | indented (indent : Nat)

namespace Layout

def write : Layout → Json → List Char
  | .compact, v => v.write
  | .indented n, v => v.writeIndented n

/-- The layout of what stands between brackets. -/
def inner : Layout → Layout
  | .compact => .compact
  | .indented n => .indented (n + 2)

/-- What stands before an item or a closing bracket. -/
def gap : Layout → List Char
  | .compact => []
  | .indented n => newLine n

def space : Layout → List Char
  | .compact => []
  | .indented _ => [' ']

def item (l : Layout) (v : Json) : List Char := l.gap ++ l.write v

def member (l : Layout) (m : String × Json) : List Char :=
  l.gap ++ (writeText m.1.toList ++ ':' :: (l.space ++ l.write m.2))

/-- Brackets without anything between them stand together. -/
def closing {α : Type} (l : Layout) : List α → List Char
  | [] => []
  | _ :: _ => l.gap

@[simp] theorem closing_compact {α : Type} (as : List α) : Layout.compact.closing as = [] := by
  cases as <;> rfl

theorem blanks_gap (l : Layout) : Blanks l.gap := by
  cases l with
  | compact => exact blanks_nil
  | indented n => exact blanks_newLine n

theorem blanks_space (l : Layout) : Blanks l.space := by
  cases l with
  | compact => exact blanks_nil
  | indented n => simp [Blanks, space, isJsonBlank]

theorem blanks_closing {α : Type} (l : Layout) (as : List α) : Blanks (l.closing as) := by
  cases as with
  | nil => exact blanks_nil
  | cons a as => exact l.blanks_gap

@[simp] theorem write_null (l : Layout) : l.write .null = ['n', 'u', 'l', 'l'] := by
  cases l <;> rfl

@[simp] theorem write_true (l : Layout) : l.write (.bool true) = ['t', 'r', 'u', 'e'] := by
  cases l <;> rfl

@[simp] theorem write_false (l : Layout) : l.write (.bool false) = ['f', 'a', 'l', 's', 'e'] := by
  cases l <;> rfl

@[simp] theorem write_number (l : Layout) (n : Number) : l.write (.number n) = writeNumber n := by
  cases l <;> rfl

@[simp] theorem write_text (l : Layout) (s : String) : l.write (.text s) = writeText s.toList := by
  cases l <;> rfl

theorem indentedItems_eq_map (n : Nat) (items : List Json) :
    indentedItems n items = items.map (Layout.indented n).item := by
  induction items with
  | nil => rfl
  | cons v vs ih => rw [indentedItems, ih]; rfl

theorem indentedMembers_eq_map (n : Nat) (ms : List (String × Json)) :
    indentedMembers n ms = ms.map (Layout.indented n).member := by
  induction ms with
  | nil => rfl
  | cons m ms ih => rw [indentedMembers, ih]; simp [member, gap, space, write]

theorem write_array (l : Layout) (items : List Json) : l.write (.array items) =
    '[' :: (commaSeparated (items.map l.inner.item) ++ (l.closing items ++ [']'])) := by
  cases l with
  | compact =>
    have hitem : Layout.compact.inner.item = Json.write := rfl
    simp [write, Json.write, writeItems_eq_map, hitem]
  | indented n =>
    cases items with
    | nil => rfl
    | cons v vs =>
      rw [write, writeIndented, indentedItems_eq_map]
      simp [inner, closing, gap]

theorem write_array_cons (l : Layout) (v : Json) (vs : List Json) : l.write (.array (v :: vs)) =
    '[' :: (l.inner.item v ++ (vs.flatMap (',' :: l.inner.item ·) ++ (l.gap ++ [']']))) := by
  rw [write_array, List.map_cons, commaSeparated_cons, List.flatMap_map, List.append_assoc]
  rfl

theorem write_object (l : Layout) (ms : List (String × Json)) : l.write (.object ms) =
    '{' :: (commaSeparated (ms.map l.inner.member) ++ (l.closing ms ++ ['}'])) := by
  cases l with
  | compact =>
    have hmember : Layout.compact.inner.member = writeMember := rfl
    simp [write, Json.write, writeMembers_eq_map, hmember]
  | indented n =>
    cases ms with
    | nil => rfl
    | cons m ms =>
      rw [write, writeIndented, indentedMembers_eq_map]
      simp [inner, closing, gap]

/-- In either layout a value begins with neither a blank nor a closing bracket. -/
theorem begins_write (l : Layout) {v : Json} (h : v.Exact) : Begins (l.write v) := by
  cases v with
  | null => rw [write_null]; exact write_cons h
  | bool b =>
    cases b with
    | true => rw [write_true]; exact write_cons h
    | false => rw [write_false]; exact write_cons h
  | number n => rw [write_number]; exact write_cons h
  | text s => rw [write_text]; exact write_cons h
  | array items => rw [write_array]; exact ⟨'[', _, rfl, rfl, by decide⟩
  | object ms => rw [write_object]; exact ⟨'{', _, rfl, rfl, by decide⟩

end Layout
end ProcessStart.Json
