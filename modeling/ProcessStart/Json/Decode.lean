import ProcessStart.Json.Fault

/-!
Typed values out of JSON values. A decoder takes a value and gives what it
stands for, or says how the value is of another shape than expected. The
decoder of a record looks its fields up by name, so that other members do not
matter.
-/
namespace ProcessStart.Json

def decodeText : Json → Except Mismatch String
  | .text s => .ok s
  | v => .error (.wrongType v.shape "a string")

/-- A null is an absent value. -/
def decodeOptional {α : Type} (decode : Json → Except Mismatch α) :
    Json → Except Mismatch (Option α)
  | .null => .ok none
  | v => (decode v).map some

/-- An integer of another kind is no fault of type but of value. -/
def decodeInt32 : Json → Except Mismatch Int32
  | .number (.integer n) =>
    if -0x80000000 ≤ n ∧ n < 0x80000000 then .ok (Int32.ofInt n)
    else .error (.wrongValue (.number (.integer n)) "i32")
  | v => .error (.wrongType v.shape "i32")

/-- The items from the left, up to the first that cannot be decoded. -/
def decodeItems {α : Type} (decode : Json → Except Mismatch α) :
    List Json → Except Mismatch (List α)
  | [] => .ok []
  | v :: vs => (decode v).bind fun a => (decodeItems decode vs).map (a :: ·)

def decodeArray {α : Type} (decode : Json → Except Mismatch α) :
    Json → Except Mismatch (List α)
  | .array items => decodeItems decode items
  | v => .error (.wrongType v.shape "a sequence")

def findVariant {α : Type} (variants : List (String × α)) (name : String) : Except Mismatch α :=
  match variants.lookup name with
  | some a => .ok a
  | none => .error (.unknownVariant name (variants.map Prod.fst))

/-- One of a choice of names: a text, or an object with the name as its only key and nothing
under it. -/
def decodeVariant {α : Type} (variants : List (String × α)) : Json → Except Mismatch α
  | .text name => findVariant variants name
  | .object [(name, v)] =>
    (findVariant variants name).bind fun a =>
      match v with
      | .null => .ok a
      | v => .error (.wrongType v.shape "unit")
  | .object _ => .error (.wrongValue .object "map with a single key")
  | v => .error (.wrongType v.shape "string or map")

/-- The member under a name, decoded, if there is one. -/
def decodeField {α : Type} (members : List (String × Json)) (name : String)
    (decode : Json → Except Mismatch α) : Except Mismatch (Option α) :=
  match members.lookup name with
  | none => .ok none
  | some v => (decode v).map some

def require {α : Type} (name : String) : Option α → Except Mismatch α
  | none => .error (.missingField name)
  | some a => .ok a

@[simp] theorem decodeText_text (s : String) : decodeText (.text s) = .ok s := rfl

@[simp] theorem decodeOptional_null {α : Type} (decode : Json → Except Mismatch α) :
    decodeOptional decode .null = .ok none := rfl

@[simp] theorem decodeItems_nil {α : Type} (decode : Json → Except Mismatch α) :
    decodeItems decode [] = .ok [] := rfl

@[simp] theorem require_some {α : Type} (name : String) (a : α) :
    require name (some a) = .ok a := rfl

end ProcessStart.Json
