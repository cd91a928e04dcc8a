/-!
# JSON values

The configuration of an operator is a JSON value.  The fields of an object keep the order in which
they were put there; putting a field that is there already changes its value and not its place.

## Results

* `Json.Fields.get?_put`: what putting a field does to a look-up.
* `Json.Fields.keys_put`: the keys keep their order, a new one comes last.
-/

set_option autoImplicit false

namespace LiveDataflow

/-- A number is an integer or a double, which is given by its bits so that equality of numbers is
equality of what is stored. -/
inductive Json.Number where
  | integer (i : Int)
  | double (bits : UInt64)
  deriving DecidableEq, Repr

inductive Json where
  | null
  | bool (b : Bool)
  | number (n : Json.Number)
  | string (s : String)
  | array (items : List Json)
  | object (fields : List (String × Json))
  deriving Repr, Inhabited

namespace Json

mutual

def decEq : (a b : Json) → Decidable (a = b)
  | .null, .null => isTrue rfl
  | .bool a, .bool b => if h : a = b then isTrue (h ▸ rfl) else isFalse fun e => h (by cases e; rfl)
  | .number a, .number b =>
    if h : a = b then isTrue (h ▸ rfl) else isFalse fun e => h (by cases e; rfl)
  | .string a, .string b =>
    if h : a = b then isTrue (h ▸ rfl) else isFalse fun e => h (by cases e; rfl)
  | .array a, .array b =>
    match decEqItems a b with
    | isTrue h => isTrue (h ▸ rfl)
    | isFalse h => isFalse fun e => h (by cases e; rfl)
  | .object a, .object b =>
    match decEqFields a b with
    | isTrue h => isTrue (h ▸ rfl)
    | isFalse h => isFalse fun e => h (by cases e; rfl)
  | .null, .bool _ | .null, .number _ | .null, .string _ | .null, .array _ | .null, .object _
  | .bool _, .null | .bool _, .number _ | .bool _, .string _ | .bool _, .array _ | .bool _, .object _
  | .number _, .null | .number _, .bool _ | .number _, .string _ | .number _, .array _
  | .number _, .object _
  | .string _, .null | .string _, .bool _ | .string _, .number _ | .string _, .array _
  | .string _, .object _
  | .array _, .null | .array _, .bool _ | .array _, .number _ | .array _, .string _
  | .array _, .object _
  | .object _, .null | .object _, .bool _ | .object _, .number _ | .object _, .string _
  | .object _, .array _ => isFalse nofun
termination_by structural a => a

def decEqItems : (a b : List Json) → Decidable (a = b)
  | [], [] => isTrue rfl
  | [], _ :: _ => isFalse nofun
  | _ :: _, [] => isFalse nofun
  | a :: as, b :: bs =>
    match decEq a b, decEqItems as bs with
    | isTrue h, isTrue h' => isTrue (h ▸ h' ▸ rfl)
    | isFalse h, _ => isFalse fun e => h (by cases e; rfl)
    | _, isFalse h => isFalse fun e => h (by cases e; rfl)
termination_by structural a => a

def decEqFields : (a b : List (String × Json)) → Decidable (a = b)
  | [], [] => isTrue rfl
  | [], _ :: _ => isFalse nofun
  | _ :: _, [] => isFalse nofun
  | a :: as, b :: bs =>
    match decEqField a b, decEqFields as bs with
    | isTrue h, isTrue h' => isTrue (h ▸ h' ▸ rfl)
    | isFalse h, _ => isFalse fun e => h (by cases e; rfl)
    | _, isFalse h => isFalse fun e => h (by cases e; rfl)
termination_by structural a => a

def decEqField : (a b : String × Json) → Decidable (a = b)
  | (k, v), (k', v') =>
    match decEq v v' with
    | isTrue h => if hk : k = k' then isTrue (h ▸ hk ▸ rfl) else isFalse fun e => hk (by cases e; rfl)
    | isFalse h => isFalse fun e => h (by cases e; rfl)
termination_by structural a => a

end

instance : DecidableEq Json := decEq

/-- The fields of an object in their order. -/
abbrev Fields := List (String × Json)

namespace Fields

def get? (key : String) : Fields → Option Json
  | [] => none
  | (k, v) :: rest => if k = key then some v else get? key rest

/-- Gives a field a value: in its place if it is there, at the end if it is new. -/
def put (key : String) (value : Json) : Fields → Fields
  | [] => [(key, value)]
  | (k, v) :: rest => if k = key then (k, value) :: rest else (k, v) :: put key value rest

def keys (fields : Fields) : List String := fields.map (·.1)

theorem get?_put (key k : String) (value : Json) (fields : Fields) :
    (fields.put key value).get? k = if key = k then some value else fields.get? k := by
  induction fields with
  | nil => rfl
  | cons f rest ih =>
    obtain ⟨j, v⟩ := f
    by_cases hj : j = key
    · subst hj
      by_cases hk : j = k <;> simp [put, get?, hk]
    · by_cases hk : j = k
      · have : key ≠ k := fun e => hj (hk.trans e.symm)
        simp only [put, if_neg hj, get?, if_pos hk, if_neg this]
      · simp [put, get?, hj, hk, ih]

theorem keys_put (key : String) (value : Json) (fields : Fields) :
    (fields.put key value).keys =
      if key ∈ fields.keys then fields.keys else fields.keys ++ [key] := by
  induction fields with
  | nil => rfl
  | cons f rest ih =>
    obtain ⟨j, v⟩ := f
    by_cases hj : j = key
    · subst hj; simp [put, keys]
    · have hput : keys ((j, v) :: put key value rest) = j :: keys (put key value rest) := rfl
      have hkeys : keys ((j, v) :: rest) = j :: keys rest := rfl
      have hmem : key ∈ j :: keys rest ↔ key ∈ keys rest := by
        rw [List.mem_cons, or_iff_right (Ne.symm hj)]
      rw [put, if_neg hj, hput, hkeys, ih]
      by_cases h : key ∈ keys rest
      · rw [if_pos h, if_pos (hmem.2 h)]
      · rw [if_neg h, if_neg (mt hmem.1 h)]; rfl

end Fields

/-- The value at the end of a path of keys, if every step goes through an object that has the key. -/
def at? (value : Json) : List String → Option Json
  | [] => some value
  | key :: path =>
    match value with
    | .object fields => (Fields.get? key fields).bind fun v => v.at? path
    | _ => none

end Json

end LiveDataflow
