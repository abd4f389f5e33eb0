import ChangeImpact.Number.Shortest
import ChangeImpact.Text.Quoted

/-!
# Document.Value

The values that plan files and settings files hold.

* `Value`         — null, truth values, numbers, texts, lists and objects in order of entry.
* `Value.field?`  — the value under a key.
* `Value.setField` — a value put under a key, in place when the key is present.
* `Value.display` — a value as a setting shows it: a text as it is, anything else in the notation
  of lists and tables.
-/

namespace ChangeImpact

inductive Value where
  | null
  | bool (b : Bool)
  | int (n : Int)
  | float (x : Binary64)
  | text (s : String)
  | list (items : List Value)
  | object (fields : List (String × Value))

namespace Value

def field? (key : String) : List (String × Value) → Option Value
  | [] => none
  | (k, v) :: rest => if k = key then some v else field? key rest

def setField (key : String) (value : Value) :
    List (String × Value) → List (String × Value)
  | [] => [(key, value)]
  | (k, v) :: rest =>
    if k = key then (k, value) :: rest else (k, v) :: setField key value rest

@[simp] theorem field?_setField (key k : String) (value : Value)
    (fields : List (String × Value)) :
    field? k (setField key value fields) = if key = k then some value else field? k fields := by
  induction fields with
  | nil => rfl
  | cons f rest ih =>
    obtain ⟨k', v⟩ := f
    by_cases h : k' = key
    · subst h
      by_cases hk : k' = k <;> simp [setField, field?, hk]
    · by_cases hk : k' = k
      · subst hk
        simp [setField, field?, h, Ne.symm h]
      · simp [setField, field?, h, hk, ih]

def dropField (key : String) (fields : List (String × Value)) : List (String × Value) :=
  fields.filter fun f => f.1 != key

mutual

/-- A value in the notation of lists and tables, texts in quotes. -/
def notated : Value → String
  | .null => "None"
  | .bool b => if b then "True" else "False"
  | .int n => Text.integer n
  | .float x => x.text
  | .text s => Text.quote s
  | .list items => "[" ++ notatedItems items ++ "]"
  | .object fields => "\x7b" ++ notatedFields fields ++ "\x7d"

def notatedItems : List Value → String
  | [] => ""
  | [v] => notated v
  | v :: rest => notated v ++ ", " ++ notatedItems rest

def notatedFields : List (String × Value) → String
  | [] => ""
  | [(k, v)] => Text.quote k ++ ": " ++ notated v
  | (k, v) :: rest => Text.quote k ++ ": " ++ notated v ++ ", " ++ notatedFields rest

end

def display : Value → String
  | .text s => s
  | v => notated v

/-- A list of texts as a value. -/
def texts (items : List String) : Value := .list (items.map .text)

def ofOption : Option String → Value
  | some s => .text s
  | none => .null

end Value

end ChangeImpact
