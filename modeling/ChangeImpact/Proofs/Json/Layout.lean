import ChangeImpact.Proofs.Json.Pieces

/-!
# Proofs.Json.Layout

The two ways of writing a value are one way with two layouts.

* `Layout`               — the escapes of a text and the blanks between its pieces.
* `Layout.value`         — a value in a layout.
* `Layout.spread`, `Layout.oneLine` — the layouts of `pretty` and `inline`.
-/

namespace ChangeImpact.Json

/-- The gaps depend on the depth of the list or object that they stand in. -/
structure Layout where
  escape : Char → List Char
  opening : Nat → List Char
  between : Nat → List Char
  closing : Nat → List Char
  reads : ∀ c rest, stringBody? (escape c ++ rest) = consTo c (stringBody? rest)
  blank_opening : ∀ depth, ∀ c ∈ opening depth, isSpace c = true
  blank_between : ∀ depth, ∀ c ∈ between depth, isSpace c = true
  blank_closing : ∀ depth, ∀ c ∈ closing depth, isSpace c = true

namespace Layout

mutual

def value (l : Layout) (depth : Nat) : Value → List Char
  | .null => "null".toList
  | .bool b => keyword b
  | .int n => (Text.integer n).toList
  | .float x => float x
  | .text s => stringLit l.escape s
  | .list [] => ['[', ']']
  | .list (v :: rest) =>
    '[' :: (l.opening depth ++ (l.value (depth + 1) v ++ (l.laterItems (depth + 1) rest
      ++ (l.closing depth ++ [']']))))
  | .object [] => ['\x7b', '\x7d']
  | .object ((k, v) :: rest) =>
    '\x7b' :: (l.opening depth ++ (stringLit l.escape k ++ ':' :: ' ' :: (l.value (depth + 1) v
      ++ (l.laterFields (depth + 1) rest ++ (l.closing depth ++ ['\x7d'])))))

def laterItems (l : Layout) (depth : Nat) : List Value → List Char
  | [] => []
  | v :: rest => ',' :: (l.between depth ++ (l.value depth v ++ l.laterItems depth rest))

def laterFields (l : Layout) (depth : Nat) : List (String × Value) → List Char
  | [] => []
  | (k, v) :: rest =>
    ',' :: (l.between depth ++ (stringLit l.escape k ++ ':' :: ' ' :: (l.value depth v
      ++ l.laterFields depth rest)))

end

def spread : Layout where
  escape := escapeChar
  opening depth := lineBreak (depth + 1)
  between := lineBreak
  closing := lineBreak
  reads := stringBody?_escapeChar
  blank_opening _ := isSpace_of_mem_lineBreak
  blank_between _ := isSpace_of_mem_lineBreak
  blank_closing _ := isSpace_of_mem_lineBreak

def oneLine : Layout where
  escape := escapeAscii
  opening _ := []
  between _ := [' ']
  closing _ := []
  reads := stringBody?_escapeAscii
  blank_opening _ _ h := (List.not_mem_nil h).elim
  blank_between _ _ h := List.mem_singleton.mp h ▸ rfl
  blank_closing _ _ h := (List.not_mem_nil h).elim

/-! ## The two printers -/

mutual

theorem prettyAt_eq : ∀ (depth : Nat) (v : Value), prettyAt depth v = spread.value depth v
  | _, .null => rfl
  | _, .bool _ => rfl
  | _, .int _ => rfl
  | _, .float _ => rfl
  | _, .text _ => rfl
  | _, .list [] => rfl
  | depth, .list (v :: rest) => by
    simp [prettyAt, value, spread, prettyAt_eq (depth + 1) v, prettyItems_eq (depth + 1) rest]
  | _, .object [] => rfl
  | depth, .object ((k, v) :: rest) => by
    simp [prettyAt, value, spread, prettyAt_eq (depth + 1) v, prettyFields_eq (depth + 1) rest]

theorem prettyItems_eq : ∀ (depth : Nat) (items : List Value),
    prettyItems depth items = spread.laterItems depth items
  | _, [] => rfl
  | depth, v :: rest => by
    simp [prettyItems, laterItems, spread, prettyAt_eq depth v, prettyItems_eq depth rest]

theorem prettyFields_eq : ∀ (depth : Nat) (fields : List (String × Value)),
    prettyFields depth fields = spread.laterFields depth fields
  | _, [] => rfl
  | depth, (k, v) :: rest => by
    simp [prettyFields, laterFields, spread, prettyAt_eq depth v, prettyFields_eq depth rest]

end

mutual

theorem inlineChars_eq : ∀ (depth : Nat) (v : Value), inlineChars v = oneLine.value depth v
  | _, .null => rfl
  | _, .bool _ => rfl
  | _, .int _ => rfl
  | _, .float _ => rfl
  | _, .text _ => rfl
  | _, .list [] => rfl
  | depth, .list (v :: rest) => by
    simp [inlineChars, value, oneLine, inlineChars_eq (depth + 1) v,
      inlineItems_eq (depth + 1) rest]
  | _, .object [] => rfl
  | depth, .object ((k, v) :: rest) => by
    simp [inlineChars, value, oneLine, inlineChars_eq (depth + 1) v,
      inlineFields_eq (depth + 1) rest]

theorem inlineItems_eq : ∀ (depth : Nat) (items : List Value),
    inlineItems items = oneLine.laterItems depth items
  | _, [] => rfl
  | depth, v :: rest => by
    simp [inlineItems, laterItems, oneLine, inlineChars_eq depth v, inlineItems_eq depth rest]

theorem inlineFields_eq : ∀ (depth : Nat) (fields : List (String × Value)),
    inlineFields fields = oneLine.laterFields depth fields
  | _, [] => rfl
  | depth, (k, v) :: rest => by
    simp [inlineFields, laterFields, oneLine, inlineChars_eq depth v, inlineFields_eq depth rest]

end

end Layout

end ChangeImpact.Json
