import ChangeImpact.Document.TomlString
import ChangeImpact.Text.Word

/-!
# Document.TomlText

Tables written as TOML. The plain values of a table come first, then each table in it under its
own header, tables of one level before those of the next. `Toml.render?` has no result where a
text in the table has no written form.
-/

namespace ChangeImpact.Toml

def isPlainKey (k : String) : Bool :=
  k != "" && k.toList.all fun c => c.isAlphanum || c = '_' || c = '-'

def keyText? (k : String) : Option String := if isPlainKey k then some k else stringLit? k

/-- An exponent is written without a zero at its front. -/
def shortExponent : List Char → List Char
  | [] => []
  | 'e' :: sign :: '0' :: rest => 'e' :: sign :: rest
  | c :: rest => c :: shortExponent rest

mutual

def valueText? : Value → Option String
  | .null => some ""
  | .bool b => some (if b then "true" else "false")
  | .int n => some (Text.integer n)
  | .float x => some (.ofList (shortExponent x.text.toList))
  | .text s => stringLit? s
  | .list items => (itemsText? items).map fun t => "[" ++ t ++ "]"
  | .object fields => (pairsText? fields).map fun t => "\x7b " ++ t ++ " \x7d"

def itemsText? : List Value → Option String
  | [] => some ""
  | v :: rest =>
    match valueText? v, itemsText? rest with
    | some t, some more => some (" " ++ t ++ "," ++ more)
    | _, _ => none

def pairsText? : List (String × Value) → Option String
  | [] => some ""
  | (k, v) :: rest =>
    match keyText? k, valueText? v, pairsText? rest with
    | some k, some t, some more =>
      some (k ++ " = " ++ t ++ (if rest.isEmpty then "" else ", ") ++ more)
    | _, _, _ => none

end

def isTable : Value → Bool
  | .object _ => true
  | _ => false

/-- The assignment of a value that is no table. -/
def plainLine? (k : String) (v : Value) : Option String :=
  if isTable v then some ""
  else
    match keyText? k, valueText? v with
    | some k, some t => some (k ++ " = " ++ t ++ "\n")
    | _, _ => none

def plainLines? : List (String × Value) → Option String
  | [] => some ""
  | (k, v) :: rest =>
    match plainLine? k v, plainLines? rest with
    | some line, some more => some (line ++ more)
    | _, _ => none

/-- The tables directly in a table, under their full names. -/
def subtables? (name : String) :
    List (String × Value) → Option (List (String × List (String × Value)))
  | [] => some []
  | (k, .object sub) :: rest =>
    match keyText? k, subtables? name rest with
    | some k, some more => some ((if name = "" then k else name ++ "." ++ k, sub) :: more)
    | _, _ => none
  | _ :: rest => subtables? name rest

/-- The text before a header: an empty line unless there is one or nothing precedes. -/
def gap (text : String) : String :=
  if text = "" || text.endsWith "\n\n" then text else text ++ "\n"

/-- Adds tables to a text and gives the tables in them. A table that holds nothing but tables
gets no header of its own. -/
def level? : String → List (String × List (String × Value)) →
    Option (String × List (String × List (String × Value)))
  | text, [] => some (text, [])
  | text, (name, fields) :: rest =>
    match plainLines? fields, subtables? name fields with
    | some lines, some subs =>
      let text :=
        if lines != "" || subs.isEmpty then gap text ++ "[" ++ name ++ "]\n" ++ lines else text
      (level? text rest).map fun (text, more) => (text, subs ++ more)
    | _, _ => none

/-- Writes the tables of one level after another; the fuel bounds the depth. -/
def levels? : Nat → String → List (String × List (String × Value)) → Option String
  | 0, text, _ => some text
  | _, text, [] => some text
  | fuel + 1, text, tables =>
    match level? text tables with
    | some (text, next) => levels? fuel text next
    | none => none

mutual

/-- The number of tables inside one another. -/
def depth : Value → Nat
  | .object fields => depthFields fields + 1
  | .list items => depthItems items
  | _ => 0

def depthItems : List Value → Nat
  | [] => 0
  | v :: rest => max (depth v) (depthItems rest)

def depthFields : List (String × Value) → Nat
  | [] => 0
  | (_, v) :: rest => max (depth v) (depthFields rest)

end

def render? (fields : List (String × Value)) : Option String :=
  match plainLines? fields, subtables? "" fields with
  | some lines, some tables => levels? (depthFields fields + 1) lines tables
  | _, _ => none

end ChangeImpact.Toml
