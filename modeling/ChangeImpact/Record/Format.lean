import ChangeImpact.Document.Value
import ChangeImpact.Failure
import ChangeImpact.Record.Basic

/-!
# Record.Format

File records as values of a document, and back.

* `FileRecord.toValue` — every field, in the order of the type.
* `FileRecord.ofValue` — a record needs its path; absent lists are empty. The items of lists have
  exactly the fields of their type, while unknown fields of the record itself are passed over.
* `Value.asText`, `Value.asList`, … — a value of the kind that its place asks for.
-/

namespace ChangeImpact

namespace Value

def asText : Value → Except Failure String
  | .text s => .ok s
  | _ => .error .wrongKind

def asInt : Value → Except Failure Int
  | .int n => .ok n
  | _ => .error .wrongKind

def asBool : Value → Except Failure Bool
  | .bool b => .ok b
  | _ => .error .wrongKind

def asOptionalText : Value → Except Failure (Option String)
  | .null => .ok none
  | .text s => .ok (some s)
  | _ => .error .wrongKind

/-- What a value holds when it is gone through: the items of a list, the characters of a text or
the keys of an object. -/
def asList : Value → Except Failure (List Value)
  | .list items => .ok items
  | .text s => .ok (s.toList.map fun c => .text c.toString)
  | .object fields => .ok (fields.map fun f => .text f.1)
  | _ => .error .wrongKind

def asListOf {α : Type} (read : Value → Except Failure α) (v : Value) :
    Except Failure (List α) :=
  match v.asList with
  | .error e => .error e
  | .ok items => collect read items

def asTexts : Value → Except Failure (List String) := asListOf asText

/-- A field that must be present. -/
def required {α : Type} (fields : List (String × Value)) (key : String)
    (read : Value → Except Failure α) : Except Failure α :=
  match field? key fields with
  | some v => read v
  | none => .error (.missingKey key)

/-- A field with a value of its own when it is absent. -/
def optional {α : Type} (fields : List (String × Value)) (key : String)
    (read : Value → Except Failure α) (default : α) : Except Failure α :=
  match field? key fields with
  | some v => read v
  | none => .ok default

/-- The fields of an item: all that it needs and none that it does not know. -/
def exactFields (needed known : List String) : Value → Except Failure (List (String × Value))
  | .object fields =>
    if needed.all (fun k => (field? k fields).isSome) && fields.all (fun f => known.contains f.1)
    then .ok fields
    else .error .wrongKind
  | _ => .error .wrongKind

def asLabel {α : Type} [Vocabulary α] (v : Value) : Except Failure (Label α) :=
  v.asText.map Label.ofText

end Value

namespace ImportEdge

def toValue (e : ImportEdge) : Value :=
  .object [
    ("from_path", .text e.fromPath),
    ("raw_specifier", .text e.specifier),
    ("kind", .text e.kind.text),
    ("line_number", .int e.line),
    ("imported_symbols", Value.texts e.symbols),
    ("resolved_path", Value.ofOption e.resolved)]

def ofValue (v : Value) : Except Failure ImportEdge := do
  let needed := ["from_path", "raw_specifier", "kind", "line_number"]
  let fields ← Value.exactFields needed (needed ++ ["imported_symbols", "resolved_path"]) v
  return {
    fromPath := ← Value.required fields "from_path" Value.asText
    specifier := ← Value.required fields "raw_specifier" Value.asText
    kind := ← Value.required fields "kind" Value.asLabel
    line := ← Value.required fields "line_number" Value.asInt
    symbols := ← Value.optional fields "imported_symbols" Value.asTexts []
    resolved := ← Value.optional fields "resolved_path" Value.asOptionalText none }

end ImportEdge

namespace ExportSymbol

def toValue (s : ExportSymbol) : Value :=
  .object [
    ("name", .text s.name),
    ("kind", .text s.kind.text),
    ("line_number", .int s.line),
    ("is_default", .bool s.isDefault)]

def ofValue (v : Value) : Except Failure ExportSymbol := do
  let needed := ["name", "kind", "line_number"]
  let fields ← Value.exactFields needed (needed ++ ["is_default"]) v
  return {
    name := ← Value.required fields "name" Value.asText
    kind := ← Value.required fields "kind" Value.asLabel
    line := ← Value.required fields "line_number" Value.asInt
    isDefault := ← Value.optional fields "is_default" Value.asBool false }

end ExportSymbol

namespace Impact

def toValue (i : Impact) : Value :=
  .object [
    ("affected_file", .text i.file),
    ("impact_type", .text i.type.text),
    ("description", .text i.description),
    ("severity", .text i.severity.text)]

def ofValue (v : Value) : Except Failure Impact := do
  let needed := ["affected_file", "impact_type", "description", "severity"]
  let fields ← Value.exactFields needed needed v
  return {
    file := ← Value.required fields "affected_file" Value.asText
    type := ← Value.required fields "impact_type" Value.asLabel
    description := ← Value.required fields "description" Value.asText
    severity := ← Value.required fields "severity" Value.asLabel }

end Impact

namespace FileRecord

def toValue (r : FileRecord) : Value :=
  .object [
    ("path", .text r.path),
    ("imports", .list (r.imports.map ImportEdge.toValue)),
    ("exports", .list (r.exports.map ExportSymbol.toValue)),
    ("dependencies", Value.texts r.dependencies),
    ("dependents", Value.texts r.dependents),
    ("risk_level", .text r.risk.text),
    ("change_impacts", .list (r.impacts.map Impact.toValue))]

def ofFields (fields : List (String × Value)) : Except Failure FileRecord := do
  return {
    path := ← Value.required fields "path" Value.asText
    imports := ← Value.optional fields "imports" (Value.asListOf ImportEdge.ofValue) []
    exports := ← Value.optional fields "exports" (Value.asListOf ExportSymbol.ofValue) []
    dependencies := ← Value.optional fields "dependencies" Value.asTexts []
    dependents := ← Value.optional fields "dependents" Value.asTexts []
    risk := ← Value.optional fields "risk_level" Value.asLabel (.known .low)
    impacts := ← Value.optional fields "change_impacts" (Value.asListOf Impact.ofValue) [] }

def ofValue : Value → Except Failure FileRecord
  | .object fields => ofFields fields
  | _ => .error .wrongKind

end FileRecord

end ChangeImpact
