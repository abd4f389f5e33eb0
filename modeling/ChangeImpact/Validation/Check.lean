import ChangeImpact.Document.Value
import ChangeImpact.Impact
import ChangeImpact.Text.Search
import ChangeImpact.Validation.Delimiters

/-!
# Validation.Check

Rules for the proposed content of a file.

* `Verdict`     — errors, which refuse the change, warnings and recommendations.
* `Area`        — the parts of a project that have rules of their own, told by the path.
* `check`       — the verdict on a change; missing content ends the rules with an error.
* `checklist`   — what to look at by hand for a path.
-/

namespace ChangeImpact

structure Verdict where
  isValid : Bool := true
  errors : List String := []
  warnings : List String := []
  recommendations : List String := []
  deriving DecidableEq, Repr

namespace Verdict

/-- A change is valid when nothing is found that refuses it. -/
def ofFindings (errors warnings recommendations : List String) : Verdict :=
  { isValid := errors.isEmpty, errors, warnings, recommendations }

def text (v : Verdict) : String :=
  if v.isValid then "✅ Validation passed"
  else "❌ Validation failed: " ++ String.intercalate ", " v.errors

def toValue (v : Verdict) : Value :=
  .object [
    ("is_valid", .bool v.isValid),
    ("errors", Value.texts v.errors),
    ("warnings", Value.texts v.warnings),
    ("recommendations", Value.texts v.recommendations)]

end Verdict

namespace Validation

open Text

inductive Area where
  | utility
  | page
  | interface
  deriving DecidableEq, Repr

def Area.all : List Area := [.utility, .page, .interface]

def Area.covers : Area → String → Bool
  | utility, path => occursIn "/utils/" path || occursIn "/lib/" path
  | page, path => occursIn "/routes/" path || occursIn "/pages/" path
  | interface, path => occursIn "/api/" path

def areasOf (path : String) : List Area := Area.all.filter fun a => a.covers path

def Area.checklist : Area → List String
  | utility => [
    "Check every call site when changing a shared utility function",
    "Check client code when changing an API endpoint",
    "Plan a migration when changing a database schema",
    "Check every implementation when changing a type definition"]
  | page => [
    "Check parent and child components when changing a page component",
    "Check navigation links when changing a route",
    "Check related components when changing state management",
    "Check theme consistency when changing styles"]
  | interface => [
    "Check client compatibility when changing the response format",
    "Check security impact when changing auth or permission logic",
    "Check performance impact when changing database queries",
    "Check client error handling when changing error responses"]

def checklist (path : String) : List String := (areasOf path).flatMap Area.checklist

/-- The warnings whose condition holds. -/
def raised (warnings : List (Bool × String)) : List String :=
  (warnings.filter (·.1)).map (·.2)

def Area.warnings (path content : String) : Area → List String
  | utility => raised [
    (occursIn "export" content && !occursIn "export default" content,
      "Shared utility exports changed: check every call site"),
    (hasWord "interface" content.toList || hasWord "type" content.toList,
      "Type definitions changed: check every implementation")]
  | page => raised [
    (occursIn "export let" content, "Component props changed: check parent components"),
    (occursIn "/routes/" path, "Route changed: check navigation links")]
  | interface => raised [
    (occursIn "json(" content, "API response format changed: check client compatibility"),
    (occursIn "auth" content || occursIn "permission" content,
      "Auth or permission logic changed: check security impact")]

/-- One to three decimal digits that no further digit follows. -/
def octet? (s : List Char) : Option (List Char) :=
  let ds := s.takeWhile isDecimalDigit
  if ds.isEmpty || 3 < ds.length then none else some (s.dropWhile isDecimalDigit)

/-- Three more octets, each behind a point. -/
def octets? : Nat → List Char → Option (List Char)
  | 0, s => some s
  | n + 1, '.' :: s => (octet? s).bind (octets? n)
  | _ + 1, _ => none

def hostAddress? (s : List Char) : Option (List Char) := (octet? s).bind (octets? 3)

def namesHost (content : List Char) : Bool :=
  hasWord "localhost" content || wordMatch hostAddress? content

def needsContent (changeType : String) : Bool := changeType = "modify" || changeType = "add"

def generalErrors (changeType content : String) : List String :=
  if needsContent changeType && (strip content.toList).isEmpty then
    ["Empty content for a " ++ changeType ++ " change"]
  else []

def generalWarnings (content : String) : List String :=
  let cs := content.toList
  raised [
    (namesHost cs, "Hardcoded host or IP address: use environment configuration"),
    (hasWord "await" cs && !(hasWord "try" cs || hasWord "catch" cs),
      "Async operations without error handling: add try/catch")]
    ++ imbalances content

/-- Why missing content cannot be looked into, depending on the rule that does so first. -/
def missingContent (path changeType : String) : String :=
  if !(areasOf path).isEmpty then "argument of type 'NoneType' is not iterable"
  else if needsContent changeType then "'NoneType' object has no attribute 'strip'"
  else "expected string or bytes-like object, got 'NoneType'"

def recommendations (changeType : String) : List String :=
  match Vocabulary.ofWord? changeType with
  | some ChangeType.delete => ["Remove all references before deleting", "Prepare a replacement"]
  | some .rename => ["Rename in stages and keep an alias meanwhile", "Update all references"]
  | some .move =>
    ["Update import paths in every dependent", "Keep a re-export at the old path meanwhile"]
  | some .modify => ["Keep backward compatibility", "Version the API if its contract changes"]
  | some .add => ["Add tests alongside the new file"]
  | none => []

/-- The rules of the areas of a path, then those for every file. -/
def check (path changeType : String) : Option String → Verdict
  | some content =>
    .ofFindings (generalErrors changeType content)
      ((areasOf path).flatMap (Area.warnings path content) ++ generalWarnings content)
      (recommendations changeType)
  | none =>
    .ofFindings ["Validation could not complete: " ++ missingContent path changeType] []
      (recommendations changeType)

end Validation

end ChangeImpact
