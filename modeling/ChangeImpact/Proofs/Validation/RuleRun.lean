import ChangeImpact.Proofs.Text.Search
import ChangeImpact.Validation.Check

/-!
# Proofs.Validation.RuleRun

Rules that look into the content one after another, until one of them cannot.

* `Look`, `Rule`      — how a rule looks into the content, and what it finds there.
* `runRules`          — what is found before a rule fails, and why it fails.
* `guarded`           — the verdict on a run; a failure is one more error.
* `check_eq_guarded`  — the verdict of `check` is this one.
* `warnings_sublist`  — a path with more markers has no fewer warnings.
* `validates`         — what holds of all verdicts on a path and a kind of change.
-/

namespace ChangeImpact

namespace Validation

open Text

/-! ## Rules -/

structure Findings where
  errors : List String := []
  warnings : List String := []

def Findings.append (f g : Findings) : Findings where
  errors := f.errors ++ g.errors
  warnings := f.warnings ++ g.warnings

/-- The ways to look into a content. -/
inductive Look where
  | membership
  | trimming
  | matching

/-- Why a look into missing content fails. -/
def Look.failure : Look → String
  | membership => "argument of type 'NoneType' is not iterable"
  | trimming => "'NoneType' object has no attribute 'strip'"
  | matching => "expected string or bytes-like object, got 'NoneType'"

inductive Rule where
  | looking (look : Look) (finds : String → Findings)
  | plain (found : Findings)

def Rule.apply (content : Option String) : Rule → Except String Findings
  | looking look finds =>
    match content with
    | some text => .ok (finds text)
    | none => .error look.failure
  | plain found => .ok found

/-- Runs the rules after what has been found already, up to the first one that fails. -/
def runRules (content : Option String) : List Rule → Findings → Findings × Option String
  | [], found => (found, none)
  | rule :: rest, found =>
    match rule.apply content with
    | .ok more => runRules content rest (found.append more)
    | .error reason => (found, some reason)

def warnIf (condition : Bool) (text : String) : Findings :=
  { warnings := raised [(condition, text)] }

def Area.rules (path : String) : Area → List Rule
  | utility => [
    .looking .membership fun text =>
      warnIf (occursIn "export" text && !occursIn "export default" text)
        "Shared utility exports changed: check every call site",
    .looking .matching fun text =>
      warnIf (hasWord "interface" text.toList || hasWord "type" text.toList)
        "Type definitions changed: check every implementation"]
  | page => [
    .looking .membership fun text =>
      warnIf (occursIn "export let" text) "Component props changed: check parent components",
    .plain (warnIf (occursIn "/routes/" path) "Route changed: check navigation links")]
  | interface => [
    .looking .membership fun text =>
      warnIf (occursIn "json(" text) "API response format changed: check client compatibility",
    .looking .membership fun text =>
      warnIf (occursIn "auth" text || occursIn "permission" text)
        "Auth or permission logic changed: check security impact"]

def generalRules (changeType : String) : List Rule := [
  if needsContent changeType then
    .looking .trimming fun text => { errors := generalErrors changeType text }
  else .plain {},
  .looking .matching fun text =>
    warnIf (namesHost text.toList) "Hardcoded host or IP address: use environment configuration",
  .looking .matching fun text =>
    warnIf (hasWord "await" text.toList &&
        !(hasWord "try" text.toList || hasWord "catch" text.toList))
      "Async operations without error handling: add try/catch",
  .looking .matching fun text => { warnings := imbalances text }]

def rulesFor (path changeType : String) : List Rule :=
  (areasOf path).flatMap (Area.rules path) ++ generalRules changeType

def found (path changeType : String) (content : Option String) : Findings × Option String :=
  runRules content (rulesFor path changeType) {}

/-- The verdict on what the rules have found. The failure of one of them is an error, and what was
found before it stays. -/
def guarded (path changeType : String) (content : Option String) : Verdict :=
  match found path changeType content with
  | (f, none) => .ofFindings f.errors f.warnings (recommendations changeType)
  | (f, some reason) =>
    .ofFindings (f.errors ++ ["Validation could not complete: " ++ reason]) f.warnings
      (recommendations changeType)

/-! ## Runs -/

/-- What a rule finds in a text. -/
def Rule.finds (text : String) : Rule → Findings
  | looking _ finds => finds text
  | plain found => found

/-- No rule fails on a text. -/
theorem Rule.apply_some (rule : Rule) (text : String) :
    rule.apply (some text) = .ok (rule.finds text) := by
  cases rule <;> rfl

theorem runRules_some (text : String) (rules : List Rule) (f : Findings) :
    runRules (some text) rules f =
      ({ errors := f.errors ++ rules.flatMap fun rule => (rule.finds text).errors
         warnings := f.warnings ++ rules.flatMap fun rule => (rule.finds text).warnings },
        none) := by
  induction rules generalizing f with
  | nil => simp [runRules]
  | cons rule rest ih => simp [runRules, rule.apply_some text, ih, Findings.append]

section Rules

variable (path changeType text : String)

theorem errors_areaRules (a : Area) :
    (a.rules path).flatMap (fun rule => (rule.finds text).errors) = [] := by
  cases a <;> rfl

theorem raised_pair (w w' : Bool × String) : raised [w, w'] = raised [w] ++ raised [w'] := by
  simp only [raised, ← List.map_append, ← List.filter_append, List.singleton_append]

theorem warnings_areaRules (a : Area) :
    (a.rules path).flatMap (fun rule => (rule.finds text).warnings) = a.warnings path text := by
  cases a <;> simp only [Area.rules, Area.warnings, raised_pair, List.flatMap_cons,
    List.flatMap_nil, List.append_nil, Rule.finds, warnIf]

theorem errors_generalRules :
    (generalRules changeType).flatMap (fun rule => (rule.finds text).errors) =
      generalErrors changeType text := by
  rw [generalRules]
  split
  · simp [Rule.finds, warnIf]
  · next h => simp [Rule.finds, warnIf, generalErrors, h]

theorem warnings_generalRules :
    (generalRules changeType).flatMap (fun rule => (rule.finds text).warnings) =
      generalWarnings text := by
  rw [generalRules]
  split <;> simp only [generalWarnings, raised_pair, List.flatMap_cons, List.flatMap_nil,
    List.nil_append, List.append_nil, List.append_assoc, Rule.finds, warnIf]

/-- On a text all rules are run. -/
theorem found_some : found path changeType (some text) =
    ({ errors := generalErrors changeType text
       warnings := (areasOf path).flatMap (Area.warnings path text) ++ generalWarnings text },
      none) := by
  have herrors : (areasOf path).flatMap (fun _ => ([] : List String)) = [] :=
    List.flatMap_eq_nil_iff.mpr fun _ _ => rfl
  simp only [found, runRules_some, rulesFor, List.flatMap_append, List.flatMap_assoc,
    errors_areaRules, warnings_areaRules, errors_generalRules, warnings_generalRules, herrors,
    List.nil_append]

/-- Without content the first rule that looks for one ends the run, and nothing is found before. -/
theorem found_none : found path changeType none = ({}, some (missingContent path changeType)) := by
  rw [found, rulesFor, missingContent]
  cases areasOf path with
  | nil => by_cases h : needsContent changeType <;> simp [generalRules, h] <;> rfl
  | cons a rest => cases a <;> rfl

end Rules

theorem check_eq_guarded (path changeType : String) (content : Option String) :
    check path changeType content = guarded path changeType content := by
  cases content with
  | none => simp only [guarded, found_none, check, List.nil_append]
  | some text => simp only [guarded, found_some, check]

/-! ## Paths with more markers -/

/-- The parts of paths that rules are chosen by. -/
def markers : List String := ["/utils/", "/lib/", "/routes/", "/pages/", "/api/"]

/-- Every marker in the path is in the other one as well. -/
def MarkersIn (path path' : String) : Prop :=
  ∀ marker ∈ markers, occursIn marker path = true → occursIn marker path' = true

section Markers

variable {path path' : String}

theorem covers_mono (h : MarkersIn path path') {a : Area} (hcovers : a.covers path = true) :
    a.covers path' = true := by
  cases a <;> simp only [Area.covers, Bool.or_eq_true] at hcovers ⊢
  case utility => exact hcovers.imp (h _ (by decide)) (h _ (by decide))
  case page => exact hcovers.imp (h _ (by decide)) (h _ (by decide))
  case interface => exact h _ (by decide) hcovers

theorem raised_sublist {condition condition' : Bool} (h : condition = true → condition' = true)
    (text : String) : (raised [(condition, text)]).Sublist (raised [(condition', text)]) := by
  cases condition with
  | false => exact List.nil_sublist _
  | true =>
    obtain rfl : condition' = true := h rfl
    exact .refl _

theorem areaWarnings_sublist (h : MarkersIn path path') (content : String) (a : Area) :
    (a.warnings path content).Sublist (a.warnings path' content) := by
  cases a
  case page =>
    simp only [Area.warnings, raised_pair]
    exact (List.Sublist.refl _).append (raised_sublist (h "/routes/" (by decide)) _)
  all_goals exact .refl _

theorem flatMap_filter_sublist {α β : Type} {p q : α → Bool} {f g : α → List β}
    (hp : ∀ a, p a = true → q a = true) (hf : ∀ a, (f a).Sublist (g a)) (as : List α) :
    ((as.filter p).flatMap f).Sublist ((as.filter q).flatMap g) := by
  induction as with
  | nil => exact .slnil
  | cons a as ih =>
    simp only [List.filter_cons]
    by_cases hpa : p a = true
    · rw [if_pos hpa, if_pos (hp a hpa), List.flatMap_cons, List.flatMap_cons]
      exact (hf a).append ih
    · rw [if_neg hpa]
      split
      · exact ih.trans (List.sublist_append_right (g a) _)
      · exact ih

theorem warnings_sublist (h : MarkersIn path path') (changeType content : String) :
    (check path changeType (some content)).warnings.Sublist
      (check path' changeType (some content)).warnings :=
  (flatMap_filter_sublist (fun _ => covers_mono h) (areaWarnings_sublist h content)
    Area.all).append (.refl _)

end Markers

/-! ## Verdicts -/

theorem isValid_check (path changeType : String) (content : Option String) :
    (check path changeType content).isValid = true ↔
      (check path changeType content).errors = [] := by
  cases content <;> simp [check, Verdict.ofFindings]

theorem needsContent_iff {changeType : String} :
    needsContent changeType = true ↔ changeType = "modify" ∨ changeType = "add" := by
  simp [needsContent]

theorem generalErrors_ne_nil_iff {changeType content : String} :
    generalErrors changeType content ≠ [] ↔
      (changeType = "modify" ∨ changeType = "add") ∧ ∀ c ∈ content.toList, isBlank c = true := by
  rw [← needsContent_iff, ← strip_eq_nil_iff, ← List.isEmpty_iff, ← Bool.and_eq_true, generalErrors]
  split
  · next h => simp [h]
  · next h => simp [h]

theorem length_generalErrors {changeType content : String}
    (h : generalErrors changeType content ≠ []) :
    (generalErrors changeType content).length = 1 := by
  rw [generalErrors] at h ⊢
  split
  · rfl
  · next hnot =>
    rw [if_neg hnot] at h
    exact absurd rfl h

/-- What holds of the verdicts on a path and a kind of change. -/
structure Validates (path changeType : String) : Prop where
  /-- Whatever ends the rules, there is a verdict, and on a text nothing ends them. -/
  guards : ∀ content, check path changeType content = guarded path changeType content
  completes : ∀ content, (found path changeType (some content)).2 = none
  valid_iff : ∀ content, (check path changeType content).isValid = true ↔
    (check path changeType content).errors = []
  refuses_iff : ∀ content, (check path changeType (some content)).errors ≠ [] ↔
    (changeType = "modify" ∨ changeType = "add") ∧ ∀ c ∈ content.toList, isBlank c = true
  refuses_once : ∀ content, (check path changeType (some content)).errors ≠ [] →
    (check path changeType (some content)).errors.length = 1
  missing : (check path changeType none).errors.length = 1
  warns_more : ∀ path', MarkersIn path path' → ∀ content,
    (check path changeType (some content)).warnings.Sublist
      (check path' changeType (some content)).warnings

theorem validates (path changeType : String) : Validates path changeType where
  guards := check_eq_guarded path changeType
  completes content := by rw [found_some]
  valid_iff := isValid_check path changeType
  refuses_iff _ := generalErrors_ne_nil_iff
  refuses_once _ := length_generalErrors
  missing := rfl
  warns_more _ h content := warnings_sublist h changeType content

end Validation

end ChangeImpact
