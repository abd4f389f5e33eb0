import ChangeImpact.Keyed
import ChangeImpact.Label

/-!
# Record.Basic

What is known of one source file.

* `ImportEdge`, `ExportSymbol` — what its text brings in and gives out.
* `Impact`                     — how a change elsewhere reaches a file.
* `FileRecord`                 — the file with its edges in the dependency graph and its risk.
* `FileMap`                    — the files of a project, in the order in which they were found.
-/

namespace ChangeImpact

inductive SpecifierKind where
  | relative
  | absolute
  | package
  deriving DecidableEq, Repr

instance : Vocabulary SpecifierKind where
  all := [.relative, .absolute, .package]
  word
    | .relative => "relative"
    | .absolute => "absolute"
    | .package => "package"

inductive ExportKind where
  | functionDecl
  | classDecl
  | interfaceDecl
  | typeDecl
  | constDecl
  | letDecl
  | varDecl
  deriving DecidableEq, Repr

instance : Vocabulary ExportKind where
  all := [.functionDecl, .classDecl, .interfaceDecl, .typeDecl, .constDecl, .letDecl, .varDecl]
  word
    | .functionDecl => "function"
    | .classDecl => "class"
    | .interfaceDecl => "interface"
    | .typeDecl => "type"
    | .constDecl => "const"
    | .letDecl => "let"
    | .varDecl => "var"

inductive RiskLevel where
  | low
  | medium
  | high
  | critical
  deriving DecidableEq, Repr

instance : Vocabulary RiskLevel where
  all := [.low, .medium, .high, .critical]
  word
    | .low => "low"
    | .medium => "medium"
    | .high => "high"
    | .critical => "critical"

inductive ImpactType where
  | breaking
  | nonBreaking
  | undecided
  deriving DecidableEq, Repr

instance : Vocabulary ImpactType where
  all := [.breaking, .nonBreaking, .undecided]
  word
    | .breaking => "breaking"
    | .nonBreaking => "non-breaking"
    | .undecided => "unknown"

structure ImportEdge where
  fromPath : String
  specifier : String
  kind : Label SpecifierKind
  line : Int
  symbols : List String := []
  resolved : Option String := none
  deriving DecidableEq, Repr

structure ExportSymbol where
  name : String
  kind : Label ExportKind
  line : Int
  isDefault : Bool := false
  deriving DecidableEq, Repr

structure Impact where
  file : String
  type : Label ImpactType
  description : String
  severity : Label RiskLevel
  deriving DecidableEq, Repr

structure FileRecord where
  path : String
  imports : List ImportEdge := []
  exports : List ExportSymbol := []
  dependencies : List String := []
  dependents : List String := []
  risk : Label RiskLevel := .known .low
  impacts : List Impact := []
  deriving DecidableEq, Repr

def FileRecord.fanIn (r : FileRecord) : Nat := r.dependents.length

def FileRecord.fanOut (r : FileRecord) : Nat := r.dependencies.length

abbrev FileMap := Keyed FileRecord

/-- The files that impacts name, each once, in the order of their first mention. -/
def affectedFiles (impacts : List Impact) : List String := (impacts.map (·.file)).eraseDups

end ChangeImpact
