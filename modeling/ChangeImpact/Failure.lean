import ChangeImpact.Disk.Fault
import ChangeImpact.Text.Utf8

/-!
# Failure

Everything that can make an operation fail.

* `Failure`, `Failure.message` — the causes, and the message for each.
* `collect`                    — a computation that can fail, on every element of a list.
-/

namespace ChangeImpact

inductive Failure where
  /-- The change type of a new plan is none of the five. -/
  | unsupportedChangeType (word : String)
  /-- Impact is predicted for three kinds of change only. -/
  | unsupportedChangeKind (word : String)
  /-- The word is no member of an ordered vocabulary. -/
  | unlisted (word : String)
  /-- A text that should be a whole number is none. -/
  | notInteger (text : String)
  /-- Not a number has no whole part. -/
  | nanInteger
  /-- An infinity has no whole part. -/
  | infiniteInteger
  | tooFewWorkers
  | invalidPlanId (id : String)
  /-- A path holds the character that ends paths. -/
  | nullInPath
  /-- The file to be changed is not part of the analyzed project. -/
  | targetNotFound (path : String)
  | planNotFound (id : String)
  /-- A step of a plan could not do its work. -/
  | stepFailed (step message : String)
  /-- A directory or a file could not be read while scanning, with the cause if there is one. -/
  | unreadable (path : String) (cause : Option String)
  /-- The other end refused, for a reason of its own. -/
  | refused (message : String)
  /-- A field or a table entry is missing. -/
  | missingKey (key : String)
  /-- A value has not the kind that its place asks for. -/
  | wrongKind
  /-- A value that should have fields has none. -/
  | noFields
  /-- Bytes are not well formed text; the first malformed stretch. -/
  | badEncoding (fault : Option Text.Utf8.Malformed)
  | badJson
  | badToml
  /-- TOML that ends where more of it is needed: the digits of an escape, or the rest of an item
  in quotes. -/
  | tomlCutShort
  /-- A text that is to be written as TOML has no form there. -/
  | noWrittenForm
  | disk (fault : Fault) (path : String)
  deriving DecidableEq, Repr

namespace Failure

open Text.Utf8 in
def encodingMessage (m : Malformed) : String :=
  let place :=
    if m.length ≤ 1 then
      "byte 0x" ++ .ofList (Text.hex 2 m.byte.toNat) ++ " in position " ++ Text.count m.position
    else
      "bytes in position " ++ Text.count m.position ++ "-"
        ++ Text.count (m.position + m.length - 1)
  "'utf-8' codec can't decode " ++ place ++ ": "
    ++ match m.kind with
      | .badStart => "invalid start byte"
      | .badContinuation => "invalid continuation byte"
      | .unfinished => "unexpected end of data"

def message : Failure → String
  | unsupportedChangeType w => "Unsupported change type: " ++ w
  | unsupportedChangeKind w => "Unsupported change kind: " ++ w
  | unlisted w => Text.quote w ++ " is not in list"
  | notInteger t => "invalid literal for int() with base 10: " ++ Text.quote t
  | nanInteger => "cannot convert float NaN to integer"
  | infiniteInteger => "cannot convert float infinity to integer"
  | tooFewWorkers => "max_workers must be at least 1"
  | invalidPlanId id => "Invalid plan id: " ++ Text.quote id
  | nullInPath => "embedded null byte"
  | targetNotFound p => "File not found in dependency graph: " ++ p
  | planNotFound id => "Change plan not found: " ++ id
  | stepFailed step m => step ++ " step failed: " ++ m
  | unreadable p none => "Cannot access " ++ p
  | unreadable p (some cause) => "Cannot access " ++ p ++ ": " ++ cause
  | refused m => m
  | missingKey k => Text.quote k
  | wrongKind => "a value of the wrong kind"
  | noFields => "a value without fields"
  | badEncoding m => (m.map encodingMessage).getD "bytes that are not UTF-8 text"
  | badJson => "text that is not JSON"
  | badToml => "text that is not TOML"
  | tomlCutShort => "text that is only the start of TOML"
  | noWrittenForm => "a text that TOML cannot hold"
  | disk f p => f.message p

end Failure

/-- All results, or the first failure. -/
def collect {α β : Type} (f : α → Except Failure β) : List α → Except Failure (List β)
  | [] => .ok []
  | a :: rest =>
    match f a with
    | .error e => .error e
    | .ok b =>
      match collect f rest with
      | .error e => .error e
      | .ok bs => .ok (b :: bs)

end ChangeImpact
