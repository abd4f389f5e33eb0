import ChangeImpact.Document.Value

/-!
# Document.TomlTable

Tables inside tables, reached by paths of keys. In an array of tables a path leads through the
last one.

* `assignAt` — puts a value under a path that is still free.
* `lookup`   — the value under a path.
* `appendAt` — one more table in an array of tables.
-/

namespace ChangeImpact.Toml

abbrev Table := List (String × Value)

/-- Puts a value under a path that is still free, opening the tables on the way. -/
def assignAt : List String → Value → Table → Option Table
  | [], _, _ => none
  | [k], v, fields =>
    match Value.field? k fields with
    | some _ => none
    | none => some (Value.setField k v fields)
  | k :: ks, v, fields =>
    match Value.field? k fields with
    | none => (assignAt ks v []).map fun sub => Value.setField k (.object sub) fields
    | some (.object sub) =>
      (assignAt ks v sub).map fun sub => Value.setField k (.object sub) fields
    | some (.list items) =>
      match items.getLast? with
      | some (.object sub) =>
        (assignAt ks v sub).map fun sub =>
          Value.setField k (.list (items.dropLast ++ [.object sub])) fields
      | _ => none
    | some _ => none

def lookup : List String → Table → Option Value
  | [], _ => none
  | [k], fields => Value.field? k fields
  | k :: ks, fields =>
    match Value.field? k fields with
    | some (.object sub) => lookup ks sub
    | some (.list items) =>
      match items.getLast? with
      | some (.object sub) => lookup ks sub
      | _ => none
    | _ => none

/-- Puts one more table at the end of the array of tables under a path. -/
def appendAt : List String → Table → Option Table
  | [], _ => none
  | [k], fields =>
    match Value.field? k fields with
    | some (.list items) => some (Value.setField k (.list (items ++ [.object []])) fields)
    | _ => none
  | k :: ks, fields =>
    match Value.field? k fields with
    | some (.object sub) =>
      (appendAt ks sub).map fun sub => Value.setField k (.object sub) fields
    | some (.list items) =>
      match items.getLast? with
      | some (.object sub) =>
        (appendAt ks sub).map fun sub =>
          Value.setField k (.list (items.dropLast ++ [.object sub])) fields
      | _ => none
    | _ => none

/-- The paths to the tables above a path. -/
def above : List String → List (List String)
  | [] => []
  | [_] => []
  | k :: ks => [k] :: (above ks).map (k :: ·)

end ChangeImpact.Toml
