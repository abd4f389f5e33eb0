import ChangeImpact.Document.Value

/-!
# Document.JsonReader

Reading JSON. `Json.parse?` gives the value of a text that is one JSON value with nothing but
blanks around it. A repeated key keeps its first place and its last value. Control characters
stand in strings only as escapes, and an unpaired surrogate is refused because no text holds it.
-/

namespace ChangeImpact.Json

def isSpace (c : Char) : Bool := c = ' ' || c = '\n' || c = '\r' || c = '\t'

def skipSpace (s : List Char) : List Char := s.dropWhile isSpace

def hexValue? (c : Char) : Option Nat :=
  if '0' ≤ c && c ≤ '9' then some (c.toNat - 0x30)
  else if 'a' ≤ c && c ≤ 'f' then some (c.toNat - 0x57)
  else if 'A' ≤ c && c ≤ 'F' then some (c.toNat - 0x37)
  else none

def hex4? (a b c d : Char) : Option Nat :=
  match hexValue? a, hexValue? b, hexValue? c, hexValue? d with
  | some w, some x, some y, some z => some (((w * 16 + x) * 16 + y) * 16 + z)
  | _, _, _, _ => none

def isHighSurrogate (n : Nat) : Bool := 0xd800 ≤ n && n < 0xdc00

def isLowSurrogate (n : Nat) : Bool := 0xdc00 ≤ n && n < 0xe000

/-- The character of an escape with one letter. -/
def shortEscape? (c : Char) : Option Char :=
  if c = '"' || c = '\\' || c = '/' then some c
  else if c = 'n' then some '\n'
  else if c = 'r' then some '\r'
  else if c = 't' then some '\t'
  else if c = 'f' then some '\x0c'
  else if c = 'b' then some '\x08'
  else none

def consTo (c : Char) : Option (List Char × List Char) → Option (List Char × List Char)
  | some (cs, rest) => some (c :: cs, rest)
  | none => none

/-- The characters of a string up to its closing quote, and what follows the quote. -/
def stringBody? : List Char → Option (List Char × List Char)
  | [] => none
  | '"' :: rest => some ([], rest)
  | '\\' :: 'u' :: a :: b :: c :: d :: rest =>
    match hex4? a b c d with
    | none => none
    | some n =>
      if isHighSurrogate n then
        match rest with
        | '\\' :: 'u' :: e :: f :: g :: h :: rest' =>
          match hex4? e f g h with
          | none => none
          | some m =>
            if isLowSurrogate m then
              consTo (.ofNat (0x10000 + (n - 0xd800) * 0x400 + (m - 0xdc00))) (stringBody? rest')
            else none
        | _ => none
      else if isLowSurrogate n then none
      else consTo (.ofNat n) (stringBody? rest)
  | '\\' :: c :: rest =>
    match shortEscape? c with
    | none => none
    | some e => consTo e (stringBody? rest)
  | c :: rest => if c.toNat < 0x20 then none else consTo c (stringBody? rest)

def isDigit (c : Char) : Bool := '0' ≤ c && c ≤ '9'

def digitsValue (ds : List Char) : Nat := ds.foldl (fun n d => n * 10 + (d.toNat - 0x30)) 0

/-- A nonempty run of digits. -/
def digitRun? (s : List Char) : Option (List Char × List Char) :=
  match s.takeWhile isDigit with
  | [] => none
  | ds => some (ds, s.dropWhile isDigit)

/-- The digits of a whole number: a zero is not followed by more digits. -/
def wholeDigits? : List Char → Option (List Char × List Char)
  | '0' :: rest => some (['0'], rest)
  | s => digitRun? s

/-- The digits after a point, if there are any. -/
def fraction? (s : List Char) : Option (List Char × List Char) :=
  match s with
  | '.' :: rest => digitRun? rest
  | _ => none

/-- The exponent, if there is one. -/
def exponent? (s : List Char) : Option (Int × List Char) :=
  let signed (rest : List Char) : Option (Int × List Char) :=
    match rest with
    | '-' :: rest => (digitRun? rest).map fun (ds, rest) => (-Int.ofNat (digitsValue ds), rest)
    | '+' :: rest => (digitRun? rest).map fun (ds, rest) => (Int.ofNat (digitsValue ds), rest)
    | rest => (digitRun? rest).map fun (ds, rest) => (Int.ofNat (digitsValue ds), rest)
  match s with
  | 'e' :: rest => signed rest
  | 'E' :: rest => signed rest
  | _ => none

/-- A number is a whole number unless a fraction or an exponent follows. -/
def unsigned? (negative : Bool) (s : List Char) : Option (Value × List Char) :=
  match wholeDigits? s with
  | none => none
  | some (ds, rest) =>
    match fraction? rest, exponent? ((fraction? rest).elim rest (·.2)) with
    | none, none =>
      let n := Int.ofNat (digitsValue ds)
      some (.int (if negative then -n else n), rest)
    | some (fs, rest), none =>
      some (.float (.ofDecimal negative (digitsValue (ds ++ fs)) (-Int.ofNat fs.length)), rest)
    | none, some (e, rest) => some (.float (.ofDecimal negative (digitsValue ds) e), rest)
    | some (fs, _), some (e, rest) =>
      some (.float (.ofDecimal negative (digitsValue (ds ++ fs)) (e - Int.ofNat fs.length)), rest)

def scalar? (s : List Char) : Option (Value × List Char) :=
  match s with
  | 'n' :: 'u' :: 'l' :: 'l' :: rest => some (.null, rest)
  | 't' :: 'r' :: 'u' :: 'e' :: rest => some (.bool true, rest)
  | 'f' :: 'a' :: 'l' :: 's' :: 'e' :: rest => some (.bool false, rest)
  | '"' :: rest => (stringBody? rest).map fun (cs, rest) => (.text (.ofList cs), rest)
  | 'N' :: 'a' :: 'N' :: rest => some (.float .nan, rest)
  | 'I' :: 'n' :: 'f' :: 'i' :: 'n' :: 'i' :: 't' :: 'y' :: rest =>
    some (.float (.infinite false), rest)
  | '-' :: 'I' :: 'n' :: 'f' :: 'i' :: 'n' :: 'i' :: 't' :: 'y' :: rest =>
    some (.float (.infinite true), rest)
  | '-' :: rest => unsigned? true rest
  | s => unsigned? false s

mutual

/-- A value at the front of a text, which starts with no blank. The fuel bounds the number of
values and separators, so the length of the text is enough. -/
def value? : Nat → List Char → Option (Value × List Char)
  | 0, _ => none
  | fuel + 1, '[' :: rest =>
    match skipSpace rest with
    | ']' :: rest => some (.list [], rest)
    | rest => (items? fuel rest).map fun (vs, rest) => (.list vs, rest)
  | fuel + 1, '\x7b' :: rest =>
    match skipSpace rest with
    | '\x7d' :: rest => some (.object [], rest)
    | rest =>
      (fields? fuel rest).map fun (fs, rest) =>
        (.object (fs.foldl (fun seen f => Value.setField f.1 f.2 seen) []), rest)
  | _ + 1, s => scalar? s

/-- The items of a list up to its end, one at least. -/
def items? : Nat → List Char → Option (List Value × List Char)
  | 0, _ => none
  | fuel + 1, s =>
    match value? fuel s with
    | none => none
    | some (v, rest) =>
      match skipSpace rest with
      | ']' :: rest => some ([v], rest)
      | ',' :: rest =>
        match items? fuel (skipSpace rest) with
        | none => none
        | some (vs, rest) => some (v :: vs, rest)
      | _ => none

/-- The fields of an object up to its end, one at least. -/
def fields? : Nat → List Char → Option (List (String × Value) × List Char)
  | 0, _ => none
  | fuel + 1, '"' :: s =>
    match stringBody? s with
    | none => none
    | some (key, rest) =>
      match skipSpace rest with
      | ':' :: rest =>
        match value? fuel (skipSpace rest) with
        | none => none
        | some (v, rest) =>
          match skipSpace rest with
          | '\x7d' :: rest => some ([(.ofList key, v)], rest)
          | ',' :: rest =>
            match fields? fuel (skipSpace rest) with
            | none => none
            | some (fs, rest) => some ((.ofList key, v) :: fs, rest)
          | _ => none
      | _ => none
  | _ + 1, _ => none

end

def parse? (text : String) : Option Value :=
  let s := text.toList
  match value? (s.length + 1) (skipSpace s) with
  | some (v, rest) => if (skipSpace rest).isEmpty then some v else none
  | none => none

end ChangeImpact.Json
