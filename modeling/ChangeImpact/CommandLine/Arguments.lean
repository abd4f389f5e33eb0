import ChangeImpact.Text.Search

/-!
# CommandLine.Arguments

Options and arguments of a command.

* `OptionSpec` — an option with its spellings; it is a flag or takes a value.
* `Given`      — what was given: values of options, the last one first, and arguments in order.
* `parse?`     — reads a command line, where options may stand between arguments.
* `parseLeading?` — reads the options in front of the first argument.
-/

namespace ChangeImpact.CommandLine

structure OptionSpec where
  name : String
  spellings : List String
  takesValue : Bool := false

def flag (name : String) (spellings : List String) : OptionSpec := { name, spellings }

def valued (name : String) (spellings : List String) : OptionSpec :=
  { name, spellings, takesValue := true }

structure Given where
  values : List (String × String) := []
  arguments : List String := []

namespace Given

def has (g : Given) (name : String) : Bool := g.values.any fun v => v.1 == name

def value? (g : Given) (name : String) : Option String :=
  (g.values.find? fun v => v.1 == name).map (·.2)

/-- The first of some options in the order in which they were given. -/
def firstOf? (g : Given) (names : List String) : Option String :=
  (g.values.reverse.find? fun v => names.contains v.1).map (·.1)

def add (g : Given) (name value : String) : Given := { g with values := (name, value) :: g.values }

end Given

/-- A word that starts with a dash and is more than that. -/
def isOption (word : String) : Bool :=
  match word.toList with
  | '-' :: _ :: _ => true
  | _ => false

def isLong (word : String) : Bool := Text.startsWith "--" word

def findOption (specs : List OptionSpec) (spelling : String) : Option OptionSpec :=
  specs.find? fun o => o.spellings.contains spelling

/-- The part of a long option before an equals sign and the part after it. -/
def splitValue (word : String) : String × Option String :=
  let cs := word.toList
  let name := cs.takeWhile (· != '=')
  match cs.drop name.length with
  | [] => (word, none)
  | _ :: value => (.ofList name, some (.ofList value))

/-- Reads the letters of a bundle of short options; the rest of the bundle, or else the next word,
is the value of a letter that takes one. -/
def readBundle? (specs : List OptionSpec) : Given → List Char → List String →
    Option (Given × List String)
  | g, [], words => some (g, words)
  | g, c :: cs, words =>
    match findOption specs (.ofList ['-', c]) with
    | none => none
    | some o =>
      if o.takesValue then
        match cs, words with
        | [], [] => none
        | [], value :: words => some (g.add o.name value, words)
        | cs, words => some (g.add o.name (.ofList cs), words)
      else readBundle? specs (g.add o.name "") cs words

def readLong? (specs : List OptionSpec) (g : Given) (word : String) (words : List String) :
    Option (Given × List String) :=
  let (name, inlined) := splitValue word
  match findOption specs name with
  | none => none
  | some o =>
    if o.takesValue then
      match inlined, words with
      | some value, words => some (g.add o.name value, words)
      | none, value :: words => some (g.add o.name value, words)
      | none, [] => none
    else
      match inlined with
      | some _ => none
      | none => some (g.add o.name "", words)

def readOption? (specs : List OptionSpec) (g : Given) (word : String) (words : List String) :
    Option (Given × List String) :=
  if isLong word then readLong? specs g word words
  else readBundle? specs g (word.toList.drop 1) words

/-- Two dashes end the options. The fuel bounds the number of words. -/
def parseFrom? (specs : List OptionSpec) : Nat → Given → List String → Option Given
  | 0, g, words => if words.isEmpty then some g else none
  | _, g, [] => some g
  | fuel + 1, g, word :: words =>
    if word = "--" then some { g with arguments := g.arguments ++ words }
    else if isOption word then
      match readOption? specs g word words with
      | some (g, words) => parseFrom? specs fuel g words
      | none => none
    else parseFrom? specs fuel { g with arguments := g.arguments ++ [word] } words

def parse? (specs : List OptionSpec) (words : List String) : Option Given :=
  parseFrom? specs (words.length + 1) {} words

def parseLeadingFrom? (specs : List OptionSpec) : Nat → Given → List String →
    Option (Given × List String)
  | 0, g, words => some (g, words)
  | _, g, [] => some (g, [])
  | fuel + 1, g, word :: words =>
    if word = "--" then some (g, words)
    else if isOption word then
      match readOption? specs g word words with
      | some (g, words) => parseLeadingFrom? specs fuel g words
      | none => none
    else some (g, word :: words)

/-- The options up to the first argument, and the words from there on. -/
def parseLeading? (specs : List OptionSpec) (words : List String) :
    Option (Given × List String) :=
  parseLeadingFrom? specs (words.length + 1) {} words

end ChangeImpact.CommandLine
