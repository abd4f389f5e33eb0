import ChangeImpact.Export.Dot

/-!
# Proofs.Export.DotReader

A reader of directed graphs in the DOT language.

* `feed`    — a machine that reads its input piece by piece and gives out what it has read.
* `lexStep` — characters into tokens. Of the quotes in a quoted name, those behind a backslash are
  part of the name, and the first other one ends it.
* `parseStep` — tokens into statements.
* `read`    — the statements of a text that is one graph.
* `step_goesOn`, `step_isAbout` — a name that goes on too long stays too long, and a statement is
  about the name that it began with.
-/

namespace ChangeImpact.Dot

/-! ## Machines -/

section Machines

variable {σ α β : Type} {step : σ → α → Option (List β × σ)}

/-- The state after some input, with what was given out on the way. -/
def feed (step : σ → α → Option (List β × σ)) : σ → List α → Option (List β × σ)
  | s, [] => some ([], s)
  | s, a :: rest =>
    match step s a with
    | none => none
    | some (out, t) => (feed step t rest).map fun (more, u) => (out ++ more, u)

theorem feed_append {s t : σ} {a : List α} {out : List β} (h : feed step s a = some (out, t))
    (b : List α) :
    feed step s (a ++ b) = (feed step t b).map fun (more, u) => (out ++ more, u) := by
  induction a generalizing s out with
  | nil =>
    obtain ⟨rfl, rfl⟩ := Prod.mk.inj (Option.some.inj h)
    simp
  | cons x a ih =>
    rw [feed] at h
    rw [List.cons_append, feed]
    cases hx : step s x with
    | none =>
      rw [hx] at h
      cases h
    | some next =>
      obtain ⟨first, s'⟩ := next
      rw [hx] at h
      obtain ⟨⟨more, t'⟩, hmore, heq⟩ := Option.map_eq_some_iff.mp h
      obtain ⟨rfl, rfl⟩ := Prod.mk.inj heq
      simp [ih hmore, Function.comp_def]

/-- Two pieces of input, each with what it gives. -/
theorem feed_two {s t u : σ} {a b : List α} {out more : List β}
    (ha : feed step s a = some (out, t)) (hb : feed step t b = some (more, u)) :
    feed step s (a ++ b) = some (out ++ more, u) := by
  rw [feed_append ha, hb]
  rfl

theorem feed_flatMap {γ : Type} {s : σ} {xs : List γ} {f : γ → List α} {g : γ → List β}
    (h : ∀ x ∈ xs, feed step s (f x) = some (g x, s)) :
    feed step s (xs.flatMap f) = some (xs.flatMap g, s) := by
  induction xs with
  | nil => rfl
  | cons x xs ih =>
    rw [List.forall_mem_cons] at h
    rw [List.flatMap_cons, List.flatMap_cons]
    exact feed_two h.1 (ih h.2)

/-- A machine that keeps to `I` until it gives something out gives a `Q` out first. -/
theorem feed_first {I : σ → Prop} {Q : β → Prop}
    (hstep : ∀ {s a out t}, I s → step s a = some (out, t) →
      (out = [] ∧ I t) ∨ ∃ b rest, out = b :: rest ∧ Q b)
    {s t : σ} {as : List α} {out : List β} (hs : I s) (h : feed step s as = some (out, t)) :
    (out = [] ∧ I t) ∨ ∃ b rest, out = b :: rest ∧ Q b := by
  induction as generalizing s out with
  | nil =>
    cases h
    exact .inl ⟨rfl, hs⟩
  | cons a as ih =>
    rw [feed] at h
    cases hnext : step s a with
    | none =>
      rw [hnext] at h
      cases h
    | some next =>
      obtain ⟨first, s'⟩ := next
      rw [hnext] at h
      obtain ⟨⟨more, _⟩, hmore, heq⟩ := Option.map_eq_some_iff.mp h
      cases heq
      rcases hstep hs hnext with ⟨rfl, hs'⟩ | ⟨b, rest, rfl, hb⟩
      · exact ih hs' hmore
      · exact .inr ⟨b, rest ++ more, rfl, hb⟩

end Machines

/-! ## Tokens -/

inductive Token where
  | word (text : String)
  | name (text : String)
  | mark (c : Char)
  | arrow
  deriving DecidableEq, Repr

/-- What the lexer is in the middle of. -/
inductive Mode where
  | between
  | word (sofar : List Char)
  | name (sofar : List Char)
  | dash
  deriving DecidableEq, Repr

def isSpace (c : Char) : Bool := c = ' ' || c = '\n' || c = '\r' || c = '\t'

def isMark (c : Char) : Bool := "\x7b\x7d[]=,;".toList.contains c

def isWordChar (c : Char) : Bool := c.isAlphanum || c = '_' || 0x80 ≤ c.toNat

def lexStart (c : Char) : Option (List Token × Mode) :=
  if isSpace c then some ([], .between)
  else if c = '"' then some ([], .name [])
  else if c = '-' then some ([], .dash)
  else if isMark c then some ([.mark c], .between)
  else if isWordChar c then some ([], .word [c])
  else none

def lexStep : Mode → Char → Option (List Token × Mode)
  | .between, c => lexStart c
  | .word s, c =>
    if isWordChar c then some ([], .word (s ++ [c]))
    else (lexStart c).map fun (out, m) => (.word (.ofList s) :: out, m)
  | .name s, c =>
    if c = '"' then
      if s.getLast? = some '\\' then some ([], .name (s.dropLast ++ ['"']))
      else some ([.name (.ofList s)], .between)
    else some ([], .name (s ++ [c]))
  | .dash, c => if c = '>' then some ([.arrow], .between) else none

/-- A word can end with the text, a quoted name cannot. -/
def tokens? (text : String) : Option (List Token) :=
  match feed lexStep .between text.toList with
  | some (ts, .between) => some ts
  | some (ts, .word s) => some (ts ++ [.word (.ofList s)])
  | _ => none

/-! ## Statements -/

inductive Subject where
  | graph (name : String)
  | setting (key value : String)
  | defaults (kind : String)
  | node (name : String)
  | edge (source target : String)
  deriving DecidableEq, Repr

/-- A statement, or the head of the graph. -/
structure Statement where
  subject : Subject
  attributes : List (String × String) := []
  deriving DecidableEq, Repr

/-- What the parser has seen of a statement. -/
inductive Place where
  | outside
  | titled
  | headed (name : String)
  | between
  | named (name : String)
  | assigned (key : String)
  | pointed (source : String)
  | about (s : Subject)
  | inList (s : Statement)
  | keyed (s : Statement) (key : String)
  | valued (s : Statement) (key : String)
  | listed (s : Statement)
  | closed
  deriving DecidableEq, Repr

def kinds : List String := ["graph", "node", "edge"]

def keywords : List String := kinds ++ ["digraph", "subgraph", "strict"]

def Token.id? : Token → Option String
  | .word w => if keywords.contains w then none else some w
  | .name s => some s
  | _ => none

def parseStart (t : Token) : Option (List Statement × Place) :=
  match t with
  | .mark ';' => some ([], .between)
  | .mark '\x7d' => some ([], .closed)
  | .word w =>
    if kinds.contains w then some ([], .about (.defaults w))
    else t.id?.map fun id => ([], .named id)
  | t => t.id?.map fun id => ([], .named id)

/-- The statement is over, whether a semicolon says so or the next one begins. -/
def endWith (s : Statement) (t : Token) : Option (List Statement × Place) :=
  (parseStart t).map fun (out, p) => (s :: out, p)

def parseStep : Place → Token → Option (List Statement × Place)
  | .outside, t => if t = .word "digraph" then some ([], .titled) else none
  | .titled, t => t.id?.map fun id => ([], .headed id)
  | .headed name, t =>
    if t = .mark '\x7b' then some ([{ subject := .graph name }], .between) else none
  | .between, t => parseStart t
  | .named a, t =>
    match t with
    | .mark '=' => some ([], .assigned a)
    | .mark '[' => some ([], .inList { subject := .node a })
    | .arrow => some ([], .pointed a)
    | t => endWith { subject := .node a } t
  | .assigned key, t => t.id?.map fun v => ([{ subject := .setting key v }], .between)
  | .pointed a, t => t.id?.map fun b => ([], .about (.edge a b))
  | .about s, t =>
    if t = .mark '[' then some ([], .inList { subject := s }) else endWith { subject := s } t
  | .inList s, t =>
    if t = .mark ']' then some ([s], .between) else t.id?.map fun key => ([], .keyed s key)
  | .keyed s key, t => if t = .mark '=' then some ([], .valued s key) else none
  | .valued s key, t =>
    t.id?.map fun v => ([], .listed { s with attributes := s.attributes ++ [(key, v)] })
  | .listed s, t =>
    match t with
    | .mark ',' => some ([], .inList s)
    | .mark ';' => some ([], .inList s)
    | .mark ']' => some ([s], .between)
    | t => t.id?.map fun key => ([], .keyed s key)
  | .closed, _ => none

/-- The statements of one directed graph with nothing after it. -/
def read (text : String) : Option (List Statement) :=
  match tokens? text with
  | none => none
  | some ts =>
    match feed parseStep .outside ts with
    | some (ss, .closed) => some ss
    | _ => none

/-! ## Quoted names -/

theorem feed_escaped (s sofar : List Char) :
    feed lexStep (.name sofar) (s.flatMap fun c => if c = '"' then ['\\', '"'] else [c]) =
      some ([], .name (sofar ++ s)) := by
  induction s generalizing sofar with
  | nil => simp [feed]
  | cons c s ih =>
    rw [List.flatMap_cons, show sofar ++ c :: s = (sofar ++ [c]) ++ s by simp]
    have hhead : feed lexStep (.name sofar) (if c = '"' then ['\\', '"'] else [c]) =
        some ([], .name (sofar ++ [c])) := by
      by_cases hc : c = '"'
      · subst hc
        simp [feed, lexStep]
      · simp [feed, lexStep, hc]
    exact feed_two hhead (ih (sofar ++ [c]))

theorem toList_dotName (s : String) : (Export.dotName s).toList =
    '"' :: ((s.toList.flatMap fun c => if c = '"' then ['\\', '"'] else [c]) ++ ['"']) := by
  simp [Export.dotName, Export.escapeQuotes]

/-- The quote that should end a name, and where it does not. -/
theorem feed_dotName (s : String) : feed lexStep .between (Export.dotName s).toList =
    if s.toList.getLast? = some '\\' then some ([], .name (s.toList.dropLast ++ ['"']))
    else some ([.name s], .between) := by
  have hbody := feed_escaped s.toList []
  rw [List.nil_append] at hbody
  have hopen : feed lexStep .between ['"'] = some ([], .name []) := rfl
  rw [toList_dotName, ← List.singleton_append, feed_append hopen, feed_append hbody]
  by_cases hs : s.toList.getLast? = some '\\' <;> simp [feed, lexStep, hs]

/-- A name is being read, and it goes on from `q`. -/
def GoesOn (q : List Char) (m : Mode) : Prop := ∃ w, m = .name w ∧ q <+: w

def NamedFrom (q : List Char) (t : Token) : Prop := ∃ w, t = .name (.ofList w) ∧ q <+: w

theorem step_goesOn {q : List Char} (hq : q.getLast? ≠ some '\\') {m m' : Mode}
    (hm : GoesOn q m) {c : Char} {out : List Token} (h : lexStep m c = some (out, m')) :
    (out = [] ∧ GoesOn q m') ∨ ∃ t rest, out = t :: rest ∧ NamedFrom q t := by
  obtain ⟨w, rfl, hw⟩ := hm
  rw [lexStep] at h
  split at h
  · split at h
    · next hlast =>
      cases h
      -- The backslash that is taken back is none of the characters of `q`.
      have hdrop : q <+: w.dropLast := by
        obtain ⟨t, rfl⟩ := hw
        have ht : t ≠ [] := by
          rintro rfl
          exact hq (by simpa using hlast)
        rw [List.dropLast_append_of_ne_nil ht]
        exact List.prefix_append q _
      exact .inl ⟨rfl, _, rfl, hdrop.trans (List.prefix_append _ _)⟩
    · cases h
      exact .inr ⟨_, [], rfl, w, rfl, hw⟩
  · cases h
    exact .inl ⟨rfl, _, rfl, hw.trans (List.prefix_append _ _)⟩

/-! ## What a statement is about -/

def Subject.first : Subject → String
  | .graph name => name
  | .setting key _ => key
  | .defaults kind => kind
  | .node name => name
  | .edge source _ => source

/-- The name that the statement under way began with. -/
def Place.first? : Place → Option String
  | .named a => some a
  | .assigned a => some a
  | .pointed a => some a
  | .about s => some s.first
  | .inList s => some s.subject.first
  | .keyed s _ => some s.subject.first
  | .valued s _ => some s.subject.first
  | .listed s => some s.subject.first
  | _ => none

theorem endWith_eq_some {s : Statement} {t : Token} {out : List Statement} {p : Place}
    (h : endWith s t = some (out, p)) : ∃ rest, out = s :: rest := by
  obtain ⟨⟨rest, _⟩, _, heq⟩ := Option.map_eq_some_iff.mp h
  cases heq
  exact ⟨rest, rfl⟩

def Place.IsAbout (x : String) (p : Place) : Prop := p.first? = some x

def Statement.IsAbout (x : String) (s : Statement) : Prop := s.subject.first = x

theorem step_isAbout {p p' : Place} {x : String} (hp : p.IsAbout x) {t : Token}
    {out : List Statement} (h : parseStep p t = some (out, p')) :
    (out = [] ∧ p'.IsAbout x) ∨ ∃ s rest, out = s :: rest ∧ s.IsAbout x := by
  cases p with
  | outside => cases hp
  | titled => cases hp
  | headed => cases hp
  | between => cases hp
  | closed => cases hp
  | named a =>
    cases hp
    simp only [parseStep] at h
    split at h
    · cases h
      exact .inl ⟨rfl, rfl⟩
    · cases h
      exact .inl ⟨rfl, rfl⟩
    · cases h
      exact .inl ⟨rfl, rfl⟩
    · obtain ⟨rest, rfl⟩ := endWith_eq_some h
      exact .inr ⟨_, rest, rfl, rfl⟩
  | assigned key =>
    cases hp
    obtain ⟨v, _, heq⟩ := Option.map_eq_some_iff.mp h
    cases heq
    exact .inr ⟨_, [], rfl, rfl⟩
  | pointed a =>
    cases hp
    obtain ⟨b, _, heq⟩ := Option.map_eq_some_iff.mp h
    cases heq
    exact .inl ⟨rfl, rfl⟩
  | about s =>
    cases hp
    simp only [parseStep] at h
    split at h
    · cases h
      exact .inl ⟨rfl, rfl⟩
    · obtain ⟨rest, rfl⟩ := endWith_eq_some h
      exact .inr ⟨_, rest, rfl, rfl⟩
  | inList s =>
    cases hp
    simp only [parseStep] at h
    split at h
    · cases h
      exact .inr ⟨s, [], rfl, rfl⟩
    · obtain ⟨key, _, heq⟩ := Option.map_eq_some_iff.mp h
      cases heq
      exact .inl ⟨rfl, rfl⟩
  | keyed s key =>
    cases hp
    simp only [parseStep] at h
    split at h
    · cases h
      exact .inl ⟨rfl, rfl⟩
    · cases h
  | valued s key =>
    cases hp
    obtain ⟨v, _, heq⟩ := Option.map_eq_some_iff.mp h
    cases heq
    exact .inl ⟨rfl, rfl⟩
  | listed s =>
    cases hp
    simp only [parseStep] at h
    split at h
    · cases h
      exact .inl ⟨rfl, rfl⟩
    · cases h
      exact .inl ⟨rfl, rfl⟩
    · cases h
      exact .inr ⟨s, [], rfl, rfl⟩
    · obtain ⟨key, _, heq⟩ := Option.map_eq_some_iff.mp h
      cases heq
      exact .inl ⟨rfl, rfl⟩

end ChangeImpact.Dot
