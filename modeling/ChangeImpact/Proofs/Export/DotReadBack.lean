import ChangeImpact.Proofs.Export.DotReader
import ChangeImpact.Proofs.Export.Selection

/-!
# Proofs.Export.DotReadBack

The graph of an analyzed project, read back from its text in the DOT language.

* `feed_nodeLine`, `parse_node` — the tokens of a line, and the statement that they make.
* `read_textOf`     — names that close are read back, each in the statement of its line.
* `closes_of_read`  — a name that does not close is not read back.
* `dot_reads_back`  — every export has a text, and it reads as one statement for each node and edge
  that was selected, just in case that no selected path ends in a backslash.
-/

namespace ChangeImpact.Dot

open Export

/-! ## Lines and their statements -/

/-- Nothing behind the path takes its closing quote away. -/
def Closes (path : String) : Prop := path.toList.getLast? ≠ some '\\'

instance (path : String) : Decidable (Closes path) := inferInstanceAs (Decidable (¬ _))

def label (path : String) (level : RiskLevel) : String :=
  path ++ "\\n" ++ Vocabulary.word level

def nodeLine (path : String) (level : RiskLevel) : String :=
  "  " ++ dotName path ++ " [label=" ++ dotName (label path level) ++ ", fillcolor=\""
    ++ level.colour ++ "\"];"

def graphHead : List Statement := [
  { subject := .graph "Dependencies" },
  { subject := .setting "rankdir" "LR" },
  { subject := .defaults "node", attributes := [("shape", "box"), ("style", "filled")] }]

def nodeStatement (path : String) (level : RiskLevel) : Statement where
  subject := .node path
  attributes := [("label", label path level), ("fillcolor", level.colour)]

def edgeStatement (e : String × String) : Statement where
  subject := .edge e.1 e.2

def headTokens : List Token := [
  .word "digraph", .word "Dependencies", .mark '\x7b',
  .word "rankdir", .mark '=', .word "LR", .mark ';',
  .word "node", .mark '[', .word "shape", .mark '=', .word "box", .mark ',', .word "style",
  .mark '=', .word "filled", .mark ']', .mark ';']

/-- The tokens of a node after its name. -/
def nodeRest (path : String) (level : RiskLevel) : List Token := [
  .mark '[', .word "label", .mark '=', .name (label path level), .mark ',',
  .word "fillcolor", .mark '=', .name level.colour, .mark ']', .mark ';']

def edgeTokens (e : String × String) : List Token := [.name e.1, .arrow, .name e.2, .mark ';']

def ended (line : String) : List Char := line.toList ++ ['\n']

theorem feed_name {path : String} (h : Closes path) :
    feed lexStep .between (dotName path).toList = some ([.name path], .between) := by
  rw [feed_dotName, if_neg h]

/-- The label of a node ends in its risk, so its quotes are in order in any case. -/
theorem closes_label (path : String) (level : RiskLevel) : Closes (label path level) := by
  have hlast : (Vocabulary.word level).toList.getLast? ≠ some '\\' ∧
      (Vocabulary.word level).toList ≠ [] := by
    cases level <;> decide
  rw [Closes, label, String.toList_append, List.getLast?_append_of_ne_nil _ hlast.2]
  exact hlast.1

theorem feed_nodeRest (path : String) (level : RiskLevel) :
    feed lexStep .between (" [label=".toList ++ (dotName (label path level)).toList
      ++ (", fillcolor=\"" ++ level.colour ++ "\"];").toList ++ ['\n']) =
      some (nodeRest path level, .between) := by
  have hopen : feed lexStep .between " [label=".toList =
      some ([.mark '[', .word "label", .mark '='], .between) := by decide
  have hcolour : feed lexStep .between ((", fillcolor=\"" ++ level.colour ++ "\"];").toList
      ++ ['\n']) = some ([.mark ',', .word "fillcolor", .mark '=', .name level.colour, .mark ']',
        .mark ';'], .between) := by
    cases level <;> decide
  rw [List.append_assoc]
  exact feed_two (feed_two hopen (feed_name (closes_label path level))) hcolour

theorem ended_nodeLine (path : String) (level : RiskLevel) : ended (nodeLine path level) =
    "  ".toList ++ (dotName path).toList ++ (" [label=".toList
      ++ (dotName (label path level)).toList
      ++ (", fillcolor=\"" ++ level.colour ++ "\"];").toList ++ ['\n']) := by
  simp [ended, nodeLine]

theorem feed_margin : feed lexStep .between "  ".toList = some ([], .between) := by decide

theorem feed_nodeLine {path : String} (h : Closes path) (level : RiskLevel) :
    feed lexStep .between (ended (nodeLine path level)) =
      some (.name path :: nodeRest path level, .between) := by
  rw [ended_nodeLine]
  exact feed_two (feed_two feed_margin (feed_name h)) (feed_nodeRest path level)

theorem feed_edgeLine {e : String × String} (hsource : Closes e.1) (htarget : Closes e.2) :
    feed lexStep .between (ended (dotEdge e)) = some (edgeTokens e, .between) := by
  have harrow : feed lexStep .between " -> ".toList = some ([.arrow], .between) := by decide
  have hend : feed lexStep .between (";".toList ++ ['\n']) = some ([.mark ';'], .between) := by
    decide
  have hline : ended (dotEdge e) = "  ".toList ++ (dotName e.1).toList ++ " -> ".toList
      ++ (dotName e.2).toList ++ (";".toList ++ ['\n']) := by
    simp [ended, dotEdge]
  rw [hline]
  exact feed_two (feed_two (feed_two (feed_two feed_margin (feed_name hsource)) harrow)
    (feed_name htarget)) hend

theorem feed_head : feed lexStep .between (dotHeader.flatMap ended) =
    some (headTokens, .between) := by
  decide +kernel

theorem parse_head : feed parseStep .outside headTokens = some (graphHead, .between) := by
  decide +kernel

theorem parse_node (path : String) (level : RiskLevel) :
    feed parseStep .between (.name path :: nodeRest path level) =
      some ([nodeStatement path level], .between) := rfl

theorem parse_edge (e : String × String) :
    feed parseStep .between (edgeTokens e) = some ([edgeStatement e], .between) := rfl

/-! ## Whole texts -/

theorem toList_intercalate_ended (lines : List String) (last : String) :
    (String.intercalate "\n" (lines ++ [last])).toList = lines.flatMap ended ++ last.toList := by
  rw [String.toList_intercalate, List.map_append, List.map_singleton]
  induction lines with
  | nil => exact List.intercalate_singleton
  | cons line lines ih =>
    have hne : lines.map String.toList ++ [last.toList] ≠ [] := by simp
    obtain ⟨next, rest, hrest⟩ := List.exists_cons_of_ne_nil hne
    rw [hrest] at ih
    rw [List.map_cons, List.cons_append, hrest, List.intercalate_cons_cons, ih, List.flatMap_cons,
      ended]
    simp

section Text

variable (nodes : List String) (level : String → RiskLevel) (edges : List (String × String))

def textOf : String :=
  String.intercalate "\n" (dotHeader ++ nodes.map (fun p => nodeLine p (level p))
    ++ edges.map dotEdge ++ ["\x7d"])

def statementsOf : List Statement :=
  graphHead ++ nodes.map (fun p => nodeStatement p (level p)) ++ edges.map edgeStatement

theorem toList_textOf : (textOf nodes level edges).toList =
    dotHeader.flatMap ended ++ nodes.flatMap (fun p => ended (nodeLine p (level p)))
      ++ edges.flatMap (fun e => ended (dotEdge e)) ++ ['\x7d'] := by
  rw [textOf, toList_intercalate_ended, List.flatMap_append, List.flatMap_append,
    List.flatMap_map, List.flatMap_map]
  rfl

variable {nodes edges}

theorem feed_nodes (h : ∀ p ∈ nodes, Closes p) :
    feed lexStep .between
        (dotHeader.flatMap ended ++ nodes.flatMap fun p => ended (nodeLine p (level p))) =
      some (headTokens ++ nodes.flatMap fun p => .name p :: nodeRest p (level p), .between) :=
  feed_two feed_head (feed_flatMap fun p hp => feed_nodeLine (h p hp) (level p))

theorem parse_nodes (nodes : List String) :
    feed parseStep .outside
        (headTokens ++ nodes.flatMap fun p => .name p :: nodeRest p (level p)) =
      some (graphHead ++ nodes.map (fun p => nodeStatement p (level p)), .between) := by
  rw [List.map_eq_flatMap]
  exact feed_two parse_head (feed_flatMap fun p _ => parse_node p (level p))

theorem read_textOf (hnodes : ∀ p ∈ nodes, Closes p)
    (hedges : ∀ e ∈ edges, e.1 ∈ nodes ∧ e.2 ∈ nodes) :
    read (textOf nodes level edges) = some (statementsOf nodes level edges) := by
  have hclose : feed lexStep .between ['\x7d'] = some ([.mark '\x7d'], .between) := by decide
  have hclosed : feed parseStep .between [.mark '\x7d'] = some ([], .closed) := by decide
  have htokens := feed_two (feed_two (feed_nodes level hnodes) (feed_flatMap fun e he =>
    feed_edgeLine (hnodes e.1 (hedges e he).1) (hnodes e.2 (hedges e he).2))) hclose
  have hparse := feed_two (feed_two (parse_nodes level nodes)
    (feed_flatMap fun e (_ : e ∈ edges) => parse_edge e)) hclosed
  rw [List.append_nil, ← List.map_eq_flatMap] at hparse
  rw [← toList_textOf] at htokens
  simp only [read, tokens?, htokens, hparse]
  rfl

theorem exists_of_read {text : String} {ss : List Statement} (h : read text = some ss) :
    ∃ ts m last, feed lexStep .between text.toList = some (ts, m) ∧ (∀ w, m ≠ .name w) ∧
      feed parseStep .outside (ts ++ last) = some (ss, .closed) := by
  rw [read] at h
  split at h
  · cases h
  · next all hall =>
    have hparse : feed parseStep .outside all = some (ss, .closed) := by
      split at h
      · next hfeed =>
        cases h
        exact hfeed
      · cases h
    rw [tokens?] at hall
    split at hall
    · next hfeed =>
      cases hall
      exact ⟨_, _, [], hfeed, by simp, by simpa using hparse⟩
    · next hfeed =>
      cases hall
      exact ⟨_, _, _, hfeed, by simp, hparse⟩
    · cases hall

theorem ne_of_namedFrom {path : String} (h : ¬ Closes path) {w : List Char}
    (hw : path.toList.dropLast ++ ['"'] <+: w) : String.ofList w ≠ path := by
  rintro rfl
  rw [Closes, not_not, String.toList_ofList] at h
  rw [String.toList_ofList] at hw
  obtain ⟨init, rfl⟩ := List.getLast?_eq_some_iff.mp h
  rw [List.dropLast_concat] at hw
  have hsame := hw.eq_of_length (by simp)
  simp at hsame

/-- What is read of a name that does not close goes on, and is another name. -/
theorem name_of_unclosed {path : String} (hpath : ¬ Closes path) {after : List Char}
    {ts : List Token} {m : Mode} (hm : ∀ w, m ≠ .name w)
    (h : feed lexStep .between ("  ".toList ++ (dotName path).toList ++ after) = some (ts, m)) :
    ∃ name rest, ts = .name name :: rest ∧ name ≠ path := by
  have hopen : feed lexStep .between ("  ".toList ++ (dotName path).toList) =
      some ([], .name (path.toList.dropLast ++ ['"'])) := by
    refine feed_two feed_margin ?_
    rw [feed_dotName, if_pos (not_not.mp hpath)]
  rw [feed_append hopen] at h
  obtain ⟨⟨more, _⟩, hmore, heq⟩ := Option.map_eq_some_iff.mp h
  cases heq
  have hgoes : GoesOn (path.toList.dropLast ++ ['"']) (.name (path.toList.dropLast ++ ['"'])) :=
    ⟨_, rfl, List.prefix_refl _⟩
  have hquote : (path.toList.dropLast ++ ['"']).getLast? ≠ some '\\' := by simp
  rcases feed_first (fun hm hstep => step_goesOn hquote hm hstep) hgoes hmore with
    ⟨_, w, hw, _⟩ | ⟨_, rest, rfl, w, rfl, hw⟩
  · exact absurd hw (hm w)
  · exact ⟨_, rest, rfl, ne_of_namedFrom hpath hw⟩

/-- The statement that begins with a name is about it. -/
theorem statement_of_name {name : String} {rest : List Token} {ss : List Statement}
    (h : feed parseStep .between (.name name :: rest) = some (ss, .closed)) :
    ∃ s more, ss = s :: more ∧ s.IsAbout name := by
  rw [feed] at h
  obtain ⟨⟨out, _⟩, hout, heq⟩ := Option.map_eq_some_iff.mp h
  cases heq
  have habout : (Place.named name).IsAbout name := rfl
  rcases feed_first (fun hp hstep => step_isAbout hp hstep) habout hout with
    ⟨_, hclosed⟩ | ⟨s, more, rfl, hs⟩
  · cases hclosed
  · exact ⟨s, more, rfl, hs⟩

/-- A name that does not close takes the place of the node that it should be. -/
theorem read_textOf_unclosed {before after : List String} {path : String}
    (hbefore : ∀ p ∈ before, Closes p) (hpath : ¬ Closes path) {ss : List Statement}
    (h : read (textOf (before ++ path :: after) level edges) = some ss) :
    ∃ s more, ss = graphHead ++ before.map (fun p => nodeStatement p (level p)) ++ s :: more ∧
      s.subject.first ≠ path := by
  obtain ⟨ts, m, last, htokens, hmode, hparse⟩ := exists_of_read h
  have hsplit : ∃ after', (textOf (before ++ path :: after) level edges).toList =
      dotHeader.flatMap ended ++ before.flatMap (fun p => ended (nodeLine p (level p)))
        ++ ("  ".toList ++ (dotName path).toList ++ after') := by
    rw [toList_textOf, List.flatMap_append, List.flatMap_cons, ended_nodeLine]
    simp only [List.append_assoc]
    exact ⟨_, rfl⟩
  obtain ⟨after', hafter⟩ := hsplit
  rw [hafter, feed_append (feed_nodes level hbefore)] at htokens
  obtain ⟨⟨more, _⟩, hmore, heq⟩ := Option.map_eq_some_iff.mp htokens
  cases heq
  obtain ⟨name, rest, rfl, hname⟩ := name_of_unclosed hpath hmode hmore
  rw [List.append_assoc, feed_append (parse_nodes level before)] at hparse
  obtain ⟨⟨out, _⟩, hout, heq⟩ := Option.map_eq_some_iff.mp hparse
  cases heq
  obtain ⟨s, more, rfl, hs⟩ := statement_of_name hout
  exact ⟨s, more, rfl, fun he => hname (hs.symm.trans he)⟩

end Text

theorem exists_first_not {α : Type} {p : α → Prop} [DecidablePred p] {as : List α}
    (h : ¬ ∀ a ∈ as, p a) : ∃ before a after, as = before ++ a :: after ∧
      (∀ b ∈ before, p b) ∧ ¬ p a := by
  induction as with
  | nil => exact absurd (by simp) h
  | cons a as ih =>
    by_cases ha : p a
    · have hrest : ¬ ∀ b ∈ as, p b := fun hall => h (List.forall_mem_cons.mpr ⟨ha, hall⟩)
      obtain ⟨before, b, after, rfl, hbefore, hb⟩ := ih hrest
      exact ⟨a :: before, b, after, rfl, List.forall_mem_cons.mpr ⟨ha, hbefore⟩, hb⟩
    · exact ⟨[], a, as, rfl, by simp, ha⟩

/-- What reads as statements about some paths, whatever their risk, closes all of them. -/
theorem closes_of_read {nodes : List String} {level level' : String → RiskLevel}
    {edges : List (String × String)}
    (h : read (textOf nodes level edges) = some (statementsOf nodes level' edges)) :
    ∀ p ∈ nodes, Closes p := by
  by_contra hnot
  obtain ⟨before, path, after, rfl, hbefore, hpath⟩ := exists_first_not hnot
  obtain ⟨s, more, hss, hs⟩ := read_textOf_unclosed level hbefore hpath h
  rw [statementsOf, List.map_append, List.map_cons, ← List.append_assoc, List.append_assoc,
    List.cons_append] at hss
  have hnext := (List.append_inj hss (by simp)).2
  exact hs ((List.cons.inj hnext).1 ▸ rfl)

/-! ## Exports -/

theorem dot_of_shown {files : FileMap} {focus : String} {level : String → RiskLevel}
    (h : ∀ p ∈ (select files focus).nodes, ∃ r, r.risk = .known (level p) ∧
      shown files p = .ok (r, (level p).colour)) :
    dot files focus =
      .ok (textOf (select files focus).nodes level (select files focus).edges) := by
  have hnodes : collect (dotNode files) (select files focus).nodes =
      .ok ((select files focus).nodes.map fun p => nodeLine p (level p)) := by
    refine collect_eq_map fun p hp => ?_
    obtain ⟨r, hrisk, hshown⟩ := h p hp
    rw [dotNode, hshown]
    simp only [hrisk]
    rfl
  rw [dot, hnodes]
  rfl

/-- Every export of an analyzed project is a text of the graph that it selects. -/
theorem exists_dot (extensions : List String) (extractor : Extractor) (sources : Keyed String)
    (focus : String) :
    let files := Project.analyzeSources extensions extractor sources
    let selection := select files focus
    ∃ level, (∀ p ∈ selection.nodes, ∃ r, files.get? p = some r ∧ r.risk = .known (level p)) ∧
      dot files focus = .ok (textOf selection.nodes level selection.edges) := by
  intro files selection
  have hlevels : ∀ p, ∃ level, p ∈ selection.nodes → ∃ r, files.get? p = some r ∧
      r.risk = .known level ∧ shown files p = .ok (r, level.colour) := by
    intro p
    by_cases hp : p ∈ selection.nodes
    · obtain ⟨r, level, hr⟩ := shown_analyzeSources hp
      exact ⟨level, fun _ => ⟨r, hr⟩⟩
    · exact ⟨.low, fun hmem => absurd hmem hp⟩
  choose level hlevel using hlevels
  refine ⟨level, fun p hp => ?_, dot_of_shown fun p hp => ?_⟩
  · obtain ⟨r, hr, hrisk, _⟩ := hlevel p hp
    exact ⟨r, hr, hrisk⟩
  · obtain ⟨r, _, hrisk, hshown⟩ := hlevel p hp
    exact ⟨r, hrisk, hshown⟩

/-- The text of every export reads as one statement for each selected node and one for each
selected edge, in order, with their paths as names, and as nothing else; unless a selected path
ends in a backslash, and then it does not. -/
theorem dot_reads_back (extensions : List String) (extractor : Extractor)
    (sources : Keyed String) (focus : String) :
    let files := Project.analyzeSources extensions extractor sources
    let selection := select files focus
    ∃ (text : String) (level : String → RiskLevel), dot files focus = .ok text ∧
      (∀ p ∈ selection.nodes, ∃ r, files.get? p = some r ∧ r.risk = .known (level p)) ∧
      (read text = some (graphHead ++ selection.nodes.map (fun p => nodeStatement p (level p))
          ++ selection.edges.map edgeStatement) ↔
        ∀ p ∈ selection.nodes, p.toList.getLast? ≠ some '\\') := by
  intro files selection
  obtain ⟨level, hlevel, hdot⟩ := exists_dot extensions extractor sources focus
  refine ⟨_, level, hdot, hlevel, fun hread => closes_of_read hread, fun hnodes => ?_⟩
  exact read_textOf level hnodes fun e he => ends_of_mem_edges Project.twoEnded_analyzeSources he

/-! ## A path that takes its closing quote away -/

namespace Sample

def slashed : Keyed String := .ofList [("a\\", "")]

end Sample

theorem not_read_back_slashed :
    let files := Project.analyzeSources [".ts"] .textual Sample.slashed
    let selection := select files ""
    ¬ ∃ (text : String) (level : String → RiskLevel), dot files "" = .ok text ∧
      read text = some (graphHead ++ selection.nodes.map (fun p => nodeStatement p (level p))
        ++ selection.edges.map edgeStatement) := by
  rintro files selection ⟨text, level', htext, hread⟩
  obtain ⟨level, _, hdot⟩ := exists_dot [".ts"] .textual Sample.slashed ""
  obtain rfl : textOf selection.nodes level selection.edges = text :=
    Except.ok.inj (hdot.symm.trans htext)
  have hpath : "a\\" ∈ selection.nodes := by
    have hkeys : files.keys = ["a\\"] := Project.keys_textual
    rw [show selection = whole files from rfl, whole, hkeys]
    exact List.mem_singleton.mpr rfl
  exact closes_of_read hread "a\\" hpath (by decide)

end ChangeImpact.Dot
