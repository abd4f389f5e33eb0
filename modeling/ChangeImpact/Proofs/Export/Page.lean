import ChangeImpact.Export.Html
import ChangeImpact.Proofs.Export.Script
import ChangeImpact.Proofs.Export.Selection
import ChangeImpact.Proofs.Path.Segments

/-!
# Proofs.Export.Page

The graph on the page of an analyzed project.

* `Embeds`          — one line of the page holds the graph, and it reads as what was selected.
* `EndsInPlace`     — the script of the page ends at the tag that the template has for it.
* `holdsTag_inline` — no tag gets into the text of the graph but from a path that holds it.
* `html_embeds`     — every page embeds its graph, and if no selected path opens a comment, then its
  script ends early just in case that one holds an end tag.
-/

namespace ChangeImpact.Export

open Text

/-! ## Tags -/

/-- A tag is opened by an angle bracket and made of characters that JSON text does not escape. -/
structure IsTag (tag : String) : Prop where
  opened : tag.toList.head? = some '<'
  plain : ∀ c ∈ tag.toList, 0x20 ≤ c.toNat ∧ c.toNat < 0x7f ∧ c ≠ '"' ∧ c ≠ '\\' ∧ c ≠ ';'

theorem isTag_closing : IsTag "</script" := ⟨rfl, by decide⟩

theorem isTag_comment : IsTag "<!--" := ⟨rfl, by decide⟩

theorem isTag_endTag : ∀ d ∈ [' ', '/', '>'], IsTag ("</script".push d) := by
  intro d hd
  have hplain : ∀ d ∈ [' ', '/', '>'], ∀ c ∈ '<' :: ("/script".toList ++ [d]),
      0x20 ≤ c.toNat ∧ c.toNat < 0x7f ∧ c ≠ '"' ∧ c ≠ '\\' ∧ c ≠ ';' := by decide
  constructor
  · rw [toList_endTag]
    rfl
  · rw [toList_endTag]
    exact hplain d hd

/-- So are the letters of either case that it can be made of. -/
theorem IsTag.plain_of_map {tag : String} (h : IsTag tag) {w : List Char}
    (hw : w.map Char.toLower = tag.toList) :
    ∀ c ∈ w, 0x20 ≤ c.toNat ∧ c.toNat < 0x7f ∧ c ≠ '"' ∧ c ≠ '\\' ∧ c ≠ ';' := by
  intro c hc
  rcases toLower_cases c with hsame | ⟨hlow, hhigh⟩
  · exact h.plain c (by rw [← hw, ← hsame]; exact List.mem_map_of_mem hc)
  · have hne : ∀ d : Char, d.toNat < 0x41 ∨ 0x5a < d.toNat → c ≠ d := by
      rintro d hd rfl
      omega
    exact ⟨by omega, by omega, hne _ (by decide), hne _ (by decide), hne _ (by decide)⟩

theorem IsTag.exists_cons {tag : String} (h : IsTag tag) {w : List Char}
    (hw : w.map Char.toLower = tag.toList) : ∃ t, w = '<' :: t := by
  have hopened := h.opened
  cases w with
  | nil =>
    rw [← hw] at hopened
    cases hopened
  | cons c t =>
    rw [← hw, List.map_cons, List.head?_cons, Option.some_inj] at hopened
    exact ⟨t, by rw [eq_of_toLower (by decide) hopened]⟩

/-- A text without an angle bracket holds no tag. -/
theorem IsTag.opened_mem {tag : String} (h : IsTag tag) {text : List Char}
    (htext : holdsTag tag text = true) : '<' ∈ text := by
  obtain ⟨w, hpart, hw⟩ := holdsTag_iff.mp htext
  obtain ⟨t, rfl⟩ := h.exists_cons hw
  exact hpart.subset List.mem_cons_self

theorem silent_opened : Json.Layout.oneLine.Silent '<' where
  mark := by decide
  opening _ := List.not_mem_nil
  between _ := by simp [Json.Layout.oneLine]
  closing _ := List.not_mem_nil

/-- A tag in the text of a value stands in one of its words. -/
theorem holdsTag_inline {tag : String} (h : IsTag tag) {v : Value} (hv : v.Plain) :
    holdsTag tag (Json.inlineChars v) = true ↔ ∃ s ∈ v.words, holdsTag tag s.toList = true := by
  have hword : ∀ w, w.map Char.toLower = tag.toList →
      (w <:+: Json.inlineChars v ↔ ∃ s ∈ v.words, w <:+: s.toList) := by
    intro w hw
    have hplain := h.plain_of_map hw
    obtain ⟨t, rfl⟩ := h.exists_cons hw
    have hpiece := Json.Layout.infix_value silent_opened
      (fun hq => (hplain _ hq).2.2.1 rfl) 0 v [] hv
    rw [List.append_nil, ← Json.Layout.inlineChars_eq, or_iff_left (by simp)] at hpiece
    rw [hpiece]
    refine exists_congr fun s => and_congr_right fun _ => ?_
    exact Json.infix_flatMap Json.escaping_escapeAscii
      (fun d hd => Json.escapeAscii_of_plain (hplain d hd).1 (hplain d hd).2.1 (hplain d hd).2.2.1
        (hplain d hd).2.2.2.1)
      (fun hs => (hplain _ hs).2.2.2.1 rfl) (by decide) s.toList
  simp only [holdsTag_iff]
  constructor
  · rintro ⟨w, hpart, hw⟩
    obtain ⟨s, hs, hin⟩ := (hword w hw).mp hpart
    exact ⟨s, hs, w, hin, hw⟩
  · rintro ⟨s, hs, w, hin, hw⟩
    exact ⟨w, (hword w hw).mpr ⟨s, hs, hin⟩, hw⟩

/-! ## The graph -/

variable {files : FileMap} {focus : String} {tag : String}

/-- What the graph of a page says of a file. -/
def Draws (files : FileMap) (path : String) (v : Value) : Prop :=
  ∃ r level, files.get? path = some r ∧ r.risk = .known level ∧
    v = .object [
      ("id", .text path),
      ("risk", .text (Vocabulary.word level)),
      ("color", .text level.colour),
      ("fan_in", .int r.fanIn),
      ("fan_out", .int r.fanOut)]

def arrow (e : String × String) : Value := .object [("src", .text e.1), ("dst", .text e.2)]

def graphObject (nodes : List Value) (s : Selection) : Value :=
  .object [("nodes", .list nodes), ("edges", .list (s.edges.map arrow))]

theorem Draws.plain {path : String} {v : Value} (h : Draws files path v) : v.Plain := by
  obtain ⟨r, level, _, _, rfl⟩ := h
  simp [Value.Plain, Value.PlainFields]

/-- A word of it with an angle bracket is the path. -/
theorem Draws.mem_words {path : String} {v : Value} (h : Draws files path v) {word : String}
    (hword : '<' ∈ word.toList) : word ∈ v.words ↔ word = path := by
  have hne : ∀ t : String, '<' ∉ t.toList → word ≠ t := by
    rintro t ht rfl
    exact ht hword
  obtain ⟨r, level, _, _, rfl⟩ := h
  have hlevel : word ≠ Vocabulary.word level := hne _ (by cases level <;> decide)
  have hcolour : word ≠ level.colour := hne _ (by cases level <;> decide)
  simp [Value.words, Value.wordsOfFields, hlevel, hcolour, hne "id" (by decide),
    hne "risk" (by decide), hne "color" (by decide), hne "fan_in" (by decide),
    hne "fan_out" (by decide)]

theorem exists_of_mem_right {α β : Type} {R : α → β → Prop} {as : List α} {bs : List β}
    (h : List.Forall₂ R as bs) {b : β} (hb : b ∈ bs) : ∃ a ∈ as, R a b := by
  induction h with
  | nil => cases hb
  | cons hab _ ih =>
    rcases List.mem_cons.mp hb with rfl | hb
    · exact ⟨_, List.mem_cons_self, hab⟩
    · obtain ⟨a, ha, hr⟩ := ih hb
      exact ⟨a, List.mem_cons_of_mem _ ha, hr⟩

theorem mem_words_drawn {paths : List String} {nodes : List Value}
    (h : List.Forall₂ (Draws files) paths nodes) {word : String} (hword : '<' ∈ word.toList) :
    (∃ v ∈ nodes, word ∈ v.words) ↔ word ∈ paths := by
  induction h with
  | nil => simp
  | cons hab _ ih => simp [hab.mem_words hword, ih]

section Graph

variable {nodes : List Value} {s : Selection} (h : List.Forall₂ (Draws files) s.nodes nodes)
include h

theorem plain_graphObject : (graphObject nodes s).Plain := by
  have hnodes : Value.PlainItems nodes := by
    rw [Value.plainItems_iff]
    intro v hv
    obtain ⟨path, _, hdraws⟩ := exists_of_mem_right h hv
    exact hdraws.plain
  have hedges : Value.PlainItems (s.edges.map arrow) := by
    rw [Value.plainItems_iff]
    rintro _ hv
    obtain ⟨e, _, rfl⟩ := List.mem_map.mp hv
    simp [arrow, Value.Plain, Value.PlainFields]
  simp [graphObject, Value.Plain, Value.PlainFields, hnodes, hedges]

/-- The words with an angle bracket are selected paths. -/
theorem mem_words_graphObject (hends : ∀ e ∈ s.edges, e.1 ∈ s.nodes ∧ e.2 ∈ s.nodes)
    {word : String} (hword : '<' ∈ word.toList) :
    word ∈ (graphObject nodes s).words ↔ word ∈ s.nodes := by
  have hne : ∀ t : String, '<' ∉ t.toList → word ≠ t := by
    rintro t ht rfl
    exact ht hword
  have hedges : (∃ v ∈ s.edges.map arrow, word ∈ v.words) → word ∈ s.nodes := by
    rintro ⟨_, hv, hmem⟩
    obtain ⟨e, he, rfl⟩ := List.mem_map.mp hv
    simp only [arrow, Value.words, Value.wordsOfFields, List.mem_cons, List.mem_append,
      hne "src" (by decide), hne "dst" (by decide), List.not_mem_nil, or_false, false_or] at hmem
    rcases hmem with rfl | rfl
    · exact (hends e he).1
    · exact (hends e he).2
  simp only [graphObject, Value.words, Value.wordsOfFields, List.mem_cons, List.mem_append,
    Value.mem_wordsOfItems, hne "nodes" (by decide), hne "edges" (by decide), List.not_mem_nil,
    or_false, false_or, mem_words_drawn h hword]
  exact or_iff_left_of_imp hedges

theorem holdsTag_graphObject (hends : ∀ e ∈ s.edges, e.1 ∈ s.nodes ∧ e.2 ∈ s.nodes)
    (htag : IsTag tag) : holdsTag tag (Json.inlineChars (graphObject nodes s)) = true ↔
      ∃ p ∈ s.nodes, holdsTag tag p.toList = true := by
  rw [holdsTag_inline htag (plain_graphObject h)]
  refine exists_congr fun word => and_congr_left fun hholds => ?_
  exact mem_words_graphObject h hends (htag.opened_mem hholds)

end Graph

theorem graphValue_of_shown (files : FileMap) (focus : String)
    (h : ∀ p ∈ (select files focus).nodes, ∃ r level, files.get? p = some r ∧
      r.risk = .known level ∧ shown files p = .ok (r, level.colour)) :
    ∃ nodes, graphValue files focus = .ok (graphObject nodes (select files focus)) ∧
      List.Forall₂ (Draws files) (select files focus).nodes nodes := by
  obtain ⟨nodes, hcollect, hdraws⟩ :=
    exists_collect (f := nodeValue files) (R := Draws files) fun p hp => by
      obtain ⟨r, level, hr, hlevel, hshown⟩ := h p hp
      refine ⟨_, by rw [nodeValue, hshown], r, level, hr, hlevel, ?_⟩
      rw [hlevel]
      rfl
  exact ⟨nodes, by rw [graphValue, hcollect]; rfl, hdraws⟩

/-! ## The page -/

def linesOf (text : String) : List (List Char) := splitOn '\n' text.toList

/-- The line, without its margin, starts as the one of the graph does. -/
def isGraphLine (line : List Char) : Bool :=
  (after? "const graph = ".toList (stripStart line)).isSome

/-- Just one line of the page is that of a graph, and its text reads as the selection. -/
structure Embeds (files : FileMap) (s : Selection) (page json : String) : Prop where
  line : (linesOf page).filter isGraphLine = [(graphLineStart ++ json ++ ";").toList]
  graph : ∃ nodes, Json.parse? json = some (graphObject nodes s) ∧
    List.Forall₂ (Draws files) s.nodes nodes

theorem Embeds.unique {s : Selection} {page json json' : String} (h : Embeds files s page json)
    (h' : Embeds files s page json') : json = json' := by
  have hline := (List.cons.inj (h.line.symm.trans h'.line)).1
  rwa [String.toList_inj, String.append_left_inj, String.append_right_inj] at hline

/-- What the page has from the end tag of its script on. -/
def pageEnd : String := "</script>\n</body>\n</html>\n"

def EndsInPlace (page : String) : Prop := scriptEnd? page = some pageEnd.toList

def graphLine (json : String) : String := graphLineStart ++ json ++ ";"

theorem toList_graphLine (json : String) :
    (graphLine json).toList = graphLineStart.toList ++ (json.toList ++ [';']) := by
  rw [graphLine, String.toList_append, String.toList_append, List.append_assoc]
  rfl

theorem isGraphLine_graphLine (json : String) : isGraphLine (graphLine json).toList = true := by
  have hline : stripStart (graphLine json).toList =
      "const graph = ".toList ++ (json.toList ++ [';']) := by
    rw [toList_graphLine]
    rfl
  rw [isGraphLine, hline, after?_append]
  rfl

/-- Each line with its characters. -/
def Spelled (lines : List String) (spelled : List (List Char)) : Prop :=
  List.Forall₂ (fun line chars => line = String.ofList chars) lines spelled

theorem of_spelled {P : List (List Char) → Prop} {lines : List String}
    {spelled : List (List Char)} (h : Spelled lines spelled) (hP : P spelled) :
    P (lines.map String.toList) := by
  have hmap : lines.map String.toList = spelled := by
    clear hP
    induction h with
    | nil => rfl
    | cons hline _ ih => rw [List.map_cons, ih, hline, String.toList_ofList]
  rwa [hmap]

def joined (lines : List (List Char)) : List Char := ['\n'].intercalate lines

/-- The text in front of its ending. -/
def before (ending : String) (text : List Char) : List Char :=
  text.take (text.length - ending.length)

/-- Lines around the graph, with their ending: none is that of a graph. -/
def Frames (ending : String) (lines : List (List Char)) : Prop :=
  (∀ line ∈ lines, '\n' ∉ line) ∧ lines.filter isGraphLine = [] ∧
    joined lines = before ending (joined lines) ++ ending.toList

instance (ending : String) (lines : List (List Char)) : Decidable (Frames ending lines) :=
  inferInstanceAs (Decidable (_ ∧ _ ∧ _))

/-- The lines are taken apart by unification first, as evaluating them is slow. -/
theorem frames_pageHead : Frames "<script>" (pageHead.map String.toList) ∧
    holdsTag "<script>" (before "<script>" (joined (pageHead.map String.toList))) = false := by
  apply of_spelled (P := fun lines => Frames "<script>" lines ∧
    holdsTag "<script>" (before "<script>" (joined lines)) = false)
  · rw [pageHead]
    repeat
      apply List.Forall₂.cons
      · exact rfl
    exact .nil
  · decide +kernel

/-- Up to the end of the script there is no tag. -/
theorem frames_pageTail : Frames pageEnd (pageTail.map String.toList) ∧
    '<' ∉ before pageEnd (joined (pageTail.map String.toList)) := by
  apply of_spelled (P := fun lines => Frames pageEnd lines ∧
    '<' ∉ before pageEnd (joined lines))
  · rw [pageTail]
    repeat
      apply List.Forall₂.cons
      · exact rfl
    exact .nil
  · decide +kernel

theorem joined_cons (line : List Char) {lines : List (List Char)} (h : lines ≠ []) :
    joined (line :: lines) = line ++ '\n' :: joined lines := by
  obtain ⟨next, lines, rfl⟩ := List.exists_cons_of_ne_nil h
  rw [joined, List.intercalate_cons_cons, List.append_assoc]
  rfl

theorem joined_append {a b : List (List Char)} (ha : a ≠ []) (hb : b ≠ []) :
    joined (a ++ b) = joined a ++ '\n' :: joined b := by
  induction a with
  | nil => exact absurd rfl ha
  | cons line a ih =>
    cases a with
    | nil =>
      rw [List.singleton_append, joined_cons line hb, joined, joined, List.intercalate_singleton]
    | cons other a =>
      rw [List.cons_append, joined_cons line (by simp), ih (by simp), joined_cons line (by simp),
        List.append_assoc, List.cons_append]

section

variable {graph : Value}

theorem toList_page (graph : Value) : (page graph).toList =
    joined (pageHead.map String.toList ++
      (graphLine (Json.inline graph)).toList :: pageTail.map String.toList) := by
  rw [page, String.toList_intercalate, ← graphLine, List.append_assoc, List.map_append,
    List.map_append]
  rfl

theorem linesOf_page (h : graph.Plain) : linesOf (page graph) =
    pageHead.map String.toList ++
      (graphLine (Json.inline graph)).toList :: pageTail.map String.toList := by
  have hline : '\n' ∉ (graphLine (Json.inline graph)).toList := by
    have hstart : '\n' ∉ graphLineStart.toList := by decide
    simp [graphLine, Json.inline, hstart, Json.control_notMem_inline (c := '\n') (by decide) h]
  rw [linesOf, toList_page, joined, splitOn_intercalate (by simp)]
  intro piece hpiece
  rw [List.mem_append, List.mem_cons] at hpiece
  rcases hpiece with hpiece | rfl | hpiece
  · exact frames_pageHead.1.1 piece hpiece
  · exact hline
  · exact frames_pageTail.1.1 piece hpiece

theorem embeds_page {nodes : List Value} {s : Selection}
    (h : List.Forall₂ (Draws files) s.nodes nodes) :
    Embeds files s (page (graphObject nodes s)) (Json.inline (graphObject nodes s)) where
  line := by
    rw [linesOf_page (plain_graphObject h), List.filter_append, frames_pageHead.1.2.1,
      List.filter_cons_of_pos (isGraphLine_graphLine _), frames_pageTail.1.2.1]
    rfl
  graph := ⟨nodes, Json.parse?_inline (plain_graphObject h), h⟩

/-- The script of the page is the graph between two texts of the template. -/
theorem exists_scriptEnd?_page (graph : Value) :
    ∃ start between rest, '<' ∉ start ∧ '<' ∉ between ∧ pageEnd.toList = '<' :: rest ∧
      scriptEnd? (page graph) =
        endTag? .plain (start ++ (Json.inlineChars graph ++ ';' :: between) ++ '<' :: rest) := by
  have hshape : ∀ a b c d : List Char,
      '\n' :: (a ++ (b ++ [';']) ++ '\n' :: (c ++ '<' :: d)) =
        '\n' :: a ++ (b ++ ';' :: '\n' :: c) ++ '<' :: d := by simp
  have hhead : pageHead.map String.toList ≠ [] := List.cons_ne_nil _ _
  have htail : pageTail.map String.toList ≠ [] := List.cons_ne_nil _ _
  obtain ⟨⟨_, _, hending⟩, hbetween⟩ := frames_pageTail
  obtain ⟨rest, hrest⟩ : ∃ rest, pageEnd.toList = '<' :: rest := ⟨_, rfl⟩
  refine ⟨'\n' :: graphLineStart.toList, '\n' :: before pageEnd (joined (pageTail.map _)), rest,
    by decide, List.not_mem_cons_of_ne_of_not_mem (by decide) hbetween, hrest, ?_⟩
  rw [← hshape, ← hrest, ← hending, scriptEnd?, toList_page,
    joined_append hhead (List.cons_ne_nil _ _), joined_cons _ htail, frames_pageHead.1.2.2,
    List.append_assoc, opened?_append frames_pageHead.2, Option.bind_some, toList_graphLine,
    Json.inline, String.toList_ofList]

/-- Control characters are escaped in the graph, so an end tag there has none behind its name. -/
theorem forall_holdsTag_endTag (h : graph.Plain) :
    (∀ d ∈ nameEnds, holdsTag ("</script".push d) (Json.inlineChars graph) = false) ↔
      ∀ d ∈ [' ', '/', '>'], holdsTag ("</script".push d) (Json.inlineChars graph) = false := by
  have hcontrol : ∀ d ∈ ['\t', '\n', '\x0c'], d.toNat < 0x20 := by decide
  rw [show nameEnds = ['\t', '\n', '\x0c'] ++ [' ', '/', '>'] from rfl, List.forall_mem_append]
  refine and_iff_right fun d hd => ?_
  rw [← Bool.not_eq_true, holdsTag_iff]
  rintro ⟨w, hpart, hw⟩
  have hmem : d ∈ w.map Char.toLower := by
    rw [hw, toList_endTag]
    simp
  obtain ⟨c, hc, hcd⟩ := List.mem_map.mp hmem
  have hd := hcontrol d hd
  rw [eq_of_toLower (by omega) hcd] at hc
  exact Json.control_notMem_inline hd h (hpart.subset hc)

/-- If the graph opens no comment, then only an end tag in the graph cuts the script short. -/
theorem endsInPlace_page (h : graph.Plain)
    (hcomment : holdsTag "<!--" (Json.inlineChars graph) = false) :
    EndsInPlace (page graph) ↔
      ∀ d ∈ [' ', '/', '>'], holdsTag ("</script".push d) (Json.inlineChars graph) = false := by
  obtain ⟨start, between, rest, hstart, hbetween, hrest, hscript⟩ := exists_scriptEnd?_page graph
  have hbody : ∀ {tag w}, tag.toList = '<' :: w → ';' ∉ '<' :: w →
      holdsTag tag (start ++ (Json.inlineChars graph ++ ';' :: between)) =
        holdsTag tag (Json.inlineChars graph) := by
    intro tag w htag hsemicolon
    rw [holdsTag_append_of_notMem htag hstart, holdsTag_append htag hsemicolon,
      holdsTag_of_notMem htag hbetween, Bool.or_false]
  have hname : startsWholeTag "</script" pageEnd.toList = true := by decide
  have hends : ∀ d ∈ nameEnds, ';' ∉ '<' :: ("/script".toList ++ [d]) := by decide
  rw [hrest] at hname
  rw [EndsInPlace, hscript, hrest, ← forall_holdsTag_endTag h]
  refine (endTag?_append ?_ hname).trans (forall₂_congr fun d hd => ?_)
  · exact (hbody rfl (by decide)).trans hcomment
  · rw [hbody (toList_endTag d) (hends d hd)]

end

variable {extensions : List String} {extractor : Extractor} {sources : Keyed String}

/-- Every page embeds its graph, and a tag gets into its text with a path that holds it and in no
other way. Where no selected path opens a comment, the script ends in place unless one holds an end
tag. -/
theorem html_embeds (extensions : List String) (extractor : Extractor) (sources : Keyed String)
    (focus : String) :
    let files := Project.analyzeSources extensions extractor sources
    let selection := select files focus
    ∃ page json, html files focus = .ok page ∧ Embeds files selection page json ∧
      (∀ tag ∈ ["</script", "<!--"], holdsTag tag json.toList = true ↔
        ∃ p ∈ selection.nodes, holdsTag tag p.toList = true) ∧
      ((∀ p ∈ selection.nodes, holdsTag "<!--" p.toList = false) →
        (EndsInPlace page ↔ ∀ d ∈ [' ', '/', '>'], ∀ p ∈ selection.nodes,
          holdsTag ("</script".push d) p.toList = false)) := by
  intro files selection
  obtain ⟨nodes, hgraph, hdraws⟩ :=
    graphValue_of_shown files focus fun p hp => shown_analyzeSources hp
  have hends : ∀ e ∈ selection.edges, e.1 ∈ selection.nodes ∧ e.2 ∈ selection.nodes :=
    fun e he => ends_of_mem_edges Project.twoEnded_analyzeSources he
  have hnone : ∀ {tag}, IsTag tag → (holdsTag tag (Json.inlineChars (graphObject nodes selection))
      = false ↔ ∀ p ∈ selection.nodes, holdsTag tag p.toList = false) := by
    intro tag htag
    rw [← Bool.not_eq_true, holdsTag_graphObject hdraws hends htag]
    simp only [not_exists, not_and, Bool.not_eq_true]
    exact Iff.rfl
  refine ⟨page (graphObject nodes selection), Json.inline (graphObject nodes selection), ?_,
    embeds_page hdraws, ?_, ?_⟩
  · rw [html, hgraph]
    rfl
  · intro tag htag
    rw [Json.inline, String.toList_ofList]
    simp only [List.mem_cons, List.not_mem_nil, or_false] at htag
    rcases htag with rfl | rfl
    · exact holdsTag_graphObject hdraws hends isTag_closing
    · exact holdsTag_graphObject hdraws hends isTag_comment
  · intro hcomment
    rw [endsInPlace_page (plain_graphObject hdraws) ((hnone isTag_comment).mpr hcomment)]
    exact forall₂_congr fun d hd => hnone (isTag_endTag d hd)

/-! ## A path that holds the closing tag -/

namespace Sample

/-- The tag reaches over from a directory to the file in it. -/
def torn : Keyed String := .ofList [("src/</script>x.ts", "")]

end Sample

theorem html_torn :
    let files := Project.analyzeSources [".ts"] .textual Sample.torn
    ¬ ∃ page json, html files "" = .ok page ∧ Embeds files (select files "") page json ∧
      holdsTag "</script" json.toList = false ∧ holdsTag "<!--" json.toList = false := by
  rintro files ⟨_, json, hpage, hembeds, hclosing, _⟩
  obtain ⟨nodes, hgraph, hdraws⟩ :=
    graphValue_of_shown files "" fun p hp => shown_analyzeSources hp
  have hends : ∀ e ∈ (select files "").edges,
      e.1 ∈ (select files "").nodes ∧ e.2 ∈ (select files "").nodes :=
    fun e he => ends_of_mem_edges Project.twoEnded_analyzeSources he
  simp only [html, hgraph, Except.map, Except.ok.injEq] at hpage
  subst hpage
  have hjson := hembeds.unique (embeds_page hdraws)
  have hpath : "src/</script>x.ts" ∈ (select files "").nodes := by
    have hkeys : files.keys = ["src/</script>x.ts"] := Project.keys_textual
    rw [show select files "" = whole files from rfl, whole, hkeys]
    exact List.mem_singleton.mpr rfl
  have hholds := (holdsTag_graphObject hdraws hends isTag_closing).mpr ⟨_, hpath, by decide⟩
  rw [hjson, Json.inline, String.toList_ofList, hholds] at hclosing
  cases hclosing

end ChangeImpact.Export
