import ChangeImpact.Proofs.Disk.Straight
import ChangeImpact.Proofs.Graph.Respelled

/-!
# Proofs.Project.RootSpelling

The graph of a directory that is named by two paths.

* `Source.importsOf_path`    — the path of a text is no more than told of in its imports.
* `contentsBelow`            — the files that can be read below a root.
* `Project.exists_sources`   — a build evaluates the records of these.
* `Project.build_respelled`  — below two roots that a normalization leaves alone the graphs agree.
* `Project.not_respelled_up` — below a root that goes up no import is resolved.
-/

namespace ChangeImpact

/-! ## Texts -/

namespace Source

theorem lineImports_path (path path' : String) (number : Nat) (line : List Char) :
    lineImports path' number line =
      (lineImports path number line).map fun e => { e with fromPath := path' } := by
  rw [lineImports, lineImports, List.map_append]
  congr 1
  · cases importLine? line <;> rfl
  · cases requireCall? line <;> rfl

theorem importsOf_path (path path' text : String) :
    importsOf path' text = (importsOf path text).map fun e => { e with fromPath := path' } := by
  rw [importsOf, importsOf, List.map_flatMap]
  simp only [lineImports_path path path']

theorem sameImport_textRecord (path path' text : String) :
    List.Forall₂ Graph.SameImport (textRecord path text).imports
      (textRecord path' text).imports := by
  have himports : (textRecord path' text).imports =
      (textRecord path text).imports.map fun e => { e with fromPath := path' } :=
    importsOf_path path path' text
  rw [himports, List.forall₂_map_right_iff]
  exact List.forall₂_same.mpr fun _ _ => ⟨rfl, rfl⟩

end Source

/-! ## Contents -/

/-- The files that can be read below a root, with their texts. -/
def contentsBelow (d : Disk) (root : String) (found : List (List String)) :
    List (List String × String) :=
  found.filterMap fun file =>
    (d.readLossy (Path.below root file) (Path.below root file)).toOption.map (file, ·)

section Contents

variable {d : Disk} {root root' : String} {found : List (List String)}

theorem mem_contentsBelow {c : List String × String} (h : c ∈ contentsBelow d root found) :
    c.1 ∈ found := by
  obtain ⟨file, hfile, hread⟩ := List.mem_filterMap.mp h
  obtain ⟨text, _, rfl⟩ := Option.map_eq_some_iff.mp hread
  exact hfile

/-- The sources that are read have these contents, by their paths. -/
theorem exists_readSources_below (hroot : Disk.hasNull root = false)
    (hnames : ∀ file ∈ found, ∀ s ∈ file, Disk.IsName s)
    (honce : (found.map (Path.below root)).Nodup) :
    ∃ sources, (readSources d (found.map (Path.below root))).1 = .ok sources ∧
      sources.entries = (contentsBelow d root found).map fun c => (Path.below root c.1, c.2) := by
  have hnull : ∀ path ∈ found.map (Path.below root), Disk.hasNull path = false := by
    rw [List.forall_mem_map]
    exact fun file hfile => Disk.hasNull_below (hnames file hfile) hroot
  obtain ⟨sources, hsources, hentries⟩ := exists_readSources (d := d) hnull honce
  refine ⟨sources, hsources, ?_⟩
  rw [hentries, List.filterMap_map, contentsBelow, List.map_filterMap]
  simp only [Function.comp_def, Option.map_map]

/-- Records of the same contents have the same imports, whichever root they are below. -/
theorem sameSources_of_entries {contents : List (List String × String)}
    {sources sources' : Keyed String}
    (h : sources.entries = contents.map fun c => (Path.below root c.1, c.2))
    (h' : sources'.entries = contents.map fun c => (Path.below root' c.1, c.2)) :
    Graph.SameSources root root' (contents.map Prod.fst) (sources.mapValues Source.textRecord)
      (sources'.mapValues Source.textRecord) := by
  have hget {root : String} {sources : Keyed String}
      (h : sources.entries = contents.map fun c => (Path.below root c.1, c.2))
      {file : List String} {text : String} (hmem : (file, text) ∈ contents) :
      (sources.mapValues Source.textRecord).get? (Path.below root file) =
        some (Source.textRecord (Path.below root file) text) := by
    have hentry : (Path.below root file, text) ∈ sources.entries :=
      h ▸ List.mem_map.mpr ⟨_, hmem, rfl⟩
    rw [Keyed.get?_mapValues, sources.get?_eq_some_iff.mpr hentry]
    rfl
  have hkeys {root : String} {sources : Keyed String}
      (h : sources.entries = contents.map fun c => (Path.below root c.1, c.2)) :
      (sources.mapValues Source.textRecord).keys =
        (contents.map Prod.fst).map (Path.below root) := by
    rw [Keyed.keys_mapValues, Keyed.keys, h, List.map_map, List.map_map]
    rfl
  constructor
  case keys => exact hkeys h
  case keys' => exact hkeys h'
  case records =>
    intro file hfile
    obtain ⟨⟨_, text⟩, hmem, rfl⟩ := List.mem_map.mp hfile
    exact ⟨_, _, hget h hmem, hget h' hmem, Source.sameImport_textRecord _ _ text⟩

end Contents

/-! ## Graphs -/

namespace Project

section Spelling

variable (s : ScanSettings) {d : Disk} {root root' : String} {location : List String} {es : Entries}

/-- A build evaluates the records of what can be read below the root. -/
theorem exists_sources (h : d.LeadsStraight (Path.tidy root) location)
    (hdir : d.at? location = some (.dir es)) (htree : es.IsTree) {found : List (List String)}
    (hfound : foundEntries (scanOptions s (some root) none) d (Path.tidy root) es = found) :
    ∃ sources : Keyed String, (build s .textual none d (some root)).1 =
        .ok (Graph.evaluate s.extensions (sources.mapValues Source.textRecord)) ∧
      sources.entries = (contentsBelow d (Path.tidy root) found).map fun c =>
        (Path.below (Path.tidy root) c.1, c.2) := by
  have hcollects : Collects (scanOptions s (some root) none) d (Path.tidy root) es _ _ :=
    collects_found htree h.shortPath
  have hfiles : (scan (scanOptions s (some root) none) d).files =
      (foundEntries (scanOptions s (some root) none) d (Path.tidy root) es).map
        (Path.below (Path.tidy root)) := files_scan rfl rfl (h.status hdir)
  rw [hfound] at hcollects hfiles
  have hnames : ∀ file ∈ found, ∀ name ∈ file, Disk.IsName name := by
    intro file hfile
    obtain ⟨parents, name, node, rfl, hat⟩ := hcollects.exists_node hfile
    exact htree.names hat
  obtain ⟨sources, hsources, hentries⟩ :=
    exists_readSources_below (d := d) h.noNull hnames hcollects.once
  refine ⟨sources, ?_, hentries⟩
  obtain ⟨log, hread⟩ : ∃ log, readSources d (scan (scanOptions s (some root) none) d).files =
      (.ok sources, log) := ⟨_, Prod.ext (hfiles ▸ hsources) rfl⟩
  simp only [build, hread, Graph.graphOf_eq_evaluate, Source.analyzeFiles_textual]

/-- The graph of a directory is the same by two paths that lead there without a link, neither of
which a normalization changes. -/
theorem build_respelled (h : d.Twins (Path.tidy root) (Path.tidy root') location es)
    (hroot : Path.normalize (Path.tidy root) = Path.tidy root)
    (hroot' : Path.normalize (Path.tidy root') = Path.tidy root') :
    ∃ files graph graph', Graph.AreFiles files ∧
      (build s .textual none d (some root)).1 = .ok graph ∧
      (build s .textual none d (some root')).1 = .ok graph' ∧
      Graph.Respelled (Path.tidy root) (Path.tidy root') files graph graph' := by
  obtain ⟨found, hfound⟩ : ∃ found,
      foundEntries (scanOptions s (some root) none) d (Path.tidy root) es = found := ⟨_, rfl⟩
  have hfound' : foundEntries (scanOptions s (some root') none) d (Path.tidy root') es = found :=
    (h.seenAlike.foundEntries_eq h.tree h.here.shortPath h.there.shortPath root').trans hfound
  have hcollects : Collects (scanOptions s (some root) none) d (Path.tidy root) es _ _ :=
    collects_found h.tree h.here.shortPath
  rw [hfound] at hcollects
  have hcontents : contentsBelow d (Path.tidy root') found =
      contentsBelow d (Path.tidy root) found := by
    refine List.filterMap_congr fun file hfile => ?_
    obtain ⟨parents, name, node, rfl, hat⟩ := hcollects.exists_node hfile
    rw [h.contents hat]
  have hfiles : Graph.AreFiles ((contentsBelow d (Path.tidy root) found).map Prod.fst) := by
    intro file hfile
    obtain ⟨c, hc, rfl⟩ := List.mem_map.mp hfile
    obtain ⟨parents, name, node, heq, hat⟩ := hcollects.exists_node (mem_contentsBelow hc)
    rw [heq]
    exact ⟨by simp, h.tree.names hat⟩
  obtain ⟨sources, hbuild, hentries⟩ := exists_sources s h.here h.directory h.tree hfound
  obtain ⟨sources', hbuild', hentries'⟩ := exists_sources s h.there h.directory h.tree hfound'
  rw [hcontents] at hentries'
  exact ⟨_, _, _, hfiles, hbuild, hbuild', Graph.respelled_evaluate s.extensions
    ⟨⟨root, rfl⟩, hroot⟩ ⟨⟨root', rfl⟩, hroot'⟩ hfiles (sameSources_of_entries hentries hentries')⟩

end Spelling

/-! ## Samples -/

namespace Sample

/-- Two files, the first of which imports the other one. -/
def pair : Entries :=
  [("a.ts", .file "import b from './b'".toUTF8), ("b.ts", .file "export const b = 1;".toUTF8)]

def pairDisk : Disk := { top := [("lib", .dir []), ("src", .dir pair)] }

theorem isTree_pair : pair.IsTree :=
  ⟨⟨by decide, by decide, by decide, by decide⟩, by decide, trivial,
    ⟨by decide, by decide, by decide, by decide⟩, by decide, trivial, trivial⟩

theorem at?_pair {parents : List String} {name : String} {node : Node}
    (h : pair.at? (parents ++ [name]) = some node) :
    parents = [] ∧ (name = "a.ts" ∨ name = "b.ts") := by
  have hfind {name : String} {node : Node} (h : pair.find? name = some node) :
      (name = "a.ts" ∨ name = "b.ts") ∧ ∀ sub, node ≠ .dir sub := by
    have hmem := (Entries.find?_eq_some_iff isTree_pair.ascending).mp h
    simp only [pair, List.mem_cons, Prod.mk.injEq, List.not_mem_nil, or_false] at hmem
    obtain ⟨rfl, rfl⟩ | ⟨rfl, rfl⟩ := hmem <;> simp
  cases parents with
  | nil => exact ⟨rfl, (hfind h).1⟩
  | cons dir parents =>
    obtain ⟨sub, hsub, _⟩ := Entries.exists_dir_of_at? (by simp) h
    exact absurd rfl ((hfind hsub).2 sub)

theorem hasRoom_pair {root : String}
    (h : ∀ name ∈ ["a.ts", "b.ts"], ∀ way ∈ Disk.ways root name, Disk.isLongPath way = false) :
    Disk.HasRoom root pair := by
  intro parents name node hat
  obtain ⟨rfl, hname⟩ := at?_pair hat
  exact h name (by simpa using hname)

theorem twins_pair {root : String} (h : pairDisk.LeadsStraight root ["src"])
    (hroom : ∀ name ∈ ["a.ts", "b.ts"], ∀ way ∈ Disk.ways root name, Disk.isLongPath way = false) :
    pairDisk.Twins "src" root ["src"] pair where
  here := ⟨by decide, by decide, by decide, rfl⟩
  there := h
  directory := rfl
  tree := isTree_pair
  room := hasRoom_pair (by decide)
  room' := hasRoom_pair hroom

/-- The imports of a file in what has been built: whether they are relative, and where they
lead. -/
def importsIn (built : Except Failure Graph.Built) (path : String) :
    Option (List (String × Bool × Option String)) :=
  match built with
  | .ok graph => (graph.files.get? path).map fun record =>
    record.imports.map fun e => (e.specifier, Graph.isRelative e, e.resolved)
  | .error _ => none

theorem exists_import {graph : Graph.Built} {path specifier : String} {relative : Bool}
    {lead : Option String}
    (h : importsIn (.ok graph) path = some [(specifier, relative, lead)]) :
    ∃ record edge, graph.files.get? path = some record ∧ record.imports = [edge] ∧
      edge.specifier = specifier ∧ Graph.isRelative edge = relative ∧ edge.resolved = lead := by
  obtain ⟨record, hrecord, himports⟩ := Option.map_eq_some_iff.mp h
  obtain ⟨edge, hedge, hparts⟩ := List.map_eq_singleton_iff.mp himports
  simp only [Prod.mk.injEq] at hparts
  exact ⟨record, edge, hrecord, hedge, hparts⟩

end Sample

theorem build_respelled_sample :
    Sample.pairDisk.Twins (Path.tidy "src") (Path.tidy "/./src") ["src"] Sample.pair ∧
      ∃ files graph graph', Graph.AreFiles files ∧
        (build {} .textual none Sample.pairDisk (some "src")).1 = .ok graph ∧
        (build {} .textual none Sample.pairDisk (some "/./src")).1 = .ok graph' ∧
        Graph.Respelled (Path.tidy "src") (Path.tidy "/./src") files graph graph' := by
  have hsrc : Path.tidy "src" = "src" := by decide
  have h : Sample.pairDisk.Twins (Path.tidy "src") (Path.tidy "/./src") ["src"] Sample.pair := by
    rw [hsrc]
    exact Sample.twins_pair ⟨by decide, by decide, by decide, rfl⟩ (by decide)
  exact ⟨h, build_respelled {} h (by decide) (by decide)⟩

/-- Below a root that goes up again the imports that lead to a file below the other root lead
nowhere. -/
theorem not_respelled_up :
    Sample.pairDisk.Twins (Path.tidy "src") (Path.tidy "lib/../src") ["src"] Sample.pair ∧
      Sample.importsIn (build {} .textual none Sample.pairDisk (some "src")).1 "src/a.ts" =
        some [("./b", true, some "src/b.ts")] ∧
      Sample.importsIn (build {} .textual none Sample.pairDisk (some "lib/../src")).1
        "lib/../src/a.ts" = some [("./b", true, none)] ∧
      ¬ ∃ files graph graph', Graph.AreFiles files ∧
        (build {} .textual none Sample.pairDisk (some "src")).1 = .ok graph ∧
        (build {} .textual none Sample.pairDisk (some "lib/../src")).1 = .ok graph' ∧
        Graph.Respelled (Path.tidy "src") (Path.tidy "lib/../src") files graph graph' := by
  have hsrc : Path.tidy "src" = "src" := by decide
  have hup : Path.tidy "lib/../src" = "lib/../src" := by decide
  rw [hsrc, hup]
  have hhere : Sample.importsIn (build {} .textual none Sample.pairDisk (some "src")).1 "src/a.ts" =
      some [("./b", true, some "src/b.ts")] := by decide +kernel
  have hthere : Sample.importsIn (build {} .textual none Sample.pairDisk (some "lib/../src")).1
      "lib/../src/a.ts" = some [("./b", true, none)] := by decide +kernel
  refine ⟨Sample.twins_pair ⟨by decide, by decide, by decide, rfl⟩ (by decide), hhere, hthere, ?_⟩
  rintro ⟨files, graph, graph', hfiles, hbuild, hbuild', h⟩
  rw [hbuild] at hhere
  rw [hbuild'] at hthere
  obtain ⟨record, edge, hrecord, hedge, hspecifier, hrelative, hresolved⟩ :=
    Sample.exists_import hhere
  obtain ⟨record', edge', hrecord', hedge', -, -, hresolved'⟩ := Sample.exists_import hthere
  have hfile : ["a.ts"] ∈ files := by
    have hkey : "src/a.ts" ∈ graph.files.keys := by
      rw [Keyed.mem_keys_iff, Keyed.contains, hrecord]
      rfl
    rw [h.keys] at hkey
    obtain ⟨file, hfile, hpath⟩ := List.mem_map.mp hkey
    have hsteps := Path.steps_below "src" (hfiles file hfile).2
    have hsplit : Path.steps "src/a.ts" = Path.steps "src" ++ ["a.ts"] := by decide
    rw [hpath, hsplit, List.append_cancel_left_eq] at hsteps
    rwa [hsteps]
  obtain ⟨found, found', hfound, hfound', hsame⟩ := h.records [] "a.ts" hfile
  obtain rfl : record = found := Option.some.inj (hrecord.symm.trans hfound)
  obtain rfl : record' = found' := Option.some.inj (hrecord'.symm.trans hfound')
  have hlinks := hsame.imports
  rw [hedge, hedge', List.forall₂_cons] at hlinks
  have hcounts : Graph.Counts "src" "lib/../src" [] edge.specifier := by
    rw [hspecifier]
    exact ⟨["b"], by decide, by simp⟩
  obtain ⟨target, _, htarget, htarget'⟩ := hlinks.1.resolved hrelative hcounts
  rw [hresolved] at htarget
  rw [hresolved'] at htarget'
  cases target with
  | none => cases htarget
  | some => cases htarget'

end Project

end ChangeImpact
