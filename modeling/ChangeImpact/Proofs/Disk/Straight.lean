import ChangeImpact.Disk.Files
import ChangeImpact.Proofs.Disk.Hops
import ChangeImpact.Proofs.Disk.ScanLaw
import ChangeImpact.Proofs.Disk.Writing
import ChangeImpact.Proofs.Path.Landing

/-!
# Proofs.Disk.Straight

A directory by two of its paths, neither of which leads through a link.

* `LeadsStraight`          — a path that leads to a location without a link on the way.
* `LeadsStraight.placeOf_way` — what stands below it is found from that location on.
* `HasRoom`                — the system can be asked for all that stands below a path.
* `Twins`                  — two such paths of one directory.
* `Twins.seenAlike`        — below both of them links lead to the same files.
* `Twins.contents`         — and the same texts are read.
* `exists_readSources`     — reading many files gives the texts of those that can be read.
-/

namespace ChangeImpact

namespace Disk

variable {d : Disk} {fl : Bool}

/-! ## Dots on the way -/

/-- Dots before the last segment make no difference. -/
theorem walkFrom_steps {follow : List String → List String → Except Fault Place} {name : String}
    (hfollow : ∀ here segments, follow here (segments ++ [name]) =
      follow here ((segments.filter fun s => !Path.isDot s) ++ [name])) :
    ∀ segments here, walkFrom d fl follow here (segments ++ [name]) =
      walkFrom d fl follow here ((segments.filter fun s => !Path.isDot s) ++ [name]) := by
  intro segments
  induction segments with
  | nil => exact fun _ => rfl
  | cons segment rest ih =>
    intro here
    by_cases hdot : Path.isDot segment = true
    · rw [List.cons_append, walkFrom, if_pos hdot, ih, List.filter_cons_of_neg (by simp [hdot])]
    · have hmore : (rest ++ [name]).isEmpty = false := by simp
      have hmore' : ((rest.filter fun s => !Path.isDot s) ++ [name]).isEmpty = false := by simp
      have htarget : ∀ here target, follow here (target ++ (rest ++ [name])) =
          follow here (target ++ ((rest.filter fun s => !Path.isDot s) ++ [name])) := by
        intro here target
        rw [← List.append_assoc, hfollow, ← List.append_assoc target,
          hfollow here (target ++ rest.filter fun s => !Path.isDot s)]
        simp
      rw [List.filter_cons_of_pos (by simp [hdot]), List.cons_append, List.cons_append, walkFrom,
        walkFrom, hmore, hmore']
      simp only [ih, htarget]

theorem walk_steps {name : String} : ∀ {hops here} segments,
    d.walk fl hops here (segments ++ [name]) =
      d.walk fl hops here ((segments.filter fun s => !Path.isDot s) ++ [name]) := by
  intro hops
  induction hops with
  | zero => exact fun segments => walkFrom_steps (fun _ _ => rfl) segments _
  | succ hops ih => exact fun segments => walkFrom_steps (fun _ segments => ih segments) segments _

/-! ## Paths without links -/

/-- The path leads to a location without a link on the way. -/
structure LeadsStraight (d : Disk) (path : String) (location : List String) : Prop where
  shortPath : isLongPath path = false
  noNull : hasNull path = false
  ne_empty : path ≠ ""
  walk : d.walk true 0 (if Path.isRooted path then [] else d.here) (Path.segments path) =
    .ok (.taken location)

theorem walk_append_straight {location : List String} {es : Entries}
    (hdir : d.at? location = some (.dir es)) {here segments more : List String} (hops : Nat)
    (h : d.walk true 0 here segments = .ok (.taken location)) :
    d.walk true hops here (segments ++ more) = d.walk true hops location more := by
  have hshape : Entries.SameShape d.top d.top := ⟨fun hat => ⟨_, hat⟩, fun hat => hat⟩
  obtain ⟨follow, hfollow⟩ : ∃ follow, d.walk true hops = walkFrom d true follow := by
    cases hops <;> exact ⟨_, rfl⟩
  have hstraight : walkFrom d true (fun _ _ => .error .linkLoop) here segments =
    .ok (.taken location) := h
  rw [hfollow]
  exact walkFrom_append (P := (· = walkFrom d true follow location more)) hshape hdir
    (fun _ _ (hlink : Except.error Fault.linkLoop = .ok (Place.taken location)) => nomatch hlink)
    rfl (fun _ hfl => nomatch hfl) hstraight

theorem hasNull_below {segments : List String} (h : ∀ s ∈ segments, IsName s) {root : String}
    (hroot : hasNull root = false) : hasNull (Path.below root segments) = false := by
  induction segments generalizing root with
  | nil => exact hroot
  | cons name rest ih =>
    rw [List.forall_mem_cons] at h
    exact ih h.2 (hasNull_way hroot h.1 (by simp [ways]))

theorem below_mem_ways (root : String) (parents : List String) (name : String) :
    Path.below root (parents ++ [name]) ∈ ways (Path.below root parents) name := by
  rw [Path.below_child]
  simp [ways]

/-- The last segment of a way to an entry is its name. -/
theorem exists_segments_way {directory name way : String} (hdirectory : directory ≠ "")
    (hname : IsName name) (hway : way ∈ ways directory name) :
    Path.isRooted way = Path.isRooted directory ∧ way ≠ "" ∧
      ∃ init, Path.segments way = init ++ [name] ∧
        (init.filter fun s => !Path.isDot s) = Path.steps directory := by
  have hsegments : Path.segments name = [name] := Path.segments_undivided hname.noSlash
  have hsteps : Path.steps "." = [] := by decide
  rcases ways_cases hname hway with rfl | ⟨rfl, _, rfl⟩
  · refine ⟨?_, child_ne_empty hname directory, ?_⟩
    · rw [Path.child_eq_entrance hname.not_rooted,
        Path.isRooted_entrance hdirectory hname.not_rooted]
    · rw [Path.child_eq_entrance hname.not_rooted]
      rcases Path.entrance_cases directory with ⟨rfl, h⟩ | ⟨hempty, _⟩ | ⟨hslash, h⟩ | hplain
      · exact ⟨[], by rw [h, String.empty_append, hsegments]; rfl, hsteps.symm⟩
      · exact absurd hempty hdirectory
      · obtain ⟨q, rfl⟩ := Path.exists_of_endsInSlash hslash
        have hdot : Path.isDot "" = true := rfl
        refine ⟨Path.segments q, by rw [h, Path.segments_append, hsegments], ?_⟩
        simp [Path.steps, Path.segments_slash, hdot]
      · exact ⟨Path.segments directory, by rw [hplain.entrance, Path.segments_append, hsegments],
          rfl⟩
  · have hrooted : Path.isRooted ("." ++ "/" ++ name) = Path.isRooted "." := by
      rw [String.append_assoc, Path.isRooted_append (by decide)]
    have hdot : (["."].filter fun s => !Path.isDot s) = [] := by decide
    refine ⟨hrooted, by simp [String.append_eq_empty_iff], ["."], ?_, by rw [hdot, hsteps]⟩
    have hhere : Path.segments "." = ["."] := by decide
    rw [Path.segments_append, hsegments, hhere]

namespace LeadsStraight

variable {root : String} {location : List String} {es : Entries} (h : d.LeadsStraight root location)
  (hdir : d.at? location = some (.dir es))

include h hdir

theorem status : d.status root root = .ok (location, .dir es) := by
  have hwalk : d.walk true maxHops _ (Path.segments root ++ []) = d.walk true maxHops location [] :=
    walk_append_straight hdir maxHops h.walk
  rw [List.append_nil, walk_nil] at hwalk
  refine status_eq_ok_iff.mpr ⟨h.noNull, ?_, hdir⟩
  rw [placeOf, if_neg (by simp [h.shortPath]), if_neg h.ne_empty, hwalk]

/-- What stands below the path is found from the location on. -/
theorem placeOf_way {dirs : List String} {name way : String} (hdirs : ∀ s ∈ dirs, IsName s)
    (hname : IsName name) (hway : way ∈ ways (Path.below root dirs) name)
    (hshort : isLongPath way = false) :
    d.placeOf true way = d.walk true maxHops location (dirs ++ [name]) := by
  have hproper : ∀ s ∈ dirs, Path.IsProper s := fun s hs => (hdirs s hs).isProper
  have hbelow_ne : Path.below root dirs ≠ "" := by
    by_cases hnil : dirs = []
    · subst hnil
      exact h.ne_empty
    · exact (Path.isPlain_below hnil hproper root).ne_empty
  obtain ⟨hrooted, hne, init, hsegments, hinit⟩ := exists_segments_way hbelow_ne hname hway
  have hkept : (dirs.filter fun s => !Path.isDot s) = dirs :=
    List.filter_eq_self.mpr fun s hs => by simp [(hdirs s hs).notDot]
  rw [placeOf, if_neg (by simp [hshort]), if_neg hne, hrooted,
    (Path.climbed_below hproper h.ne_empty).1]
  calc d.walk true maxHops (if Path.isRooted root then [] else d.here) (Path.segments way)
      = d.walk true maxHops (if Path.isRooted root then [] else d.here)
          (Path.steps root ++ dirs ++ [name]) := by
        rw [hsegments, walk_steps, hinit, Path.steps_below root hdirs]
    _ = d.walk true maxHops (if Path.isRooted root then [] else d.here)
          (Path.segments root ++ (dirs ++ [name])) := by
        rw [← List.append_assoc, walk_steps (Path.segments root ++ dirs), List.filter_append, hkept]
        rfl
    _ = d.walk true maxHops location (dirs ++ [name]) := walk_append_straight hdir maxHops h.walk

end LeadsStraight

/-! ## Two paths of one directory -/

/-- No path below this one is too long for the system. -/
def HasRoom (root : String) (es : Entries) : Prop :=
  ∀ parents name node, Entries.at? (parents ++ [name]) es = some node →
    ∀ way ∈ ways (Path.below root parents) name, isLongPath way = false

/-- Two paths that lead straight to one directory. -/
structure Twins (d : Disk) (root root' : String) (location : List String) (es : Entries) :
    Prop where
  here : d.LeadsStraight root location
  there : d.LeadsStraight root' location
  directory : d.at? location = some (.dir es)
  tree : es.IsTree
  room : HasRoom root es
  room' : HasRoom root' es

theorem leadsToFile_iff {path : String} : d.leadsToFile path = true ↔
    ∃ location bytes, d.status path path = .ok (location, .file bytes) := by
  rw [leadsToFile]
  rcases d.status path path with e | ⟨location, node⟩
  · simp
  · cases node <;> simp

/-- What a path shows of a file. -/
theorem toOption_readLossy {path : String} (hnull : hasNull path = false) :
    (d.readLossy path path).toOption =
      match d.seen "" (d.placeOf true path) with
      | .ok (_, .file bytes) => some (normalized (Text.Utf8.decodeLossy bytes))
      | _ => none := by
  rw [readLossy, readBytes, status_eq_seen hnull]
  rcases d.placeOf true path with f | location | ⟨directory, name⟩
  · rfl
  · rw [seen, seen]
    cases d.at? location with
    | none => rfl
    | some node => cases node <;> rfl
  · rfl

/-- Whoever asks for a path that a file can have is told of no other failure than the disk's. -/
theorem readLossy_cases {path : String} (hnull : hasNull path = false) :
    (∃ text, d.readLossy path path = .ok text) ∨
      ∃ f p, d.readLossy path path = .error (.disk f p) := by
  rw [readLossy, readBytes, status_eq_seen hnull]
  rcases d.placeOf true path with f | location | ⟨directory, name⟩
  · exact .inr ⟨_, _, rfl⟩
  · rw [seen]
    cases d.at? location with
    | none => exact .inr ⟨_, _, rfl⟩
    | some node =>
      cases node with
      | file bytes => exact .inl ⟨_, rfl⟩
      | link target => exact .inr ⟨_, _, rfl⟩
      | dir sub => exact .inr ⟨_, _, rfl⟩
  · exact .inr ⟨_, _, rfl⟩

namespace Twins

variable {root root' : String} {location : List String} {es : Entries}
  (h : d.Twins root root' location es)

include h

theorem names {parents : List String} {name : String} {node : Node}
    (hat : es.at? (parents ++ [name]) = some node) :
    (∀ s ∈ parents, IsName s) ∧ IsName name := by
  have hnames := h.tree.names hat
  rwa [List.forall_mem_append, List.forall_mem_singleton] at hnames

theorem placeOf_way {parents : List String} {name : String} {node : Node}
    (hat : es.at? (parents ++ [name]) = some node) {way way' : String}
    (hway : way ∈ ways (Path.below root parents) name)
    (hway' : way' ∈ ways (Path.below root' parents) name) :
    d.placeOf true way' = d.placeOf true way := by
  obtain ⟨hparents, hname⟩ := h.names hat
  rw [h.here.placeOf_way h.directory hparents hname hway (h.room parents name node hat way hway),
    h.there.placeOf_way h.directory hparents hname hway' (h.room' parents name node hat way' hway')]

theorem seenAlike : SeenAlike es d root d root' where
  links parents name target hat := by
    obtain ⟨hparents, hname⟩ := h.names hat
    have hnull := hasNull_way (hasNull_below hparents h.here.noNull) hname
      (by simp [ways] : entryPath (Path.below root parents) name ∈ ways _ name)
    have hnull' := hasNull_way (hasNull_below hparents h.there.noNull) hname
      (by simp [ways] : entryPath (Path.below root' parents) name ∈ ways _ name)
    have hplace := h.placeOf_way hat
      (by simp [ways] : entryPath (Path.below root parents) name ∈ ways _ name)
      (by simp [ways] : entryPath (Path.below root' parents) name ∈ ways _ name)
    rw [Bool.eq_iff_iff, leadsToFile_iff, leadsToFile_iff]
    simp only [status_eq_ok_iff, hnull, hnull', hplace]
  directories parents sub hat := by
    rcases List.eq_nil_or_concat' parents with rfl | ⟨above, name, rfl⟩
    · exact h.there.shortPath.trans h.here.shortPath.symm
    · rw [h.room above name _ hat _ (below_mem_ways root above name),
        h.room' above name _ hat _ (below_mem_ways root' above name)]

/-- The same text is read below both paths. -/
theorem contents {parents : List String} {name : String} {node : Node}
    (hat : es.at? (parents ++ [name]) = some node) :
    (d.readLossy (Path.below root' (parents ++ [name]))
        (Path.below root' (parents ++ [name]))).toOption =
      (d.readLossy (Path.below root (parents ++ [name]))
        (Path.below root (parents ++ [name]))).toOption := by
  have hnames := h.tree.names hat
  rw [toOption_readLossy (hasNull_below hnames h.there.noNull),
    toOption_readLossy (hasNull_below hnames h.here.noNull),
    h.placeOf_way hat (below_mem_ways root parents name) (below_mem_ways root' parents name)]

end Twins

end Disk

/-! ## Reading -/

theorem Keyed.entries_insert_new {α : Type} {m : Keyed α} {key : String} (h : key ∉ m.keys)
    (value : α) : (m.insert key value).entries = m.entries ++ [(key, value)] := by
  have hput : ∀ es : List (String × α), key ∉ es.map Prod.fst →
      putIn key value es = es ++ [(key, value)] := by
    intro es
    induction es with
    | nil => exact fun _ => rfl
    | cons e rest ih =>
      intro hnew
      rw [List.map_cons, List.mem_cons, not_or] at hnew
      rw [putIn, if_neg (Ne.symm hnew.1), ih hnew.2]
      rfl
  exact hput m.entries h

/-- Reading files that differ gives the texts of those that can be read, in their order. -/
theorem exists_readSourcesFrom {d : Disk} {paths : List String}
    (hnull : ∀ path ∈ paths, Disk.hasNull path = false) (honce : paths.Nodup) :
    ∀ (read : Keyed String) (log : Log), (∀ path ∈ paths, path ∉ read.keys) →
      ∃ sources, (readSourcesFrom d read log paths).1 = .ok sources ∧
        sources.entries = read.entries ++
          paths.filterMap fun path => (d.readLossy path path).toOption.map (path, ·) := by
  induction paths with
  | nil => exact fun read log _ => ⟨read, rfl, by simp⟩
  | cons path rest ih =>
    intro read log hnew
    rw [List.forall_mem_cons] at hnull hnew
    obtain ⟨hfirst, hrest⟩ := List.nodup_cons.mp honce
    rw [readSourcesFrom]
    rcases Disk.readLossy_cases (d := d) hnull.1 with ⟨text, hread⟩ | ⟨f, p, hread⟩
    · have hlater : ∀ other ∈ rest, other ∉ (read.insert path text).keys := by
        intro other hother
        have hne : other ≠ path := fun heq => hfirst (heq ▸ hother)
        rw [Keyed.keys_insert]
        split
        · exact hnew.2 other hother
        · rw [List.mem_append, List.mem_singleton, not_or]
          exact ⟨hnew.2 other hother, hne⟩
      obtain ⟨sources, hsources, hentries⟩ := ih hnull.2 hrest (read.insert path text) log hlater
      refine ⟨sources, by rw [hread]; exact hsources, ?_⟩
      rw [hentries, Keyed.entries_insert_new hnew.1, List.filterMap_cons, hread]
      simp [Except.toOption]
    · rw [hread]
      obtain ⟨sources, hsources, hentries⟩ := ih hnull.2 hrest read _ hnew.2
      refine ⟨sources, hsources, ?_⟩
      rw [hentries, List.filterMap_cons, hread]
      rfl

theorem exists_readSources {d : Disk} {paths : List String}
    (hnull : ∀ path ∈ paths, Disk.hasNull path = false) (honce : paths.Nodup) :
    ∃ sources, (readSources d paths).1 = .ok sources ∧
      sources.entries =
        paths.filterMap fun path => (d.readLossy path path).toOption.map (path, ·) := by
  obtain ⟨sources, hsources, hentries⟩ :=
    exists_readSourcesFrom (d := d) hnull honce .empty [] (by simp [Keyed.keys, Keyed.empty])
  exact ⟨sources, hsources, by simpa [Keyed.empty] using hentries⟩

end ChangeImpact
