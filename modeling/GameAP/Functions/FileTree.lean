import GameAP.Lib.Table
import Mathlib.Data.List.Induction

/-!
# The file system

A path is the list of its names, and a file system is a table in which the parent of every entry is
a directory (`FileTree`). The calls may fail, and a directory is listed in any order (`Host`).
-/

namespace GameAP

open Lib

abbrev FsPath := List String

inductive FsEntry where
  | file (content : List UInt8)
  | directory
  /-- neither a regular file nor a directory -/
  | other
  deriving DecidableEq, Repr

structure FileTree where
  entries : Table FsPath FsEntry
  closed : ∀ p ∈ entries, p ≠ [] → entries.lookup p.dropLast = some .directory

namespace FileTree

def entry (fs : FileTree) (p : FsPath) : Option FsEntry := fs.entries.lookup p

/-- The names in a directory. -/
def children (fs : FileTree) (p : FsPath) : List String :=
  fs.entries.keys.filterMap fun q =>
    match q.getLast? with
    | some name => if q = p ++ [name] then some name else none
    | none => none

theorem closed_entry (fs : FileTree) {p : FsPath} {name : String}
    (h : (fs.entry (p ++ [name])).isSome) : fs.entry p = some .directory := by
  have hparent := fs.closed _ (AList.lookup_isSome.mp h) (by simp)
  rwa [List.dropLast_concat] at hparent

/-- Only a directory has something below it. -/
theorem entry_append_cons (fs : FileTree) {p : FsPath} {name : String} (rel : FsPath)
    (h : (fs.entry (p ++ name :: rel)).isSome) : fs.entry p = some .directory := by
  induction rel using List.reverseRecOn with
  | nil => exact fs.closed_entry h
  | append_singleton rel last ih =>
    refine ih ?_
    rw [← List.cons_append, ← List.append_assoc] at h
    rw [fs.closed_entry h]
    rfl

theorem mem_children {fs : FileTree} {p : FsPath} {name : String} :
    name ∈ fs.children p ↔ (fs.entry (p ++ [name])).isSome := by
  unfold children entry
  rw [List.mem_filterMap, AList.lookup_isSome, AList.mem_keys]
  constructor
  · rintro ⟨q, hq, hsome⟩
    split at hsome
    · split at hsome
      · next heq =>
        cases hsome
        rwa [← heq]
      · cases hsome
    · cases hsome
  · intro hmem
    exact ⟨p ++ [name], hmem, by simp⟩

/-- A new entry, or another in the place of one that is no directory. -/
def put (fs : FileTree) (p : FsPath) (e : FsEntry) (hparent : fs.entry p.dropLast = some .directory)
    (hp : fs.entry p ≠ some .directory) : FileTree where
  entries := fs.entries.insert p e
  closed q hq hne := by
    have hold : fs.entries.lookup q.dropLast = some .directory := by
      rcases (AList.mem_insert fs.entries).mp hq with rfl | hmem
      · exact hparent
      · exact fs.closed q hmem hne
    have hother : q.dropLast ≠ p := by
      rintro rfl
      exact hp hold
    rw [AList.lookup_insert_ne hother]
    exact hold

theorem entry_put {fs : FileTree} {p q : FsPath} {e : FsEntry} {hparent hp} :
    (fs.put p e hparent hp).entry q = if q = p then some e else fs.entry q := by
  unfold put entry
  by_cases hq : q = p
  · subst hq
    rw [if_pos rfl, AList.lookup_insert]
  · rw [if_neg hq, AList.lookup_insert_ne hq]

/-- What holds of the entries of the table holds of all. -/
theorem forall_entry {P : FsPath → FsEntry → Prop} {fs : FileTree}
    (h : ∀ p ∈ fs.entries.keys, ∀ e ∈ fs.entry p, P p e) {p : FsPath} {e : FsEntry}
    (he : fs.entry p = some e) : P p e := by
  refine h p (AList.mem_keys.mp (Table.mem_of_lookup he)) e he

theorem nodup_children (fs : FileTree) (p : FsPath) : (fs.children p).Nodup := by
  unfold children
  refine List.Nodup.filterMap ?_ fs.entries.keys_nodup
  intro q q' name hq hq'
  have hname : ∀ q : FsPath, (match q.getLast? with
      | some name => if q = p ++ [name] then some name else none
      | none => none) = some name → q = p ++ [name] := by
    intro q hsome
    split at hsome
    · split at hsome
      · next heq =>
        cases hsome
        exact heq
      · cases hsome
    · cases hsome
  exact (hname q hq).trans (hname q' hq').symm

end FileTree

/-! ## The calls -/

/-- `fs::filesystem_error` -/
inductive FsError where
  | filesystemError
  deriving DecidableEq, Repr

inductive FsCall where
  | status (p : FsPath)
  | createDirectory (p : FsPath)
  | directoryIterator (p : FsPath)
  /-- `++file` behind this name -/
  | increment (p : FsPath) (name : String)
  | copyFile (source destination : FsPath)
  deriving DecidableEq, Repr

/-- What the calls depend on besides the entries. -/
structure Host where
  fails : FileTree → FsCall → Bool
  /-- The names in a directory as the iterator lists them. -/
  list : FileTree → FsPath → List String
  /-- How many bytes a `copy_file` that fails has written, if it has opened the destination. -/
  written : FileTree → FsPath → FsPath → Option Nat
  /-- A copy from or to what is neither a regular file nor a directory. -/
  copy : FileTree → FsPath → FsPath → Except FsError PUnit × FileTree

namespace Host

def pathExists (h : Host) (fs : FileTree) (p : FsPath) : Except FsError Bool :=
  if h.fails fs (.status p) then .error .filesystemError else .ok (fs.entry p).isSome

def isDirectory (h : Host) (fs : FileTree) (p : FsPath) : Except FsError Bool :=
  if h.fails fs (.status p) then .error .filesystemError
  else .ok (fs.entry p == some .directory)

def isRegularFile (h : Host) (fs : FileTree) (p : FsPath) : Except FsError Bool :=
  if h.fails fs (.status p) then .error .filesystemError
  else .ok (fs.entry p matches some (.file _))

/-- Whether the directory has been created. -/
def createDirectory (h : Host) (fs : FileTree) (p : FsPath) : Except FsError (Bool × FileTree) :=
  if h.fails fs (.createDirectory p) then .error .filesystemError
  else if fs.entry p = some .directory then .ok (false, fs)
  else if hnew : fs.entry p = none ∧ fs.entry p.dropLast = some .directory then
    .ok (true, fs.put p .directory hnew.2 (by rw [hnew.1]; exact nofun))
  else .error .filesystemError

/-- `copy_file` with `overwrite_if_exists`: the destination is emptied before anything is written. -/
def copyFile (h : Host) (fs : FileTree) (source destination : FsPath) :
    Except FsError PUnit × FileTree :=
  match fs.entry source with
  | some (.file content) =>
    if fs.entry destination = some .other then h.copy fs source destination
    else if hput : fs.entry destination.dropLast = some .directory ∧
        fs.entry destination ≠ some .directory then
      if h.fails fs (.copyFile source destination) then
        match h.written fs source destination with
        | some n => (.error .filesystemError,
            fs.put destination (.file (content.take n)) hput.1 hput.2)
        | none => (.error .filesystemError, fs)
      else (.ok ⟨⟩, fs.put destination (.file content) hput.1 hput.2)
    else (.error .filesystemError, fs)
  | _ => (.error .filesystemError, fs)

end Host

end GameAP
