import GameAP.Functions.FileTree
import GameAP.Lib.Overlay

/-!
# `copy_dir`

What is in a directory is copied one after the other, in the order in which the iterator lists it.
`copyDir_overlay`: if all calls succeed, the copy ends, and the destination is the source laid over
what was there.
-/

namespace GameAP

open Lib

/-! ## `copy_dir` -/

/-- How `copy_dir` ends. -/
inductive Copied where
  | returned (ok : Bool)
  | threw
  deriving DecidableEq, Repr

/-- The first `try` block: whether it goes on. -/
def prepareCopy (h : Host) (source destination : FsPath) (fs : FileTree) :
    Except FsError (Bool × FileTree) := do
  if !(← h.pathExists fs source) then return (false, fs)
  if !(← h.isDirectory fs source) then return (false, fs)
  if !(← h.pathExists fs destination) then h.createDirectory fs destination
  else return (true, fs)

/-- The body of the second `try` block: how it ends, or the exception that is caught. -/
def copyEntry (h : Host) (copyDir : FsPath → FsPath → FileTree → Option (Copied × FileTree))
    (current target : FsPath) (fs : FileTree) : Option (Copied × FileTree) :=
  match h.isDirectory fs current with
  | .error _ => some (.threw, fs)
  | .ok true => copyDir current target fs
  | .ok false =>
    match h.isRegularFile fs current with
    | .error _ => some (.threw, fs)
    | .ok regular =>
      match if regular then h.copyFile fs current target else h.copy fs current target with
      | (.error _, fs) => some (.threw, fs)
      | (.ok _, fs) => some (.returned true, fs)

/-- The loop over the names that the iterator lists; what `++file` throws is not caught. -/
def copyEntries (h : Host) (copyDir : FsPath → FsPath → FileTree → Option (Copied × FileTree))
    (source destination : FsPath) : List String → FileTree → Option (Copied × FileTree)
  | [], fs => some (.returned true, fs)
  | name :: names, fs =>
    match copyEntry h copyDir (source ++ [name]) (destination ++ [name]) fs with
    | none => none
    | some (.returned true, fs) =>
      if h.fails fs (.increment source name) then some (.threw, fs)
      else copyEntries h copyDir source destination names fs
    | some (_, fs) => some (.returned false, fs)

/-- `none` if more than `n` calls of it would be nested. -/
def copyDir (h : Host) : Nat → FsPath → FsPath → FileTree → Option (Copied × FileTree)
  | 0, _, _, _ => none
  | n + 1, source, destination, fs =>
    match prepareCopy h source destination fs with
    | .error _ => some (.returned false, fs)
    | .ok (false, fs) => some (.returned false, fs)
    | .ok (true, fs) =>
      if h.fails fs (.directoryIterator source) then some (.threw, fs)
      else copyEntries h (copyDir h n) source destination (h.list fs source) fs

/-! ## One entry -/

def FsEntry.SameKind : FsEntry → FsEntry → Prop
  | .file _, .file _ => True
  | .directory, .directory => True
  | _, _ => False

instance : DecidableRel FsEntry.SameKind
  | .file _, .file _ => isTrue trivial
  | .directory, .directory => isTrue trivial
  | .file _, .directory | .file _, .other | .directory, .file _ | .directory, .other => isFalse id
  | .other, _ => isFalse id

/-- What is at `source` can be copied to `destination`. -/
structure Copyable (fs : FileTree) (source destination : FsPath) : Prop where
  present : (fs.entry source).isSome
  regular : ∀ rel, fs.entry (source ++ rel) ≠ some .other
  separate : Separate source destination
  parent : fs.entry destination.dropLast = some .directory
  sameKind : ∀ rel e d, fs.entry (source ++ rel) = some e → fs.entry (destination ++ rel) = some d →
    e.SameKind d

/-- No path below `source` has more than `n` names more. -/
def DepthLe (fs : FileTree) (source : FsPath) (n : Nat) : Prop :=
  ∀ rel, (fs.entry (source ++ rel)).isSome → rel.length ≤ n

/-- A call of `copy_dir` lays the source over the destination. -/
def Overlays (copyDir : FsPath → FsPath → FileTree → Option (Copied × FileTree))
    (source destination : FsPath) (fs : FileTree) : Prop :=
  ∃ fs', copyDir source destination fs = some (.returned true, fs') ∧
    fs'.entry = overlay source destination fs.entry

structure Host.Succeeds (h : Host) : Prop where
  fails : ∀ fs c, h.fails fs c = false
  list : ∀ fs p, (h.list fs p).Perm (fs.children p)

variable {h : Host} {fs fs' : FileTree} {source destination : FsPath} {n : Nat} {name : String}
  {names : List String} {call : FsPath → FsPath → FileTree → Option (Copied × FileTree)}

theorem Copyable.congr (hc : Copyable fs source destination)
    (hsource : ∀ rel, fs'.entry (source ++ rel) = fs.entry (source ++ rel))
    (hdestination : ∀ rel, fs'.entry (destination ++ rel) = fs.entry (destination ++ rel))
    (hparent : fs'.entry destination.dropLast = fs.entry destination.dropLast) :
    Copyable fs' source destination where
  present := by
    have hroot := hsource []
    rw [List.append_nil] at hroot
    rw [hroot]
    exact hc.present
  regular rel := by
    rw [hsource]
    exact hc.regular rel
  separate := hc.separate
  parent := by rw [hparent, hc.parent]
  sameKind rel e d he hd := by
    rw [hsource] at he
    rw [hdestination] at hd
    exact hc.sameKind rel e d he hd

/-- What is at the destination already. -/
theorem Copyable.sameKind_root (hc : Copyable fs source destination) {e d : FsEntry}
    (he : fs.entry source = some e) (hd : fs.entry destination = some d) : e.SameKind d :=
  hc.sameKind [] e d (by rwa [List.append_nil]) (by rwa [List.append_nil])

theorem isDirectory_ok (hs : h.Succeeds) (p : FsPath) :
    h.isDirectory fs p = .ok (fs.entry p == some .directory) := by
  unfold Host.isDirectory
  rw [hs.fails]
  rfl

theorem pathExists_ok (hs : h.Succeeds) (p : FsPath) :
    h.pathExists fs p = .ok (fs.entry p).isSome := by
  unfold Host.pathExists
  rw [hs.fails]
  rfl

theorem copyFile_ok (hs : h.Succeeds) {content : List UInt8}
    (hc : Copyable fs source destination) (hfile : fs.entry source = some (.file content)) :
    ∃ fs', h.copyFile fs source destination = (.ok ⟨⟩, fs') ∧
      ∀ p, fs'.entry p = if p = destination then some (.file content) else fs.entry p := by
  have hother : fs.entry destination ≠ some .other := fun hd => hc.sameKind_root hfile hd
  have hdirectory : fs.entry destination ≠ some .directory := fun hd => hc.sameKind_root hfile hd
  refine ⟨fs.put destination (.file content) hc.parent hdirectory, ?_, fun p => FileTree.entry_put⟩
  unfold Host.copyFile
  rw [hfile]
  simp only [if_neg hother]
  rw [dif_pos ⟨hc.parent, hdirectory⟩, hs.fails]
  rfl

/-- A file laid over a file or over nothing. -/
theorem overlay_file {content : List UInt8} (hfile : fs.entry source = some (.file content))
    (hput : ∀ p, fs'.entry p = if p = destination then some (.file content) else fs.entry p) :
    fs'.entry = overlay source destination fs.entry := by
  funext p
  rw [hput]
  by_cases hp : destination <+: p
  · obtain ⟨rel, rfl⟩ := hp
    rw [overlay_below]
    cases rel with
    | nil =>
      rw [List.append_nil, List.append_nil, if_pos rfl, hfile]
      rfl
    | cons name rel =>
      have hnone : fs.entry (source ++ name :: rel) = none := by
        refine Option.not_isSome_iff_eq_none.mp fun hsome => ?_
        have hdirectory := fs.entry_append_cons rel hsome
        rw [hfile] at hdirectory
        cases hdirectory
      rw [if_neg (by simp), hnone, Option.none_or]
  · have hne : p ≠ destination := by
      rintro rfl
      exact hp List.prefix_rfl
    rw [overlay_frame hp, if_neg hne]

theorem copyEntry_overlays (hs : h.Succeeds)
    (hcall : fs.entry source = some .directory → Overlays call source destination fs)
    (hc : Copyable fs source destination) :
    Overlays (copyEntry h call) source destination fs := by
  unfold Overlays copyEntry
  rw [isDirectory_ok hs]
  obtain ⟨e, he⟩ := Option.isSome_iff_exists.mp hc.present
  cases e with
  | directory =>
    rw [he]
    exact hcall he
  | file content =>
    obtain ⟨fs', hcopy, hput⟩ := copyFile_ok hs hc he
    have hfile : (some (FsEntry.file content) == some .directory) = false :=
      beq_eq_false_iff_ne.mpr nofun
    refine ⟨fs', ?_, overlay_file he hput⟩
    unfold Host.isRegularFile
    rw [hs.fails, he, hfile]
    simp [hcopy]
  | other =>
    have hregular := hc.regular []
    rw [List.append_nil] at hregular
    exact absurd he hregular

/-! ## The entries of a directory -/

/-- Another entry can still be copied, when one has been. -/
theorem Copyable.behind {other : String} (hseparate : Separate source destination)
    (hcopied : fs'.entry = overlay (source ++ [name]) (destination ++ [name]) fs.entry)
    (hne : name ≠ other) (hc : Copyable fs (source ++ [other]) (destination ++ [other])) :
    Copyable fs' (source ++ [other]) (destination ++ [other]) := by
  refine hc.congr (fun rel => ?_) (fun rel => ?_) ?_
  · rw [List.append_assoc, hcopied, overlay_source hseparate]
  · rw [List.append_assoc, hcopied, List.singleton_append, overlay_frame (not_prefix_of_ne hne)]
  · rw [List.dropLast_concat, hcopied, overlay_frame]
    intro hp
    have hle := hp.length_le
    rw [List.length_append, List.length_singleton] at hle
    omega

theorem DepthLe.behind {other : String} (hseparate : Separate source destination)
    (hcopied : fs'.entry = overlay (source ++ [name]) (destination ++ [name]) fs.entry)
    (hdepth : DepthLe fs (source ++ [other]) n) : DepthLe fs' (source ++ [other]) n := by
  intro rel hrel
  rw [List.append_assoc, hcopied, overlay_source hseparate, ← List.append_assoc] at hrel
  exact hdepth rel hrel

theorem copyEntries_overlayAll (hs : h.Succeeds) (hseparate : Separate source destination)
    (hcall : ∀ s d fs, fs.entry s = some .directory → Copyable fs s d → DepthLe fs s n →
      Overlays call s d fs)
    (hnodup : names.Nodup)
    (hc : ∀ name ∈ names, Copyable fs (source ++ [name]) (destination ++ [name]))
    (hdepth : ∀ name ∈ names, DepthLe fs (source ++ [name]) n) :
    ∃ fs', copyEntries h call source destination names fs = some (.returned true, fs') ∧
      fs'.entry = overlayAll source destination names fs.entry := by
  induction names generalizing fs with
  | nil => exact ⟨fs, rfl, rfl⟩
  | cons name names ih =>
    obtain ⟨hnotMem, hnodup⟩ := List.nodup_cons.mp hnodup
    have hname := hc name List.mem_cons_self
    have hfirst : Overlays call (source ++ [name]) (destination ++ [name]) fs ∨
        fs.entry (source ++ [name]) ≠ some .directory := by
      by_cases hdirectory : fs.entry (source ++ [name]) = some .directory
      · exact .inl (hcall _ _ _ hdirectory hname (hdepth name List.mem_cons_self))
      · exact .inr hdirectory
    obtain ⟨fs1, hcopy, hfs1⟩ := copyEntry_overlays hs
      (fun hdirectory => hfirst.resolve_right fun hne => hne hdirectory) hname
    have hkept : ∀ other ∈ names, Copyable fs1 (source ++ [other]) (destination ++ [other]) := by
      intro other hother
      have hne : name ≠ other := fun he => hnotMem (he ▸ hother)
      exact (hc other (List.mem_cons_of_mem _ hother)).behind hseparate hfs1 hne
    have hdepth1 : ∀ other ∈ names, DepthLe fs1 (source ++ [other]) n := fun other hother =>
      (hdepth other (List.mem_cons_of_mem _ hother)).behind hseparate hfs1
    obtain ⟨fs2, hcopies, hfs2⟩ := ih hnodup hkept hdepth1
    refine ⟨fs2, ?_, ?_⟩
    · unfold copyEntries
      rw [hcopy]
      simp only [hs.fails, Bool.false_eq_true, if_false]
      exact hcopies
    · rw [hfs2, hfs1]
      rfl

/-! ## Directories -/

/-- The destination is there, and nothing else has changed. -/
theorem prepareCopy_ok (hs : h.Succeeds) (hdirectory : fs.entry source = some .directory)
    (hc : Copyable fs source destination) :
    ∃ fs', prepareCopy h source destination fs = .ok (true, fs') ∧
      ∀ p, fs'.entry p = if p = destination then some .directory else fs.entry p := by
  unfold prepareCopy
  rw [pathExists_ok hs, isDirectory_ok hs, hdirectory, pathExists_ok hs]
  cases hd : fs.entry destination with
  | some d =>
    have hkind := hc.sameKind_root hdirectory hd
    cases d with
    | directory =>
      refine ⟨fs, rfl, fun p => ?_⟩
      split
      · next he => rw [he, hd]
      · rfl
    | file content => exact hkind.elim
    | other => exact hkind.elim
  | none =>
    have hne : fs.entry destination ≠ some .directory := by
      rw [hd]
      exact (Option.some_ne_none _).symm
    refine ⟨fs.put destination .directory hc.parent hne, ?_, fun p => FileTree.entry_put⟩
    have hcreate : h.createDirectory fs destination =
        .ok (true, fs.put destination .directory hc.parent hne) := by
      unfold Host.createDirectory
      rw [hs.fails]
      simp only [Bool.false_eq_true, if_false, if_neg hne]
      rw [dif_pos ⟨hd, hc.parent⟩]
    exact hcreate

/-- Creating the destination does not touch the source. -/
theorem created_source (hseparate : Separate source destination)
    (hput : ∀ p, fs'.entry p = if p = destination then some .directory else fs.entry p)
    (rel : FsPath) : fs'.entry (source ++ rel) = fs.entry (source ++ rel) := by
  rw [hput, if_neg]
  intro he
  exact hseparate.1 (he ▸ List.prefix_append source rel)

/-- A directory that is created does not change the overlay. -/
theorem overlay_created (hseparate : Separate source destination)
    (hdirectory : fs.entry source = some .directory)
    (hput : ∀ p, fs'.entry p = if p = destination then some .directory else fs.entry p) :
    overlay source destination fs'.entry = overlay source destination fs.entry := by
  have hsource := created_source hseparate hput
  funext p
  by_cases hp : destination <+: p
  · obtain ⟨rel, rfl⟩ := hp
    rw [overlay_below, overlay_below, hsource, hput]
    cases rel with
    | nil =>
      rw [List.append_nil, List.append_nil, hdirectory]
      rfl
    | cons name rel => rw [if_neg (by simp)]
  · have hne : p ≠ destination := by
      rintro rfl
      exact hp List.prefix_rfl
    rw [overlay_frame hp, overlay_frame hp, hput, if_neg hne]

/-- The children of a directory can be copied once the destination is there. -/
theorem Copyable.child (hc : Copyable fs source destination)
    (hput : ∀ p, fs'.entry p = if p = destination then some .directory else fs.entry p)
    (hname : (fs'.entry (source ++ [name])).isSome) :
    Copyable fs' (source ++ [name]) (destination ++ [name]) := by
  have hsource := created_source hc.separate hput
  constructor
  case present => exact hname
  case regular =>
    intro rel
    rw [List.append_assoc, hsource]
    exact hc.regular _
  case separate => exact hc.separate.children [name] [name]
  case parent => rw [List.dropLast_concat, hput, if_pos rfl]
  case sameKind =>
    intro rel e d he hd
    rw [List.append_assoc, hsource] at he
    rw [List.append_assoc, hput, if_neg (by simp)] at hd
    exact hc.sameKind _ e d he hd

theorem mem_list (hs : h.Succeeds) :
    name ∈ h.list fs source ↔ (fs.entry (source ++ [name])).isSome := by
  rw [(hs.list fs source).mem_iff, FileTree.mem_children]

theorem nodup_list (hs : h.Succeeds) : (h.list fs source).Nodup :=
  (hs.list fs source).nodup_iff.mpr (FileTree.nodup_children _ _)

/-- The iterator lists whatever has something below it. -/
theorem mem_list_of_below (hs : h.Succeeds) {rel : FsPath}
    (hsome : (fs.entry (source ++ name :: rel)).isSome) : name ∈ h.list fs source := by
  rw [mem_list hs]
  cases rel with
  | nil => exact hsome
  | cons below rel =>
    have hassoc : source ++ name :: below :: rel = source ++ [name] ++ below :: rel := by
      rw [List.append_assoc, List.singleton_append]
    rw [fs.entry_append_cons rel (hassoc ▸ hsome)]
    rfl

theorem DepthLe.child (hdepth : DepthLe fs source (n + 1)) :
    DepthLe fs (source ++ [name]) n := by
  intro rel hrel
  rw [List.append_assoc] at hrel
  have hle := hdepth _ hrel
  rw [List.length_append, List.length_singleton] at hle
  omega

/-- What one call does, with enough of them that may be nested. -/
theorem copyDir_overlays (hs : h.Succeeds) (hdirectory : fs.entry source = some .directory)
    (hc : Copyable fs source destination) (hdepth : DepthLe fs source n) {m : Nat} (hm : n < m) :
    Overlays (copyDir h m) source destination fs := by
  induction m generalizing n fs source destination with
  | zero => omega
  | succ m ih =>
    obtain ⟨fs1, hprepare, hput⟩ := prepareCopy_ok hs hdirectory hc
    have hsource := created_source hc.separate hput
    have hdepth1 : DepthLe fs1 source n := fun rel hrel => hdepth rel (hsource rel ▸ hrel)
    have hcopies : ∃ fs2, copyEntries h (copyDir h m) source destination (h.list fs1 source) fs1 =
        some (.returned true, fs2) ∧
        fs2.entry = overlayAll source destination (h.list fs1 source) fs1.entry := by
      cases n with
      | zero =>
        have hnil : h.list fs1 source = [] := List.eq_nil_iff_forall_not_mem.mpr fun name hname =>
          absurd (hdepth1 [name] ((mem_list hs).mp hname)) (by simp)
        rw [hnil]
        exact ⟨fs1, rfl, rfl⟩
      | succ n =>
        refine copyEntries_overlayAll hs hc.separate ?_ (nodup_list hs)
          (fun name hname => hc.child hput ((mem_list hs).mp hname))
          (fun name _ => hdepth1.child)
        exact fun s d fs hdirectory hc hdepth => ih hdirectory hc hdepth (by omega)
    obtain ⟨fs2, hcopies, hfs2⟩ := hcopies
    refine ⟨fs2, ?_, ?_⟩
    · unfold copyDir
      rw [hprepare]
      simp only [hs.fails, Bool.false_eq_true, if_false]
      exact hcopies
    · have hroot : (fs1.entry source).or (fs1.entry destination) = fs1.entry destination := by
        have hsource0 := hsource []
        rw [List.append_nil, hdirectory] at hsource0
        rw [hsource0, hput destination, if_pos rfl]
        rfl
      rw [hfs2, overlayAll_eq hc.separate (nodup_list hs) hroot
        (fun name rel hsome => mem_list_of_below hs hsome),
        overlay_created hc.separate hdirectory hput]

/-- The names of a path are bounded, as the table is finite. -/
theorem exists_depthLe (fs : FileTree) (source : FsPath) : ∃ n, DepthLe fs source n := by
  refine ⟨(fs.entries.keys.map List.length).max?.getD 0, fun rel hrel => ?_⟩
  have hmem : source ++ rel ∈ fs.entries.keys := AList.mem_keys.mp (AList.lookup_isSome.mp hrel)
  have hle := List.le_max?_getD_of_mem (k := 0) (List.mem_map_of_mem (f := List.length) hmem)
  rw [List.length_append] at hle
  omega

/-- **Copying a directory.** Whatever the order of the names, the copy ends with `true`, and the
file system is the source laid over the destination. -/
theorem copyDir_overlay (h : Host) (fs : FileTree) (source destination : FsPath)
    (hs : h.Succeeds) (hsource : fs.entry source = some .directory)
    (hregular : ∀ rel, fs.entry (source ++ rel) ≠ some .other)
    (hseparate : Separate source destination)
    (hdestination : fs.entry destination = some .directory ∨
      fs.entry destination = none ∧ fs.entry destination.dropLast = some .directory)
    (hkind : ∀ rel e d, fs.entry (source ++ rel) = some e →
      fs.entry (destination ++ rel) = some d → e.SameKind d) :
    ∃ n, ∀ m ≥ n, ∃ fs', copyDir h m source destination fs = some (.returned true, fs') ∧
      fs'.entry = overlay source destination fs.entry := by
  have hparent : fs.entry destination.dropLast = some .directory := by
    rcases hdestination with hdirectory | ⟨-, hparent⟩
    · have hmem : destination ∈ fs.entries :=
        Table.mem_of_lookup hdirectory
      refine fs.closed _ hmem ?_
      rintro rfl
      exact hseparate.2 List.nil_prefix
    · exact hparent
  have hc : Copyable fs source destination :=
    { present := hsource ▸ rfl, regular := hregular, separate := hseparate, parent := hparent
      sameKind := hkind }
  obtain ⟨n, hdepth⟩ := exists_depthLe fs source
  exact ⟨n + 1, fun m hm => copyDir_overlays hs hsource hc hdepth hm⟩

/-- A root directory. -/
def emptyTree : FileTree where
  entries := AList.insert [] .directory ∅
  closed p hp hne := by
    rcases (AList.mem_insert _).mp hp with rfl | hmem
    · exact absurd rfl hne
    · exact absurd hmem (AList.notMem_empty p)

/-- A game with a map, and a server that has some of it and something else. -/
def mergeTree : FileTree :=
  ((((((emptyTree.put ["from"] .directory (by decide) (by decide)).put
    ["from", "server.cfg"] (.file [1]) (by decide) (by decide)).put
    ["from", "maps"] .directory (by decide) (by decide)).put
    ["from", "maps", "a.bsp"] (.file [2]) (by decide) (by decide)).put
    ["to"] .directory (by decide) (by decide)).put
    ["to", "server.cfg"] (.file [3]) (by decide) (by decide)).put
    ["to", "logs"] .directory (by decide) (by decide)

/-- All calls succeed, and the names are listed in the order of the table. -/
def plainHost : Host where
  fails _ _ := false
  list fs p := fs.children p
  written _ _ _ := none
  copy fs _ _ := (.error .filesystemError, fs)

theorem mergeTree_regular (p : FsPath) : mergeTree.entry p ≠ some .other := by
  intro hother
  have hall : ∀ p ∈ mergeTree.entries.keys, ∀ e ∈ mergeTree.entry p, e ≠ .other := by decide
  exact FileTree.forall_entry hall hother rfl

theorem mergeTree_sameKind (rel : FsPath) (e d : FsEntry)
    (he : mergeTree.entry (["from"] ++ rel) = some e)
    (hd : mergeTree.entry (["to"] ++ rel) = some d) : e.SameKind d := by
  have hall : ∀ p ∈ mergeTree.entries.keys, ∀ e ∈ mergeTree.entry p,
      ["from"] <+: p → ∀ d ∈ mergeTree.entry (["to"] ++ p.tail), e.SameKind d := by decide
  exact FileTree.forall_entry hall he (List.prefix_append _ rel) d hd

/-- The file is replaced, the map is added, and the rest stays. -/
theorem mergeTree_copied : ∃ n, ∀ m ≥ n, ∃ fs',
    copyDir plainHost m ["from"] ["to"] mergeTree = some (.returned true, fs') ∧
      fs'.entry = overlay ["from"] ["to"] mergeTree.entry ∧
      fs'.entry ["to", "server.cfg"] = some (.file [1]) ∧
      fs'.entry ["to", "maps", "a.bsp"] = some (.file [2]) ∧
      fs'.entry ["to", "logs"] = some .directory := by
  obtain ⟨n, hn⟩ := copyDir_overlay plainHost mergeTree ["from"] ["to"]
    ⟨fun _ _ => rfl, fun _ _ => .rfl⟩ rfl (fun rel => mergeTree_regular _)
    ⟨by decide, by decide⟩ (.inl rfl) mergeTree_sameKind
  refine ⟨n, fun m hm => ?_⟩
  obtain ⟨fs', hcopy, hfs'⟩ := hn m hm
  refine ⟨fs', hcopy, hfs', ?_⟩
  rw [hfs']
  decide

end GameAP
