import GameAP.Functions.CopyDir
import GameAP.Lib.Keeps
import GameAP.Lib.Run

/-!
# `copy_dir` when calls fail

Any call may fail, a copy of a file also after it has written a part of it, and the names come in
any order. `copyDir_sound`: nothing outside the destination is changed, and if `copy_dir` returns
`true`, everything below the source is below the destination. `copyDir_retry`: copies that have
been broken off do not harm a later one.
-/

namespace GameAP

open Lib

/-- What is copied: files with their content, and something for everything. -/
structure Laid (source destination : FsPath) (f g : FsPath → Option FsEntry) : Prop where
  file : ∀ rel content, f (source ++ rel) = some (.file content) →
    g (destination ++ rel) = some (.file content)
  present : ∀ rel, (f (source ++ rel)).isSome → (g (destination ++ rel)).isSome

/-- There are only files and directories below the two. -/
structure NoOther (source destination : FsPath) (f : FsPath → Option FsEntry) : Prop where
  source : ∀ rel, f (source ++ rel) ≠ some .other
  destination : ∀ rel, f (destination ++ rel) ≠ some .other

/-- What has been changed has something of the same kind in the source. -/
abbrev PartCopied (source destination : FsPath) (f g : FsPath → Option FsEntry) : Prop :=
  Partway FsEntry.SameKind source destination f g

/-- What a copy of `source` to `destination` has done when it ends. -/
structure CopyOutcome (source destination : FsPath) (fs : FileTree) (r : Copied) (fs' : FileTree) :
    Prop where
  partway : PartCopied source destination fs.entry fs'.entry
  laid : r = .returned true → Laid source destination fs.entry fs'.entry

/-- The names that the iterator lists. -/
def Host.ListsChildren (h : Host) : Prop := ∀ fs p, (h.list fs p).Perm (fs.children p)

variable {h : Host} {fs fs' : FileTree} {source destination : FsPath} {n : Nat} {name : String}
  {names : List String} {call call' : FsPath → FsPath → FileTree → Option (Copied × FileTree)}
  {r : Copied}

theorem NoOther.child {f : FsPath → Option FsEntry} (x : FsPath)
    (hf : NoOther source destination f) : NoOther (source ++ x) (destination ++ x) f where
  source rel := by
    rw [List.append_assoc]
    exact hf.source _
  destination rel := by
    rw [List.append_assoc]
    exact hf.destination _

theorem FsEntry.SameKind.ne_other {e d : FsEntry} (h : e.SameKind d) : d ≠ .other := by
  rintro rfl
  cases e <;> exact h

theorem FsEntry.SameKind.trans {e d c : FsEntry} (h : e.SameKind d) (h' : d.SameKind c) :
    e.SameKind c := by
  cases e <;> cases d <;> cases c <;> trivial

theorem NoOther.partway {f g : FsPath → Option FsEntry} (hf : NoOther source destination f)
    (hseparate : Separate source destination) (hg : PartCopied source destination f g) :
    NoOther source destination g where
  source rel := by
    rw [hg.source hseparate]
    exact hf.source rel
  destination rel := by
    obtain heq | ⟨rel', e, e', hrel, he, he', hkind⟩ := hg (destination ++ rel)
    · rw [heq]
      exact hf.destination rel
    · rw [he']
      exact fun h => hkind.ne_other (Option.some.inj h)

/-- What has been copied stays so if nothing is changed there. -/
theorem Laid.of_destination {f g g' : FsPath → Option FsEntry}
    (hdestination : ∀ rel, g' (destination ++ rel) = g (destination ++ rel))
    (hlaid : Laid source destination f g) : Laid source destination f g' where
  file rel content hfile := (hdestination rel).trans (hlaid.file rel content hfile)
  present rel hrel := (hdestination rel).symm ▸ hlaid.present rel hrel

theorem Laid.of_source {f f' g : FsPath → Option FsEntry}
    (hsource : ∀ rel, f' (source ++ rel) = f (source ++ rel))
    (hlaid : Laid source destination f' g) : Laid source destination f g where
  file rel content hfile := hlaid.file rel content (hsource rel ▸ hfile)
  present rel hrel := hlaid.present rel (hsource rel ▸ hrel)

/-- The children make the whole. -/
theorem Laid.of_children {f g : FsPath → Option FsEntry} (hroot : f source = some .directory)
    (hdestination : (g destination).isSome)
    (hchildren : ∀ name rel, (f (source ++ name :: rel)).isSome →
      Laid (source ++ [name]) (destination ++ [name]) f g) : Laid source destination f g := by
  have hassoc : ∀ (p : FsPath) name rel, p ++ [name] ++ rel = p ++ name :: rel := by
    intro p name rel
    rw [List.append_assoc, List.singleton_append]
  constructor
  · intro rel content hfile
    cases rel with
    | nil =>
      rw [List.append_nil, hroot] at hfile
      cases hfile
    | cons name rel =>
      have hlaid := hchildren name rel (by rw [hfile]; rfl)
      rw [← hassoc] at hfile ⊢
      exact hlaid.file rel content hfile
  · intro rel hrel
    cases rel with
    | nil => rwa [List.append_nil]
    | cons name rel =>
      have hlaid := hchildren name rel hrel
      rw [← hassoc] at hrel ⊢
      exact hlaid.present rel hrel

/-- A copy that has not returned `true` may have done nothing. -/
theorem copyOutcome_refl (hr : r ≠ .returned true) :
    CopyOutcome source destination fs r fs where
  partway := .refl _ _ _ _
  laid h := absurd h hr

/-! ## One entry -/

/-- A file has been written, with whatever content. -/
theorem partCopied_put {content written : List UInt8}
    (hfile : fs.entry source = some (.file content))
    (hput : ∀ p, fs'.entry p = if p = destination then some (.file written) else fs.entry p) :
    PartCopied source destination fs.entry fs'.entry := by
  intro p
  rw [hput]
  split
  · next hp =>
    refine .inr ⟨[], .file content, .file written, by rw [hp, List.append_nil], ?_, rfl, trivial⟩
    rw [List.append_nil, hfile]
  · exact .inl rfl

/-- A file that has been copied. -/
theorem copyOutcome_file {content : List UInt8} (hfile : fs.entry source = some (.file content))
    (hput : ∀ p, fs'.entry p = if p = destination then some (.file content) else fs.entry p) :
    CopyOutcome source destination fs (.returned true) fs' := by
  have hroot : fs'.entry destination = some (.file content) := by rw [hput, if_pos rfl]
  have hbelow : ∀ rel, (fs.entry (source ++ rel)).isSome → rel = [] := by
    intro rel hrel
    cases rel with
    | nil => rfl
    | cons name rel =>
      have hdirectory := fs.entry_append_cons rel hrel
      rw [hfile] at hdirectory
      cases hdirectory
  refine ⟨partCopied_put hfile hput, fun _ => ⟨?_, ?_⟩⟩
  · intro rel content' hrel
    obtain rfl := hbelow rel (by rw [hrel]; rfl)
    rw [List.append_nil] at hrel ⊢
    rw [hroot, ← hrel, hfile]
  · intro rel hrel
    obtain rfl := hbelow rel hrel
    rw [List.append_nil, hroot]
    rfl

/-- A copy that is not to what is neither a file nor a directory. -/
theorem copyFile_cases {result : Except FsError PUnit} (hno : NoOther source destination fs.entry)
    (h' : h.copyFile fs source destination = (result, fs')) :
    PartCopied source destination fs.entry fs'.entry ∧ (result = .ok ⟨⟩ → ∃ content,
      fs.entry source = some (.file content) ∧
      ∀ p, fs'.entry p = if p = destination then some (.file content) else fs.entry p) := by
  have hnothing : result = .error .filesystemError → fs' = fs →
      PartCopied source destination fs.entry fs'.entry ∧ (result = .ok ⟨⟩ → ∃ content,
        fs.entry source = some (.file content) ∧
        ∀ p, fs'.entry p = if p = destination then some (.file content) else fs.entry p) := by
    rintro rfl rfl
    exact ⟨.refl _ _ _ _, fun h => by cases h⟩
  unfold Host.copyFile at h'
  split at h'
  · next content hfile =>
    have hdestination := hno.destination []
    rw [List.append_nil] at hdestination
    rw [if_neg hdestination] at h'
    split at h'
    · split at h'
      · split at h'
        · cases h'
          exact ⟨partCopied_put hfile fun p => FileTree.entry_put, fun h => by cases h⟩
        · cases h'
          exact hnothing rfl rfl
      · cases h'
        exact ⟨partCopied_put hfile fun p => FileTree.entry_put,
          fun _ => ⟨content, hfile, fun p => FileTree.entry_put⟩⟩
    · cases h'
      exact hnothing rfl rfl
  · cases h'
    exact hnothing rfl rfl

/-- How `copy_dir` ends, if so. -/
def CopyEnds (copyDir : FsPath → FsPath → FileTree → Option (Copied × FileTree))
    (source destination : FsPath) (fs : FileTree) : Prop :=
  ∃ r fs', copyDir source destination fs = some (r, fs') ∧
    CopyOutcome source destination fs r fs'

theorem copyEntry_ends (hno : NoOther source destination fs.entry)
    (hpresent : (fs.entry source).isSome)
    (hcall : fs.entry source = some .directory → CopyEnds call source destination fs) :
    CopyEnds (copyEntry h call) source destination fs := by
  unfold CopyEnds copyEntry
  cases hdirectory : h.isDirectory fs source with
  | error e => exact ⟨.threw, fs, rfl, copyOutcome_refl (by decide)⟩
  | ok directory =>
    unfold Host.isDirectory at hdirectory
    split at hdirectory
    · cases hdirectory
    · next hstatus =>
      cases hdirectory
      obtain ⟨e, he⟩ := Option.isSome_iff_exists.mp hpresent
      rw [he] at hcall ⊢
      cases e with
      | directory => exact hcall rfl
      | file content =>
        have hregular : h.isRegularFile fs source = .ok true := by
          unfold Host.isRegularFile
          rw [if_neg hstatus, he]
        have hne : (some (FsEntry.file content) == some .directory) = false :=
          beq_eq_false_iff_ne.mpr nofun
        rw [hne, hregular]
        cases hcopy : h.copyFile fs source destination with
        | mk result fs' =>
          obtain ⟨hpartway, hdone⟩ := copyFile_cases hno hcopy
          cases result with
          | error e => exact ⟨.threw, fs', by simp, hpartway, fun hr => by cases hr⟩
          | ok =>
            obtain ⟨content', hfile, hput⟩ := hdone rfl
            exact ⟨.returned true, fs', by simp, copyOutcome_file hfile hput⟩
      | other =>
        have hother := hno.source []
        rw [List.append_nil] at hother
        exact absurd he hother

/-! ## The entries of a directory -/

/-- Below the destination nothing is changed but what has one of these names. -/
def OnlyNames (destination : FsPath) (names : List String) (fs fs' : FileTree) : Prop :=
  ∀ name ∉ names, ∀ rel,
    fs'.entry (destination ++ name :: rel) = fs.entry (destination ++ name :: rel)

/-- Only the first of the names has been looked at. -/
theorem onlyNames_first
    (hpartway : PartCopied (source ++ [name]) (destination ++ [name]) fs.entry fs'.entry) :
    OnlyNames destination (name :: names) fs fs' := fun _ hother _ =>
  hpartway.frame (not_prefix_of_ne fun heq => hother (heq ▸ List.mem_cons_self))

theorem copyEntries_ends (hseparate : Separate source destination)
    (hno : NoOther source destination fs.entry) (hnodup : names.Nodup)
    (hpresent : ∀ name ∈ names, (fs.entry (source ++ [name])).isSome)
    (hcall : ∀ name ∈ names, ∀ fs', PartCopied source destination fs.entry fs'.entry →
      CopyEnds call (source ++ [name]) (destination ++ [name]) fs') :
    ∃ r fs', copyEntries h call source destination names fs = some (r, fs') ∧
      PartCopied source destination fs.entry fs'.entry ∧ OnlyNames destination names fs fs' ∧
      (r = .returned true → ∀ name ∈ names,
        Laid (source ++ [name]) (destination ++ [name]) fs.entry fs'.entry) := by
  induction names generalizing fs with
  | nil =>
    exact ⟨.returned true, fs, rfl, .refl _ _ _ _, fun _ _ _ => rfl,
      fun _ _ hmem => absurd hmem List.not_mem_nil⟩
  | cons name names ih =>
    obtain ⟨hnotMem, hnodup⟩ := List.nodup_cons.mp hnodup
    obtain ⟨r, fs1, hcopy, hpartway, hlaid⟩ := copyEntry_ends (h := h) (hno.child [name])
      (hpresent name List.mem_cons_self)
      (fun _ => hcall name List.mem_cons_self fs (.refl _ _ _ _))
    have hfirst := hpartway.of_child
    have honly : OnlyNames destination (name :: names) fs fs1 := onlyNames_first hpartway
    unfold copyEntries
    rw [hcopy]
    have hstop : ∀ r1 : Copied, r1 ≠ .returned true → ∃ r' fs', some (r1, fs1) = some (r', fs') ∧
        PartCopied source destination fs.entry fs'.entry ∧
        OnlyNames destination (name :: names) fs fs' ∧
        (r' = .returned true → ∀ other ∈ name :: names,
          Laid (source ++ [other]) (destination ++ [other]) fs.entry fs'.entry) :=
      fun r1 hr1 => ⟨r1, fs1, rfl, hfirst, honly, fun hr => absurd hr hr1⟩
    cases r with
    | threw => exact hstop _ (by decide)
    | returned ok =>
      cases ok with
      | false => exact hstop _ (by decide)
      | true =>
        dsimp only
        split
        · exact hstop _ (by decide)
        obtain ⟨r2, fs2, hcopies, hrest, honlyRest, hlaidAll⟩ := ih
          (hno.partway hseparate hfirst) hnodup
          (fun other hmem => hfirst.isSome (hpresent other (List.mem_cons_of_mem _ hmem)))
          (fun other hmem fs' hfs' => hcall other (List.mem_cons_of_mem _ hmem) fs'
            (hfirst.trans hseparate hfs'))
        refine ⟨r2, fs2, hcopies, hfirst.trans hseparate hrest, fun other hother rel => ?_,
          fun hr other hmem => ?_⟩
        · have hother' := List.not_mem_of_not_mem_cons hother
          exact (honlyRest other hother' rel).trans (honly other hother rel)
        · obtain rfl | hmem := List.mem_cons.mp hmem
          · refine (hlaid rfl).of_destination fun rel => ?_
            rw [List.append_assoc, List.singleton_append, honlyRest other hnotMem]
          · refine (hlaidAll hr other hmem).of_source fun rel => ?_
            rw [List.append_assoc, hfirst.source hseparate]

/-! ## Directories -/

theorem FileTree.isSome_child (fs : FileTree) {p rel : FsPath}
    (h : (fs.entry (p ++ name :: rel)).isSome) : (fs.entry (p ++ [name])).isSome := by
  cases rel with
  | nil => exact h
  | cons below rel =>
    have hassoc : p ++ name :: below :: rel = p ++ [name] ++ below :: rel := by
      rw [List.append_assoc, List.singleton_append]
    rw [fs.entry_append_cons rel (hassoc ▸ h)]
    rfl

theorem isDirectory_cases {p : FsPath} {directory : Bool}
    (h' : h.isDirectory fs p = .ok directory) : directory = (fs.entry p == some .directory) := by
  unfold Host.isDirectory at h'
  split at h'
  · cases h'
  · cases h'
    rfl

theorem pathExists_cases {p : FsPath} {present : Bool} (h' : h.pathExists fs p = .ok present) :
    present = (fs.entry p).isSome := by
  unfold Host.pathExists at h'
  split at h'
  · cases h'
  · cases h'
    rfl

/-- A directory that was there, or a new one. -/
theorem createDirectory_cases {p : FsPath} {created : Bool}
    (h' : h.createDirectory fs p = .ok (created, fs')) :
    fs'.entry p = some .directory ∧ ∀ q, q ≠ p → fs'.entry q = fs.entry q := by
  unfold Host.createDirectory at h'
  split at h'
  · cases h'
  · split at h'
    · next hdirectory =>
      cases h'
      exact ⟨hdirectory, fun _ _ => rfl⟩
    · split at h'
      · cases h'
        exact ⟨by rw [FileTree.entry_put, if_pos rfl],
          fun q hq => by rw [FileTree.entry_put, if_neg hq]⟩
      · cases h'

/-- The first block changes nothing but that the destination is there if it goes on. -/
theorem prepareCopy_partway {goes : Bool}
    (hprepare : prepareCopy h source destination fs = .ok (goes, fs')) :
    PartCopied source destination fs.entry fs'.entry ∧
      (goes = true → fs.entry source = some .directory ∧ (fs'.entry destination).isSome) := by
  unfold prepareCopy at hprepare
  obtain ⟨present, -, hprepare⟩ := ok_of_bind hprepare
  split at hprepare
  · cases hprepare
    exact ⟨.refl _ _ _ _, nofun⟩
  obtain ⟨directory, hdirectory, hprepare⟩ := ok_of_bind hprepare
  split at hprepare
  · cases hprepare
    exact ⟨.refl _ _ _ _, nofun⟩
  · next hnot =>
    have hroot : fs.entry source = some .directory := by
      rw [isDirectory_cases hdirectory] at hnot
      simpa using hnot
    obtain ⟨there, hthere, hprepare⟩ := ok_of_bind hprepare
    have hsome := pathExists_cases hthere
    cases there with
    | true =>
      cases hprepare
      exact ⟨.refl _ _ _ _, fun _ => ⟨hroot, hsome.symm⟩⟩
    | false =>
      obtain ⟨hcreated, hother⟩ := createDirectory_cases hprepare
      refine ⟨fun p => ?_, fun _ => ⟨hroot, by rw [hcreated]; rfl⟩⟩
      by_cases hp : p = destination
      · subst hp
        refine .inr ⟨[], .directory, .directory, (List.append_nil _).symm, ?_, hcreated, trivial⟩
        rw [List.append_nil, hroot]
      · exact .inl (hother p hp)

theorem copyDir_ends (hl : h.ListsChildren) (hseparate : Separate source destination)
    (hno : NoOther source destination fs.entry) (hdepth : DepthLe fs source n) {m : Nat}
    (hm : n < m) : CopyEnds (copyDir h m) source destination fs := by
  induction m generalizing n fs source destination with
  | zero => omega
  | succ m ih =>
    unfold CopyEnds copyDir
    cases hprepare : prepareCopy h source destination fs with
    | error e => exact ⟨.returned false, fs, rfl, copyOutcome_refl (by decide)⟩
    | ok prepared =>
      obtain ⟨goes, fs1⟩ := prepared
      cases goes with
      | false =>
        have hpartway := (prepareCopy_partway hprepare).1
        exact ⟨.returned false, fs1, rfl, hpartway, fun hr => by cases hr⟩
      | true =>
        obtain ⟨hpartway, hgoes⟩ := prepareCopy_partway hprepare
        obtain ⟨hdirectory, hdestination⟩ := hgoes rfl
        dsimp only
        split
        · exact ⟨.threw, fs1, rfl, hpartway, fun hr => by cases hr⟩
        have hpresent : ∀ name ∈ h.list fs1 source, (fs1.entry (source ++ [name])).isSome :=
          fun name hname => FileTree.mem_children.mp ((hl fs1 source).mem_iff.mp hname)
        have hdepth1 : DepthLe fs1 source n := fun rel hrel =>
          hdepth rel (hpartway.source hseparate rel ▸ hrel)
        have hno1 := hno.partway hseparate hpartway
        have hcall : ∀ name ∈ h.list fs1 source, ∀ fs',
            PartCopied source destination fs1.entry fs'.entry →
            CopyEnds (copyDir h m) (source ++ [name]) (destination ++ [name]) fs' := by
          intro name hname fs' hfs'
          have hdepth' : DepthLe fs' source n := fun rel hrel =>
            hdepth1 rel (hfs'.source hseparate rel ▸ hrel)
          cases n with
          | zero => exact absurd (hdepth1 [name] (hpresent name hname)) (by simp)
          | succ n =>
            exact ih (hseparate.children [name] [name]) ((hno1.partway hseparate hfs').child [name])
              hdepth'.child (by omega)
        have hnodup : (h.list fs1 source).Nodup :=
          (hl fs1 source).nodup_iff.mpr (fs1.nodup_children source)
        obtain ⟨r, fs2, hcopies, hrest, -, hlaid⟩ :=
          copyEntries_ends (h := h) hseparate hno1 hnodup hpresent hcall
        refine ⟨r, fs2, hcopies, hpartway.trans hseparate hrest, fun hr => ?_⟩
        have hdirectory1 : fs1.entry source = some .directory := by
          have hsource := hpartway.source hseparate []
          rw [List.append_nil] at hsource
          rw [hsource, hdirectory]
        have hlaid1 : Laid source destination fs1.entry fs2.entry := by
          refine .of_children hdirectory1 (hrest.isSome hdestination) fun name rel hrel => ?_
          refine hlaid hr name ((hl fs1 source).mem_iff.mpr (FileTree.mem_children.mpr ?_))
          exact fs1.isSome_child hrel
        exact hlaid1.of_source (hpartway.source hseparate)

/-- **Copying with failures.** Whichever calls fail and whatever the order of the names, `copy_dir`
ends, it changes nothing outside the destination and removes nothing, and `true` means that
everything has been copied. -/
theorem copyDir_sound (h : Host) (fs : FileTree) (source destination : FsPath)
    (hl : h.ListsChildren) (hseparate : Separate source destination)
    (hno : NoOther source destination fs.entry) :
    ∃ n, ∀ m ≥ n, ∃ r fs', copyDir h m source destination fs = some (r, fs') ∧
      (∀ p, ¬ destination <+: p → fs'.entry p = fs.entry p) ∧
      (∀ p, (fs.entry p).isSome → (fs'.entry p).isSome) ∧
      (r = .returned true → Laid source destination fs.entry fs'.entry) := by
  obtain ⟨n, hdepth⟩ := exists_depthLe fs source
  refine ⟨n + 1, fun m hm => ?_⟩
  obtain ⟨r, fs', hcopy, hpartway, hlaid⟩ := copyDir_ends hl hseparate hno hdepth hm
  exact ⟨r, fs', hcopy, fun p hp => hpartway.frame hp, fun p => hpartway.isSome, hlaid⟩

/-- The disk is full: a file is emptied, and nothing can be written. -/
def fullHost : Host where
  fails _ call := call matches .copyFile _ _
  list fs p := fs.children p
  written _ _ _ := some 0
  copy fs _ _ := (.error .filesystemError, fs)

theorem mergeTree_noOther : NoOther ["from"] ["to"] mergeTree.entry :=
  ⟨fun _ => mergeTree_regular _, fun _ => mergeTree_regular _⟩

theorem copyDir_sound_full : ∃ n, ∀ m ≥ n, ∃ r fs',
    copyDir fullHost m ["from"] ["to"] mergeTree = some (r, fs') ∧
      (∀ p, ¬ ["to"] <+: p → fs'.entry p = mergeTree.entry p) ∧
      (∀ p, (mergeTree.entry p).isSome → (fs'.entry p).isSome) ∧
      (r = .returned true → Laid ["from"] ["to"] mergeTree.entry fs'.entry) :=
  copyDir_sound fullHost mergeTree ["from"] ["to"] (fun _ _ => .rfl)
    ⟨by decide, by decide⟩ mergeTree_noOther

/-! ## More calls that may be nested -/

/-- What ends with so many calls nested ends in the same way with more. -/
theorem copyEntry_mono {result : Copied × FileTree}
    (hcall : ∀ s d fs result, call s d fs = some result → call' s d fs = some result)
    (hcopy : copyEntry h call source destination fs = some result) :
    copyEntry h call' source destination fs = some result := by
  unfold copyEntry at hcopy ⊢
  split at hcopy
  · exact hcopy
  · exact hcall _ _ _ _ hcopy
  · exact hcopy

theorem copyEntries_mono {result : Copied × FileTree}
    (hcall : ∀ s d fs result, call s d fs = some result → call' s d fs = some result)
    (hcopies : copyEntries h call source destination names fs = some result) :
    copyEntries h call' source destination names fs = some result := by
  induction names generalizing fs with
  | nil => exact hcopies
  | cons name names ih =>
    unfold copyEntries at hcopies ⊢
    cases hcopy : copyEntry h call (source ++ [name]) (destination ++ [name]) fs with
    | none =>
      rw [hcopy] at hcopies
      cases hcopies
    | some first =>
      rw [hcopy] at hcopies
      rw [copyEntry_mono hcall hcopy]
      obtain ⟨r, fs1⟩ := first
      cases r with
      | threw => exact hcopies
      | returned ok =>
        cases ok with
        | false => exact hcopies
        | true =>
          dsimp only at hcopies ⊢
          split at hcopies
          · next hfails => rwa [if_pos hfails]
          · next hfails =>
            rw [if_neg hfails]
            exact ih hcopies

theorem copyDir_mono {result : Copied × FileTree} {m : Nat} (hm : n ≤ m)
    (hcopy : copyDir h n source destination fs = some result) :
    copyDir h m source destination fs = some result := by
  induction n generalizing m fs source destination result with
  | zero => cases hcopy
  | succ n ih =>
    obtain ⟨m, rfl⟩ := Nat.exists_eq_add_of_le' (Nat.lt_of_lt_of_le (Nat.zero_lt_succ n) hm)
    unfold copyDir at hcopy ⊢
    split at hcopy
    · exact hcopy
    · exact hcopy
    · split at hcopy
      · next hfails => rwa [if_pos hfails]
      · next hfails =>
        rw [if_neg hfails]
        exact copyEntries_mono (fun s d fs result => ih (by omega)) hcopy

/-! ## Again -/

/-- One call of `copy_dir`, however it ends. -/
def Attempt (source destination : FsPath) (fs : FileTree) (h : Host) (fs' : FileTree) : Prop :=
  h.ListsChildren ∧ ∃ r n, ∀ m ≥ n, copyDir h m source destination fs = some (r, fs')

theorem Attempt.partway (hseparate : Separate source destination)
    (hno : NoOther source destination fs.entry) (hattempt : Attempt source destination fs h fs') :
    PartCopied source destination fs.entry fs'.entry := by
  obtain ⟨hl, r, n, hcopy⟩ := hattempt
  obtain ⟨n', hdepth⟩ := exists_depthLe fs source
  obtain ⟨r', fs2, hends, hpartway, -⟩ :=
    copyDir_ends hl hseparate hno hdepth (m := max n (n' + 1)) (by omega)
  rw [hcopy _ (Nat.le_max_left _ _)] at hends
  cases hends
  exact hpartway

theorem attempts_partway (hseparate : Separate source destination)
    (hno : NoOther source destination fs.entry)
    (hrun : Run (Attempt source destination) Any fs fs') :
    PartCopied source destination fs.entry fs'.entry := by
  refine hrun.invariant (I := fun fs' => PartCopied source destination fs.entry fs'.entry)
    (.refl _ _ _ _) fun fs1 h fs2 hfs1 _ hattempt => ?_
  exact hfs1.trans hseparate (hattempt.partway hseparate (hno.partway hseparate hfs1))

theorem Copyable.partway (hc : Copyable fs source destination)
    (hpartway : PartCopied source destination fs.entry fs'.entry) :
    Copyable fs' source destination where
  present := hpartway.isSome hc.present
  regular rel := by
    rw [hpartway.source hc.separate]
    exact hc.regular rel
  separate := hc.separate
  parent := by
    rw [hpartway.frame, hc.parent]
    intro hp
    have hle := hp.length_le
    have hne : destination ≠ [] := by
      rintro rfl
      exact hc.separate.2 List.nil_prefix
    have hpos := List.length_pos_iff.mpr hne
    rw [List.length_dropLast] at hle
    omega
  sameKind rel e d he hd := by
    rw [hpartway.source hc.separate] at he
    obtain heq | ⟨rel', e0, d0, hrel, he0, hd0, hkind⟩ := hpartway (destination ++ rel)
    · exact hc.sameKind rel e d he (heq ▸ hd)
    · rw [List.append_cancel_left_eq] at hrel
      subst hrel
      cases he.symm.trans he0
      cases hd.symm.trans hd0
      exact hkind

/-- **Trying again.** After any attempts, one in which all calls succeed leaves the source laid over
what the destination was before the first. -/
theorem copyDir_retry (h : Host) (fs fs' : FileTree) (source destination : FsPath)
    (hs : h.Succeeds) (hsource : fs.entry source = some .directory)
    (hseparate : Separate source destination) (hno : NoOther source destination fs.entry)
    (hparent : fs.entry destination.dropLast = some .directory)
    (hkind : ∀ rel e d, fs.entry (source ++ rel) = some e →
      fs.entry (destination ++ rel) = some d → e.SameKind d)
    (hattempts : Run (Attempt source destination) Any fs fs') :
    ∃ n, ∀ m ≥ n, ∃ fs2, copyDir h m source destination fs' = some (.returned true, fs2) ∧
      fs2.entry = overlay source destination fs.entry := by
  have hc : Copyable fs source destination :=
    { present := hsource ▸ rfl, regular := hno.source, separate := hseparate, parent := hparent
      sameKind := hkind }
  have hpartway := attempts_partway hseparate hno hattempts
  have hsource' : fs'.entry source = some .directory := by
    have hroot := hpartway.source hseparate []
    rw [List.append_nil] at hroot
    rw [hroot, hsource]
  obtain ⟨n, hdepth⟩ := exists_depthLe fs' source
  refine ⟨n + 1, fun m hm => ?_⟩
  obtain ⟨fs2, hcopy, hfs2⟩ := copyDir_overlays hs hsource' (hc.partway hpartway) hdepth hm
  exact ⟨fs2, hcopy, by rw [hfs2, hpartway.overlay_eq hseparate]⟩

/-- The map has been opened, and nothing of it written. -/
theorem full_attempt : ∃ fs', Attempt ["from"] ["to"] mergeTree fullHost fs' ∧
    fs'.entry ["to", "maps", "a.bsp"] = some (.file []) := by
  refine ⟨(mergeTree.put ["to", "maps"] .directory (by decide) (by decide)).put
    ["to", "maps", "a.bsp"] (.file []) (by decide) (by decide),
    ⟨fun _ _ => .rfl, .returned false, 2, fun m hm => ?_⟩, rfl⟩
  obtain ⟨k, rfl⟩ := Nat.exists_eq_add_of_le hm
  rw [Nat.add_comm]
  rfl

theorem copyDir_retry_full : ∃ fs', Attempt ["from"] ["to"] mergeTree fullHost fs' ∧
    fs'.entry ["to", "maps", "a.bsp"] = some (.file []) ∧
    ∃ n, ∀ m ≥ n, ∃ fs2, copyDir plainHost m ["from"] ["to"] fs' = some (.returned true, fs2) ∧
      fs2.entry = overlay ["from"] ["to"] mergeTree.entry := by
  obtain ⟨fs', hattempt, hempty⟩ := full_attempt
  exact ⟨fs', hattempt, hempty, copyDir_retry plainHost mergeTree fs' ["from"] ["to"]
    ⟨fun _ _ => rfl, fun _ _ => .rfl⟩ rfl ⟨by decide, by decide⟩ mergeTree_noOther rfl
    mergeTree_sameKind (.step (.refl _) trivial hattempt)⟩

end GameAP
