import GameAP.Commands.GameServerInstall
import GameAP.Functions.CopyDirFailures

/-!
# Installations from directories

What an installation does to the files, when the game and the mod are local directories: `Acts`
gives the effects of the installer their meaning on a `FileTree`. `install_retry`: after any
installations that have failed or have been broken off, one in which all calls succeed leaves the
game laid over what there was before the first, and the mod over both.
-/

namespace GameAP

open Lib

namespace GameServerInstaller

/-! ## Effects and files -/

/-- What an effect does to the files, on hosts with `ok`. Nothing is known of the commands, and a
copy that throws has failed: nothing is done after it. -/
inductive Acts (path : String → FsPath) (ok : GameAP.Host → Prop) :
    FileTree → Effect → FileTree → Prop where
  | createDirectories {fs fs' : FileTree} {dir : String} :
      (∀ q, fs'.entry q = if q <+: path dir then some .directory else fs.entry q) →
      Acts path ok fs (.createDirectories dir) fs'
  | currentPath {fs : FileTree} {dir : String} : Acts path ok fs (.currentPath dir) fs
  | exec {fs fs' : FileTree} {command : String} {code : Int} :
      Acts path ok fs (.exec command code) fs'
  | copyDir {fs fs' : FileTree} {source destination : String} {h : GameAP.Host} {r : Copied}
      {n : Nat} : h.ListsChildren → ok h →
      (∀ m ≥ n, GameAP.copyDir h m (path source) (path destination) fs = some (r, fs')) →
      Acts path ok fs (.copyDir source destination (r == .returned true)) fs'
  | remove {fs fs' : FileTree} {file : String} : fs'.entry (path file) = none →
      (∀ q, q ≠ path file → fs'.entry q = fs.entry q) → Acts path ok fs (.remove file) fs'
  | permissions {fs : FileTree} {file : String} : Acts path ok fs (.permissions file) fs
  | privilegesRetrieve {fs : FileTree} : Acts path ok fs .privilegesRetrieve fs
  | privilegesDown {fs : FileTree} {user : String} : Acts path ok fs (.privilegesDown user) fs

/-- One effect after the other. -/
inductive ActsAll (path : String → FsPath) (ok : GameAP.Host → Prop) :
    FileTree → List Effect → FileTree → Prop where
  | nil {fs : FileTree} : ActsAll path ok fs [] fs
  | cons {fs fs1 fs' : FileTree} {e : Effect} {es : List Effect} :
      Acts path ok fs e fs1 → ActsAll path ok fs1 es fs' → ActsAll path ok fs (e :: es) fs'

/-- The detection has found directories. -/
structure FromDirectories (x : GameServerInstaller) : Prop where
  game : x.gameSourceType = .fromLocrep ∧ x.gameType = .dir
  mod : x.modSourceType = .noSource ∨ x.modSourceType = .fromLocrep ∧ x.modType = .dir

/-- What is installed, in this order. -/
def sources (x : GameServerInstaller) : List String :=
  x.getGameSource :: if x.modSourceType = .fromLocrep then [x.getModSource] else []

/-- The effects of an installation. -/
def effectsOf (site : Site) (target : Target) (x : GameServerInstaller) : List Effect :=
  (install site target x (.init x.error)).2.trace.map Prod.snd

/-- An installation without a script, as far as it comes. -/
def Attempt (path : String → FsPath) (target : Target) (x : GameServerInstaller) (fs : FileTree)
    (site : Site) (fs' : FileTree) : Prop :=
  site.scriptExists = false ∧
    ∃ es, es <+: effectsOf site target x ∧ ActsAll path (fun _ => True) fs es fs'

/-- The sources lie apart from the destination, and all have the same kind of entry in the same
place. -/
structure Installable (destination : FsPath) (sources : List FsPath) (fs : FileTree) : Prop where
  directory : ∀ s ∈ sources, fs.entry s = some .directory
  separate : ∀ s ∈ sources, Separate s destination
  noOther : ∀ s ∈ sources, NoOther s destination fs.entry
  parent : fs.entry destination.dropLast = some .directory
  sameKind : ∀ s ∈ sources, ∀ t, t = destination ∨ t ∈ sources → ∀ rel e d,
    fs.entry (s ++ rel) = some e → fs.entry (t ++ rel) = some d → e.SameKind d

variable {path : String → FsPath} {ok : GameAP.Host → Prop} {site : Site} {target : Target}
  {x : GameServerInstaller} {fs fs' fs1 fs2 : FileTree} {e : Effect} {es : List Effect}
  {destination : FsPath} {dirs : List FsPath}

/-! ## The effects of such an installation -/

/-- The copies of these directories, up to the first that fails. -/
inductive Copies (destination : String) : List String → Bool → List Effect → Prop where
  | nil : Copies destination [] true []
  | failed {source : String} {rest : List String} :
      Copies destination (source :: rest) false [.copyDir source destination false]
  | copied {source : String} {rest : List String} {ok : Bool} {es : List Effect} :
      Copies destination rest ok es →
      Copies destination (source :: rest) ok (.copyDir source destination true :: es)

/-- The effects are those of the first phase and then these. -/
theorem Performs.effects {α : Type} {m : InstallM α} {P : α → List Effect → Prop}
    (hm : Performs m P) (s : Progress) : ∃ es,
      (m s).2.trace.map Prod.snd = s.trace.map Prod.snd ++ es ∧ P (m s).1 es := by
  obtain ⟨es, -, htrace, hP⟩ := hm s
  refine ⟨es, ?_, hP⟩
  rw [htrace, List.map_append, List.map_map]
  exact congrArg _ (List.map_id es)

/-- A directory as the source. -/
theorem installLocrep_dir (source : String) :
    Performs (installLocrep site target source .dir) fun result es =>
      ∃ ok, es = [.copyDir source target.serverAbsolutePath ok] ∧ (result = 0 ↔ ok = true) := by
  refine (copyDir_performs _ _).bind ?_
  rintro ok _ rfl
  exact .pure ⟨ok, rfl, by cases ok <;> simp⟩

theorem installGame_dir (hx : FromDirectories x) :
    Performs (installGame site target x) fun result es =>
      ∃ ok, es = [.copyDir x.getGameSource target.serverAbsolutePath ok] ∧
        (result = 0 ↔ ok = true) := by
  have hsource : installGameSource site target x =
      installLocrep site target x.getGameSource .dir := by
    unfold installGameSource
    rw [hx.game.1, hx.game.2]
  unfold installGame
  rw [hsource]
  refine (installLocrep_dir _).bind ?_
  rintro result _ ⟨ok, rfl, hresult⟩
  refine .pure ⟨ok, rfl, ?_⟩
  rw [← hresult]
  split <;> simp_all

theorem installMod_dir (hx : FromDirectories x) :
    Performs (installMod site target x) fun result es =>
      ∃ ok, Copies target.serverAbsolutePath
        (if x.modSourceType = .fromLocrep then [x.getModSource] else []) ok es ∧
          (result = 0 ↔ ok = true) := by
  unfold installMod
  obtain hmod | ⟨hmod, htype⟩ := hx.mod
  · rw [hmod]
    exact .pure ⟨true, .nil, by simp⟩
  · rw [hmod, htype]
    refine (installLocrep_dir _).mono ?_
    rintro result _ ⟨ok, rfl, hresult⟩
    cases ok with
    | true => exact ⟨true, .copied .nil, hresult⟩
    | false => exact ⟨false, .failed, hresult⟩

theorem runAfterInstall_none (hscript : site.scriptExists = false) (s : Progress) :
    runAfterInstall site target s = (0, s) := by
  unfold runAfterInstall
  rw [hscript]
  rfl

theorem installFromMod_dir (hx : FromDirectories x) (hscript : site.scriptExists = false)
    (s : Progress) : ∃ ok es,
    (installFromMod site target x s).2.trace.map Prod.snd = s.trace.map Prod.snd ++ es ∧
      Copies target.serverAbsolutePath
        (if x.modSourceType = .fromLocrep then [x.getModSource] else []) ok es ∧
      ((installFromMod site target x s).1 = 0 ↔ ok = true) := by
  obtain ⟨es, htrace, ok, hcopies, hresult⟩ :=
    (@installMod_dir site target x hx).effects { s with phase := .mod }
  have hrun : installFromMod site target x s = _ := tested_apply (installMod site target x)
    (do enter .script; runAfterInstall site target) { s with phase := .mod }
  refine ⟨ok, es, ?_⟩
  rw [hrun]
  split
  · next hr =>
    refine ⟨htrace, hcopies, iff_of_false (by decide : ¬ (-1 : Int) = 0) fun hok => ?_⟩
    exact hr (hresult.mpr hok)
  · next hr =>
    have hrest := @runAfterInstall_none site target hscript
      { (installMod site target x { s with phase := .mod }).2 with phase := .script }
    have hlast : (do enter .script; runAfterInstall site target : InstallM Int)
        (installMod site target x { s with phase := .mod }).2 = _ := hrest
    rw [hlast]
    exact ⟨htrace, hcopies, iff_of_true rfl (hresult.mp (not_not.mp hr))⟩

/-- The copies follow the preparation, and the result is a success if none of them fails. -/
theorem effectsOf_dir (hx : FromDirectories x) (hscript : site.scriptExists = false) : ∃ ok es,
    effectsOf site target x = prepareEffects site target ++ es ∧
      Copies target.serverAbsolutePath (sources x) ok es ∧
      ((install site target x (.init x.error)).1 = 0 ↔ ok = true) := by
  obtain ⟨start, hstart, rfl⟩ :=
    (@prepare_performs site target).effects (.init x.error)
  have hrun : install site target x (.init x.error) = _ := tested_apply (installGame site target x)
    (installFromMod site target x) { (prepare site target (.init x.error)).2 with phase := .game }
  obtain ⟨game, hgame, ok, rfl, hresult⟩ :=
    (@installGame_dir site target x hx).effects
      { (prepare site target (.init x.error)).2 with phase := .game }
  have htrace : (prepare site target (.init x.error)).2.trace.map Prod.snd =
      prepareEffects site target := hstart
  rw [show ({ (prepare site target (.init x.error)).2 with phase := .game } : Progress).trace =
    (prepare site target (.init x.error)).2.trace from rfl, htrace] at hgame
  unfold effectsOf sources
  rw [hrun]
  split
  · next hr =>
    have hfalse : ok = false := Bool.eq_false_iff.mpr (mt hresult.mpr hr)
    subst hfalse
    exact ⟨false, _, hgame, .failed, by simp⟩
  · next hr =>
    have htrue := hresult.mp (not_not.mp hr)
    subst htrue
    obtain ⟨ok, es, hes, hcopies, hstatus⟩ := @installFromMod_dir site target x hx hscript
      (installGame site target x
        { (prepare site target (.init x.error)).2 with phase := .game }).2
    refine ⟨ok, _, ?_, .copied hcopies, hstatus⟩
    rw [hes, hgame, List.append_assoc]
    rfl

/-! ## What they do to the files -/

theorem Installable.partway (hI : Installable destination dirs fs)
    (hpartway : PartwayAll FsEntry.SameKind destination dirs fs.entry fs'.entry) :
    Installable destination dirs fs' := by
  have hsource : ∀ s ∈ dirs, ∀ rel, fs'.entry (s ++ rel) = fs.entry (s ++ rel) :=
    fun s hs => hpartway.source (hI.separate s hs)
  refine ⟨fun s hs => ?_, hI.separate, fun s hs => ⟨fun rel => ?_, fun rel => ?_⟩, ?_, ?_⟩
  · have hroot := hsource s hs []
    rw [List.append_nil] at hroot
    rw [hroot, hI.directory s hs]
  · rw [hsource s hs]
    exact (hI.noOther s hs).source rel
  · obtain heq | ⟨-, -, rel', e, e', hrel, he, he', hkind⟩ := hpartway (destination ++ rel)
    · rw [heq]
      exact (hI.noOther s hs).destination rel
    · rw [he']
      exact fun h => hkind.ne_other (Option.some.inj h)
  · obtain heq | ⟨t, ht, rel, e, e', hrel, -⟩ := hpartway destination.dropLast
    · rw [heq, hI.parent]
    · have hlen := congrArg List.length hrel
      have hne : destination ≠ [] := by
        rintro rfl
        exact (hI.separate t ht).2 List.nil_prefix
      have hpos := List.length_pos_iff.mpr hne
      rw [List.length_dropLast, List.length_append] at hlen
      omega
  · intro s hs t ht rel e d he hd
    rw [hsource s hs] at he
    obtain rfl | ht := ht
    · obtain heq | ⟨u, hu, rel', e0, d0, hrel, he0, hd0, hkind⟩ := hpartway (t ++ rel)
      · exact hI.sameKind s hs _ (.inl rfl) rel e d he (heq ▸ hd)
      · rw [List.append_cancel_left_eq] at hrel
        subst hrel
        cases hd.symm.trans hd0
        exact FsEntry.SameKind.trans (hI.sameKind s hs u (.inr hu) rel e e0 he he0) hkind
    · rw [hsource t ht] at hd
      exact hI.sameKind s hs t (.inr ht) rel e d he hd

theorem Installable.copyable (hI : Installable destination dirs fs) {s : FsPath} (hs : s ∈ dirs) :
    Copyable fs s destination where
  present := hI.directory s hs ▸ rfl
  regular := (hI.noOther s hs).source
  separate := hI.separate s hs
  parent := hI.parent
  sameKind := hI.sameKind s hs destination (.inl rfl)

/-- The directories above the destination are there. -/
theorem Installable.above (hI : Installable destination dirs fs) {q : FsPath}
    (hq : q <+: destination) (hne : q ≠ destination) : fs.entry q = some .directory := by
  obtain ⟨rel, rfl⟩ := hq
  have hrel : rel ≠ [] := by
    rintro rfl
    exact hne (List.append_nil q).symm
  have hparent := hI.parent
  rw [List.dropLast_append_of_ne_nil hrel] at hparent
  cases hdrop : rel.dropLast with
  | nil => rwa [hdrop, List.append_nil] at hparent
  | cons name rel' =>
    rw [hdrop] at hparent
    exact fs.entry_append_cons rel' (by rw [hparent]; rfl)

/-- The effects that there are. -/
inductive Effect.OfInstallation (path : String → FsPath) (destination : FsPath)
    (dirs : List FsPath) : Effect → Prop where
  | createDirectories {dir : String} : path dir = destination →
      OfInstallation path destination dirs (.createDirectories dir)
  | currentPath {dir : String} : OfInstallation path destination dirs (.currentPath dir)
  | copyDir {source dir : String} {ok : Bool} : path source ∈ dirs → path dir = destination →
      OfInstallation path destination dirs (.copyDir source dir ok)

theorem Acts.partway (hI : Installable destination dirs fs) (hne : dirs ≠ [])
    (he : e.OfInstallation path destination dirs) (h : Acts path ok fs e fs') :
    PartwayAll FsEntry.SameKind destination dirs fs.entry fs'.entry := by
  cases he with
  | createDirectories hdir =>
    obtain ⟨hentry⟩ := h
    rw [hdir] at hentry
    obtain ⟨s, hs⟩ := List.exists_mem_of_ne_nil dirs hne
    intro q
    rw [hentry]
    split
    · next hq =>
      by_cases hroot : q = destination
      · refine .inr ⟨s, hs, [], .directory, .directory, ?_, ?_, rfl, trivial⟩
        · rw [List.append_nil, hroot]
        · rw [List.append_nil, hI.directory s hs]
      · exact .inl (hI.above hq hroot).symm
    · exact .inl rfl
  | currentPath =>
    cases h
    exact .refl _ _ _ _
  | copyDir hsource hdir =>
    cases h with
    | copyDir hl _ hcopy =>
      rw [hdir] at hcopy
      have hattempt : GameAP.Attempt _ destination fs _ fs' := ⟨hl, _, _, hcopy⟩
      exact (hattempt.partway (hI.separate _ hsource) (hI.noOther _ hsource)).all hsource

theorem ActsAll.partway (hI : Installable destination dirs fs) (hne : dirs ≠ [])
    (hes : ∀ e ∈ es, e.OfInstallation path destination dirs) (h : ActsAll path ok fs es fs') :
    PartwayAll FsEntry.SameKind destination dirs fs.entry fs'.entry := by
  induction h with
  | nil => exact .refl _ _ _ _
  | cons hfirst _ ih =>
    obtain ⟨he, hes⟩ := List.forall_mem_cons.mp hes
    have hpartway := hfirst.partway hI hne he
    exact hpartway.trans hI.separate (ih (hI.partway hpartway) hes)

/-! ## Installations -/

theorem prepareEffects_ofInstallation : ∀ e ∈ prepareEffects site target,
    e.OfInstallation path (path target.serverAbsolutePath) dirs := by
  unfold prepareEffects
  intro e he
  rcases List.mem_append.mp he with he | he
  · split at he
    · cases he
    · rw [List.mem_singleton] at he
      exact he ▸ .createDirectories rfl
  · rw [List.mem_singleton] at he
    exact he ▸ .currentPath

theorem Copies.ofInstallation {dir : String} {names : List String} {success : Bool}
    (h : Copies dir names success es) (hnames : ∀ source ∈ names, path source ∈ dirs) :
    ∀ e ∈ es, e.OfInstallation path (path dir) dirs := by
  induction h with
  | nil => exact fun e he => absurd he List.not_mem_nil
  | failed =>
    intro e he
    rw [List.mem_singleton] at he
    exact he ▸ .copyDir (hnames _ List.mem_cons_self) rfl
  | copied _ ih =>
    obtain ⟨hsource, hrest⟩ := List.forall_mem_cons.mp hnames
    exact List.forall_mem_cons.mpr ⟨.copyDir hsource rfl, ih hrest⟩

theorem mem_sources {source : String} (h : source ∈ sources x) :
    path source ∈ (sources x).map path := List.mem_map_of_mem h

theorem Attempt.partway (hx : FromDirectories x)
    (hI : Installable (path target.serverAbsolutePath) ((sources x).map path) fs)
    (h : Attempt path target x fs site fs') :
    PartwayAll FsEntry.SameKind (path target.serverAbsolutePath) ((sources x).map path) fs.entry
      fs'.entry := by
  obtain ⟨hscript, es, hes, hacts⟩ := h
  obtain ⟨_, copies, heffects, hcopies, -⟩ := @effectsOf_dir site target x hx hscript
  refine hacts.partway hI (by simp [sources]) fun e he => ?_
  have hmem := hes.subset he
  rw [heffects] at hmem
  rcases List.mem_append.mp hmem with hmem | hmem
  · exact prepareEffects_ofInstallation e hmem
  · exact hcopies.ofInstallation (fun _ => mem_sources) e hmem

theorem attempts_partwayAll (hx : FromDirectories x)
    (hI : Installable (path target.serverAbsolutePath) ((sources x).map path) fs)
    (hrun : Run (Attempt path target x) Any fs fs') :
    PartwayAll FsEntry.SameKind (path target.serverAbsolutePath) ((sources x).map path) fs.entry
      fs'.entry := by
  refine hrun.invariant (I := fun fs' => PartwayAll FsEntry.SameKind (path target.serverAbsolutePath)
    ((sources x).map path) fs.entry fs'.entry) (.refl _ _ _ _)
    fun fs1 site fs2 hfs1 _ hattempt => ?_
  exact hfs1.trans hI.separate (hattempt.partway hx (hI.partway hfs1))

/-- A copy in which all calls succeed. -/
theorem Acts.overlay {source dir : String} {success : Bool} (hI : Installable (path dir) dirs fs)
    (hsource : path source ∈ dirs)
    (h : Acts path GameAP.Host.Succeeds fs (.copyDir source dir success) fs') :
    success = true ∧ fs'.entry = overlay (path source) (path dir) fs.entry := by
  generalize he : Effect.copyDir source dir success = e at h
  cases h with
  | copyDir hl hs hcopy =>
    cases he
    rename_i h r n
    obtain ⟨depth, hdepth⟩ := exists_depthLe fs (path source)
    obtain ⟨fs1, hends, hfs1⟩ := copyDir_overlays hs (hI.directory _ hsource)
      (hI.copyable hsource) hdepth (m := max n (depth + 1)) (by omega)
    rw [hcopy _ (Nat.le_max_left _ _)] at hends
    cases hends
    exact ⟨rfl, hfs1⟩
  | _ => cases he

theorem Copies.overlays {dir : String} {names : List String} {success : Bool}
    (hcopies : Copies dir names success es) (hI : Installable (path dir) dirs fs)
    (hnames : ∀ source ∈ names, path source ∈ dirs)
    (h : ActsAll path GameAP.Host.Succeeds fs es fs') :
    success = true ∧ fs'.entry = Lib.overlays (path dir) (names.map path) fs.entry := by
  induction hcopies generalizing fs with
  | nil =>
    cases h
    exact ⟨rfl, rfl⟩
  | failed =>
    obtain - | ⟨hfirst, -⟩ := h
    have hsuccess := (hfirst.overlay hI (hnames _ List.mem_cons_self)).1
    cases hsuccess
  | copied _ ih =>
    obtain - | ⟨hfirst, hrest⟩ := h
    obtain ⟨hsource, hnames⟩ := List.forall_mem_cons.mp hnames
    have hpartway := hfirst.partway hI (List.ne_nil_of_mem hsource) (.copyDir hsource rfl)
    obtain ⟨hsuccess, heq⟩ := ih (hI.partway hpartway) hnames hrest
    rw [(hfirst.overlay hI hsource).2] at heq
    exact ⟨hsuccess, heq⟩

theorem ActsAll.append {fs' : FileTree} {es' : List Effect} (h : ActsAll path ok fs (es ++ es') fs') :
    ∃ fs1, ActsAll path ok fs es fs1 ∧ ActsAll path ok fs1 es' fs' := by
  induction es generalizing fs with
  | nil => exact ⟨fs, .nil, h⟩
  | cons e es ih =>
    obtain - | ⟨hfirst, hrest⟩ := h
    obtain ⟨fs1, hes, hes'⟩ := ih hrest
    exact ⟨fs1, .cons hfirst hes, hes'⟩

/-- Such copies there are. -/
theorem exists_copies {h : GameAP.Host} {dir : String} {names : List String} (hs : h.Succeeds)
    (hI : Installable (path dir) dirs fs) (hnames : ∀ source ∈ names, path source ∈ dirs) :
    ∃ fs', ActsAll path GameAP.Host.Succeeds fs (names.map fun s => .copyDir s dir true) fs' := by
  induction names generalizing fs with
  | nil => exact ⟨fs, .nil⟩
  | cons source names ih =>
    obtain ⟨hsource, hrest⟩ := List.forall_mem_cons.mp hnames
    obtain ⟨depth, hdepth⟩ := exists_depthLe fs (path source)
    obtain ⟨fs1, hcopy, -⟩ := copyDir_overlays hs (hI.directory _ hsource) (hI.copyable hsource)
      hdepth (Nat.lt_succ_self depth)
    have hacts : Acts path GameAP.Host.Succeeds fs (.copyDir source dir true) fs1 :=
      .copyDir (r := .returned true) hs.list hs fun _ hm => copyDir_mono hm hcopy
    have hpartway := hacts.partway hI (List.ne_nil_of_mem hsource) (.copyDir hsource rfl)
    obtain ⟨fs2, hacts2⟩ := ih (hI.partway hpartway) hrest
    exact ⟨fs2, .cons hacts hacts2⟩

/-- A game and a mod, both with a `server.cfg`. -/
def bothTree : FileTree :=
  (mergeTree.put ["mod"] .directory (by decide) (by decide)).put ["mod", "server.cfg"] (.file [4])
    (by decide) (by decide)

def bothPath (path : String) : FsPath :=
  if path = "/from" then ["from"] else if path = "/mod" then ["mod"] else ["server"]

def bothTarget : Target := { serverAbsolutePath := "/server", steamAppSetConfig := "", user := "" }

/-- What the detection finds. -/
def bothInstaller : GameServerInstaller :=
  { new "/from" "" "/mod" "" 0 with
    gameSourceType := .fromLocrep, gameType := .dir
    modSourceType := .fromLocrep, modType := .dir }

/-- Every call of `copy_dir` has this result. -/
def copySite (serverExists ok : Bool) : Site :=
  { zipSite with serverExists, scriptExists := false, copyDir := fun _ => ok }

theorem bothTree_regular (p : FsPath) : bothTree.entry p ≠ some .other := by
  intro hother
  have hall : ∀ p ∈ bothTree.entries.keys, ∀ e ∈ bothTree.entry p, e ≠ .other := by decide
  exact FileTree.forall_entry hall hother rfl

theorem bothTree_sameKind : ∀ s ∈ [["from"], ["mod"]], ∀ t,
    t = ["server"] ∨ t ∈ [["from"], ["mod"]] → ∀ rel e d, bothTree.entry (s ++ rel) = some e →
      bothTree.entry (t ++ rel) = some d → e.SameKind d := by
  intro s hs t ht rel e d he hd
  have hall : ∀ s ∈ [["from"], ["mod"]], ∀ t ∈ [["server"], ["from"], ["mod"]],
      ∀ p ∈ bothTree.entries.keys, ∀ e ∈ bothTree.entry p, s <+: p →
        ∀ d ∈ bothTree.entry (t ++ p.drop s.length), e.SameKind d := by decide
  refine FileTree.forall_entry (hall s hs t (List.mem_cons.mpr ht)) he (List.prefix_append s rel) d ?_
  rw [List.drop_left]
  exact hd

theorem bothTree_installable : Installable ["server"] [["from"], ["mod"]] bothTree where
  directory := by decide
  separate := by
    intro s hs
    rcases List.mem_pair.mp hs with rfl | rfl <;> exact ⟨by decide, by decide⟩
  noOther _ _ := ⟨fun _ => bothTree_regular _, fun _ => bothTree_regular _⟩
  parent := rfl
  sameKind := bothTree_sameKind

/-- The tree with the new directory of the server. -/
def createdTree : FileTree := bothTree.put ["server"] .directory (by decide) (by decide)

theorem createdTree_acts {ok : GameAP.Host → Prop} :
    Acts bothPath ok bothTree (.createDirectories "/server") createdTree := by
  refine .createDirectories fun q => ?_
  have hroot : ∀ q : FsPath, q <+: ["server"] ↔ q = ["server"] ∨ q = [] := by
    intro q
    rw [List.prefix_cons_iff]
    grind
  rw [createdTree, FileTree.entry_put, show bothPath "/server" = ["server"] from by decide]
  by_cases hto : q = ["server"]
  · rw [if_pos hto, if_pos ((hroot q).mpr (.inl hto))]
  · rw [if_neg hto]
    by_cases hnil : q = []
    · rw [if_pos ((hroot q).mpr (.inr hnil)), hnil]
      rfl
    · rw [if_neg fun hq => ((hroot q).mp hq).elim hto hnil]

/-- The tree with the map that could not be written. -/
def brokenTree : FileTree :=
  (createdTree.put ["server", "maps"] .directory (by decide) (by decide)).put
    ["server", "maps", "a.bsp"] (.file []) (by decide) (by decide)

/-- The directory has been created, and the disk is full. -/
theorem copySite_attempt :
    Attempt bothPath bothTarget bothInstaller bothTree (copySite false false) brokenTree := by
  have heffects : effectsOf (copySite false false) bothTarget bothInstaller =
      [.createDirectories "/server", .currentPath "/server",
        .copyDir "/from" "/server" false] := by decide
  refine ⟨rfl, _, List.prefix_rfl, ?_⟩
  rw [heffects]
  refine .cons createdTree_acts (.cons .currentPath (.cons ?_ .nil))
  refine .copyDir (r := .returned false) (h := fullHost) (n := 2) (fun _ _ => .rfl) trivial ?_
  intro m hm
  obtain ⟨k, rfl⟩ := Nat.exists_eq_add_of_le hm
  rw [Nat.add_comm]
  rfl

end GameServerInstaller

end GameAP
