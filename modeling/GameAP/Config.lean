import GameAP.Lib.Keeps
import GameAP.Lib.Table

/-!
# The configuration

`Config::parse` assigns the fields one after the other, between calls that may throw, and keeps the
values of four fields where the file does not give them. `reloadRight_iff`: what has to be in the
file, and in memory, for a reload to be atomic and to depend on the file alone.
-/

namespace GameAP

open Lib

/-- How boost translates the value of a key, with `none` where it cannot. -/
structure Translators where
  uint : String → Option Nat
  ushort : String → Option Nat
  bool : String → Option Bool

/-- What `read_ini` makes of a file. -/
abbrev Ptree := Table String String

/-- What is found under `cfg_file`. -/
inductive CfgFile where
  | missing
  /-- `read_ini` throws -/
  | unreadable
  | tree (pt : Ptree)

/-- The fields in front of the first key that has to be there. -/
structure BaseConfig where
  dsId : Nat
  listenIp : String
  listenPort : Nat
  apiHost : String
  apiKey : String
  daemonLogin : String
  daemonPassword : String
  passwordAuthentication : Bool
  deriving DecidableEq, Repr

structure Config extends BaseConfig where
  cfgFile : String
  outputLog : String
  errorLog : String
  caCertificateFile : String
  certificateChainFile : String
  privateKeyFile : String
  privateKeyPassword : String
  dhFile : String
  ifList : List String
  drivesList : List String
  statsUpdatePeriod : Nat
  statsDbUpdatePeriod : Nat
  logLevel : String
  deriving DecidableEq, Repr

inductive ParseError where
  /-- `ptree_bad_path` of a key that is not there -/
  | badPath (key : String)
  /-- an empty `boost::optional` is read -/
  | emptyOptional
  deriving DecidableEq, Repr

abbrev ParseM := EStateM ParseError Config

namespace Ptree

def get (pt : Ptree) (key : String) : Except ParseError String :=
  match pt.lookup key with
  | some value => .ok value
  | none => .error (.badPath key)

/-- `get_optional`, which is empty for a key that is not there or cannot be translated. -/
def getOptional {α : Type} (pt : Ptree) (translate : String → Option α) (key : String) : Option α :=
  (pt.lookup key).bind translate

def getString (pt : Ptree) (key : String) : String := (pt.lookup key).getD ""

end Ptree

namespace Config

/-- `*buf`. -/
def deref {α : Type} : Option α → Except ParseError α
  | some value => .ok value
  | none => .error .emptyOptional

/-- `boost::split` at the spaces. -/
def splitSpaces (value : String) : List String := (value.toList.splitOn ' ').map String.ofList

def readBase (t : Translators) (pt : Ptree) : BaseConfig :=
  { dsId := (pt.getOptional t.uint "ds_id").getD 0
    listenIp := pt.getString "listen_ip"
    listenPort := (pt.getOptional t.uint "listen_port").getD 31717
    apiHost := pt.getString "api_host"
    apiKey := pt.getString "api_key"
    daemonLogin := pt.getString "daemon_login"
    daemonPassword := pt.getString "daemon_password"
    passwordAuthentication := (pt.getOptional t.bool "password_authentication").getD true }

/-- `field = pt.get(key)`. -/
def setField (pt : Ptree) (key : String) (set : Config → String → Config) : ParseM PUnit := do
  let value ← orThrow (pt.get key)
  modify fun c => set c value

/-- A list that is not given stays as it is. -/
def readList (pt : Ptree) (key : String) (old : List String) : List String :=
  if pt.getString key ≠ "" then splitSpaces (pt.getString key) else old

/-- `if (*buf > 0) field = *buf`. -/
def setPeriod (t : Translators) (pt : Ptree) (key : String) (set : Config → Nat → Config) :
    ParseM PUnit := do
  let value ← orThrow (deref (pt.getOptional t.ushort key))
  modify fun c => if value > 0 then set c value else c

/-- The last three fields. -/
def parsePeriods (t : Translators) (pt : Ptree) : ParseM PUnit := do
  setPeriod t pt "stats_update_period" fun c n => { c with statsUpdatePeriod := n }
  setPeriod t pt "stats_db_update_period" fun c n => { c with statsDbUpdatePeriod := n }
  modify fun c => { c with logLevel := (pt.lookup "log_level").getD "debug" }

/-- The assignments in the `try` block. -/
def parseTree (t : Translators) (pt : Ptree) : ParseM PUnit := do
  modify fun c => { c with toBaseConfig := readBase t pt }
  setField pt "ca_certificate_file" fun c v => { c with caCertificateFile := v }
  setField pt "certificate_chain_file" fun c v => { c with certificateChainFile := v }
  setField pt "private_key_file" fun c v => { c with privateKeyFile := v }
  modify fun c => { c with privateKeyPassword := pt.getString "private_key_password" }
  setField pt "dh_file" fun c v => { c with dhFile := v }
  modify fun c => { c with ifList := readList pt "if_list" c.ifList }
  modify fun c => { c with drivesList := readList pt "drives_list" c.drivesList }
  parsePeriods t pt

/-- How `parse` ends: it returns a status, or reads an empty optional, which nothing catches. -/
inductive Parsed where
  | returned (status : Int) (config : Config)
  | failed (config : Config)
  deriving DecidableEq, Repr

/-- The end of the `try` block, and the handler. -/
def caught : EStateM.Result ParseError Config PUnit → Parsed
  | .ok _ config => .returned 0 config
  | .error (.badPath _) config => .returned (-1) config
  | .error .emptyOptional config => .failed config

def parse (t : Translators) (file : CfgFile) (config : Config) : Parsed :=
  match file with
  | .missing => .returned (-1) config
  | .unreadable => .returned (-1) config
  | .tree pt => caught (parseTree t pt config)

/-! ## What a reload should do -/

/-- Without the fields that `parse` does not manage. -/
def managed (c : Config) : Config := { c with cfgFile := "", outputLog := "", errorLog := "" }

/-- The keys that are documented as required. -/
def requiredKeys : List String :=
  ["ds_id", "api_host", "api_key", "ca_certificate_file", "certificate_chain_file",
    "private_key_file", "dh_file"]

/-- All values that are there can be translated. -/
structure WellFormed (t : Translators) (pt : Ptree) : Prop where
  uint : ∀ key ∈ ["ds_id", "listen_port"], ∀ v, pt.lookup key = some v → (t.uint v).isSome
  ushort : ∀ key ∈ ["stats_update_period", "stats_db_update_period"], ∀ v,
    pt.lookup key = some v → (t.ushort v).isSome
  bool : ∀ v, pt.lookup "password_authentication" = some v → (t.bool v).isSome

/-- What is documented as required is there, and all values are well formed. -/
structure Valid (t : Translators) (pt : Ptree) : Prop where
  required : ∀ key ∈ requiredKeys, key ∈ pt
  wellFormed : WellFormed t pt

structure ReloadRight (t : Translators) (file : CfgFile) (old : Config) : Prop where
  returns : ∃ status new, parse t file old = .returned status new
  refuses : ∀ pt, file = .tree pt → ¬ Valid t pt → ∃ new, parse t file old = .returned (-1) new
  atomic : ∀ new, parse t file old = .returned (-1) new → new = old
  historyFree : ∀ new, parse t file old = .returned 0 new → ∀ old', ∃ new',
    parse t file old' = .returned 0 new' ∧ new'.managed = new.managed
  optional : ∀ pt, file = .tree pt → Valid t pt → ∃ new, parse t file old = .returned 0 new

/-! ## When it does -/

def tlsKeys : List String :=
  ["ca_certificate_file", "certificate_chain_file", "private_key_file", "dh_file"]

/-- Both lists are given, and both periods as positive numbers. -/
structure GivesAll (t : Translators) (pt : Ptree) : Prop where
  ifList : pt.getString "if_list" ≠ ""
  drivesList : pt.getString "drives_list" ≠ ""
  statsUpdatePeriod : ∃ n > 0, pt.getOptional t.ushort "stats_update_period" = some n
  statsDbUpdatePeriod : ∃ n > 0, pt.getOptional t.ushort "stats_db_update_period" = some n

/-- What stands in the file in front of the first certificate that is missing is in memory. -/
structure SameBefore (t : Translators) (pt : Ptree) (old : Config) : Prop where
  base : readBase t pt = old.toBaseConfig
  ca : ∀ ca, pt.lookup "ca_certificate_file" = some ca → ca = old.caCertificateFile ∧
    ∀ chain, pt.lookup "certificate_chain_file" = some chain → chain = old.certificateChainFile ∧
      ∀ key, pt.lookup "private_key_file" = some key → key = old.privateKeyFile ∧
        pt.getString "private_key_password" = old.privateKeyPassword

def Reloads (t : Translators) (file : CfgFile) (old : Config) : Prop :=
  ∀ pt, file = .tree pt →
    ((∀ key ∈ tlsKeys, key ∈ pt) → Valid t pt ∧ GivesAll t pt) ∧
      ((∃ key ∈ tlsKeys, key ∉ pt) → SameBefore t pt old)

variable {t : Translators} {pt : Ptree} {old : Config} {key value : String}
  {set : Config → String → Config} {k : PUnit → ParseM PUnit}

theorem setField_some (h : pt.lookup key = some value) (c : Config) :
    (setField pt key set >>= k) c = k ⟨⟩ (set c value) := by
  have hget : pt.get key = .ok value := by
    unfold Ptree.get
    rw [h]
  unfold setField
  rw [hget]
  rfl

theorem setField_none (h : pt.lookup key = none) (c : Config) :
    (setField pt key set >>= k) c = .error (.badPath key) c := by
  have hget : pt.get key = .error (.badPath key) := by
    unfold Ptree.get
    rw [h]
  unfold setField
  rw [hget]
  rfl

theorem setPeriod_some {set : Config → Nat → Config} {n : Nat}
    (h : pt.getOptional t.ushort key = some n) (c : Config) :
    (setPeriod t pt key set >>= k) c = k ⟨⟩ (if n > 0 then set c n else c) := by
  unfold setPeriod
  rw [h]
  rfl

theorem setPeriod_none {set : Config → Nat → Config} (h : pt.getOptional t.ushort key = none)
    (c : Config) : (setPeriod t pt key set >>= k) c = .error .emptyOptional c := by
  unfold setPeriod
  rw [h]
  rfl

theorem sameBefore_iff : SameBefore t pt old ↔ readBase t pt = old.toBaseConfig ∧
    ∀ ca, pt.lookup "ca_certificate_file" = some ca → ca = old.caCertificateFile ∧
      ∀ chain, pt.lookup "certificate_chain_file" = some chain →
        chain = old.certificateChainFile ∧
        ∀ key, pt.lookup "private_key_file" = some key → key = old.privateKeyFile ∧
          pt.getString "private_key_password" = old.privateKeyPassword :=
  ⟨fun h => ⟨h.base, h.ca⟩, fun h => ⟨h.1, h.2⟩⟩

/-- A certificate is missing: `parse` stops with what it has assigned before. -/
theorem parseTree_badPath (t : Translators) (old : Config) (h : ∃ key ∈ tlsKeys, key ∉ pt) :
    ∃ key new, parseTree t pt old = .error (.badPath key) new ∧ (new = old ↔ SameBefore t pt old) := by
  unfold parseTree
  rw [modify_bind_apply, sameBefore_iff]
  obtain ⟨base, _⟩ := old
  cases hca : pt.lookup "ca_certificate_file" with
  | none =>
    rw [setField_none hca]
    exact ⟨_, _, rfl, by simp⟩
  | some ca =>
    rw [setField_some hca]
    cases hchain : pt.lookup "certificate_chain_file" with
    | none =>
      rw [setField_none hchain]
      exact ⟨_, _, rfl, by simp⟩
    | some chain =>
      rw [setField_some hchain]
      cases hkey : pt.lookup "private_key_file" with
      | none =>
        rw [setField_none hkey]
        exact ⟨_, _, rfl, by simp⟩
      | some privateKey =>
        rw [setField_some hkey, modify_bind_apply]
        cases hdh : pt.lookup "dh_file" with
        | none =>
          rw [setField_none hdh]
          exact ⟨_, _, rfl, by simp⟩
        | some dh =>
          obtain ⟨key, hmem, hnot⟩ := h
          simp only [tlsKeys, List.mem_cons, List.not_mem_nil, or_false] at hmem
          rcases hmem with rfl | rfl | rfl | rfl <;>
            exact absurd (AList.lookup_isSome.mp (by simp [*])) hnot

/-- What is assigned in front of the periods. -/
def readFields (t : Translators) (pt : Ptree) (c : Config) : Config :=
  { c with
    toBaseConfig := readBase t pt
    caCertificateFile := pt.getString "ca_certificate_file"
    certificateChainFile := pt.getString "certificate_chain_file"
    privateKeyFile := pt.getString "private_key_file"
    privateKeyPassword := pt.getString "private_key_password"
    dhFile := pt.getString "dh_file"
    ifList := readList pt "if_list" c.ifList
    drivesList := readList pt "drives_list" c.drivesList }

/-- What the configuration is when `parse` returns `0`. -/
def reloaded (t : Translators) (pt : Ptree) (n m : Nat) (c : Config) : Config :=
  { readFields t pt c with
    statsUpdatePeriod := if n > 0 then n else c.statsUpdatePeriod
    statsDbUpdatePeriod := if m > 0 then m else c.statsDbUpdatePeriod
    logLevel := (pt.lookup "log_level").getD "debug" }

theorem lookup_getString (h : key ∈ pt) : pt.lookup key = some (pt.getString key) := by
  obtain ⟨value, hvalue⟩ := Table.exists_lookup h
  unfold Ptree.getString
  rw [hvalue]
  rfl

theorem parseTree_tls (h : ∀ key ∈ tlsKeys, key ∈ pt) (c : Config) :
    parseTree t pt c = parsePeriods t pt (readFields t pt c) := by
  have hlookup : ∀ key ∈ tlsKeys, pt.lookup key = some (pt.getString key) := fun key hkey =>
    lookup_getString (h key hkey)
  unfold parseTree
  rw [modify_bind_apply, setField_some (hlookup _ (by decide)),
    setField_some (hlookup _ (by decide)), setField_some (hlookup _ (by decide)),
    modify_bind_apply, setField_some (hlookup _ (by decide)), modify_bind_apply,
    modify_bind_apply]
  rfl

theorem parse_ok {n m : Nat} (h : ∀ key ∈ tlsKeys, key ∈ pt)
    (hn : pt.getOptional t.ushort "stats_update_period" = some n)
    (hm : pt.getOptional t.ushort "stats_db_update_period" = some m) (c : Config) :
    parse t (.tree pt) c = .returned 0 (reloaded t pt n m c) := by
  have hend : parseTree t pt c = .ok ⟨⟩ (reloaded t pt n m c) := by
    rw [parseTree_tls h]
    unfold parsePeriods
    rw [setPeriod_some hn, setPeriod_some hm]
    unfold reloaded
    by_cases hn0 : n > 0 <;> by_cases hm0 : m > 0 <;> simp only [hn0, hm0, if_true, if_false] <;> rfl
  exact congrArg caught hend

/-- A period is missing or cannot be translated. -/
theorem parse_emptyOptional (h : ∀ key ∈ tlsKeys, key ∈ pt)
    (hnone : pt.getOptional t.ushort "stats_update_period" = none ∨
      pt.getOptional t.ushort "stats_db_update_period" = none) (c : Config) :
    ∃ new, parse t (.tree pt) c = .failed new := by
  have hend : ∃ new, parseTree t pt c = .error .emptyOptional new := by
    rw [parseTree_tls h]
    unfold parsePeriods
    cases hn : pt.getOptional t.ushort "stats_update_period" with
    | none =>
      rw [setPeriod_none hn]
      exact ⟨_, rfl⟩
    | some n =>
      have hm := hnone.resolve_left (by rw [hn]; exact Option.some_ne_none n)
      rw [setPeriod_some hn, setPeriod_none hm]
      exact ⟨_, rfl⟩
  obtain ⟨new, hnew⟩ := hend
  exact ⟨new, congrArg caught hnew⟩

/-- A reload that returns has read both periods. -/
theorem periods_of_returned (h : ∀ key ∈ tlsKeys, key ∈ pt) {status : Int} {c new : Config}
    (hreturned : parse t (.tree pt) c = .returned status new) :
    ∃ n m, pt.getOptional t.ushort "stats_update_period" = some n ∧
      pt.getOptional t.ushort "stats_db_update_period" = some m := by
  cases hn : pt.getOptional t.ushort "stats_update_period" with
  | none =>
    obtain ⟨_, hfailed⟩ := parse_emptyOptional h (.inl hn) c
    exact nomatch hreturned.symm.trans hfailed
  | some n =>
    cases hm : pt.getOptional t.ushort "stats_db_update_period" with
    | none =>
      obtain ⟨_, hfailed⟩ := parse_emptyOptional h (.inr hm) c
      exact nomatch hreturned.symm.trans hfailed
    | some m => exact ⟨n, m, rfl, rfl⟩

/-- What is reloaded does not depend on what was there, if the file gives all. -/
theorem managed_reloaded {n m : Nat} (hall : GivesAll t pt)
    (hn : pt.getOptional t.ushort "stats_update_period" = some n)
    (hm : pt.getOptional t.ushort "stats_db_update_period" = some m) (c c' : Config) :
    (reloaded t pt n m c).managed = (reloaded t pt n m c').managed := by
  obtain ⟨n', hn0, hn'⟩ := hall.statsUpdatePeriod
  obtain ⟨m', hm0, hm'⟩ := hall.statsDbUpdatePeriod
  cases hn.symm.trans hn'
  cases hm.symm.trans hm'
  unfold managed reloaded readFields readList
  simp only [if_pos hall.ifList, if_pos hall.drivesList, if_pos hn0, if_pos hm0]

/-- And only if it does. -/
theorem givesAll_of_managed {n m : Nat} (old : Config)
    (hn : pt.getOptional t.ushort "stats_update_period" = some n)
    (hm : pt.getOptional t.ushort "stats_db_update_period" = some m)
    (h : ∀ c', (reloaded t pt n m c').managed = (reloaded t pt n m old).managed) :
    GivesAll t pt := by
  constructor
  case ifList =>
    intro hempty
    have hlist := congrArg ifList (h { old with ifList := "" :: old.ifList })
    simp [managed, reloaded, readFields, readList, hempty] at hlist
  case drivesList =>
    intro hempty
    have hlist := congrArg drivesList (h { old with drivesList := "" :: old.drivesList })
    simp [managed, reloaded, readFields, readList, hempty] at hlist
  case statsUpdatePeriod =>
    refine ⟨n, Nat.pos_of_ne_zero fun hzero => ?_, hn⟩
    have hperiod := congrArg statsUpdatePeriod
      (h { old with statsUpdatePeriod := old.statsUpdatePeriod + 1 })
    simp [managed, reloaded, hzero] at hperiod
  case statsDbUpdatePeriod =>
    refine ⟨m, Nat.pos_of_ne_zero fun hzero => ?_, hm⟩
    have hperiod := congrArg statsDbUpdatePeriod
      (h { old with statsDbUpdatePeriod := old.statsDbUpdatePeriod + 1 })
    simp [managed, reloaded, hzero] at hperiod

theorem parse_badPath (t : Translators) (old : Config) (h : ∃ key ∈ tlsKeys, key ∉ pt) :
    ∃ new, parse t (.tree pt) old = .returned (-1) new ∧ (new = old ↔ SameBefore t pt old) := by
  obtain ⟨key, new, hend, hnew⟩ := parseTree_badPath t old h
  exact ⟨new, congrArg caught hend, hnew⟩

theorem not_tls (h : ¬∀ key ∈ tlsKeys, key ∈ pt) : ∃ key ∈ tlsKeys, key ∉ pt := by
  push Not at h
  exact h

/-- A reload that returns `-1` and leaves the configuration alone. -/
theorem reloadRight_of_unchanged {file : CfgFile} (h : parse t file old = .returned (-1) old)
    (hoptional : ∀ pt, file = .tree pt → ∃ key ∈ tlsKeys, key ∉ pt) : ReloadRight t file old where
  returns := ⟨_, _, h⟩
  refuses _ _ _ := ⟨_, h⟩
  atomic new hnew := by
    cases h.symm.trans hnew
    rfl
  historyFree new hnew := nomatch h.symm.trans hnew
  optional pt hpt hvalid := by
    obtain ⟨key, hkey, hnot⟩ := hoptional pt hpt
    have hsub : tlsKeys ⊆ requiredKeys := by decide
    exact absurd (hvalid.required key (hsub hkey)) hnot

/-- A reload that returns `0` and takes everything from the file. -/
theorem reloadRight_of_givesAll (htls : ∀ key ∈ tlsKeys, key ∈ pt) (hvalid : Valid t pt)
    (hall : GivesAll t pt) (old : Config) : ReloadRight t (.tree pt) old := by
  obtain ⟨n, -, hn⟩ := hall.statsUpdatePeriod
  obtain ⟨m, -, hm⟩ := hall.statsDbUpdatePeriod
  have hok := parse_ok htls hn hm
  constructor
  case returns => exact ⟨_, _, hok old⟩
  case refuses =>
    rintro pt' ⟨⟩ hnot
    exact absurd hvalid hnot
  case atomic => exact fun new hnew => nomatch (hok old).symm.trans hnew
  case historyFree =>
    rintro new hnew old'
    cases (hok old).symm.trans hnew
    exact ⟨_, hok old', managed_reloaded hall hn hm old' old⟩
  case optional => exact fun _ _ _ => ⟨_, hok old⟩

/-- **Reloading the configuration.** For every configuration in memory and every file, a reload is
what it should be exactly if the file has all that is required in well-formed values and gives both
lists and both periods, or lacks a certificate and repeats what is in memory up to there. -/
theorem reloadRight_iff (t : Translators) (file : CfgFile) (old : Config) :
    ReloadRight t file old ↔ Reloads t file old := by
  constructor
  · rintro h pt rfl
    refine ⟨fun htls => ?_, fun hmissing => ?_⟩
    · obtain ⟨status, new, hreturned⟩ := h.returns
      obtain ⟨n, m, hn, hm⟩ := periods_of_returned htls hreturned
      refine ⟨?_, givesAll_of_managed old hn hm fun c' => ?_⟩
      · by_contra hnot
        obtain ⟨_, hrefused⟩ := h.refuses pt rfl hnot
        exact nomatch (parse_ok htls hn hm old).symm.trans hrefused
      obtain ⟨new', hnew', hsame⟩ := h.historyFree _ (parse_ok htls hn hm old) c'
      cases (parse_ok htls hn hm c').symm.trans hnew'
      exact hsame
    · obtain ⟨new, hreturned, hnew⟩ := parse_badPath t old hmissing
      exact hnew.mp (h.atomic new hreturned)
  · intro h
    cases file with
    | missing => exact reloadRight_of_unchanged rfl fun pt hpt => nomatch hpt
    | unreadable => exact reloadRight_of_unchanged rfl fun pt hpt => nomatch hpt
    | tree pt =>
      obtain ⟨hall, hsame⟩ := h pt rfl
      by_cases htls : ∀ key ∈ tlsKeys, key ∈ pt
      · exact reloadRight_of_givesAll htls (hall htls).1 (hall htls).2 old
      · have hmissing := not_tls htls
        obtain ⟨new, hreturned, hnew⟩ := parse_badPath t old hmissing
        obtain rfl := hnew.mpr (hsame hmissing)
        refine reloadRight_of_unchanged hreturned ?_
        rintro pt' ⟨⟩
        exact hmissing

/-! ## A reload that stops halfway -/

/-- Digits, and `true`. -/
def plainTranslators : Translators where
  uint value := value.toNat?
  ushort value := value.toNat?
  bool value := if value = "true" then some true else if value = "false" then some false else none

def plainConfig : Config :=
  { dsId := 1, listenIp := "", listenPort := 31717, apiHost := "", apiKey := "", daemonLogin := ""
    daemonPassword := "", passwordAuthentication := true, cfgFile := "daemon.cfg", outputLog := ""
    errorLog := "", caCertificateFile := "ca.crt", certificateChainFile := "server.crt"
    privateKeyFile := "server.key", privateKeyPassword := "", dhFile := "dh.pem", ifList := []
    drivesList := [], statsUpdatePeriod := 60, statsDbUpdatePeriod := 300, logLevel := "debug" }

/-- The new file has another API key and lacks the certificates. -/
theorem reload_halfway : ¬ ∀ (t : Translators) (file : CfgFile) (old : Config),
    ReloadRight t file old := by
  intro h
  have hkept := (h plainTranslators (.tree (AList.insert "api_key" "new" ∅)) plainConfig).atomic
    { plainConfig with dsId := 0, apiKey := "new" } (by decide)
  exact absurd (congrArg (fun c => c.apiKey) hkept) (by decide)

end Config

end GameAP
