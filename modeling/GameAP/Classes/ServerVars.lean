import GameAP.Classes.ServerRecords

/-!
# The variables of a server

Every record that is read replaces the variables of the server by those of the record: the defaults
of the game mod, the first of a name, and over them the server's own values
(`syncFromApi_vars`). A value that is neither a string nor an integer is passed over.
-/

namespace GameAP

open Lib

namespace Json

/-- What a value is taken for. -/
def varText : Json → Option String
  | str s => some s
  | j => if j.isInt then some (toString j.toInt) else none

/-- What a default is taken for. -/
def defaultText : Json → Option String
  | null => some ""
  | j => j.varText

/-- `value[key]`, and null where that throws. -/
def member (j : Json) (key : String) : Json := resultD null (j.get key)

theorem member_of_get {j v : Json} {key : String} (h : j.get key = .ok v) : j.member key = v := by
  unfold member
  rw [h]
  rfl

theorem varText_of_not_isString {j : Json} (h : j.isString = false) :
    j.varText = if j.isInt then some (toString j.toInt) else none := by
  cases j with
  | str s => cases h
  | _ => rfl

theorem defaultText_of_not_isNull {j : Json} (h : j.isNull = false) :
    j.defaultText = j.varText := by
  cases j with
  | null => cases h
  | _ => rfl

end Json

namespace GameServersList

/-- The default of an entry of `game_mod.vars` with this name. -/
def modDefault (name : String) (jvar : Json) : Option String :=
  if (jvar.getString "var").toOption = some name then (jvar.member "default").defaultText else none

/-- The default of the first entry of this name that has one. -/
def modVar (jserver : Json) (name : String) : Option String :=
  ((jserver.member "game_mod").member "vars").elems.findSome? (modDefault name)

/-- The server's own value. -/
def ownVar (jserver : Json) (name : String) : Option String :=
  ((jserver.member "vars").member name).varText

variable {tz : Int} {id : Nat} {g g' : GameServersList} {j jvar : Json} {s t : Server} {u : PUnit}
  {name : String} {vars out : Table String String}

/-! ## The defaults -/

theorem lookup_emplace {key text : String} : (vars.emplace key text).lookup name =
    (vars.lookup name).or (if key = name then some text else none) := by
  by_cases hk : key = name
  · subst hk
    rw [if_pos rfl]
    by_cases hmem : key ∈ vars
    · obtain ⟨v, hv⟩ := Table.exists_lookup hmem
      have hsame : vars.emplace key text = vars := if_pos hmem
      rw [hsame, hv]
      rfl
    · rw [Table.lookup_emplace_of_notMem hmem, AList.lookup_eq_none.mpr hmem]
      rfl
  · rw [if_neg hk, Table.lookup_emplace_ne (Ne.symm hk), Option.or_none]

/-- An entry with a default. -/
theorem modVars_put {rest : List Json} {dflt : Json} {text : String}
    (hmember : jvar.member "default" = dflt) (htext : dflt.defaultText = some text)
    (h : (do modVars rest (vars.emplace (← jvar.getString "var") text)) = .ok out) :
    ∃ vars', modVars rest vars' = .ok out ∧
      ∀ name, vars'.lookup name = (vars.lookup name).or (modDefault name jvar) := by
  obtain ⟨key, hkey, h⟩ := ok_of_bind h
  refine ⟨_, h, fun name => ?_⟩
  unfold modDefault
  rw [lookup_emplace, hkey, hmember, htext]
  simp only [Except.toOption, Option.some.injEq]

/-- One entry is passed over, or it is put in if its name is not there yet. -/
theorem modVars_cons {rest : List Json} (h : modVars (jvar :: rest) vars = .ok out) :
    ∃ vars', modVars rest vars' = .ok out ∧
      ∀ name, vars'.lookup name = (vars.lookup name).or (modDefault name jvar) := by
  unfold modVars at h
  obtain ⟨dflt, hdflt, h⟩ := ok_of_bind h
  have hmember := Json.member_of_get hdflt
  cases hnull : dflt.isNull with
  | true =>
    rw [hnull] at h
    refine modVars_put hmember ?_ h
    cases dflt with
    | null => rfl
    | _ => cases hnull
  | false =>
    have hdefault := Json.defaultText_of_not_isNull hnull
    cases hstring : dflt.isString with
    | true =>
      rw [hnull, hstring] at h
      cases dflt with
      | str text => exact modVars_put hmember rfl h
      | _ => cases hstring
    | false =>
      cases hint : dflt.isInt with
      | true =>
        rw [hnull, hstring, hint] at h
        refine modVars_put hmember ?_ h
        rw [hdefault, Json.varText_of_not_isString hstring, hint]
        rfl
      | false =>
        rw [hnull, hstring, hint] at h
        refine ⟨vars, h, fun name => ?_⟩
        unfold modDefault
        rw [hmember, hdefault, Json.varText_of_not_isString hstring, hint]
        simp

theorem lookup_modVars {jvars : List Json} (h : modVars jvars vars = .ok out) :
    out.lookup name = (vars.lookup name).or (jvars.findSome? (modDefault name)) := by
  induction jvars generalizing vars with
  | nil =>
    cases h
    rw [List.findSome?_nil, Option.or_none]
  | cons jvar rest ih =>
    obtain ⟨vars', hrest, hvars'⟩ := modVars_cons h
    rw [ih hrest, hvars', List.findSome?_cons, Option.or_assoc]
    cases modDefault name jvar <;> rfl

/-! ## The server's own values -/

theorem serverVars_cons {jvars : Json} {key : String} {rest : List String}
    (h : serverVars jvars (key :: rest) vars = .ok out) :
    ∃ vars', serverVars jvars rest vars' = .ok out ∧ ∀ name, vars'.lookup name =
      if name = key then (jvars.member name).varText.or (vars.lookup name)
      else vars.lookup name := by
  unfold serverVars at h
  obtain ⟨jvar, hjvar, h⟩ := ok_of_bind h
  have hmember := Json.member_of_get hjvar
  -- a value that is taken
  have hput : ∀ text, jvar.varText = some text → ∀ name, (vars.insert key text).lookup name =
      if name = key then (jvars.member name).varText.or (vars.lookup name)
      else vars.lookup name := by
    intro text htext name
    by_cases hk : name = key
    · subst hk
      rw [if_pos rfl, AList.lookup_insert, hmember, htext]
      rfl
    · rw [if_neg hk, AList.lookup_insert_ne hk]
  cases hstring : jvar.isString with
  | true =>
    rw [hstring] at h
    cases jvar with
    | str text => exact ⟨_, h, hput text rfl⟩
    | _ => cases hstring
  | false =>
    cases hint : jvar.isInt with
    | true =>
      rw [hstring, hint] at h
      exact ⟨_, h, hput _ (by rw [Json.varText_of_not_isString hstring, hint]; rfl)⟩
    | false =>
      rw [hstring, hint] at h
      refine ⟨vars, h, fun name => ?_⟩
      by_cases hk : name = key
      · rw [if_pos hk, hk, hmember, Json.varText_of_not_isString hstring, hint]
        rfl
      · rw [if_neg hk]

theorem lookup_serverVars {jvars : Json} {keys : List String}
    (h : serverVars jvars keys vars = .ok out) : out.lookup name =
      if name ∈ keys then (jvars.member name).varText.or (vars.lookup name)
      else vars.lookup name := by
  induction keys generalizing vars with
  | nil =>
    cases h
    rfl
  | cons key rest ih =>
    obtain ⟨vars', hrest, hvars'⟩ := serverVars_cons h
    rw [ih hrest, hvars']
    by_cases hk : name = key
    · subst hk
      simp only [if_true, List.mem_cons_self]
      cases (jvars.member name).varText <;> simp
    · simp only [hk, List.mem_cons, false_or, if_false]

/-- A name that is not a member has no value. -/
theorem varText_of_notMem {jvars : Json} {keys : List String}
    (h : jvars.getMemberNames = .ok keys) (hname : name ∉ keys) :
    (jvars.member name).varText = none := by
  cases jvars with
  | null => rfl
  | obj kvs =>
    cases h
    have hnone : kvs.lookup name = none := by
      rw [List.lookup_eq_none_iff]
      intro kv hkv
      rw [bne_iff_ne]
      rintro rfl
      exact hname (List.mem_map_of_mem hkv)
    have hget : (Json.obj kvs).get name = .ok .null := by
      show Except.ok ((kvs.lookup name).getD .null) = .ok .null
      rw [hnone]
      rfl
    rw [Json.member_of_get hget]
    rfl
  | _ => cases h

theorem varText_of_isEmpty {jvars : Json} (h : jvars.isEmpty = true) :
    (jvars.member name).varText = none := by
  cases jvars with
  | null | arr xs => rfl
  | obj kvs =>
    obtain rfl := List.isEmpty_iff.mp h
    rfl
  | _ => cases h

/-! ## Both layers -/

theorem lookup_readVars (h : readVars j = .ok out) :
    out.lookup name = (ownVar j name).or (modVar j name) := by
  unfold readVars at h
  obtain ⟨jmod, hmod, h⟩ := ok_of_bind h
  obtain ⟨jvars, hjvars, h⟩ := ok_of_bind h
  obtain ⟨vars, hvars, h⟩ := ok_of_bind h
  obtain ⟨jserverVars, hown, h⟩ := ok_of_bind h
  have hdefaults : vars.lookup name = modVar j name := by
    unfold modVar
    rw [lookup_modVars hvars, Json.member_of_get hmod, Json.member_of_get hjvars]
    rfl
  unfold ownVar
  rw [Json.member_of_get hown, ← hdefaults]
  cases hempty : jserverVars.isEmpty with
  | true =>
    rw [hempty] at h
    cases h
    rw [varText_of_isEmpty hempty]
    rfl
  | false =>
    rw [hempty] at h
    obtain ⟨keys, hkeys, h⟩ := ok_of_bind h
    rw [lookup_serverVars h]
    by_cases hname : name ∈ keys
    · rw [if_pos hname]
    · rw [if_neg hname, varText_of_notMem hkeys hname]
      rfl

theorem syncFields_vars (h : syncFields j s = .ok u t) : readVars j = .ok t.vars := by
  unfold syncFields at h
  iterate 7 obtain ⟨_, -, h⟩ := of_setString_bind_eq_ok h
  iterate 2 obtain ⟨_, h⟩ := of_store_bind_eq_ok h
  iterate 6 obtain ⟨_, -, h⟩ := of_setString_bind_eq_ok h
  obtain ⟨vars, hvars, h⟩ := of_orThrow_bind_eq_ok h
  rw [modify_bind_apply] at h
  obtain ⟨jsettings, -, h⟩ := of_orThrow_bind_eq_ok h
  have hkept := (syncSettings_keeps (f := Server.vars) (fun _ _ => rfl) _).eq_of_ok h
  rw [hvars, hkept]

theorem syncServer_vars (h : syncServer tz j s = .ok u t) : readVars j = .ok t.vars := by
  unfold syncServer at h
  obtain ⟨_, -, h⟩ := of_orThrow_bind_eq_ok h
  obtain ⟨_, _, -, h⟩ := of_bind_eq_ok h
  rw [modify_bind_apply] at h
  exact syncFields_vars h

/-- **The variables behind a record.** Each is the server's own value, or else the default of the
game mod, whatever the server had before. -/
theorem syncFromApi_vars (tz : Int) (id : Nat) (j : Json) (g g' : GameServersList)
    (hmem : id ∈ g.serversList) (hj : j.isEmpty = false)
    (h : syncFromApi tz id (some j) g = .ok ⟨⟩ g') :
    ∃ t, g'.serversList.lookup id = some t ∧
      ∀ name, t.vars.lookup name = (ownVar j name).or (modVar j name) := by
  obtain ⟨s, hs⟩ := Table.exists_lookup hmem
  unfold syncFromApi at h
  simp only [hj, Bool.false_eq_true, if_false] at h
  unfold onServer at h
  rw [hs] at h
  simp only at h
  cases hsync : syncServer tz j s with
  | error e t =>
    rw [hsync] at h
    cases h
  | ok _ t =>
    rw [hsync] at h
    cases h
    refine ⟨t, ?_, fun name => lookup_readVars (syncServer_vars hsync)⟩
    rw [Table.lookup_modify, hs]
    rfl

/-- A record with two layers of variables. -/
def recordWithVars : Json :=
  .obj [
    ("game_mod", .obj [("vars", .arr [
      .obj [("var", .str "map"), ("default", .str "de_dust")],
      .obj [("var", .str "map"), ("default", .str "de_aztec")],
      .obj [("var", .str "slots"), ("default", .int 16)],
      .obj [("var", .str "motd"), ("default", .null)]])]),
    ("vars", .obj [("map", .bool true), ("slots", .int 32)])]

def afterRecordWithVars : GameServersList :=
  endState (syncFromApi 0 1 (some recordWithVars)) (plainList [1])

theorem recordWithVars_vars : ∃ t, afterRecordWithVars.serversList.lookup 1 = some t ∧
    ∀ name, t.vars.lookup name =
      (ownVar recordWithVars name).or (modVar recordWithVars name) :=
  syncFromApi_vars 0 1 recordWithVars (plainList [1]) afterRecordWithVars (by decide) rfl rfl

example : ["map", "slots", "motd", "port"].map (fun name =>
    (ownVar recordWithVars name).or (modVar recordWithVars name)) =
      [some "de_dust", some "32", some "", none] := by decide

end GameServersList

end GameAP
