import GameAP.Classes.DedicatedServer
import GameAP.Classes.GameServersList
import GameAP.Functions.GString
import GameAP.Lib.LexicalPath
import GameAP.Lib.Runs

/-!
# The shortcodes of a command

`replace_shortcodes` replaces twelve shortcodes by what the record of the server says, and then the
placeholder of each variable, in the order in which the hash table lists them. Each replacement
sees what the earlier ones have inserted. `replaceShortcodes_congr`: the order has no effect where
no value, with what stands around it, spells the placeholder of a variable.

`fix_path_slashes` goes once over the path that is put in for the directory. It leaves single
slashes exactly if no three separators stand in a row (`slashesFixed_iff`).
-/

namespace GameAP

open Lib Lib.Substitution

def fixPathSlashes (path : String) : String :=
  strReplace "//" "/" (String.ofList (path.toList.map fun c => if c = '\\' then '/' else c))

/-! ## The slashes of a path -/

def isSeparator (c : Char) : Bool := c == '/' || c == '\\'

/-- Every run of separators has become one slash, for good. -/
structure SlashesFixed (path : String) : Prop where
  noBackslash : '\\' ∉ (fixPathSlashes path).toList
  noDouble : ¬ ['/', '/'] <:+: (fixPathSlashes path).toList
  squeezed : (fixPathSlashes path).toList = Runs.squeeze isSeparator '/' path.toList
  unchanged : fixPathSlashes (fixPathSlashes path) = fixPathSlashes path

/-- Three separators stand in a row. -/
def TripleSeparator (path : String) : Prop :=
  ∃ run, run <:+: path.toList ∧ run.length = 3 ∧ ∀ c ∈ run, isSeparator c = true

/-- A separator, as the replacement of a character leaves it. -/
def slash (c : Char) : Char := if isSeparator c then '/' else c

theorem toList_fixPathSlashes (path : String) :
    (fixPathSlashes path).toList = Runs.halve '/' (path.toList.map slash) := by
  have hslash : (fun c => if c = '\\' then '/' else c) = slash := by
    funext c
    unfold slash isSeparator
    by_cases hc : c = '/' <;> by_cases hb : c = '\\' <;> simp_all
  have htext : (String.ofList (path.toList.map slash)).toList = path.toList.map slash :=
    String.toList_ofList
  unfold fixPathSlashes
  rw [toList_strReplace, hslash, htext]
  exact Runs.replace_pair '/' _

theorem tripleSeparator_iff (path : String) :
    TripleSeparator path ↔ ['/', '/', '/'] <:+: path.toList.map slash := by
  rw [List.infix_map_iff]
  constructor
  · rintro ⟨run, hrun, hlen, hall⟩
    refine ⟨run, hrun, ?_⟩
    have hmap : run.map slash = List.replicate 3 '/' := by
      rw [List.eq_replicate_iff]
      refine ⟨by rw [List.length_map, hlen], fun c hc => ?_⟩
      obtain ⟨d, hd, rfl⟩ := List.mem_map.mp hc
      exact if_pos (hall d hd)
    exact hmap.symm
  · rintro ⟨run, hrun, hmap⟩
    refine ⟨run, hrun, ?_, fun c hc => ?_⟩
    · rw [← List.length_map, ← hmap]
      rfl
    · have hslash : slash c ∈ ['/', '/', '/'] := hmap ▸ List.mem_map_of_mem hc
      unfold slash at hslash
      by_contra hnot
      rw [if_neg hnot] at hslash
      have hc' : c = '/' := by simpa using hslash
      exact hnot (hc' ▸ rfl)

theorem slash_ne_backslash (c : Char) : slash c ≠ '\\' := by
  unfold slash isSeparator
  split
  · decide
  · next h =>
    rintro rfl
    exact h rfl

theorem slash_eq_self {c : Char} (h : c ≠ '\\') : slash c = c := by
  unfold slash isSeparator
  by_cases hc : c = '/'
  · subst hc
    rfl
  · simp [hc, h]

theorem backslash_notMem (path : String) : '\\' ∉ (fixPathSlashes path).toList := by
  rw [toList_fixPathSlashes]
  intro hmem
  obtain ⟨c, -, hc⟩ := List.mem_map.mp ((Runs.halve_sublist '/' _).subset hmem)
  exact slash_ne_backslash c hc

/-- **The slashes of a path.** For every path, one pass leaves a single slash in the place of each
run of separators exactly if no three separators stand in a row. -/
theorem slashesFixed_iff (path : String) : SlashesFixed path ↔ ¬ TripleSeparator path := by
  rw [tripleSeparator_iff]
  constructor
  · intro h htriple
    refine h.noDouble ?_
    rw [toList_fixPathSlashes]
    exact Runs.pair_infix_halve htriple
  · intro h
    have hsqueezed : (fixPathSlashes path).toList =
        Runs.squeeze isSeparator '/' path.toList := by
      rw [toList_fixPathSlashes, Runs.halve_eq_squeeze h]
      exact Runs.squeeze_map rfl path.toList
    have hnoDouble : ¬ ['/', '/'] <:+: (fixPathSlashes path).toList := by
      rw [hsqueezed]
      exact Runs.not_pair_infix_squeeze rfl path.toList
    refine ⟨backslash_notMem path, hnoDouble, hsqueezed, ?_⟩
    -- no separator is left that would be turned round
    have hslash : (fixPathSlashes path).toList.map slash = (fixPathSlashes path).toList := by
      conv_rhs => rw [← List.map_id (fixPathSlashes path).toList]
      exact List.map_congr_left fun c hc =>
        slash_eq_self fun he => backslash_notMem path (he ▸ hc)
    apply String.toList_inj.mp
    rw [toList_fixPathSlashes (fixPathSlashes path), hslash, Runs.halve_eq_self hnoDouble]

/-- Of three slashes two are left. -/
theorem slashes_not_fixed : ¬ ∀ path : String, SlashesFixed path := fun h =>
  (h "/srv///cs").noDouble (by decide +kernel)

namespace GameServerCmd

def placeholder (name : String) : String := "\x7b" ++ name ++ "\x7d"

/-- The replacements, one after the other. -/
def replaceAll (replacements : List (String × String)) (command : String) : String :=
  replacements.foldl (fun command r => strReplace r.1 r.2 command) command

def serverShortcodes (ds : DedicatedServer) (serverId : Nat) (server : Server) :
    List (String × String) :=
  [("{dir}", fixPathSlashes (LexicalPath.join ds.workPath server.dir)),
    ("{uuid}", server.uuid),
    ("{uuid_short}", server.uuidShort),
    ("{host}", server.ip),
    ("{ip}", server.ip),
    ("{game}", server.game.startCode),
    ("{id}", toString serverId),
    ("{port}", toString server.connectPort),
    ("{query_port}", toString server.queryPort),
    ("{rcon_port}", toString server.rconPort),
    ("{rcon_password}", server.rconPassword),
    ("{user}", server.user)]

/-- The variables in the order of the table. -/
def varShortcodes (vars : Table String String) : List (String × String) :=
  vars.entries.map fun var => (placeholder var.1, var.2)

def replaceShortcodes (ds : DedicatedServer) (serverId : Nat) (server : Server)
    (command : String) : String :=
  replaceAll (varShortcodes server.vars) (replaceAll (serverShortcodes ds serverId server) command)

/-! ## Variables -/

def spell (name : String) : List Char := (placeholder name).toList

def value (vars : Table String String) (name : String) : List Char :=
  ((vars.lookup name).getD "").toList

/-- The command can be read as a text with placeholders such that, whichever variables have been
replaced, the placeholder of another variable stands only where the text has it. -/
def VarsApart (vars : Table String String) (command : String) : Prop :=
  ∃ pieces : List (Piece Char String),
    command.toList = text spell (value vars) [] pieces ∧ Apart spell (value vars) vars.keys pieces

variable {vars vars' : Table String String} {command : String}

theorem spell_eq (name : String) : spell name = bracketed '\x7b' '\x7d' String.toList name := by
  simp only [spell, placeholder, bracketed, String.toList_append]
  rfl

theorem spell_ne_nil (name : String) : spell name ≠ [] := by
  rw [spell_eq]
  exact List.cons_ne_nil _ _

theorem toList_replaceAll_vars (vars : Table String String) (command : String) :
    (replaceAll (varShortcodes vars) command).toList =
      vars.keys.foldl (fun xs name => replace (spell name) (value vars name) xs)
        command.toList := by
  have hvalue : ∀ e ∈ vars.entries, value vars e.1 = e.2.toList := fun e he => by
    rw [value, AList.mem_lookup_iff.mpr he, Option.getD_some]
  unfold replaceAll varShortcodes AList.keys List.keys
  rw [List.foldl_map, List.foldl_map]
  generalize vars.entries = entries at hvalue
  induction entries generalizing command with
  | nil => rfl
  | cons e entries ih =>
    rw [List.foldl_cons, List.foldl_cons, ih _ fun e' he => hvalue e' (List.mem_cons_of_mem _ he),
      toList_strReplace, hvalue e List.mem_cons_self]
    rfl

/-- Where the variables are apart, the command is the text with all placeholders replaced. -/
theorem replaceAll_vars_eq {pieces : List (Piece Char String)}
    (hcommand : command.toList = text spell (value vars) [] pieces)
    (h : Apart spell (value vars) vars.keys pieces) :
    (replaceAll (varShortcodes vars) command).toList =
      text spell (value vars) vars.keys pieces := by
  rw [toList_replaceAll_vars, hcommand,
    foldl_replace spell_ne_nil h (List.Subset.refl _) vars.nodupKeys (List.nil_subset _)
      (List.disjoint_nil_right _), List.append_nil]

theorem value_congr (h : vars'.entries.Perm vars.entries) : value vars' = value vars := by
  funext name
  rw [value, value, AList.perm_lookup h]

theorem replaceAll_vars_congr (hperm : vars'.entries.Perm vars.entries)
    (h : VarsApart vars command) :
    replaceAll (varShortcodes vars') command = replaceAll (varShortcodes vars) command := by
  obtain ⟨pieces, hcommand, hapart⟩ := h
  have hkeys : ∀ name, name ∈ vars'.keys ↔ name ∈ vars.keys := fun name =>
    (hperm.map Sigma.fst).mem_iff
  have hapart' : Apart spell (value vars') vars'.keys pieces := by
    rw [value_congr hperm]
    exact fun done hdone name hname => hapart done (fun n hn => (hkeys n).mp (hdone hn)) name
      ((hkeys name).mp hname)
  apply String.toList_inj.mp
  rw [replaceAll_vars_eq hcommand hapart, replaceAll_vars_eq (by rw [value_congr hperm, hcommand])
    hapart', value_congr hperm]
  exact text_congr hkeys

/-- **The order of the variables has no effect** on a command in which, once the shortcodes of the
server have been replaced, the variables are apart. -/
theorem replaceShortcodes_congr (ds : DedicatedServer) (serverId : Nat) (server : Server)
    (command : String) (vars' : Table String String)
    (hperm : vars'.entries.Perm server.vars.entries)
    (h : VarsApart server.vars (replaceAll (serverShortcodes ds serverId server) command)) :
    replaceShortcodes ds serverId { server with vars := vars' } command =
      replaceShortcodes ds serverId server command :=
  replaceAll_vars_congr hperm h

/-- Variables whose names have no brace and whose values have no opening brace, in a command with no
opening brace but those of placeholders. -/
theorem varsApart_of_braces {pieces : List (Piece Char String)}
    (hcommand : command.toList = text spell (value vars) [] pieces)
    (h : Bracketed '\x7b' '\x7d' String.toList (value vars) vars.keys pieces) :
    VarsApart vars command := by
  refine ⟨pieces, hcommand, ?_⟩
  rw [funext spell_eq]
  exact apart_of_bracketed h

/-- Two variables in this order. -/
def twoVars (a b : String × String) (h : a.1 ≠ b.1) : Table String String :=
  ⟨[⟨a.1, a.2⟩, ⟨b.1, b.2⟩], by simpa [List.NodupKeys, List.keys] using h⟩

def serverWith (vars : Table String String) : Server :=
  { GameServersList.plainServer 1 with vars }

theorem command_of_map_and_mode :
    replaceShortcodes .idleHost 1 { serverWith (twoVars ("map", "dust") ("mode", "2") (by decide))
        with vars := twoVars ("mode", "2") ("map", "dust") (by decide) } "{map} {mode}" =
      replaceShortcodes .idleHost 1
        (serverWith (twoVars ("map", "dust") ("mode", "2") (by decide))) "{map} {mode}" := by
  have hpieces : "{map} {mode}".toList =
      text spell (value (twoVars ("map", "dust") ("mode", "2") (by decide))) []
        [.mark "map", .literal ' ', .mark "mode"] := by decide
  refine replaceShortcodes_congr _ _ _ _ _ (List.Perm.swap _ _ _)
    (varsApart_of_braces (Eq.trans ?_ hpieces) ?_)
  · decide +kernel
  · constructor
    case injective => exact fun _ _ => String.toList_injective
    case mark_mem => simp [serverWith, twoVars, AList.keys, List.keys]
    case literal_ne => simp
    all_goals decide

/-- A value that is a placeholder is replaced in one of the orders only. -/
theorem command_depends_on_order :
    ¬ ∀ (ds : DedicatedServer) (serverId : Nat) (server : Server) (command : String)
      (vars' : Table String String), vars'.entries.Perm server.vars.entries →
      replaceShortcodes ds serverId { server with vars := vars' } command =
        replaceShortcodes ds serverId server command := by
  intro h
  have heq := h .idleHost 1 (serverWith (twoVars ("a", "{b}") ("b", "x") (by decide))) "{a}"
    (twoVars ("b", "x") ("a", "{b}") (by decide)) (List.Perm.swap _ _ _)
  revert heq
  decide +kernel

end GameServerCmd

end GameAP
