import Mathlib.Data.List.Basic

/-!
# The words of a shell command

`readCommand` reads a text as one simple command of a POSIX shell, character by character: blanks
separate words, and a double quote begins and ends a quoted part, in which a backslash takes its
meaning from the character behind it. What would start another command or an expansion is not read,
nor are the other ways to quote, nor a NUL, with which the text would end; that a first word may be
a reserved word is not looked at.
`readCommand_quoted_iff`: what a text between two quotes has to be for the shell to see one word.
-/

namespace Lib

namespace ShellWords

inductive Part where
  | bare (c : Char)
  | quoted (text : List Char)
  deriving DecidableEq, Repr

abbrev Word := List Part

inductive Mode where
  | outside
  | quoted (text : List Char)
  /-- behind a backslash in a quoted part -/
  | escaped (text : List Char)
  deriving DecidableEq, Repr

structure Lexer where
  words : List Word
  /-- The word that is being read, without a quoted part that is still open. -/
  current : Option Word
  mode : Mode
  deriving DecidableEq, Repr

namespace Lexer

def init : Lexer := { words := [], current := none, mode := .outside }

def endWord (s : Lexer) : List Word :=
  match s.current with
  | none => s.words
  | some w => s.words ++ [w]

def add (s : Lexer) (p : Part) : Option Word := some (s.current.getD [] ++ [p])

def isBlank (c : Char) : Bool := c == ' ' || c == '\t'

/-- What does not stand for itself outside quotes. -/
def special : List Char :=
  ['|', '&', ';', '<', '>', '(', ')', '$', '`', '\\', '"', '\x27', '*', '?', '[', '\n', '\x00']

/-- `#` and `~` begin no word, and `=` is in an assignment before the first word ends. -/
def isOrdinary (s : Lexer) (c : Char) : Bool :=
  !special.contains c && !((c == '#' || c == '~') && s.current.isNone) &&
    !(c == '=' && s.words.isEmpty)

/-- What a backslash and the character behind it stand for in a quoted part. -/
def unescape (c : Char) : List Char :=
  if c = '\n' then []
  else if c = '$' ∨ c = '`' ∨ c = '"' ∨ c = '\\' then [c]
  else ['\\', c]

def step (s : Lexer) (c : Char) : Option Lexer :=
  match s.mode with
  | .outside =>
    if isBlank c then some { words := s.endWord, current := none, mode := .outside }
    else if c = '"' then some { s with mode := .quoted [] }
    else if s.isOrdinary c then some { s with current := s.add (.bare c) }
    else none
  | .quoted text =>
    if c = '"' then some { s with current := s.add (.quoted text), mode := .outside }
    else if c = '\\' then some { s with mode := .escaped text }
    else if c = '$' ∨ c = '`' ∨ c = '\x00' then none
    else some { s with mode := .quoted (text ++ [c]) }
  | .escaped text =>
    if c = '\x00' then none else some { s with mode := .quoted (text ++ unescape c) }

def finish (s : Lexer) : Option (List Word) :=
  match s.mode with
  | .outside => some s.endWord
  | .quoted _ | .escaped _ => none

def run (s : Lexer) (text : List Char) : Option (List Word) := (text.foldlM step s).bind finish

end Lexer

open Lexer

def readCommand (text : List Char) : Option (List Word) := init.run text

/-- Every double quote, dollar and backquote is behind a backslash of its own, and so is every
backslash that is not one of these; none is left at the end. There is no NUL. -/
def Escaped : List Char → Bool
  | [] => true
  | '\\' :: cs =>
    match cs with
    | [] => false
    | c :: cs => c != '\x00' && Escaped cs
  | c :: cs => c != '"' && c != '$' && c != '`' && c != '\x00' && Escaped cs

variable {s s' : Lexer} {c : Char} {words : List Word} {text arg : List Char}

theorem run_cons (s : Lexer) (c : Char) (text : List Char) :
    s.run (c :: text) = (s.step c).bind fun s => s.run text := by
  unfold run
  rw [List.foldlM_cons]
  cases s.step c <;> rfl

theorem run_append (s : Lexer) (a b : List Char) :
    s.run (a ++ b) = (a.foldlM step s).bind fun s => s.run b := by
  unfold run
  rw [List.foldlM_append]
  cases a.foldlM step s <;> rfl

/-- A blank and a quote behind a command. -/
theorem readCommand_append {command : List Char} (h : readCommand command = some words)
    (rest : List Char) : readCommand (command ++ ' ' :: '"' :: rest) =
      Lexer.run { words, current := none, mode := .quoted [] } rest := by
  unfold readCommand
  obtain ⟨s, hs, hfinish⟩ := Option.bind_eq_some_iff.mp h
  rw [run_append, hs, Option.bind_some, run_cons]
  unfold finish at hfinish
  cases hmode : s.mode with
  | outside =>
    rw [hmode] at hfinish
    obtain rfl := Option.some.inj hfinish
    have hblank : s.step ' ' = some { words := s.endWord, current := none, mode := .outside } := by
      unfold step
      rw [hmode]
      rfl
    rw [hblank, Option.bind_some, run_cons]
    rfl
  | quoted text =>
    rw [hmode] at hfinish
    cases hfinish
  | escaped text =>
    rw [hmode] at hfinish
    cases hfinish

/-! ## Behind the quoted part -/

/-- The words `words` have been read, and a part of the next one that is not empty. -/
def Left (words : List Word) (s : Lexer) : Prop :=
  words.length < s.words.length ∨ s.words = words ∧ ∃ w, s.current = some w ∧ w ≠ []

theorem Left.add (h : Left words s) (p : Part) (mode : Mode) :
    Left words { s with current := s.add p, mode } := by
  rcases h with hlt | ⟨hwords, w, hw, -⟩
  · exact .inl hlt
  · exact .inr ⟨hwords, _, rfl, by simp⟩

/-- The word is among those that have been read, when it ends. -/
theorem Left.endWord (h : Left words s) : words.length < s.endWord.length := by
  unfold Lexer.endWord
  rcases h with hlt | ⟨hwords, w, hw, -⟩
  · cases s.current with
    | none => exact hlt
    | some w =>
      rw [List.length_append]
      omega
  · simp [hw, hwords]

theorem Left.step (h : Left words s) (hs : s.step c = some s') : Left words s' := by
  unfold Lexer.step at hs
  cases hmode : s.mode with
  | outside =>
    simp only [hmode] at hs
    split at hs
    · obtain rfl := Option.some.inj hs
      exact .inl h.endWord
    · split at hs
      · obtain rfl := Option.some.inj hs
        exact h
      · split at hs
        · obtain rfl := Option.some.inj hs
          exact h.add _ _
        · cases hs
  | quoted text =>
    simp only [hmode] at hs
    split at hs
    · obtain rfl := Option.some.inj hs
      exact h.add _ _
    · split at hs
      · obtain rfl := Option.some.inj hs
        exact h
      · split at hs
        · cases hs
        · obtain rfl := Option.some.inj hs
          exact h
  | escaped text =>
    simp only [hmode] at hs
    split at hs
    · cases hs
    · obtain rfl := Option.some.inj hs
      exact h

/-- The quote at the end closes a second quoted part, or opens one. -/
theorem Left.run_quote (h : Left words s) : s.run ['"'] ≠ some (words ++ [[.quoted arg]]) := by
  rw [run_cons]
  unfold Lexer.step
  cases hmode : s.mode with
  | outside => exact nofun
  | escaped text => exact nofun
  | quoted text =>
    intro hrun
    have hend : s.words ++ [s.current.getD [] ++ [.quoted text]] = words ++ [[.quoted arg]] :=
      Option.some.inj hrun
    obtain ⟨hwords, hlast⟩ := List.append_inj' hend rfl
    rcases h with hlt | ⟨-, w, hw, hne⟩
    · rw [hwords] at hlt
      exact Nat.lt_irrefl _ hlt
    · rw [hw] at hlast
      have hlen := congrArg List.length (List.cons.inj hlast).1
      have hpos := List.length_pos_iff.mpr hne
      simp only [Option.getD_some, List.length_append, List.length_singleton] at hlen
      omega

theorem Left.run (h : Left words s) (text : List Char) :
    s.run (text ++ ['"']) ≠ some (words ++ [[.quoted arg]]) := by
  induction text generalizing s with
  | nil => exact h.run_quote
  | cons c text ih =>
    rw [List.cons_append, run_cons]
    cases hs : s.step c with
    | none => exact nofun
    | some s' => exact ih (h.step hs)

/-! ## The quoted part -/

/-- A character that stands for itself between quotes. -/
theorem step_quoted (words : List Word) (before : List Char) (hquote : c ≠ '"') (hslash : c ≠ '\\')
    (hspecial : ¬ (c = '$' ∨ c = '`' ∨ c = '\x00')) :
    Lexer.step { words, current := none, mode := .quoted before } c =
      some { words, current := none, mode := .quoted (before ++ [c]) } := by
  unfold Lexer.step
  simp only [if_neg hquote, if_neg hslash, if_neg hspecial]

/-- A backslash, and a character behind it. -/
theorem run_escaped (words : List Word) (before rest : List Char) (hnul : c ≠ '\x00') :
    Lexer.run { words, current := none, mode := .quoted before } ('\\' :: c :: rest) =
      Lexer.run { words, current := none, mode := .quoted (before ++ unescape c) } rest := by
  have hslash : Lexer.step { words, current := none, mode := .quoted before } '\\' =
      some { words, current := none, mode := .escaped before } := rfl
  have hstep : Lexer.step { words, current := none, mode := .escaped before } c =
      some { words, current := none, mode := .quoted (before ++ unescape c) } := if_neg hnul
  rw [run_cons, hslash, Option.bind_some, run_cons, hstep, Option.bind_some]

/-- The text is read up to the quote behind it exactly if it is escaped. -/
theorem run_quoted_iff (words : List Word) (text before : List Char) :
    (∃ arg, Lexer.run { words, current := none, mode := .quoted before } (text ++ ['"']) =
      some (words ++ [[.quoted arg]])) ↔ Escaped text = true := by
  induction text using Escaped.induct generalizing before with
  | case1 => exact iff_of_true ⟨before, rfl⟩ rfl
  | case2 => exact iff_of_false nofun nofun
  | case3 c cs ih =>
    by_cases hnul : c = '\x00'
    · subst hnul
      exact iff_of_false nofun nofun
    · have hescaped : Escaped ('\\' :: c :: cs) = Escaped cs := by
        simp [Escaped, hnul]
      rw [hescaped, ← ih (before ++ unescape c), List.cons_append, List.cons_append,
        run_escaped words before _ hnul]
  | case4 c cs hne ih =>
    have hne' : c ≠ '\\' := hne
    rw [List.cons_append, run_cons]
    by_cases hquote : c = '"'
    · subst hquote
      have hleft : Left words
          { words, current := some [.quoted before], mode := .outside } :=
        .inr ⟨rfl, _, rfl, List.cons_ne_nil _ _⟩
      exact iff_of_false (fun ⟨_, h⟩ => hleft.run cs h) nofun
    · by_cases hspecial : c = '$' ∨ c = '`' ∨ c = '\x00'
      · rcases hspecial with rfl | rfl | rfl <;> exact iff_of_false nofun nofun
      · rw [step_quoted words before hquote hne' hspecial, Option.bind_some, ih]
        have hescaped : Escaped (c :: cs) = Escaped cs := by
          rw [Escaped]
          · simp_all
          · exact hne
        rw [hescaped]

/-- **One quoted word.** Behind the words of a command, a text between double quotes is one word
exactly if it is escaped. -/
theorem readCommand_quoted_iff {command : List Char} (h : readCommand command = some words)
    (text : List Char) :
    (∃ arg, readCommand (command ++ ' ' :: '"' :: (text ++ ['"'])) =
      some (words ++ [[.quoted arg]])) ↔ Escaped text = true := by
  rw [readCommand_append h]
  exact run_quoted_iff words text []

end ShellWords

end Lib
