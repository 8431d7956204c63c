import GameAP.DaemonServer
import GameAP.Functions.Auth
import GameAP.Lib.Run

/-!
# Authentication on a connection

`run_successor`: whatever frames arrive, the connection is only given to the session that the frame
opened last asks for, and only if `auth::check` accepted its login and password.
`kth_response_iff`: the list of the response is never cleared, so only the first response on a
connection is about its attempt alone.
-/

namespace GameAP

open Lib

namespace DaemonServerSess

/-- A frame that has been opened, with the configuration and the accounts at that moment. -/
structure Attempt where
  config : AuthConfig
  accounts : Accounts
  frame : List UInt8

/-- A connection, with the frame that has been opened last. -/
structure Connection where
  sess : DaemonServerSess
  last : Option Attempt

inductive Input where
  | chunk (config : AuthConfig) (accounts : Accounts) (bytes : List UInt8)
  | written

variable (b : Binn)

/-- The callback opens what is in the buffer if a request is complete. -/
def opens (bytes : List UInt8) (s : DaemonServerSess) : Bool :=
  decide (s.pending = .read) && (received bytes s).buf.readComplete bytes.length

def step (c : Connection) : Input → Connection
  | .chunk config accounts bytes =>
    { sess := deliver b (Auth.check config accounts) bytes c.sess
      last :=
        if opens bytes c.sess then
          some { config, accounts, frame := (received bytes c.sess).buf.bytes }
        else c.last }
  | .written =>
    match c.sess.pending with
    | .write _ => { c with sess := onWritten c.sess }
    | _ => c

/-- A new connection; nothing is known of the bytes in its buffer. -/
def connect (bytes : List UInt8) : Connection :=
  { sess := { new with buf := { bytes, length := 0 } }, last := none }

/-- The frame asks for this mode, and its login and password were accepted. -/
def Attempt.Accepted (a : Attempt) (mode : Nat) : Prop :=
  ∃ login password, b.getStr a.frame 2 = some login ∧ b.getStr a.frame 3 = some password ∧
    Auth.check a.config a.accounts login password = true ∧ b.getUInt16 a.frame 4 = some mode

/-- The session with a request that is complete. -/
def opened (bytes : List UInt8) (s : DaemonServerSess) : DaemonServerSess :=
  { received bytes s with
    handled := s.handled ++ [(received bytes s).buf.bytes.take (received bytes s).buf.length] }

/-- A mode is only set by an accepted frame, and then no further frame is read. -/
structure Guarded (c : Connection) : Prop where
  accepted : c.sess.mode ≠ modeNoauth →
    c.sess.pending ≠ .read ∧ ∃ a, c.last = some a ∧ a.Accepted b c.sess.mode
  successor : ∀ mode, c.sess.successor = some mode → c.sess.mode = mode ∧ mode ≠ modeNoauth

variable {b} {check : String → String → Bool} {s : DaemonServerSess} {c : Connection}

/-- What a complete request does to the mode: an accepted one sets it and is answered. -/
theorem process_mode (hm : s.mode = modeNoauth) :
    (process b check s).mode = modeNoauth ∨
      (process b check s).pending ≠ .read ∧
        ∃ login password, b.getStr s.buf.bytes 2 = some login ∧
          b.getStr s.buf.bytes 3 = some password ∧ check login password = true ∧
          b.getUInt16 s.buf.bytes 4 = some (process b check s).mode := by
  unfold process
  split
  · next login password hlogin hpassword =>
    split
    · next hcheck =>
      simp only
      cases hmode : b.getUInt16 s.buf.bytes 4 with
      | none => exact .inl rfl
      | some mode =>
        exact .inr ⟨(fun h => nomatch h), login, password, hlogin, hpassword, hcheck, rfl⟩
    · exact .inl hm
  · exact .inl hm

theorem process_successor : (process b check s).successor = s.successor := by
  unfold process
  split
  · split
    · simp only
      split <;> rfl
    · rfl
  · rfl

theorem connect_guarded (bytes : List UInt8) : Guarded b (connect bytes) :=
  ⟨fun h => absurd rfl h, fun _ h => nomatch h⟩

/-- A session that reads has accepted no frame. -/
theorem Guarded.unauthenticated (hc : Guarded b c) (hread : c.sess.pending = .read) :
    c.sess.mode = modeNoauth ∧ c.sess.successor = none := by
  have hm : c.sess.mode = modeNoauth := by
    by_contra hm
    exact (hc.accepted hm).1 hread
  refine ⟨hm, ?_⟩
  cases hs : c.sess.successor with
  | none => rfl
  | some mode =>
    obtain ⟨rfl, hne⟩ := hc.successor mode hs
    exact absurd hm hne

variable {config : AuthConfig} {accounts : Accounts} {bytes : List UInt8}

theorem step_complete (hread : c.sess.pending = .read)
    (h : (received bytes c.sess).buf.readComplete bytes.length = true) :
    step b c (.chunk config accounts bytes) =
      { sess := process b (Auth.check config accounts) (opened bytes c.sess)
        last := some { config, accounts, frame := (received bytes c.sess).buf.bytes } } := by
  simp only [step, opens, hread, h, decide_true, Bool.and_self, if_true]
  rw [deliver_read hread, onRead_complete h]
  rfl

theorem step_incomplete (hread : c.sess.pending = .read)
    (h : (received bytes c.sess).buf.readComplete bytes.length = false) :
    step b c (.chunk config accounts bytes) = { c with sess := received bytes c.sess } := by
  simp only [step, opens, h, Bool.and_false, Bool.false_eq_true, if_false]
  rw [deliver_read hread, onRead_incomplete h]

theorem step_not_reading (h : c.sess.pending ≠ .read) :
    step b c (.chunk config accounts bytes) = c := by
  simp only [step, deliver, opens, h, if_false, decide_false, Bool.false_and, Bool.false_eq_true]

theorem chunk_guarded (hc : Guarded b c) :
    Guarded b (step b c (.chunk config accounts bytes)) := by
  by_cases hread : c.sess.pending = .read
  · obtain ⟨hm, hs⟩ := hc.unauthenticated hread
    cases hcomplete : (received bytes c.sess).buf.readComplete bytes.length with
    | true =>
      rw [step_complete hread hcomplete]
      constructor
      · intro hmode
        obtain hno | ⟨hp, login, password, hl, hpw, hcheck, hm'⟩ :=
          process_mode (s := opened bytes c.sess) hm
        · exact absurd hno hmode
        · exact ⟨hp, _, rfl, login, password, hl, hpw, hcheck, hm'⟩
      · intro mode hmode
        rw [process_successor] at hmode
        exact absurd (hs.symm.trans hmode) (by simp)
    | false =>
      rw [step_incomplete hread hcomplete]
      exact ⟨fun h => absurd hm h, fun mode hmode => absurd (hs.symm.trans hmode) (by simp)⟩
  · rw [step_not_reading hread]
    exact hc

theorem written_guarded (hc : Guarded b c) : Guarded b (step b c .written) := by
  simp only [step]
  split
  · unfold onWritten doRead
    by_cases hm : c.sess.mode = modeNoauth
    · rw [if_pos hm]
      exact ⟨fun h => absurd hm h, hc.successor⟩
    · obtain ⟨-, hlast⟩ := hc.accepted hm
      rw [if_neg hm]
      split
      · exact ⟨fun _ => ⟨(fun h => nomatch h), hlast⟩, by
          rintro mode ⟨⟩
          exact ⟨rfl, hm⟩⟩
      · exact ⟨fun _ => ⟨(fun h => nomatch h), hlast⟩, hc.successor⟩
  · exact hc

theorem run_guarded
    (h : Run (fun c i d => d = step b c i) Any (connect bytes) c) : Guarded b c := by
  apply h.invariant (I := Guarded b)
  · exact connect_guarded bytes
  · rintro c i d hc - rfl
    cases i with
    | chunk config accounts bytes => exact chunk_guarded hc
    | written => exact written_guarded hc

/-- **Access.** In every run of a connection, whatever the configuration and the accounts are when
its frames arrive: it is given to a session only if the frame that has been opened last asks for
that session and carries a login and a password that `auth::check` accepts. -/
theorem run_successor {mode : Nat}
    (h : Run (fun c i d => d = step b c i) Any (connect bytes) c)
    (hs : c.sess.successor = some mode) : ∃ a, c.last = some a ∧ a.Accepted b mode := by
  have hc := run_guarded h
  obtain ⟨rfl, hm⟩ := hc.successor mode hs
  exact (hc.accepted hm).2

/-- The login `a` with the password `b`. -/
def configAB : AuthConfig :=
  { passwordAuthentication := true, daemonLogin := "a", daemonPassword := "b" }

def noAccounts : Accounts :=
  { getpwnam := fun _ => none, getspnam := fun _ => none, crypt := fun _ _ => "" }

theorem login_successor :
    ∃ a, (step Binn.short (step Binn.short (connect [])
        (.chunk configAB noAccounts (loginPayload ++ endSymbols))) .written).last = some a ∧
      a.Accepted Binn.short modeFiles :=
  run_successor (.step (.step (.refl (connect [])) trivial rfl) trivial rfl) rfl

/-! ## The responses -/

/-- The answer to an attempt. -/
def answer (accepted : Bool) : List BinnValue :=
  if accepted then [.uint32 100, .str "Auth success"] else [.uint32 2, .str "Auth failed"]

/-- The chunk is a complete attempt, with this answer: it carries a login and a password, and a
mode if they are accepted. -/
def Answers (b : Binn) (check : String → String → Bool) (chunk : List UInt8) (s : DaemonServerSess)
    (values : List BinnValue) : Prop :=
  (received chunk s).buf.readComplete chunk.length = true ∧
    ∃ login password, b.getStr (received chunk s).buf.bytes 2 = some login ∧
      b.getStr (received chunk s).buf.bytes 3 = some password ∧
      (check login password = true → (b.getUInt16 (received chunk s).buf.bytes 4).isSome = true) ∧
      values = answer (check login password)

/-- A connection on which one attempt after the other is answered, each as the session reads again
behind the response to the one before; `answers` are theirs. -/
inductive Attempts (b : Binn) (s : DaemonServerSess) :
    List (List BinnValue) → DaemonServerSess → Prop where
  | nil : Attempts b s [] s
  | next {answers : List (List BinnValue)} {t : DaemonServerSess}
      {check : String → String → Bool} {chunk : List UInt8} {values : List BinnValue} :
      Attempts b s answers t → t.pending = .read → Answers b check chunk t values →
      Attempts b s (answers ++ [values]) (onWritten (deliver b check chunk t))

/-- The response to an attempt lists the answers to those before as well. -/
theorem deliver_answers {chunk : List UInt8} {values : List BinnValue} (hread : s.pending = .read)
    (h : Answers b check chunk s values) :
    (deliver b check chunk s).writeBinn = s.writeBinn ++ values ∧
      (deliver b check chunk s).written = s.written ++ [s.writeBinn ++ values] := by
  obtain ⟨hcomplete, login, password, hl, hp, hmode, rfl⟩ := h
  have hdeliver : deliver b check chunk s = process b check (opened chunk s) := by
    rw [deliver_read hread, onRead_complete hcomplete]
    rfl
  have hl' : b.getStr (opened chunk s).buf.bytes 2 = some login := hl
  have hp' : b.getStr (opened chunk s).buf.bytes 3 = some password := hp
  rw [hdeliver]
  unfold process
  rw [hl', hp']
  simp only
  cases hc : check login password with
  | true =>
    obtain ⟨mode, hm⟩ := Option.isSome_iff_exists.mp (hmode hc)
    have hm' : b.getUInt16 (opened chunk s).buf.bytes 4 = some mode := hm
    simp only [if_true, hm']
    exact ⟨rfl, rfl⟩
  | false => exact ⟨rfl, rfl⟩

/-- What a session has written that had written nothing. -/
structure Responded (answers : List (List BinnValue)) (s : DaemonServerSess) : Prop where
  writeBinn : s.writeBinn = answers.flatten
  length : s.written.length = answers.length
  response : ∀ k < answers.length, s.written[k]? = some (answers.take (k + 1)).flatten

theorem onWritten_written (s : DaemonServerSess) :
    (onWritten s).writeBinn = s.writeBinn ∧ (onWritten s).written = s.written := by
  unfold onWritten doRead
  split
  · exact ⟨rfl, rfl⟩
  · split <;> exact ⟨rfl, rfl⟩

theorem attempts_responded {answers : List (List BinnValue)} {t : DaemonServerSess}
    (h : Attempts b s answers t) (hbinn : s.writeBinn = []) (hwritten : s.written = []) :
    Responded answers t := by
  induction h with
  | nil => exact ⟨hbinn, congrArg List.length hwritten, fun k hk => absurd hk (Nat.not_lt_zero k)⟩
  | @next answers t check chunk values _ hread hvalues ih =>
    obtain ⟨hb, hw⟩ := deliver_answers hread hvalues
    obtain ⟨hb', hw'⟩ := onWritten_written (deliver b check chunk t)
    constructor
    · rw [hb', hb, ih.writeBinn, List.flatten_append]
      simp
    · rw [hw', hw, List.length_append, List.length_append, ih.length]
      rfl
    · intro k hk
      rw [hw', hw]
      rw [List.length_append, List.length_singleton] at hk
      by_cases hlast : k = answers.length
      · subst hlast
        rw [List.getElem?_append_right (Nat.le_of_eq ih.length), ih.length, Nat.sub_self,
          ih.writeBinn, List.take_of_length_le (by simp)]
        simp
      · rw [List.getElem?_append_left (by rw [ih.length]; omega), ih.response k (by omega),
          List.take_append_of_le_length (by omega)]

/-- Each answer is a status code and a text. -/
theorem attempts_length {answers : List (List BinnValue)} {t : DaemonServerSess}
    (h : Attempts b s answers t) : ∀ values ∈ answers, values.length = 2 := by
  induction h with
  | nil => simp
  | next _ _ hvalues ih =>
    intro values hmem
    rcases List.mem_append.mp hmem with hmem | hmem
    · exact ih values hmem
    · obtain ⟨-, login, password, -, -, -, rfl⟩ := hvalues
      obtain rfl := List.mem_singleton.mp hmem
      unfold answer
      split <;> rfl

theorem length_flatten_of_pairs {answers : List (List BinnValue)}
    (h : ∀ values ∈ answers, values.length = 2) : answers.flatten.length = 2 * answers.length := by
  induction answers with
  | nil => rfl
  | cons values answers ih =>
    rw [List.flatten_cons, List.length_append, h values (by simp),
      ih fun v hv => h v (by simp [hv]), List.length_cons]
    omega

/-- **The responses to attempts.** However many attempts are answered on a connection, one after
the other: the response to one of them is its answer alone exactly if it is the first. -/
theorem kth_response_iff {answers : List (List BinnValue)}
    {t : DaemonServerSess} (h : Attempts b (connect bytes).sess answers t) {k : Nat}
    (hk : k < answers.length) : t.written[k]? = some answers[k] ↔ k = 0 := by
  have hpair := attempts_length h
  rw [(attempts_responded h rfl rfl).response k hk, Option.some.injEq]
  constructor
  · intro he
    have hlen := congrArg List.length he
    rw [length_flatten_of_pairs fun v hv => hpair v (List.mem_of_mem_take hv), List.length_take,
      hpair _ (List.getElem_mem hk)] at hlen
    omega
  · rintro rfl
    rw [List.take_one, List.head?_eq_getElem?, List.getElem?_eq_getElem hk]
    simp

/-- No login is accepted. -/
def rejecting : String → String → Bool := Auth.check { configAB with daemonLogin := "" } noAccounts

def afterReject (s : DaemonServerSess) : DaemonServerSess :=
  onWritten (deliver Binn.short rejecting (loginPayload ++ endSymbols) s)

theorem one_attempt : Attempts Binn.short (connect []).sess [answer false]
    (afterReject (connect []).sess) :=
  .next .nil rfl ⟨by decide, "a", "b", by decide, by decide, by decide, rfl⟩

theorem two_attempts : Attempts Binn.short (connect []).sess [answer false, answer false]
    (afterReject (afterReject (connect []).sess)) :=
  .next one_attempt (by decide) ⟨by decide, "a", "b", by decide, by decide, by decide, rfl⟩

theorem first_response :
    (afterReject (connect []).sess).written[0]? = some [.uint32 2, .str "Auth failed"] :=
  (kth_response_iff one_attempt (by decide)).mpr rfl

/-- The response to the second attempt has the answer to the first in it. -/
theorem second_response_not_alone :
    ¬ ∀ (b : Binn) (bytes : List UInt8) (answers : List (List BinnValue)) (t : DaemonServerSess),
      Attempts b (connect bytes).sess answers t →
      ∀ k (hk : k < answers.length), t.written[k]? = some answers[k] := by
  intro h
  have hsecond := h _ _ _ _ two_attempts 1 (by decide)
  revert hsecond
  decide

end DaemonServerSess

end GameAP
