import Mathlib.Logic.Basic

/-!
# Authentication

`gameap::auth::check` on Linux: the login and password of the configuration, if it has both, and
otherwise an account of the system; and the same function on Windows, which has no accounts.
`check_configured_iff`: a configured login and password do not close the way to the accounts.
-/

namespace GameAP

/-- What the configuration says about authentication. -/
structure AuthConfig where
  passwordAuthentication : Bool
  daemonLogin : String
  daemonPassword : String
  deriving DecidableEq, Repr

/-- The account database: `getpwnam` yields the name of the account, `getspnam` its encrypted
password. -/
structure Accounts where
  getpwnam : String → Option String
  getspnam : String → Option String
  crypt : String → String → String

namespace Auth

def check (config : AuthConfig) (accounts : Accounts) (username password : String) : Bool :=
  if !config.passwordAuthentication then true
  else if config.daemonLogin.length > 0 ∧ config.daemonPassword.length > 0 ∧
      username = config.daemonLogin ∧ password = config.daemonPassword then true
  else
    match accounts.getpwnam username with
    | none => false
    | some pwName =>
      match accounts.getspnam pwName with
      | none => false
      | some pwdp => pwdp == accounts.crypt password pwdp

/-- The function that is compiled under `_WIN32`. -/
def checkWindows (config : AuthConfig) (username password : String) : Bool :=
  if !config.passwordAuthentication then true
  else if config.daemonLogin.length > 0 ∧ config.daemonPassword.length > 0 ∧
      username = config.daemonLogin ∧ password = config.daemonPassword then true
  else false

/-- An account of the system has this password. -/
def SystemAccount (accounts : Accounts) (username password : String) : Prop :=
  ∃ pwName pwdp, accounts.getpwnam username = some pwName ∧
    accounts.getspnam pwName = some pwdp ∧ pwdp = accounts.crypt password pwdp

variable {config : AuthConfig} {accounts : Accounts} {username password : String}

theorem checkWindows_true : checkWindows config username password = true ↔
    config.passwordAuthentication = false ∨
      config.daemonLogin.length > 0 ∧ config.daemonPassword.length > 0 ∧
        username = config.daemonLogin ∧ password = config.daemonPassword := by
  unfold checkWindows
  cases config.passwordAuthentication <;> simp

/-- Linux accepts what Windows accepts, and the accounts of the system. -/
theorem check_true : check config accounts username password = true ↔
    checkWindows config username password = true ∨ SystemAccount accounts username password := by
  unfold check checkWindows SystemAccount
  split
  · simp
  · split
    · simp
    · cases hname : accounts.getpwnam username with
      | none => simp
      | some pwName => cases hpwdp : accounts.getspnam pwName <;> simp [hpwdp]

/-- **Configured credentials.** Where the login and the password are configured, `check` accepts
exactly these, as on Windows, unless an account of the system has others. -/
theorem check_configured_iff (config : AuthConfig) (accounts : Accounts)
    (username password : String) (henabled : config.passwordAuthentication = true)
    (hlogin : config.daemonLogin ≠ "") (hpassword : config.daemonPassword ≠ "") :
    ((check config accounts username password = true ↔
          username = config.daemonLogin ∧ password = config.daemonPassword) ∧
        check config accounts username password = checkWindows config username password) ↔
      (SystemAccount accounts username password →
        username = config.daemonLogin ∧ password = config.daemonPassword) := by
  have hwindows : checkWindows config username password = true ↔
      username = config.daemonLogin ∧ password = config.daemonPassword := by
    rw [checkWindows_true, henabled]
    simp [Nat.pos_iff_ne_zero, String.length_eq_zero_iff, hlogin, hpassword]
  constructor
  · rintro ⟨haccepts, -⟩ haccount
    exact haccepts.mp (check_true.mpr (.inr haccount))
  · intro h
    have haccepts : check config accounts username password = true ↔
        checkWindows config username password = true := by
      rw [check_true]
      exact or_iff_left_of_imp fun haccount => hwindows.mpr (h haccount)
    exact ⟨haccepts.trans hwindows, Bool.eq_iff_iff.mpr haccepts⟩

/-- A system with the account `root` and the password `toor`. -/
def rootAccount : Accounts where
  getpwnam username := if username = "root" then some "root" else none
  getspnam pwName := if pwName = "root" then some "$toor" else none
  crypt password _ := "$" ++ password

theorem check_configured_gdaemon :
    (check ⟨true, "gdaemon", "secret"⟩ rootAccount "gdaemon" "secret" = true ↔
        "gdaemon" = "gdaemon" ∧ "secret" = "secret") ∧
      check ⟨true, "gdaemon", "secret"⟩ rootAccount "gdaemon" "secret" =
        checkWindows ⟨true, "gdaemon", "secret"⟩ "gdaemon" "secret" :=
  (check_configured_iff ⟨true, "gdaemon", "secret"⟩ rootAccount "gdaemon" "secret" rfl
    (by decide) (by decide)).mpr fun _ => ⟨rfl, rfl⟩

theorem check_accepts_root : ¬ ∀ (config : AuthConfig) (accounts : Accounts)
    (username password : String), config.passwordAuthentication = true →
    config.daemonLogin ≠ "" → config.daemonPassword ≠ "" →
    (check config accounts username password = true ↔
        username = config.daemonLogin ∧ password = config.daemonPassword) ∧
      check config accounts username password = checkWindows config username password := fun h =>
  absurd ((h ⟨true, "gdaemon", "secret"⟩ rootAccount "root" "toor" rfl (by decide)
    (by decide)).1.mp (by decide)).1 (by decide)

end Auth

end GameAP
