import GameAP.Functions.RestApi
import GameAP.Lib.Run
import Mathlib.Data.Finset.Erase
import Mathlib.Data.Finset.Insert

/-!
# Requests to the panel and the token

Each request carries the token that `get_token` has fetched last. The panel answers 401 to a token
that it does not take (any more), and the request then fetches a new one; it is not sent again.
`refused_le`: the requests that are refused so are no more than the tokens the panel has revoked and
the ones it has not given.
-/

namespace GameAP

open Lib

namespace Rest

/-- The reply to a request; `token` is the reply to a request for a new token. -/
structure CallReply extends Reply where
  token : TokenReply

def countError : RestM PUnit := modify fun s => { s with errorsCount := s.errorsCount + 1 }

def clearErrors : RestM PUnit := modify fun s => { s with errorsCount := 0 }

/-- A new token is fetched if the panel does not take the one of the request. -/
def renew (code : Int) (token : TokenReply) : RestM PUnit :=
  if code = 401 then getToken token else return ⟨⟩

def get (r : CallReply) : RestM Json := do
  if r.code ≠ 200 then
    renew r.code r.token
    countError
    throw (.restapi "RestClient error")
  else
    clearErrors
    match r.json with
    | some jvalue => return jvalue
    | none => throw (.restapi "JSON Parse error")

def put (r : CallReply) : RestM PUnit := do
  if r.code = 200 then clearErrors
  else if r.code = 201 then clearErrors
  else
    renew r.code r.token
    countError
    throw (.restapi "RestClient error")

/-- Errors of `patch` are not counted. -/
def patch (r : CallReply) : RestM PUnit := do
  if r.code = 200 then return ⟨⟩
  else if r.code = 201 then return ⟨⟩
  else
    renew r.code r.token
    throw (.restapi "RestClient error")

inductive Call where
  | get (r : CallReply)
  | post (r : PostReply)
  | put (r : CallReply)
  | patch (r : CallReply)

namespace Call

def code : Call → Int
  | .get r | .put r | .patch r => r.code
  | .post r => r.code

def token : Call → TokenReply
  | .get r | .put r | .patch r => r.token
  | .post r => r.token

def send : Call → RestM PUnit
  | .get r => do
    let _ ← Rest.get r
  | .post r => Rest.post r
  | .put r => Rest.put r
  | .patch r => Rest.patch r

end Call

/-! ## The token behind a request -/

/-- The token that a reply gives. -/
def issued (r : TokenReply) : Option String :=
  if r.code ≠ 200 then none
  else
    match r.json with
    | none => none
    | some jvalue =>
      match jvalue.get "token" with
      | .ok (.str token) => some token
      | _ => none

variable {s : Rest} {c : Call} {α : Type}

theorem getToken_apiToken (r : TokenReply) (s : Rest) :
    (endState (getToken r) s).apiToken = (issued r).getD s.apiToken := by
  unfold getToken issued
  by_cases hcode : r.code = 200
  · rw [if_neg (not_not.mpr hcode), if_neg (not_not.mpr hcode), endState_modify_bind]
    cases r.json with
    | none => rfl
    | some jvalue =>
      dsimp only
      rw [endState_orThrow_bind]
      cases jvalue.get "token" with
      | error e => rfl
      | ok token =>
        cases token with
        | str text =>
          have hstr : (Json.str text).isString = true := rfl
          simp only [hstr, Bool.not_true, Bool.false_eq_true, if_false]
          rw [endState_orThrow_bind]
          dsimp only [Json.asString]
          rw [endState_modify_bind, endState_orThrow_bind]
          cases jvalue.get "timestamp" with
          | error e => rfl
          | ok timestamp =>
            dsimp only
            cases timestamp.isNull <;> rfl
        | _ => rfl
  · rw [if_pos hcode, if_pos hcode]
    rfl

/-- The token behind a request with this reply. -/
def tokenAfter (code : Int) (token : TokenReply) (s : Rest) : String :=
  if code = 401 then (issued token).getD s.apiToken else s.apiToken

theorem renew_apiToken (code : Int) (token : TokenReply) (s : Rest) :
    (endState (renew code token) s).apiToken = tokenAfter code token s := by
  unfold renew tokenAfter
  split
  · exact getToken_apiToken token s
  · rfl

/-- What follows on `renew` leaves the token alone. -/
theorem renew_bind_apiToken {code : Int} {token : TokenReply} {m : RestM α}
    (hm : Keeps Rest.apiToken m) :
    (endState (renew code token >>= fun _ => m) s).apiToken = tokenAfter code token s := by
  rw [endState_bind, ← renew_apiToken]
  cases hr : renew code token s with
  | ok u t =>
    rw [endState_of_ok hr]
    exact hm t
  | error e t => rw [endState_of_error hr]

theorem keeps_countError (what : String) :
    Keeps Rest.apiToken (countError >>= fun _ => throw (.restapi what) : RestM α) := fun _ => rfl

theorem tokenAfter_of_ne {code : Int} {token : TokenReply} (h : code ≠ 401) :
    tokenAfter code token s = s.apiToken := if_neg h

/-- **One request.** Whatever kind it is, the token behind it is the new one, if there is one. -/
theorem send_apiToken (c : Call) (s : Rest) :
    (endState c.send s).apiToken = tokenAfter c.code c.token s := by
  cases c with
  | get r =>
    show (endState (Rest.get r >>= fun _ => pure PUnit.unit) s).apiToken = tokenAfter r.code r.token s
    rw [endState_bind_pure]
    unfold Rest.get
    by_cases hcode : r.code = 200
    · rw [if_neg (not_not.mpr hcode), tokenAfter_of_ne (by omega)]
      cases r.json <;> rfl
    · rw [if_pos hcode]
      exact renew_bind_apiToken (keeps_countError _)
  | post r =>
    show (endState (Rest.post r) s).apiToken = tokenAfter r.code r.token s
    unfold Rest.post
    by_cases hcreated : r.code = 201
    · rw [if_pos hcreated, tokenAfter_of_ne (by omega)]
      rfl
    · rw [if_neg hcreated]
      by_cases hrefused : r.code = 422
      · rw [if_pos hrefused, endState_orThrow, tokenAfter_of_ne (by omega)]
      · rw [if_neg hrefused]
        by_cases hcode : r.code = 401
        · rw [if_pos hcode, tokenAfter, if_pos hcode, ← getToken_apiToken, endState_bind]
          cases ht : getToken r.token s with
          | ok u t => rw [endState_of_ok ht]; rfl
          | error e t => rw [endState_of_error ht]
        · rw [if_neg hcode, tokenAfter_of_ne hcode]
          rfl
  | put r =>
    show (endState (Rest.put r) s).apiToken = tokenAfter r.code r.token s
    unfold Rest.put
    by_cases hupdated : r.code = 200
    · rw [if_pos hupdated, tokenAfter_of_ne (by omega)]
      rfl
    · rw [if_neg hupdated]
      by_cases hcreated : r.code = 201
      · rw [if_pos hcreated, tokenAfter_of_ne (by omega)]
        rfl
      · rw [if_neg hcreated]
        exact renew_bind_apiToken (keeps_countError _)
  | patch r =>
    show (endState (Rest.patch r) s).apiToken = tokenAfter r.code r.token s
    unfold Rest.patch
    by_cases hupdated : r.code = 200
    · rw [if_pos hupdated, tokenAfter_of_ne (by omega)]
      rfl
    · rw [if_neg hupdated]
      by_cases hcreated : r.code = 201
      · rw [if_pos hcreated, tokenAfter_of_ne (by omega)]
        rfl
      · rw [if_neg hcreated]
        exact renew_bind_apiToken fun _ => rfl

/-! ## The panel -/

/-- The daemon's token, the ones that the panel takes, and what has happened so far. -/
structure Session where
  rest : Rest
  valid : Finset String
  /-- requests answered with 401 -/
  refused : Nat
  /-- tokens revoked while the daemon held them -/
  revoked : Nat
  /-- requests for a new token, made for a refused request, that gave none -/
  failed : Nat

inductive Session.Event where
  | getToken (r : TokenReply)
  | call (c : Call)
  | revoke (token : String)

namespace Session

def start (rest : Rest) (valid : Finset String) : Session :=
  { rest, valid, refused := 0, revoked := 0, failed := 0 }

/-- The panel takes a token that it has given. -/
def give (r : TokenReply) (valid : Finset String) : Finset String :=
  match issued r with
  | none => valid
  | some token => insert token valid

def step (s : Session) : Event → Session
  | .getToken r => { s with rest := endState (Rest.getToken r) s.rest, valid := give r s.valid }
  | .call c =>
    if c.code = 401 then
      { s with
        rest := endState c.send s.rest
        valid := give c.token s.valid
        refused := s.refused + 1
        failed := if issued c.token = none then s.failed + 1 else s.failed }
    else { s with rest := endState c.send s.rest }
  | .revoke token =>
    { s with
      valid := s.valid.erase token
      revoked := if token = s.rest.apiToken ∧ token ∈ s.valid then s.revoked + 1 else s.revoked }

/-- The panel answers 401 exactly to a token that it does not take. -/
def Answers (s : Session) : Event → Prop
  | .call c => c.code = 401 ↔ s.rest.apiToken ∉ s.valid
  | _ => True

/-- The next request will be refused. -/
def stale (s : Session) : Nat := if s.rest.apiToken ∈ s.valid then 0 else 1

/-- What is refused has been paid for. -/
def Paid (owed : Nat) (s : Session) : Prop := s.refused + s.stale ≤ s.revoked + s.failed + owed

variable {s t : Session} {e : Event} {owed : Nat}

theorem stale_le_one : s.stale ≤ 1 := by
  unfold stale
  split <;> omega

theorem stale_congr (hrest : t.rest.apiToken = s.rest.apiToken)
    (hvalid : s.rest.apiToken ∈ t.valid ↔ s.rest.apiToken ∈ s.valid) : t.stale = s.stale := by
  unfold stale
  rw [hrest]
  exact if_congr hvalid rfl rfl

theorem give_of_none {r : TokenReply} {valid : Finset String} (h : issued r = none) :
    give r valid = valid := by
  rw [give, h]

/-- The token that has been given is taken. -/
theorem stale_of_issued {r : TokenReply} {token : String} (h : issued r = some token)
    (htoken : t.rest.apiToken = token) (hvalid : t.valid = give r s.valid) : t.stale = 0 := by
  refine if_pos ?_
  rw [hvalid, give, h, htoken]
  exact Finset.mem_insert_self _ _

theorem getToken_paid {r : TokenReply} (h : s.Paid owed) : (s.step (.getToken r)).Paid owed := by
  have htoken := getToken_apiToken r s.rest
  unfold Paid at h ⊢
  show s.refused + (s.step (.getToken r)).stale ≤ s.revoked + s.failed + owed
  cases hi : issued r with
  | none =>
    rw [hi] at htoken
    rw [stale_congr htoken (by rw [step, give_of_none hi])]
    exact h
  | some token =>
    rw [hi] at htoken
    rw [stale_of_issued (s := s) hi htoken rfl]
    omega

/-- A request that is refused pays with its failure, or the next one is not refused. -/
theorem call_paid {c : Call} (h : s.Paid owed) (hok : s.Answers (.call c)) :
    (s.step (.call c)).Paid owed := by
  have htoken := send_apiToken c s.rest
  unfold Paid at h ⊢
  by_cases hcode : c.code = 401
  · have hstale : s.stale = 1 := if_neg (hok.mp hcode)
    have hstep : s.step (.call c) = { s with
        rest := endState c.send s.rest
        valid := give c.token s.valid
        refused := s.refused + 1
        failed := if issued c.token = none then s.failed + 1 else s.failed } := if_pos hcode
    rw [tokenAfter, if_pos hcode] at htoken
    cases hi : issued c.token with
    | none =>
      have hle := (s.step (.call c)).stale_le_one
      rw [hstep, hi, if_pos rfl] at hle ⊢
      dsimp only
      omega
    | some token =>
      rw [hi] at htoken
      have hzero : (s.step (.call c)).stale = 0 := by
        rw [hstep]
        exact stale_of_issued (s := s) hi htoken rfl
      rw [hzero, hstep, hi, if_neg (by simp)]
      dsimp only
      omega
  · rw [tokenAfter_of_ne hcode] at htoken
    have hstep : s.step (.call c) = { s with rest := endState c.send s.rest } := if_neg hcode
    have hsame : (s.step (.call c)).stale = s.stale := by
      rw [hstep]
      exact stale_congr htoken Iff.rfl
    rw [hsame, hstep]
    exact h

theorem revoke_paid {token : String} (h : s.Paid owed) : (s.step (.revoke token)).Paid owed := by
  unfold Paid at h ⊢
  show s.refused + (s.step (.revoke token)).stale ≤
    (if token = s.rest.apiToken ∧ token ∈ s.valid then s.revoked + 1 else s.revoked) +
      s.failed + owed
  have hle := (s.step (.revoke token)).stale_le_one
  by_cases hheld : token = s.rest.apiToken ∧ token ∈ s.valid
  · rw [if_pos hheld]
    omega
  · have hsame : (s.step (.revoke token)).stale = s.stale := by
      refine stale_congr rfl ?_
      show s.rest.apiToken ∈ s.valid.erase token ↔ _
      grind
    rw [if_neg hheld, hsame]
    exact h

theorem step_paid (h : s.Paid owed) (hok : s.Answers e) : (s.step e).Paid owed := by
  cases e with
  | getToken r => exact getToken_paid h
  | call c => exact call_paid h hok
  | revoke token => exact revoke_paid h

/-- **Refused requests.** In every run, a panel that refuses only the tokens it does not take has
refused at most one request for each token it has revoked and each one it has not given, and one
more if it did not take the first token. -/
theorem refused_le {rest : Rest} {valid : Finset String}
    (h : Run (fun s e t => t = step s e) Answers (start rest valid) s) :
    s.refused ≤ s.revoked + s.failed + if rest.apiToken ∈ valid then 0 else 1 := by
  have hpaid : s.Paid (start rest valid).stale := by
    refine h.invariant (I := Paid (start rest valid).stale) ?_ ?_
    · show 0 + _ ≤ 0 + 0 + _
      omega
    · rintro s e t hs hok rfl
      exact step_paid hs hok
  exact le_trans (Nat.le_add_right _ _) hpaid

/-- The first request goes out without a token. -/
def withoutToken : Call :=
  .get
    { code := 401
      json := none
      token := { code := 200, json := some (.obj [("token", .str "t")]), panelNow := 0, now := 0 } }

theorem refused_le_first : ((start Rest.init ∅).step (.call withoutToken)).refused ≤
    ((start Rest.init ∅).step (.call withoutToken)).revoked +
      ((start Rest.init ∅).step (.call withoutToken)).failed + 1 := by
  have hok : (start Rest.init ∅).Answers (.call withoutToken) :=
    iff_of_true rfl (Finset.notMem_empty _)
  exact refused_le (.step (.refl _) hok rfl)

end Session

end Rest

end GameAP
