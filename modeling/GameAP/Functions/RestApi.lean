import GameAP.Functions.GString
import GameAP.Lib.Keeps
import GameAP.Lib.Table

/-!
# The API of the panel

`Rest::get_token` and `Rest::post`. A reply is its status code and its body, if that is JSON. The
token of the panel may come with the panel's clock; `get_token` then keeps the difference as a
text in the state of the daemon, where the first value of a key stays.
-/

namespace GameAP

open Lib

/-- The global state. -/
abbrev State := Table String String

namespace State

/-- `STATE_PANEL_TIMEDIFF` -/
def panelTimediff : String := "gameap:timediff"

def set (key value : String) (st : State) : State := Table.emplace st key value

def get (key : String) (st : State) : String := (st.lookup key).getD ""

/-- The difference of the clocks, 0 if it is absent. -/
def timediffOrZero (st : State) : Except Exn Int :=
  let text := st.get panelTimediff
  if text.isEmpty then .ok 0 else stol text

/-- The difference of the clocks; reading it throws if it is absent. -/
def timediffInt (st : State) : Except Exn Int := stoi (st.get panelTimediff)

end State

structure Rest where
  apiToken : String
  errorsCount : Int
  state : State

namespace Rest

/-- Nothing has been asked yet. -/
def init : Rest := { apiToken := "", errorsCount := 0, state := ∅ }

abbrev RestM := EStateM Exn Rest

structure Reply where
  code : Int
  json : Option Json

/-- The reply to a request for a token, and the clock when it is compared with the panel's. -/
structure TokenReply extends Reply where
  panelNow : Int
  now : Int

/-- The panel's clock, if it names it as an unsigned number. -/
def panelTime (timestamp : Json) (r : TokenReply) : Int :=
  if timestamp.isUInt then getJsonUInt timestamp else r.panelNow

/-- The difference of the clocks, a `time_t`. -/
def timediff (timestamp : Json) (r : TokenReply) : Int :=
  (r.now - panelTime timestamp r).bmod (2 ^ 64)

def getToken (r : TokenReply) : RestM PUnit := do
  if r.code ≠ 200 then
    modify fun s => { s with errorsCount := s.errorsCount + 1 }
    throw (.restapi "RestClient error. Token getting error.")
  else
    modify fun s => { s with errorsCount := 0 }
    match r.json with
    | none => throw (.restapi "JSON Parse error")
    | some jvalue =>
      let token ← orThrow (jvalue.get "token")
      if !token.isString then throw (.restapi "Invalid token")
      else
        let apiToken ← orThrow token.asString
        modify fun s => { s with apiToken }
        let timestamp ← orThrow (jvalue.get "timestamp")
        if !timestamp.isNull then
          modify fun s => { s with
            state := s.state.set State.panelTimediff (toString (timediff timestamp r)) }

/-- The reply to a POST; `token` is the reply to a request for a new token, `debug` whether debug
messages are logged. -/
structure PostReply extends Reply where
  token : TokenReply
  debug : Bool

/-- What the API says about the request it refuses is only read if it is logged. -/
def logRefusal (r : PostReply) : Except Exn PUnit := do
  if r.debug then
    match r.json with
    | none => return ⟨⟩
    | some jvalue =>
      let _ ← (← jvalue.get "message").asString
      return ⟨⟩
  else return ⟨⟩

def post (r : PostReply) : RestM PUnit := do
  if r.code = 201 then modify fun s => { s with errorsCount := 0 }
  else if r.code = 422 then orThrow (logRefusal r)
  else
    if r.code = 401 then getToken r.token
    modify fun s => { s with errorsCount := s.errorsCount + 1 }
    throw (.restapi "RestClient error")

end Rest

end GameAP
