import Mathlib.Data.Rat.Floor

/-!
# JSON values

The part of jsoncpp's `Json::Value` that the daemon reads panel responses with. A number is an
integer or a `real` with the text it prints as; the members of an object stand in key order and
have distinct keys. A conversion that jsoncpp refuses throws `Exn.logicError`.
-/

namespace GameAP

/-- What the modelled functions throw. -/
inductive Exn where
  /-- `Json::LogicError` -/
  | logicError
  /-- `std::invalid_argument` of `std::stoi` and `std::stol` -/
  | invalidArgument
  /-- `std::out_of_range` of theirs -/
  | outOfRange
  /-- `Rest::RestapiException` -/
  | restapi (what : String)
  /-- `fs::filesystem_error` -/
  | filesystem (what : String)
  /-- a null pointer is dereferenced -/
  | nullPointer
  deriving DecidableEq, Repr

/-- What C reads of a text. -/
def cString (text : String) : String := String.ofList (text.toList.takeWhile (· ≠ '\x00'))

inductive Json where
  | null
  | bool (b : Bool)
  | int (n : Int)
  | real (q : Rat) (text : String)
  | str (s : String)
  | arr (xs : List Json)
  | obj (kvs : List (String × Json))

namespace Json

def isNull : Json → Bool
  | null => true
  | _ => false

def isString : Json → Bool
  | str _ => true
  | _ => false

/-- `isUInt`: an integral number that fits an `unsigned int`. -/
def isUInt : Json → Bool
  | int n => decide (0 ≤ n ∧ n < 2 ^ 32)
  | real q _ => decide (0 ≤ q ∧ q < 2 ^ 32 ∧ q.den = 1)
  | _ => false

/-- `isInt`: an integral number that fits an `int`. -/
def isInt : Json → Bool
  | int n => decide (-2 ^ 31 ≤ n ∧ n < 2 ^ 31)
  | real q _ => decide (-2 ^ 31 ≤ q ∧ q < 2 ^ 31 ∧ q.den = 1)
  | _ => false

/-- The integer part of a number; the code asks only after `isInt` or `isUInt`. -/
def toInt : Json → Int
  | int n => n
  | real q _ => q.num.tdiv q.den
  | _ => 0

/-- `empty`: null, or an array or object without elements. -/
def isEmpty : Json → Bool
  | null => true
  | arr xs => xs.isEmpty
  | obj kvs => kvs.isEmpty
  | _ => false

def asString : Json → Except Exn String
  | null => .ok ""
  | bool b => .ok (if b then "true" else "false")
  | int n => .ok (toString n)
  | real _ text => .ok text
  | str s => .ok s
  | arr _ | obj _ => .error .logicError

def asBool : Json → Except Exn Bool
  | null => .ok false
  | bool b => .ok b
  | int n => .ok (n != 0)
  | real q _ => .ok (q != 0)
  | str _ | arr _ | obj _ => .error .logicError

/-- `asLargestUInt`: 64 bits. -/
def asLargestUInt : Json → Except Exn Nat
  | null => .ok 0
  | bool b => .ok (if b then 1 else 0)
  | int n => if 0 ≤ n ∧ n < 2 ^ 64 then .ok n.toNat else .error .logicError
  | real q _ => if 0 ≤ q ∧ q < 2 ^ 64 then .ok q.floor.toNat else .error .logicError
  | str _ | arr _ | obj _ => .error .logicError

/-- `asCString`, and the string that is made of it. -/
def asCString : Json → Except Exn String
  | str s => .ok (cString s)
  | _ => .error .logicError

/-- `value[key]`: null for an absent member; only an object or null has members. -/
def get (j : Json) (key : String) : Except Exn Json :=
  match j with
  | null => .ok null
  | obj kvs => .ok ((kvs.lookup key).getD null)
  | _ => .error .logicError

/-- What a range-based `for` visits. -/
def elems : Json → List Json
  | arr xs => xs
  | obj kvs => kvs.map Prod.snd
  | _ => []

/-- `getMemberNames`, which only an object or null has. -/
def getMemberNames : Json → Except Exn (List String)
  | null => .ok []
  | obj kvs => .ok (kvs.map Prod.fst)
  | _ => .error .logicError

def getString (j : Json) (key : String) : Except Exn String := do
  (← j.get key).asString

def getBool (j : Json) (key : String) : Except Exn Bool := do
  (← j.get key).asBool

end Json

end GameAP
