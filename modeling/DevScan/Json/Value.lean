import DevScan.Text.Split

/-!
# `Json/Value.lean` — `Json::Value` and its accessors

What the scan client reads from a parsed telegram, after the accessors of
`jsoncpp/src/lib_json/json_value.cpp`. The accessors do not coerce silently: `operator[]`,
`isMember`, `asString` and `asUInt` **throw** `std::runtime_error` on a value of the wrong type,
and which types are wrong differs from one to the next. That is why all of them answer in
`Except Exn`.

`Json::Reader` is a parameter of every component that parses: a function from the text to the
value it denotes, `none` where `parse` answers `false`. `Json/Reader.lean` has the one of the library.
-/

set_option autoImplicit false

namespace DevScan

/-- What a C++ function may throw, as far as the handlers here tell exceptions apart: something
derived from `std::exception`, or anything else. -/
inductive Exn where
  | stdException
  | other
deriving DecidableEq, Repr

namespace Json

/-- A `double`, given by the two things that can be read from it here: the text
`valueToString` prints and, if it is in range, the `UInt` it is converted to. -/
structure Real where
  text : StdString
  uint : Option Nat
deriving DecidableEq, Repr

/-- `Json::Value`. The members of an object are in no particular order; of two members with one
key the first is the one `ObjectValues` holds. -/
inductive Value where
  | nullValue
  | intValue (i : Int)
  | uintValue (n : Nat)
  | realValue (r : Real)
  | stringValue (s : StdString)
  | booleanValue (b : Bool)
  | arrayValue (elems : List Value)
  | objectValue (members : List (StdString × Value))

/-- `Json::Reader().parse` as a function of the text. -/
abbrev Reader := StdString → Option Value

def maxUInt : Nat := 0xFFFFFFFF

/-- `valueToString(LargestInt)`. -/
def valueToString (i : Int) : StdString :=
  if i < 0 then '-' :: Nat.toDigits 10 i.natAbs else Nat.toDigits 10 i.natAbs

/-- A `std::string` made from a `const char*`: it ends at the first NUL. -/
def cString (s : StdString) : StdString := s.takeWhile (· ≠ Char.ofNat 0)

namespace Value

/-- `value[key]`: a missing member, and every member of null, reads as null. -/
def index (key : StdString) : Value → Except Exn Value
  | nullValue => .ok nullValue
  | objectValue members => .ok ((members.lookup key).getD nullValue)
  | _ => .error .stdException

/-- `value[k₁][k₂]…`. -/
def indexPath (v : Value) (keys : List StdString) : Except Exn Value :=
  keys.foldlM (fun v key => v.index key) v

def isMember (key : StdString) : Value → Except Exn Bool
  | nullValue => .ok false
  | objectValue members => .ok (members.lookup key).isSome
  | _ => .error .stdException

def asString : Value → Except Exn StdString
  | nullValue => .ok []
  | stringValue s => .ok (cString s)
  | booleanValue b => .ok (if b then "true".toList else "false".toList)
  | intValue i => .ok (valueToString i)
  | uintValue n => .ok (Nat.toDigits 10 n)
  | realValue r => .ok r.text
  | arrayValue _ => .error .stdException
  | objectValue _ => .error .stdException

def asUInt : Value → Except Exn Nat
  | intValue i => if 0 ≤ i ∧ i ≤ maxUInt then .ok i.toNat else .error .stdException
  | uintValue n => if n ≤ maxUInt then .ok n else .error .stdException
  | realValue r => r.uint.elim (.error .stdException) .ok
  | nullValue => .ok 0
  | booleanValue b => .ok (if b then 1 else 0)
  | stringValue _ => .error .stdException
  | arrayValue _ => .error .stdException
  | objectValue _ => .error .stdException

/-- The members of an object with one of them written; a member that is missing is added. -/
def setMember (members : List (StdString × Value)) (key : StdString) (value : Value) :
    List (StdString × Value) :=
  match members with
  | [] => [(key, value)]
  | (k, v) :: members =>
    if k = key then (k, value) :: members else (k, v) :: setMember members key value

/-- `v[k₁][k₂]… = value`: null becomes an object on the way, anything else throws. -/
def assign : Value → List StdString → Value → Except Exn Value
  | _, [], value => .ok value
  | nullValue, key :: keys, value => do return objectValue [(key, ← assign nullValue keys value)]
  | objectValue members, key :: keys, value => do
    let member ← assign ((members.lookup key).getD nullValue) keys value
    return objectValue (setMember members key member)
  | _, _ :: _, _ => .error .stdException

end Value
end Json
end DevScan
