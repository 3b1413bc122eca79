import DevScan.Json.Value
import DevScan.Lib.OrderedMap
import Mathlib.Data.Char
import Mathlib.Data.List.Lex

/-!
# `Json/Writer.lean` — `Json::FastWriter`

After `jsoncpp/src/lib_json/json_writer.cpp`: how a value is written on one line. The members of an
object are those of a `std::map`, whose keys are C strings compared with `strcmp`: `getMemberNames`
gives them in that order, and of two members with one key the first is the one there is.

Strings end at the first NUL; nothing else of them is lost. Those without a character that needs an
escape are not walked, and look the same as if they were (`valueToQuotedString_eq`).
-/

set_option autoImplicit false

namespace DevScan.Json

open Lib (OrderedMap)

/-! ## Strings -/

def isControlCharacter (ch : Char) : Bool := 0 < ch.toNat && ch.toNat ≤ 0x1F

def containsControlCharacter (str : StdString) : Bool := str.any isControlCharacter

/-- `std::hex << std::uppercase << std::setfill('0') << std::setw(4)`. -/
def hexDigits (n : Nat) : StdString := List.leftpad 4 '0' ((Nat.toDigits 16 n).map Char.toUpper)

/-- What becomes of one character between the quotes. -/
def escaped (c : Char) : StdString :=
  if c = '"' then "\\\"".toList
  else if c = '\\' then "\\\\".toList
  else if c = Char.ofNat 8 then "\\b".toList
  else if c = Char.ofNat 12 then "\\f".toList
  else if c = '\n' then "\\n".toList
  else if c = '\r' then "\\r".toList
  else if c = '\t' then "\\t".toList
  else if isControlCharacter c then "\\u".toList ++ hexDigits c.toNat
  else [c]

/-- What `strpbrk` looks for. -/
def escapes : StdString := ['"', '\\', Char.ofNat 8, Char.ofNat 12, '\n', '\r', '\t']

/-- A value that is there: nothing is written of a null pointer. -/
def valueToQuotedString (value : StdString) : StdString :=
  let value := cString value
  if !value.any (fun c => escapes.contains c) && !containsControlCharacter value then
    '"' :: value ++ ['"']
  else '"' :: value.flatMap escaped ++ ['"']

theorem escaped_plain {c : Char} (hescapes : escapes.contains c = false)
    (hcontrol : isControlCharacter c = false) : escaped c = [c] := by
  simp only [escapes, List.contains_cons, List.contains_nil, Bool.or_eq_false_iff,
    beq_eq_false_iff_ne] at hescapes
  obtain ⟨h1, h2, h3, h4, h5, h6, h7, -⟩ := hescapes
  rw [escaped, if_neg h1, if_neg h2, if_neg h3, if_neg h4, if_neg h5, if_neg h6, if_neg h7, hcontrol]
  rfl

/-- Strings that are not walked are none that a walk would change. -/
theorem valueToQuotedString_eq (value : StdString) :
    valueToQuotedString value = '"' :: (cString value).flatMap escaped ++ ['"'] := by
  rw [valueToQuotedString]
  split
  · rename_i h
    rw [Bool.and_eq_true, Bool.not_eq_true', Bool.not_eq_true', containsControlCharacter,
      List.any_eq_false, List.any_eq_false] at h
    have hplain : ∀ c ∈ cString value, escaped c = [c] := fun c hc =>
      escaped_plain (eq_false_of_ne_true (h.1 c hc)) (eq_false_of_ne_true (h.2 c hc))
    rw [List.flatMap_congr hplain, List.flatMap_singleton']
  · rfl

/-! ## Values -/

/-- What is set up, all of it `false` unless it is asked for. -/
structure FastWriter where
  yamlCompatiblityEnabled : Bool := false
  dropNullPlaceholders : Bool := false
  omitEndingLineFeed : Bool := false
deriving DecidableEq, Repr

namespace FastWriter

/-- One member, its name with what stands for its value. -/
def writeMember (w : FastWriter) (member : StdString × StdString) : StdString :=
  valueToQuotedString member.1 ++
    (if w.yamlCompatiblityEnabled then ": ".toList else ":".toList) ++ member.2

mutual

def writeValue (w : FastWriter) : Value → StdString
  | .nullValue => if w.dropNullPlaceholders then [] else "null".toList
  | .intValue i => valueToString i
  | .uintValue n => Nat.toDigits 10 n
  | .realValue r => r.text
  | .stringValue s => valueToQuotedString s
  | .booleanValue b => if b then "true".toList else "false".toList
  | .arrayValue elems => "[".toList ++ List.intercalate ",".toList (writeElements w elems) ++ "]".toList
  | .objectValue members =>
    "\x7b".toList ++
      List.intercalate ",".toList
        ((OrderedMap.collect (writeMembers w members)).entries.map (writeMember w)) ++ "\x7d".toList

def writeElements (w : FastWriter) : List Value → List StdString
  | [] => []
  | v :: elems => writeValue w v :: writeElements w elems

/-- The values as they are written, under the names of their members. -/
def writeMembers (w : FastWriter) : List (StdString × Value) → List (StdString × StdString)
  | [] => []
  | (name, v) :: members => (name, writeValue w v) :: writeMembers w members

end

def write (w : FastWriter) (root : Value) : StdString :=
  writeValue w root ++ if w.omitEndingLineFeed then [] else "\n".toList

theorem writeElements_eq (w : FastWriter) (elems : List Value) :
    writeElements w elems = elems.map (writeValue w) := by
  induction elems with
  | nil => rfl
  | cons v elems ih => rw [writeElements, ih, List.map_cons]

theorem writeMembers_eq (w : FastWriter) (members : List (StdString × Value)) :
    writeMembers w members = members.map (Prod.map id (writeValue w)) := by
  induction members with
  | nil => rfl
  | cons member members ih => rw [writeMembers, ih, List.map_cons, Prod.map, id]

end FastWriter
end DevScan.Json
