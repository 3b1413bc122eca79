import DevScan.Json.Decode
import DevScan.Json.Shapes

/-!
# `Json/Reader.lean` — `Json::Reader::parse`

The upper half of `jsoncpp/src/lib_json/json_reader.cpp`: `readValue`, which calls `readObject` and
`readArray`, which call it. They run on fuel, and `parse` grants as much as any document of that
length can need.

`currentValue()`, the value on top of `nodes_`, is handed down and comes back as the `value` of the
`Outcome`, also of one that is not successful: a member or an element that could not be read stays in
its container as far as it came. After an error the reader looks for the end of the object or the
array, at every level; `readToken` records no errors, so that those it discards there are none.

Not modelled: comments and offsets, which are kept in the value beside what it stands for.
-/

set_option autoImplicit false

namespace DevScan.Json.Reader

/-- A reader, and what it does not know: the character behind the document and the `double`s. -/
structure Setup where
  features : Features := Features.all
  behind : Char := nul
  sscanf : StdString → Option Real

/-- `extra` is null for most errors. -/
structure ErrorInfo where
  token : Token
  message : StdString
  extra : Option Location := none
deriving DecidableEq, Repr

/-- What changes while a document is read: `current_` and `errors_`. -/
structure Reading where
  current : Location
  errors : List ErrorInfo := []
deriving DecidableEq, Repr

/-- What a function of the reader returns, with `currentValue()`. -/
structure Outcome where
  successful : Bool
  value : Value
  reading : Reading

namespace Reading

def moveTo (s : Reading) (current : Location) : Reading := { s with current := current }

def addError (s : Reading) (info : ErrorInfo) : Reading := { s with errors := s.errors ++ [info] }

/-- The loop of `recoverFromError`, with the rounds it may still take. -/
def recoverLoop (behind : Char) (skipUntilToken : TokenType) : Nat → Location → Location
  | 0, current => current
  | rounds + 1, current =>
    let skip := readToken behind current
    if skip.type = skipUntilToken ∨ skip.type = .endOfStream then skip.stop
    else recoverLoop behind skipUntilToken rounds skip.stop

def recoverFromError (s : Reading) (setup : Setup) (skipUntilToken : TokenType) : Reading :=
  s.moveTo (recoverLoop setup.behind skipUntilToken (s.current.length + 1) s.current)

def addErrorAndRecover (s : Reading) (setup : Setup) (info : ErrorInfo)
    (skipUntilToken : TokenType) : Reading :=
  (s.addError info).recoverFromError setup skipUntilToken

/-- `currentValue()` becomes what was decoded, or stays as it is. -/
def decoded (s : Reading) (value : Value) : Except ErrorInfo Value → Outcome
  | .ok value => ⟨true, value, s⟩
  | .error info => ⟨false, value, s.addError info⟩

end Reading

/-- `decodeNumber(token, decoded)`. -/
def numberOf (setup : Setup) (token : Token) : Except ErrorInfo Value :=
  match decodeNumber setup.sscanf token.text with
  | .ok value => .ok value
  | .error message => .error { token, message }

/-- `decodeString(token, decoded)`: what stands between the quotes. -/
def stringOf (token : Token) : Except ErrorInfo StdString :=
  match decodeString token.text.tail.dropLast with
  | .ok decoded => .ok decoded
  | .error bad => .error ⟨token, bad.message, some (bad.extra ++ '"' :: token.stop)⟩

/-- The name of a member; `none` if this token is none at all. -/
def nameOf (setup : Setup) (tokenName : Token) : Option (Except ErrorInfo StdString) :=
  if tokenName.type = .string then some (stringOf tokenName)
  else if tokenName.type = .number ∧ setup.features.allowNumericKeys then
    match numberOf setup tokenName with
    | .ok numberName => some (.ok numberName.text)
    | .error info => some (.error info)
  else none

/-- What `operator[]` finds at a key that may be new. -/
def memberAt (members : List (StdString × Value)) (key : StdString) : Value :=
  (members.lookup key).getD .nullValue

def syntaxError : StdString := "Syntax error: value, object or array expected.".toList

def missingName : StdString := "Missing '\x7d' or object member name".toList

def missingColon : StdString := "Missing ':' after object member name".toList

def missingComma : StdString := "Missing ',' or '\x7d' in object declaration".toList

def missingCommaInArray : StdString := "Missing ',' or ']' in array declaration".toList

/-- The rest of a round of `readObject`, once the value of the member was read. -/
def afterMember (setup : Setup) (members : List (StdString × Value)) (outcome : Outcome)
    (again : Reading → Option Outcome) : Option Outcome :=
  let s := outcome.reading
  if outcome.successful = false then
    some ⟨false, .objectValue members, s.recoverFromError setup .objectEnd⟩
  else
    let comma := readToken setup.behind s.current
    if comma.type ≠ .objectEnd ∧ comma.type ≠ .arraySeparator ∧ comma.type ≠ .comment then
      some ⟨false, .objectValue members,
        (s.moveTo comma.stop).addErrorAndRecover setup
          { token := comma, message := missingComma } .objectEnd⟩
    else
      -- behind comments any token but the end goes for a comma
      let comma := skipComments setup.behind s.current
      let s := s.moveTo comma.stop
      if comma.type = .objectEnd then some ⟨true, .objectValue members, s⟩ else again s

/-- The rest of a round of `readArray`, once the element was read. -/
def afterElement (setup : Setup) (elems : List Value) (outcome : Outcome)
    (again : Reading → Option Outcome) : Option Outcome :=
  let s := outcome.reading
  if outcome.successful = false then
    some ⟨false, .arrayValue elems, s.recoverFromError setup .arrayEnd⟩
  else
    let token := skipComments setup.behind s.current
    let s := s.moveTo token.stop
    if token.type = .arrayEnd then some ⟨true, .arrayValue elems, s⟩
    else if token.type = .arraySeparator then again s
    else
      some ⟨false, .arrayValue elems,
        s.addErrorAndRecover setup { token, message := missingCommaInArray } .arrayEnd⟩

mutual

def readValue (setup : Setup) : Nat → Value → Reading → Option Outcome
  | 0, _, _ => none
  | fuel + 1, value, s =>
    let token := skipCommentTokens setup.features setup.behind s.current
    let s := s.moveTo token.stop
    match token.type with
    | .objectBegin => readObject setup fuel [] [] s
    | .arrayBegin => readArray setup fuel s
    | .number => some (s.decoded value (numberOf setup token))
    | .string => some (s.decoded value ((stringOf token).map Value.stringValue))
    | .true => some ⟨true, .booleanValue true, s⟩
    | .false => some ⟨true, .booleanValue false, s⟩
    | .null => some ⟨true, .nullValue, s⟩
    | .arraySeparator =>
      -- the comma is put back
      if setup.features.allowDroppedNullPlaceholders then
        some ⟨true, .nullValue, s.moveTo token.start⟩
      else some ⟨false, value, s.addError { token, message := syntaxError }⟩
    | _ => some ⟨false, value, s.addError { token, message := syntaxError }⟩

/-- From one round of its loop on, with the name of the last member. -/
def readObject (setup : Setup) : Nat → StdString → List (StdString × Value) → Reading →
    Option Outcome
  | 0, _, _, _ => none
  | fuel + 1, name, members, s =>
    let tokenName := skipComments setup.behind s.current
    let s := s.moveTo tokenName.stop
    if tokenName.type = .objectEnd ∧ name = [] then some ⟨true, .objectValue members, s⟩
    else
      match nameOf setup tokenName with
      | none =>
        some ⟨false, .objectValue members,
          s.addErrorAndRecover setup { token := tokenName, message := missingName } .objectEnd⟩
      | some (.error info) =>
        some ⟨false, .objectValue members, s.addErrorAndRecover setup info .objectEnd⟩
      | some (.ok name) =>
        let colon := readToken setup.behind s.current
        let s := s.moveTo colon.stop
        if colon.type ≠ .memberSeparator then
          some ⟨false, .objectValue members,
            s.addErrorAndRecover setup { token := colon, message := missingColon } .objectEnd⟩
        else
          -- `operator[]` takes the name as a C string
          match readValue setup fuel (memberAt members (cString name)) s with
          | none => none
          | some outcome =>
            let members := Value.setMember members (cString name) outcome.value
            afterMember setup members outcome (readObject setup fuel name members)

def readArray (setup : Setup) : Nat → Reading → Option Outcome
  | 0, _ => none
  | fuel + 1, s =>
    let current := skipSpaces s.current
    if peek setup.behind current = ']' then
      some ⟨true, .arrayValue [], s.moveTo (readToken setup.behind current).stop⟩
    else readElements setup fuel [] (s.moveTo current)

/-- The loop of `readArray`. -/
def readElements (setup : Setup) : Nat → List Value → Reading → Option Outcome
  | 0, _, _ => none
  | fuel + 1, elems, s =>
    match readValue setup fuel .nullValue s with
    | none => none
    | some outcome =>
      let elems := elems ++ [outcome.value]
      afterElement setup elems outcome (readElements setup fuel elems)

end

def invalidRoot : StdString :=
  "A valid JSON document must be either an array or an object value.".toList

def isContainer : Value → Bool
  | .arrayValue _ => true
  | .objectValue _ => true
  | _ => false

/-- `parse` into a value that is null. What stands behind the root is not looked at, comments
apart. -/
def parse (setup : Setup) (document : StdString) : Option Outcome :=
  match readValue setup (3 * document.length + 3) .nullValue ⟨document, []⟩ with
  | none => none
  | some outcome =>
    let s := outcome.reading
    let s := s.moveTo (skipCommentTokens setup.features setup.behind s.current).stop
    if setup.features.strictRoot && !isContainer outcome.value then
      some ⟨false, outcome.value,
        s.addError { token := ⟨.error, document, []⟩, message := invalidRoot }⟩
    else some { outcome with reading := s }

/-- `parse` as a function of the text. -/
def Setup.reader (setup : Setup) : Json.Reader := fun text =>
  match parse setup text with
  | some ⟨true, value, _⟩ => some value
  | _ => none

theorem Setup.reader_eq {setup : Setup} {text : StdString} {value : Value} {s : Reading}
    (h : parse setup text = some ⟨true, value, s⟩) : setup.reader text = some value := by
  rw [reader, h]

end DevScan.Json.Reader
