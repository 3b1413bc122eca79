import DevScan.Json.Reader

/-!
# `Json/Grammar.lean` — which texts spell a value

What a JSON document is, apart from how it is read: `Spells` says of a text that it spells a value,
whatever white space and comments it has, however its numbers and strings are written. It says so
of the parts of arrays and objects too, which is what an `Item` is. The leaves are the numbers and
strings of the reader (`decodeNumber`, `decodeString`); what these stand for is in
`Json/Literals.lean`.

`comments` tells whether comments may stand where white space may.
-/

set_option autoImplicit false

namespace DevScan.Json

open Reader (isSpace isNumberChar Quotable decodeNumber decodeString hexDigit? simpleEscape?
  codePointToUTF8)

/-- What may stand between two tokens. -/
inductive Gap (comments : Bool) : StdString → Prop where
  | nil : Gap comments []
  | space {c : Char} {gap : StdString} (hspace : isSpace c = true) :
      Gap comments gap → Gap comments (c :: gap)
  | block {body gap : StdString} (hallowed : comments = true)
      (hbody : ¬['*', '/'] <:+: body ++ ['*']) :
      Gap comments gap → Gap comments ('/' :: '*' :: (body ++ '*' :: '/' :: gap))
  | line {body gap : StdString} {stop : Char} (hallowed : comments = true)
      (hbody : ∀ c ∈ body, c ≠ '\r' ∧ c ≠ '\n') (hstop : stop = '\r' ∨ stop = '\n') :
      Gap comments gap → Gap comments ('/' :: '/' :: (body ++ stop :: gap))

/-- White space alone. -/
def Blank (gap : StdString) : Prop := ∀ c ∈ gap, isSpace c = true

theorem Blank.gap {comments : Bool} {gap : StdString} (h : Blank gap) : Gap comments gap := by
  induction gap with
  | nil => exact .nil
  | cons c gap ih =>
    exact .space (h c List.mem_cons_self) (ih fun d hd => h d (List.mem_cons_of_mem c hd))

theorem blank_nil : Blank [] := fun _ h => absurd h List.not_mem_nil

theorem Blank.append {gap gap' : StdString} (h : Blank gap) (h' : Blank gap') : Blank (gap ++ gap') := by
  intro c hc
  exact (List.mem_append.mp hc).elim (h c) (h' c)

/-- A digit or a minus, and then whatever may stand in a number. -/
def NumberText (text : StdString) : Prop :=
  ∃ c rest, text = c :: rest ∧ (c.isDigit ∨ c = '-') ∧ ∀ d ∈ rest, isNumberChar d = true

/-- A value, an element or a member with what surrounds it, or a row of them. -/
inductive Item where
  | value (v : Value)
  | element (v : Value)
  | elements (vs : List Value)
  | member (name : StdString) (v : Value)
  | members (ms : List (StdString × Value))

/-- Members that are written one after the other: of two with one name the last is kept. -/
def putMember (members : List (StdString × Value)) (m : StdString × Value) :
    List (StdString × Value) := Value.setMember members (cString m.1) m.2

inductive Spells (sscanf : StdString → Option Real) (comments : Bool) : Item → StdString → Prop where
  | null : Spells sscanf comments (.value .nullValue) "null".toList
  | true : Spells sscanf comments (.value (.booleanValue true)) "true".toList
  | false : Spells sscanf comments (.value (.booleanValue false)) "false".toList
  | number {text : StdString} {v : Value} (htext : NumberText text)
      (hvalue : decodeNumber sscanf text = .ok v) : Spells sscanf comments (.value v) text
  | string {content s : StdString} (hquotable : Quotable content)
      (hdecode : decodeString content = .ok s) :
      Spells sscanf comments (.value (.stringValue s)) ('"' :: content ++ ['"'])
  | emptyArray {blank : StdString} (hblank : Gap false blank) :
      Spells sscanf comments (.value (.arrayValue [])) ('[' :: blank ++ [']'])
  | array {vs : List Value} {text : StdString} :
      Spells sscanf comments (.elements vs) text →
      Spells sscanf comments (.value (.arrayValue vs)) ('[' :: text ++ [']'])
  | emptyObject {gap : StdString} (hgap : Gap comments gap) :
      Spells sscanf comments (.value (.objectValue [])) ('{' :: gap ++ ['}'])
  | object {ms : List (StdString × Value)} {text : StdString} :
      Spells sscanf comments (.members ms) text →
      Spells sscanf comments (.value (.objectValue (ms.foldl putMember []))) ('{' :: text ++ ['}'])
  | element {before text after : StdString} {v : Value} (hbefore : Gap comments before)
      (hafter : Gap comments after) :
      Spells sscanf comments (.value v) text →
      Spells sscanf comments (.element v) (before ++ text ++ after)
  | lastElement {text : StdString} {v : Value} :
      Spells sscanf comments (.element v) text → Spells sscanf comments (.elements [v]) text
  | moreElements {text rest : StdString} {v : Value} {vs : List Value} :
      Spells sscanf comments (.element v) text → Spells sscanf comments (.elements vs) rest →
      Spells sscanf comments (.elements (v :: vs)) (text ++ ',' :: rest)
  | member {gap content name blank text : StdString} {v : Value} (hgap : Gap comments gap)
      (hquotable : Quotable content) (hdecode : decodeString content = .ok name)
      (hblank : Gap false blank) :
      Spells sscanf comments (.element v) text →
      Spells sscanf comments (.member name v) (gap ++ '"' :: content ++ '"' :: blank ++ ':' :: text)
  | lastMember {text name : StdString} {v : Value} :
      Spells sscanf comments (.member name v) text → Spells sscanf comments (.members [(name, v)]) text
  | moreMembers {text rest name : StdString} {v : Value} {ms : List (StdString × Value)} :
      Spells sscanf comments (.member name v) text → Spells sscanf comments (.members ms) rest →
      Spells sscanf comments (.members ((name, v) :: ms)) (text ++ ',' :: rest)

theorem Gap.append {comments : Bool} {gap gap' : StdString} (h : Gap comments gap)
    (h' : Gap comments gap') : Gap comments (gap ++ gap') := by
  induction h with
  | nil => exact h'
  | space hspace _ ih => exact .space hspace ih
  | block hallowed hbody _ ih =>
    have hmore := Gap.block hallowed hbody ih
    simpa using hmore
  | line hallowed hbody hstop _ ih =>
    have hmore := Gap.line hallowed hbody hstop ih
    simpa using hmore

/-- Where no comments are allowed there are none, so that they might be. -/
theorem Gap.mono {comments : Bool} {gap : StdString} (h : Gap false gap) : Gap comments gap := by
  induction h with
  | nil => exact .nil
  | space hspace _ ih => exact .space hspace ih
  | block hallowed => exact absurd hallowed Bool.false_ne_true
  | line hallowed => exact absurd hallowed Bool.false_ne_true

theorem Spells.mono {sscanf : StdString → Option Real} {comments : Bool} {item : Item}
    {text : StdString} (h : Spells sscanf Bool.false item text) : Spells sscanf comments item text := by
  induction h with
  | null => exact .null
  | true => exact .true
  | false => exact .false
  | number htext hvalue => exact .number htext hvalue
  | string hquotable hdecode => exact .string hquotable hdecode
  | emptyArray hblank => exact .emptyArray hblank
  | array _ ih => exact .array ih
  | emptyObject hgap => exact .emptyObject hgap.mono
  | object _ ih => exact .object ih
  | element hbefore hafter _ ih => exact .element hbefore.mono hafter.mono ih
  | lastElement _ ih => exact .lastElement ih
  | moreElements _ _ ih ihrest => exact .moreElements ih ihrest
  | member hgap hquotable hdecode hblank _ ih =>
    exact .member hgap.mono hquotable hdecode hblank ih
  | lastMember _ ih => exact .lastMember ih
  | moreMembers _ _ ih ihrest => exact .moreMembers ih ihrest

end DevScan.Json
