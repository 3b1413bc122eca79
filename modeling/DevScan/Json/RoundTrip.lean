import DevScan.Json.Accepts
import DevScan.Json.Literals
import DevScan.Json.Writer
import Mathlib.Data.List.TakeWhile

/-!
# `Json/RoundTrip.lean` — what is written is read back

Of a value that is written and read again a little is lost: an integer that fits into an `Int` is one
afterwards, whichever type it had, a string ends at its first NUL, a `double` is what its text is
read as. `Value.reread` is what comes back. The writer's text spells it (`spells_writeValue`), so
that the reader, which reads every text that spells a value, reads that value (`parse_write`). The
accessors find in it what they found before (`parse_write_reads`), and two values that come back as
one have one text (`write_eq_iff`).
-/

set_option autoImplicit false

namespace DevScan.Json

open Lib (OrderedMap)
open Reader

/-! ## What comes back -/

/-- What the text of a `double` is read as. -/
def Real.reread (sscanf : StdString → Option Real) (r : Real) : Value :=
  if r.text = "null".toList then .nullValue
  else (decodeNumber sscanf r.text).toOption.getD .nullValue

namespace Value

mutual

def reread (sscanf : StdString → Option Real) : Value → Value
  | nullValue => nullValue
  | intValue i => if i < 0 then intValue i else ofUnsigned i.toNat
  | uintValue n => ofUnsigned n
  | realValue r => r.reread sscanf
  | stringValue s => stringValue (cString s)
  | booleanValue b => booleanValue b
  | arrayValue elems => arrayValue (rereadElements sscanf elems)
  | objectValue members =>
    objectValue (OrderedMap.collect (rereadMembers sscanf members)).entries

def rereadElements (sscanf : StdString → Option Real) : List Value → List Value
  | [] => []
  | v :: elems => reread sscanf v :: rereadElements sscanf elems

def rereadMembers (sscanf : StdString → Option Real) :
    List (StdString × Value) → List (StdString × Value)
  | [] => []
  | (name, v) :: members => (name, reread sscanf v) :: rereadMembers sscanf members

end

theorem rereadElements_eq (sscanf : StdString → Option Real) (elems : List Value) :
    rereadElements sscanf elems = elems.map (reread sscanf) := by
  induction elems with
  | nil => rfl
  | cons v elems ih => rw [rereadElements, ih, List.map_cons]

theorem rereadMembers_eq (sscanf : StdString → Option Real) (members : List (StdString × Value)) :
    rereadMembers sscanf members = members.map (Prod.map id (reread sscanf)) := by
  induction members with
  | nil => rfl
  | cons member members ih => rw [rereadMembers, ih, List.map_cons, Prod.map, id]

/-- What the C++ types admit: integers have 64 bits and names no NUL. Of a `double` that its text is
one a number token can have, or that of what is none. -/
inductive Writable (sscanf : StdString → Option Real) : Value → Prop where
  | null : Writable sscanf nullValue
  | int {i : Int} (hmin : -minLargestIntAbs ≤ i) (hmax : i < minLargestIntAbs) :
      Writable sscanf (intValue i)
  | uint {n : Nat} (hmax : n ≤ maxLargestUInt) : Writable sscanf (uintValue n)
  | real {r : Real} (hread : r.text = "null".toList ∨
      NumberText r.text ∧ ∃ v, decodeNumber sscanf r.text = .ok v) : Writable sscanf (realValue r)
  | string (s : StdString) : Writable sscanf (stringValue s)
  | boolean (b : Bool) : Writable sscanf (booleanValue b)
  | array {elems : List Value} (h : ∀ v ∈ elems, Writable sscanf v) :
      Writable sscanf (arrayValue elems)
  | object {members : List (StdString × Value)} (hnames : ∀ m ∈ members, cString m.1 = m.1)
      (h : ∀ m ∈ members, Writable sscanf m.2) : Writable sscanf (objectValue members)

end Value

/-! ## Strings -/

theorem cString_cString (s : StdString) : cString (cString s) = cString s :=
  List.takeWhile_idem

theorem hexText_control {c : Char} (h : isControlCharacter c = true) :
    HexText c.toNat (hexDigits c.toNat) := by
  rw [isControlCharacter, Bool.and_eq_true, decide_eq_true_eq, decide_eq_true_eq] at h
  have hall : ∀ n < 0x20, (hexDigits n).map hexDigit? = (Lib.Numeral.write 16 4 n).map some := by
    decide
  exact ⟨by omega, hall c.toNat (by omega)⟩

/-- What is escaped is read as what it was. -/
theorem decodes_escaped (c : Char) {content decoded : StdString} (h : Decodes content decoded) :
    Decodes (escaped c ++ content) (c :: decoded) := by
  rw [escaped]
  split_ifs with h1 h2 h3 h4 h5 h6 h7 h8
  · exact h1 ▸ decodes_escape rfl h
  · exact h2 ▸ decodes_escape rfl h
  · exact h3 ▸ decodes_escape rfl h
  · exact h4 ▸ decodes_escape rfl h
  · exact h5 ▸ decodes_escape rfl h
  · exact h6 ▸ decodes_escape rfl h
  · exact h7 ▸ decodes_escape rfl h
  · have hdigits := hexText_control h8
    have hascii : c.toNat ≤ 0x1F := by
      rw [isControlCharacter, Bool.and_eq_true, decide_eq_true_eq, decide_eq_true_eq] at h8
      exact h8.2
    have hpoint := decodes_codePoint (h.quotable.append hdigits.plain)
      (decodeUnicodeCodePoint_hexText hdigits (toNat_not_surrogate c) content) h
    rw [utf8_ascii (by omega)] at hpoint
    exact hpoint
  · exact decodes_plain h2 h1 h

theorem decodes_walk (s : StdString) : Decodes (s.flatMap escaped) s := by
  induction s with
  | nil => exact decodes_nil
  | cons c s ih =>
    rw [List.flatMap_cons]
    exact decodes_escaped c ih

/-- A quoted string, with what stands between the quotes. -/
theorem quoted (s : StdString) :
    ∃ content, valueToQuotedString s = '"' :: content ++ ['"'] ∧ Decodes content (cString s) :=
  ⟨_, valueToQuotedString_eq s, decodes_walk _⟩

/-! ## Integers -/

theorem numberText_digits (n : Nat) : NumberText (Nat.toDigits 10 n) := by
  have hdigits := isDigit_toDigits n
  cases htext : Nat.toDigits 10 n with
  | nil => exact absurd htext Nat.toDigits_ne_nil
  | cons c rest =>
    rw [htext] at hdigits
    refine ⟨c, rest, rfl, Or.inl (hdigits c List.mem_cons_self), fun d hd => ?_⟩
    rw [isNumberChar, hdigits d (List.mem_cons_of_mem c hd)]
    rfl

theorem decodeNumber_toDigits (sscanf : StdString → Option Real) {n : Nat} (hmax : n ≤ maxLargestUInt) :
    decodeNumber sscanf (Nat.toDigits 10 n) = .ok (.ofUnsigned n) := by
  rw [decodeNumber_digits sscanf (isDigit_toDigits n), worth_toDigits, if_pos hmax]

theorem numberText_negative (n : Nat) : NumberText ('-' :: Nat.toDigits 10 n) := by
  refine ⟨'-', _, rfl, Or.inr rfl, fun d hd => ?_⟩
  rw [isNumberChar, isDigit_toDigits n d hd]
  rfl

theorem decodeNumber_negative (sscanf : StdString → Option Real) {n : Nat}
    (hmax : n ≤ minLargestIntAbs) :
    decodeNumber sscanf ('-' :: Nat.toDigits 10 n) = .ok (.intValue (-n)) := by
  rw [decodeNumber_minus sscanf (isDigit_toDigits n), worth_toDigits, if_pos hmax]

/-! ## Members -/

theorem setMember_append {members : List (StdString × Value)} {name : StdString} (v : Value)
    (hnew : ∀ m ∈ members, m.1 ≠ name) : Value.setMember members name v = members ++ [(name, v)] := by
  induction members with
  | nil => rfl
  | cons m members ih =>
    rw [Value.setMember, if_neg (hnew m List.mem_cons_self),
      ih fun m hm => hnew m (List.mem_cons_of_mem _ hm), List.cons_append]

/-- Members with different names are put one behind the other. -/
theorem foldl_putMember {before members : List (StdString × Value)}
    (hnames : ∀ m ∈ members, cString m.1 = m.1)
    (hnew : (before ++ members).Pairwise fun a b => a.1 ≠ b.1) :
    members.foldl putMember before = before ++ members := by
  induction members generalizing before with
  | nil => rw [List.append_nil]; rfl
  | cons m members ih =>
    have hm : ∀ a ∈ before, a.1 ≠ m.1 := fun a ha =>
      (List.pairwise_append.mp hnew).2.2 a ha m List.mem_cons_self
    rw [List.foldl_cons, putMember, hnames m List.mem_cons_self, setMember_append m.2 hm,
      ih (fun a ha => hnames a (List.mem_cons_of_mem m ha)), List.append_assoc, List.singleton_append]
    rwa [List.append_assoc, List.singleton_append]

theorem mem_of_mem_collect {ν : Type} {pairs : List (StdString × ν)} {pair : StdString × ν}
    (h : pair ∈ (OrderedMap.collect pairs).entries) : pair ∈ pairs := by
  have hfound := ((OrderedMap.collect pairs).find?_eq_some_iff pair.1 pair.2).mpr h
  rw [OrderedMap.find?_collect] at hfound
  obtain ⟨before, after, hpairs, -⟩ := List.lookup_eq_some_iff.mp hfound
  rw [hpairs]
  exact List.mem_append_right before List.mem_cons_self

theorem collect_ne_nil {ν : Type} {pairs : List (StdString × ν)} (hne : pairs ≠ []) :
    (OrderedMap.collect pairs).entries ≠ [] := by
  intro hempty
  obtain ⟨pair, rest, rfl⟩ := List.exists_cons_of_ne_nil hne
  have hfound := OrderedMap.find?_collect (pair :: rest) pair.1
  rw [OrderedMap.find?, hempty, List.lookup_cons_self] at hfound
  exact absurd hfound (by simp)

/-- The members of a map, which are in order, stay as they are. -/
theorem foldl_putMember_collect {pairs : List (StdString × Value)}
    (hnames : ∀ m ∈ pairs, cString m.1 = m.1) :
    (OrderedMap.collect pairs).entries.foldl putMember [] = (OrderedMap.collect pairs).entries := by
  refine foldl_putMember (fun m hm => hnames m (mem_of_mem_collect hm)) ?_
  rw [List.nil_append]
  exact (OrderedMap.collect pairs).sorted.imp fun h => ne_of_lt h

/-! ## Rows -/

variable {sscanf : StdString → Option Real} {comments : Bool}

/-- Texts with commas between them make a row, if a row is one of them or one, a comma and a row. -/
theorem row_intercalate {α : Type} {one : α → StdString → Prop} {row : List α → StdString → Prop}
    (hlast : ∀ {x text}, one x text → row [x] text)
    (hmore : ∀ {x xs text rest}, one x text → row xs rest → row (x :: xs) (text ++ ',' :: rest))
    {xs : List α} {write : α → StdString} (hne : xs ≠ []) (h : ∀ x ∈ xs, one x (write x)) :
    row xs (List.intercalate ",".toList (xs.map write)) := by
  induction xs with
  | nil => exact absurd rfl hne
  | cons x xs ih =>
    have hx := h x List.mem_cons_self
    by_cases hend : xs = []
    · subst hend
      rw [List.map_singleton, List.intercalate_singleton]
      exact hlast hx
    · have hrest := ih hend fun y hy => h y (List.mem_cons_of_mem _ hy)
      rw [List.map_cons, List.intercalate_cons_of_ne_nil (by simpa using hend), List.append_assoc]
      exact hmore hx hrest

theorem spells_elements {vs : List Value} {write : Value → StdString} {reread : Value → Value}
    (hne : vs ≠ []) (h : ∀ v ∈ vs, Spells sscanf comments (.element (reread v)) (write v)) :
    Spells sscanf comments (.elements (vs.map reread))
      (List.intercalate ",".toList (vs.map write)) :=
  @row_intercalate Value (fun v => Spells sscanf comments (.element (reread v)))
    (fun vs => Spells sscanf comments (.elements (vs.map reread))) .lastElement .moreElements vs write
    hne h

theorem spells_members {ms : List (StdString × Value)} {write : StdString × Value → StdString}
    {reread : Value → Value} (hne : ms ≠ [])
    (h : ∀ m ∈ ms, Spells sscanf comments (.member m.1 (reread m.2)) (write m)) :
    Spells sscanf comments (.members (ms.map (Prod.map id reread)))
      (List.intercalate ",".toList (ms.map write)) :=
  @row_intercalate (StdString × Value) (fun m => Spells sscanf comments (.member m.1 (reread m.2)))
    (fun ms => Spells sscanf comments (.members (ms.map (Prod.map id reread)))) .lastMember
    .moreMembers ms write hne h

/-! ## Values -/

theorem Spells.alone {v : Value} {text : StdString} (h : Spells sscanf comments (.value v) text) :
    Spells sscanf comments (.element v) text := by
  have helement := Spells.element .nil .nil h
  rwa [List.append_nil] at helement

/-- A name in quotes, and its value. -/
theorem spells_member {name gap blank text : StdString} {v : Value} (hname : cString name = name)
    (hgap : Gap comments gap) (hblank : Gap false blank)
    (h : Spells sscanf comments (.element v) text) :
    Spells sscanf comments (.member name v)
      (gap ++ valueToQuotedString name ++ blank ++ ':' :: text) := by
  obtain ⟨content, htext, hdecodes⟩ := quoted name
  rw [hname] at hdecodes
  have hmember := Spells.member hgap hdecodes.quotable hdecodes.decodeString hblank h
  rw [htext]
  simpa using hmember

theorem spells_quoted (s : StdString) :
    Spells sscanf comments (.value (.stringValue (cString s))) (valueToQuotedString s) := by
  obtain ⟨content, htext, hdecodes⟩ := quoted s
  rw [htext]
  exact .string hdecodes.quotable hdecodes.decodeString

theorem spells_int {i : Int} (hmin : -minLargestIntAbs ≤ i) (hmax : i < minLargestIntAbs) :
    Spells sscanf comments (.value ((Value.intValue i).reread sscanf)) (valueToString i) := by
  rw [Value.reread, valueToString]
  have habs : i.natAbs ≤ minLargestIntAbs := by omega
  by_cases hneg : i < 0
  · have hi : -(i.natAbs : Int) = i := by omega
    have hvalue := decodeNumber_negative sscanf habs
    rw [hi] at hvalue
    rw [if_pos hneg, if_pos hneg]
    exact .number (numberText_negative i.natAbs) hvalue
  · have hi : i.toNat = i.natAbs := by omega
    rw [if_neg hneg, if_neg hneg, hi]
    exact .number (numberText_digits i.natAbs)
      (decodeNumber_toDigits sscanf (Nat.le_trans habs (by decide)))

theorem spells_uint {n : Nat} (hmax : n ≤ maxLargestUInt) :
    Spells sscanf comments (.value ((Value.uintValue n).reread sscanf)) (Nat.toDigits 10 n) :=
  .number (numberText_digits n) (decodeNumber_toDigits sscanf hmax)

theorem spells_real {r : Real} (hread : r.text = "null".toList ∨
    NumberText r.text ∧ ∃ v, decodeNumber sscanf r.text = .ok v) :
    Spells sscanf comments (.value ((Value.realValue r).reread sscanf)) r.text := by
  rw [Value.reread, Real.reread]
  rcases hread with hnull | ⟨htext, v, hvalue⟩
  · rw [if_pos hnull, hnull]
    exact .null
  · have hne : r.text ≠ "null".toList := by
      obtain ⟨c, rest, htext, hc, -⟩ := htext
      rw [htext]
      intro hnull
      obtain rfl := (List.cons.inj hnull).1
      exact absurd hc (by decide)
    rw [if_neg hne, hvalue]
    exact .number htext hvalue

theorem spells_boolean (b : Bool) :
    Spells sscanf comments (.value (.booleanValue b))
      (if b then "true".toList else "false".toList) := by
  cases b with
  | false => exact .false
  | true => exact .true

/-- The members that come back, put one behind the other. -/
theorem reread_object {members : List (StdString × Value)}
    (hnames : ∀ m ∈ members, cString m.1 = m.1) :
    (Value.objectValue members).reread sscanf =
      .objectValue (((OrderedMap.collect members).entries.map
        (Prod.map id (Value.reread sscanf))).foldl putMember []) := by
  rw [Value.reread, Value.rereadMembers_eq, ← OrderedMap.entries_collect_map,
    foldl_putMember_collect]
  intro m hm
  obtain ⟨member, hmember, rfl⟩ := List.mem_map.mp hm
  exact hnames member hmember

theorem spells_object {members : List (StdString × Value)} {write : StdString × Value → StdString}
    (hne : members ≠ []) (hnames : ∀ m ∈ members, cString m.1 = m.1)
    (h : ∀ m ∈ members, Spells sscanf comments (.member m.1 (m.2.reread sscanf)) (write m)) :
    Spells sscanf comments (.value ((Value.objectValue members).reread sscanf))
      ('{' :: List.intercalate ",".toList
        ((OrderedMap.collect members).entries.map write) ++ ['}']) := by
  rw [reread_object hnames]
  exact .object (spells_members (collect_ne_nil hne) fun m hm => h m (mem_of_mem_collect hm))

theorem FastWriter.spells_writeMember (w : FastWriter) {name text : StdString} {v : Value}
    (hname : cString name = name) (h : Spells sscanf comments (.value v) text) :
    Spells sscanf comments (.member name v) (w.writeMember (name, text)) := by
  rw [writeMember]
  cases w.yamlCompatiblityEnabled with
  | false =>
    have hmember := spells_member hname .nil .nil h.alone
    simpa using hmember
  | true =>
    have hspaced : Spells sscanf comments (.element v) (' ' :: text) := by
      have helement := Spells.element (@Gap.space comments ' ' [] rfl .nil) .nil h
      rwa [List.append_nil] at helement
    have hmember := spells_member hname .nil .nil hspaced
    simpa using hmember

theorem FastWriter.spells_writeValue (w : FastWriter) (hnull : w.dropNullPlaceholders = false)
    {v : Value} (hv : v.Writable sscanf) :
    Spells sscanf comments (.value (v.reread sscanf)) (w.writeValue v) := by
  induction hv with
  | null =>
    rw [writeValue, hnull]
    exact .null
  | int hmin hmax => exact spells_int hmin hmax
  | uint hmax => exact spells_uint hmax
  | real hread => exact spells_real hread
  | string s => exact spells_quoted s
  | boolean b => exact spells_boolean b
  | @array elems _ ih =>
    rw [Value.reread, Value.rereadElements_eq, writeValue, writeElements_eq]
    by_cases hempty : elems = []
    · subst hempty
      exact .emptyArray .nil
    · exact .array (spells_elements hempty fun v hv => (ih v hv).alone)
  | @object members hnames _ ih =>
    rw [writeValue, writeMembers_eq, OrderedMap.entries_collect_map, List.map_map]
    by_cases hempty : members = []
    · subst hempty
      exact .emptyObject .nil
    · refine spells_object hempty hnames fun m hm => ?_
      exact w.spells_writeMember (hnames m hm) (ih m hm)

/-! ## Documents -/

theorem isContainer_reread {v : Value} (h : isContainer v = true) :
    isContainer (v.reread sscanf) = true := by
  cases v with
  | arrayValue elems => rfl
  | objectValue members => rfl
  | _ => exact absurd h (by simp [isContainer])

/-- What `FastWriter` wrote is accepted by every `Reader`, whatever its features, and what comes back
is `reread`. -/
theorem parse_write (setup : Setup) (w : FastWriter) (hnull : w.dropNullPlaceholders = false)
    {v : Value} (hv : v.Writable setup.sscanf)
    (hroot : setup.features.strictRoot = true → isContainer v = true) :
    ∃ s, parse setup (w.write v) = some ⟨true, v.reread setup.sscanf, s⟩ ∧ s.errors = [] := by
  have hfollows : Follows (if w.omitEndingLineFeed then [] else "\n".toList) := by
    cases w.omitEndingLineFeed with
    | false => exact follows_cons rfl []
    | true => exact fun c hc => absurd hc (by simp)
  exact parse_of_spells (w.spells_writeValue hnull hv) .nil (fun _ => hfollows)
    fun hs => isContainer_reread (hroot hs)

theorem writable_pair (sscanf : StdString → Option Real) {name name' : StdString} {v v' : Value}
    (hname : cString name = name) (hname' : cString name' = name') (hv : v.Writable sscanf)
    (hv' : v'.Writable sscanf) : (Value.objectValue [(name, v), (name', v')]).Writable sscanf := by
  refine .object ?_ ?_
  · exact List.forall_mem_cons.mpr ⟨hname, List.forall_mem_singleton.mpr hname'⟩
  · exact List.forall_mem_cons.mpr ⟨hv, List.forall_mem_singleton.mpr hv'⟩

/-- One object twice, the second time as it comes back. -/
def swapped : Value × Value :=
  (.objectValue [("b".toList, .uintValue 7), ("a".toList, .stringValue "\"".toList)],
   .objectValue [("a".toList, .stringValue "\"".toList), ("b".toList, .intValue 7)])

/-! ## What the accessors make of it -/

namespace Value

theorem lookup_rereadMembers (sscanf : StdString → Option Real) (members : List (StdString × Value))
    (key : StdString) :
    (OrderedMap.collect (rereadMembers sscanf members)).entries.lookup key =
      (members.lookup key).map (reread sscanf) := by
  rw [← OrderedMap.find?_eq_lookup, OrderedMap.find?_collect, rereadMembers_eq]
  induction members with
  | nil => rfl
  | cons m members ih =>
    rw [List.map_cons, List.lookup_cons, List.lookup_cons, ih, Prod.map_fst, Prod.map_snd, id]
    cases key == m.1 with
    | true => rfl
    | false => rfl

theorem ofUnsigned_asString (n : Nat) : (ofUnsigned n).asString = .ok (Nat.toDigits 10 n) := by
  rw [ofUnsigned]
  split
  · rw [asString, valueToString, if_neg (by omega)]
    rfl
  · rfl

theorem ofUnsigned_asUInt (n : Nat) : (ofUnsigned n).asUInt = (uintValue n).asUInt := by
  rw [ofUnsigned]
  split
  · rename_i hmax
    have hsmall : n ≤ maxUInt := Nat.le_trans hmax (by decide)
    have hrange : (0 : Int) ≤ n ∧ (n : Int) ≤ maxUInt := by omega
    rw [asUInt, asUInt, if_pos hrange, if_pos hsmall]
    rfl
  · rfl

theorem asString_reread {v : Value} (hreal : ∀ r, v ≠ realValue r) :
    (v.reread sscanf).asString = v.asString := by
  cases v with
  | intValue i =>
    rw [reread]
    split
    · rfl
    · rename_i hneg
      have hi : i.toNat = i.natAbs := by omega
      rw [ofUnsigned_asString, asString, valueToString, if_neg hneg, hi]
  | uintValue n => exact ofUnsigned_asString n
  | realValue r => exact absurd rfl (hreal r)
  | stringValue s => exact congrArg Except.ok (cString_cString s)
  | _ => rfl

theorem asUInt_reread {v : Value} (hreal : ∀ r, v ≠ realValue r) :
    (v.reread sscanf).asUInt = v.asUInt := by
  cases v with
  | intValue i =>
    rw [reread]
    split
    · rfl
    · rename_i hneg
      have hi : (i.toNat : Int) = i := Int.toNat_of_nonneg (by omega)
      rw [ofUnsigned_asUInt, asUInt, asUInt]
      by_cases hmax : i ≤ maxUInt
      · rw [if_pos (by omega), if_pos ⟨by omega, hmax⟩]
      · rw [if_neg (by omega), if_neg fun h => hmax h.2]
  | uintValue n => exact ofUnsigned_asUInt n
  | realValue r => exact absurd rfl (hreal r)
  | _ => rfl

theorem isMember_reread {v : Value} (hreal : ∀ r, v ≠ realValue r) (key : StdString) :
    (v.reread sscanf).isMember key = v.isMember key := by
  have hunsigned : ∀ n, (ofUnsigned n).isMember key = .error .stdException := fun n => by
    rw [ofUnsigned]
    split
    · rfl
    · rfl
  cases v with
  | intValue i =>
    rw [reread]
    split
    · rfl
    · exact hunsigned _
  | uintValue n => exact hunsigned n
  | realValue r => exact absurd rfl (hreal r)
  | objectValue members =>
    rw [reread, isMember, isMember, lookup_rereadMembers, Option.isSome_map]
  | _ => rfl

theorem index_reread {v u : Value} {key : StdString} (h : v.index key = .ok u) :
    (v.reread sscanf).index key = .ok (u.reread sscanf) := by
  cases v with
  | nullValue =>
    obtain rfl := Except.ok.inj h
    rfl
  | objectValue members =>
    obtain rfl := Except.ok.inj h
    rw [reread, index, lookup_rereadMembers]
    cases members.lookup key with
    | none => rfl
    | some v => rfl
  | _ => exact absurd h (by simp [index])

theorem indexPath_reread {v u : Value} {keys : List StdString} (h : v.indexPath keys = .ok u) :
    (v.reread sscanf).indexPath keys = .ok (u.reread sscanf) := by
  induction keys generalizing v with
  | nil =>
    obtain rfl := Except.ok.inj h
    rfl
  | cons key keys ih =>
    have hstep : ∀ v : Value, v.indexPath (key :: keys) = v.index key >>= fun u => u.indexPath keys :=
      fun _ => rfl
    rw [hstep, Lib.bind_eq_ok] at h ⊢
    obtain ⟨w, hindex, hrest⟩ := h
    exact ⟨w.reread sscanf, index_reread hindex, ih hrest⟩

/-- What comes back answers the accessors as it did before. -/
theorem reread_reads {v u : Value} {keys : List StdString} (h : v.indexPath keys = .ok u)
    (hreal : ∀ r, u ≠ realValue r) :
    ∃ u', (v.reread sscanf).indexPath keys = .ok u' ∧ u'.asString = u.asString ∧
      u'.asUInt = u.asUInt ∧ ∀ key, u'.isMember key = u.isMember key :=
  ⟨_, indexPath_reread h, asString_reread hreal, asUInt_reread hreal, isMember_reread hreal⟩

end Value

/-- **What `FastWriter` wrote is accepted by every reader**, in strict mode if it is an array or an
object, **and answers the accessors as it did before**: along every path, and whatever is asked for
at its end. Only a `double` may come back as something else. -/
theorem parse_write_reads (setup : Setup) (w : FastWriter) (hnull : w.dropNullPlaceholders = false)
    {v : Value} (hv : v.Writable setup.sscanf)
    (hroot : setup.features.strictRoot = true → isContainer v = true) :
    ∃ s, parse setup (w.write v) = some ⟨true, v.reread setup.sscanf, s⟩ ∧ s.errors = [] ∧
      ∀ keys u, v.indexPath keys = .ok u → (∀ r, u ≠ .realValue r) →
        ∃ u', (v.reread setup.sscanf).indexPath keys = .ok u' ∧ u'.asString = u.asString ∧
          u'.asUInt = u.asUInt ∧ ∀ key, u'.isMember key = u.isMember key := by
  obtain ⟨s, hparse, herrors⟩ := parse_write setup w hnull hv hroot
  exact ⟨s, hparse, herrors, fun keys u => Value.reread_reads⟩

theorem parse_write_reads_swapped :
    ∃ s, parse { sscanf := fun _ => none } (({} : FastWriter).write swapped.1) =
        some ⟨true, swapped.2, s⟩ ∧ s.errors = [] ∧
      ∀ keys u, swapped.1.indexPath keys = .ok u → (∀ r, u ≠ .realValue r) →
        ∃ u', swapped.2.indexPath keys = .ok u' ∧ u'.asString = u.asString ∧
          u'.asUInt = u.asUInt ∧ ∀ key, u'.isMember key = u.isMember key :=
  parse_write_reads _ _ rfl (writable_pair _ rfl rfl (.uint (by decide)) (.string _)) (fun _ => rfl)

/-! ## One text for one value -/

namespace Value

/-- There are no `double`s in it. -/
inductive RealFree : Value → Prop where
  | null : RealFree nullValue
  | int (i : Int) : RealFree (intValue i)
  | uint (n : Nat) : RealFree (uintValue n)
  | string (s : StdString) : RealFree (stringValue s)
  | boolean (b : Bool) : RealFree (booleanValue b)
  | array {elems : List Value} (h : ∀ v ∈ elems, RealFree v) : RealFree (arrayValue elems)
  | object {members : List (StdString × Value)} (h : ∀ m ∈ members, RealFree m.2) :
      RealFree (objectValue members)

end Value

theorem realFree_pair {name name' : StdString} {v v' : Value} (hv : v.RealFree) (hv' : v'.RealFree) :
    (Value.objectValue [(name, v), (name', v')]).RealFree :=
  .object (List.forall_mem_cons.mpr ⟨hv, List.forall_mem_singleton.mpr hv'⟩)

theorem FastWriter.writeValue_ofUnsigned (w : FastWriter) (n : Nat) :
    w.writeValue (.ofUnsigned n) = Nat.toDigits 10 n := by
  rw [Value.ofUnsigned]
  split
  · rw [writeValue, valueToString, if_neg (by omega)]
    rfl
  · rfl

/-- What comes back is written as it was. -/
theorem FastWriter.writeValue_reread (w : FastWriter) {v : Value} (hv : v.RealFree) :
    w.writeValue (v.reread sscanf) = w.writeValue v := by
  induction hv with
  | null => rfl
  | int i =>
    rw [Value.reread]
    split
    · rfl
    · rename_i hneg
      have hi : i.toNat = i.natAbs := by omega
      rw [writeValue_ofUnsigned, writeValue, valueToString, if_neg hneg, hi]
  | uint n => exact writeValue_ofUnsigned w n
  | string s =>
    rw [Value.reread, writeValue, writeValue, valueToQuotedString_eq, valueToQuotedString_eq,
      cString_cString]
  | boolean b => rfl
  | @array elems _ ih =>
    have helems : (elems.map (Value.reread sscanf)).map w.writeValue = elems.map w.writeValue := by
      rw [List.map_map]
      exact List.map_congr_left ih
    rw [Value.reread, Value.rereadElements_eq, writeValue, writeValue, writeElements_eq,
      writeElements_eq, helems]
  | @object members _ ih =>
    have hmembers : (OrderedMap.collect (w.writeMembers
          (OrderedMap.collect (Value.rereadMembers sscanf members)).entries)).entries =
        (OrderedMap.collect (w.writeMembers members)).entries := by
      rw [writeMembers_eq, writeMembers_eq, Value.rereadMembers_eq, OrderedMap.entries_collect_map,
        OrderedMap.entries_collect_entries, ← OrderedMap.entries_collect_map, List.map_map]
      have hmap : members.map (Prod.map id w.writeValue ∘ Prod.map id (Value.reread sscanf)) =
          members.map (Prod.map id w.writeValue) :=
        List.map_congr_left fun m hm => Prod.ext rfl (ih m hm)
      rw [hmap]
    rw [Value.reread, writeValue, writeValue, hmembers]

/-- **Two values have one text exactly if they come back as one value.** -/
theorem FastWriter.write_eq_iff (w : FastWriter) (hnull : w.dropNullPlaceholders = false)
    {v v' : Value} (hv : v.Writable sscanf) (hv' : v'.Writable sscanf) (hreal : v.RealFree)
    (hreal' : v'.RealFree) : w.write v = w.write v' ↔ v.reread sscanf = v'.reread sscanf := by
  constructor
  · intro htext
    obtain ⟨s, hparse, -⟩ :=
      parse_write { sscanf := sscanf } w hnull hv (fun h => absurd h Bool.false_ne_true)
    obtain ⟨s', hparse', -⟩ :=
      parse_write { sscanf := sscanf } w hnull hv' (fun h => absurd h Bool.false_ne_true)
    rw [htext, hparse'] at hparse
    exact congrArg Outcome.value (Option.some.inj hparse).symm
  · intro hreread
    rw [write, write, ← w.writeValue_reread hreal, hreread, w.writeValue_reread hreal']

/-- Members in another order, and a number of another type. -/
theorem FastWriter.write_eq_swapped :
    ({} : FastWriter).write swapped.1 = ({} : FastWriter).write swapped.2 :=
  (write_eq_iff {} rfl (writable_pair (fun _ => none) rfl rfl (.uint (by decide)) (.string _))
    (writable_pair _ rfl rfl (.string _) (.int (by decide) (by decide)))
    (realFree_pair (.uint 7) (.string _)) (realFree_pair (.string _) (.int 7))).mpr rfl

end DevScan.Json
