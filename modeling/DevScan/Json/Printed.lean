import DevScan.Json.Assign
import DevScan.Json.Errors
import DevScan.Json.StyledWriter

/-!
# `Json/Printed.lean` — what a listener prints

`devscanclient/scanclientprint.cpp` reads every announcement and writes it once more, on lines that are
indented. It does not ask whether the text could be read: what is printed is what the reader had built
until then. The reader builds nothing that cannot be written, also of a text that it refuses: integers
have 64 bits, and no name goes on behind a NUL (`representable_of_parse`).

Of a text that says a value, and has no comments, which would be printed with it, what is printed says
the same, and printed once more stays as it is (`structured_again`). Two such texts are printed alike
exactly if nothing tells apart what they come back as (`structured_eq_iff`).
-/

set_option autoImplicit false

namespace DevScan.Json

open Lib (OrderedMap)
open Reader (Setup Outcome Reading ErrorInfo Token isContainer parse)
open StyledWriter (Says)

namespace Value

/-! ## What the reader builds -/

/-- What the C++ types admit, whatever a `double` is written like. -/
inductive Representable : Value → Prop where
  | null : Representable nullValue
  | int {i : Int} (hmin : -minLargestIntAbs ≤ i) (hmax : i < minLargestIntAbs) :
      Representable (intValue i)
  | uint {n : Nat} (hmax : n ≤ maxLargestUInt) : Representable (uintValue n)
  | real (r : Real) : Representable (realValue r)
  | string (s : StdString) : Representable (stringValue s)
  | boolean (b : Bool) : Representable (booleanValue b)
  | array {elems : List Value} (h : ∀ v ∈ elems, Representable v) : Representable (arrayValue elems)
  | object {members : List (StdString × Value)} (hnames : ∀ m ∈ members, cString m.1 = m.1)
      (h : ∀ m ∈ members, Representable m.2) : Representable (objectValue members)

/-- Without `double`s it can be written. -/
theorem Representable.writable {v : Value} (h : v.Representable) (hreal : v.RealFree)
    (sscanf : StdString → Option Real) : v.Writable sscanf := by
  induction h with
  | null => exact .null
  | int hmin hmax => exact .int hmin hmax
  | uint hmax => exact .uint hmax
  | real r => cases hreal
  | string s => exact .string s
  | boolean b => exact .boolean b
  | array _ ih =>
    cases hreal with
    | array hreal => exact .array fun v hv => ih v hv (hreal v hv)
  | object hnames _ ih =>
    cases hreal with
    | object hreal => exact .object hnames fun m hm => ih m hm (hreal m hm)

/-- One more member, under a name that is taken as a C string. -/
theorem Representable.setMember {members : List (StdString × Value)} {value : Value}
    (h : (objectValue members).Representable) (hvalue : value.Representable) (name : StdString) :
    (objectValue (setMember members (cString name) value)).Representable := by
  cases h with
  | object hnames h =>
    refine .object (fun m hm => ?_) (fun m hm => ?_)
    · rcases mem_setMember hm with rfl | hm
      · exact cString_cString name
      · exact hnames m hm
    · rcases mem_setMember hm with rfl | hm
      · exact hvalue
      · exact h m hm

theorem Representable.memberAt {members : List (StdString × Value)}
    (h : (objectValue members).Representable) (key : StdString) :
    (Reader.memberAt members key).Representable := by
  cases h with
  | object hnames h =>
    rw [Reader.memberAt]
    cases hfound : members.lookup key with
    | none => exact .null
    | some v =>
      obtain ⟨before, after, hmembers, -⟩ := List.lookup_eq_some_iff.mp hfound
      exact h (key, v) (hmembers ▸ List.mem_append_right before List.mem_cons_self)

theorem Representable.concat {elems : List Value} {v : Value}
    (h : (arrayValue elems).Representable) (hv : v.Representable) :
    (arrayValue (elems ++ [v])).Representable := by
  cases h with
  | array h =>
    refine .array fun w hw => ?_
    rcases List.mem_append.mp hw with hw | hw
    · exact h w hw
    · exact List.mem_singleton.mp hw ▸ hv

end Value

open Value (Representable)

namespace Reader

/-- What the loop over the digits comes to is at most the limit. -/
theorem digitLoop_done_le {limit value n : Nat} {text : StdString} (hvalue : value ≤ limit)
    (h : digitLoop limit value text = .done n) : n ≤ limit := by
  induction text generalizing value with
  | nil =>
    obtain rfl := Digits.done.inj h
    exact hvalue
  | cons c rest ih =>
    rw [digitLoop] at h
    split at h
    · cases h
    · rename_i hc
      have hdigit := digitValue_lt (isDigit_iff.mpr hc)
      dsimp only at h
      split at h
      · cases h
      · rename_i hfits
        refine ih ?_ h
        have hwrap : toLargestUInt (value * 10 + digitValue c) ≤ value * 10 + digitValue c :=
          Nat.mod_le _ _
        omega

theorem representable_decodeNumber {sscanf : StdString → Option Real} {text : StdString} {v : Value}
    (h : decodeNumber sscanf text = .ok v) : v.Representable := by
  have hdouble : ∀ {v}, decodeDouble sscanf text = .ok v → v.Representable := by
    intro v h
    rw [decodeDouble] at h
    split at h
    · obtain rfl := Except.ok.inj h
      exact .real _
    · cases h
  rw [decodeNumber] at h
  split at h
  · exact hdouble h
  · dsimp only at h
    split at h
    · cases h
    · exact hdouble h
    · rename_i value hdone
      have hle := digitLoop_done_le (Nat.zero_le _) hdone
      obtain rfl := Except.ok.inj h
      split at hle
      · rename_i hnegative
        rw [if_pos hnegative]
        exact .int (by omega) (by simp only [minLargestIntAbs]; omega)
      · rename_i hnegative
        rw [if_neg hnegative, Value.ofUnsigned]
        split
        · rename_i hsmall
          simp only [maxInt] at hsmall
          exact .int (by omega) (by simp only [minLargestIntAbs]; omega)
        · exact .uint hle

variable {setup : Setup} {value : Value} {s : Reading} {o : Outcome}

/-- A value that is decoded, or what there was before. -/
theorem representable_decoded {r : Except ErrorInfo Value} (hvalue : value.Representable)
    (hr : ∀ v, r = .ok v → v.Representable) : (s.decoded value r).value.Representable := by
  cases r with
  | ok v => exact hr v rfl
  | error info => exact hvalue

theorem representable_numberOf {token : Token} {v : Value} (h : numberOf setup token = .ok v) :
    v.Representable := by
  rw [numberOf] at h
  split at h
  · rename_i hdecoded
    obtain rfl := Except.ok.inj h
    exact representable_decodeNumber hdecoded
  · cases h

/-- The four functions build nothing else, on this fuel. -/
structure AllRepresentable (setup : Setup) (fuel : Nat) : Prop where
  readValue : ∀ {value s o}, readValue setup fuel value s = some o → value.Representable →
    o.value.Representable
  readObject : ∀ {name members s o}, readObject setup fuel name members s = some o →
    (Value.objectValue members).Representable → o.value.Representable
  readArray : ∀ {s o}, readArray setup fuel s = some o → o.value.Representable
  readElements : ∀ {elems s o}, readElements setup fuel elems s = some o →
    (Value.arrayValue elems).Representable → o.value.Representable

theorem representable_readValue {fuel : Nat} (ih : AllRepresentable setup fuel)
    (h : readValue setup (fuel + 1) value s = some o) (hvalue : value.Representable) :
    o.value.Representable := by
  rw [readValue] at h
  generalize skipCommentTokens setup.features setup.behind s.current = token at h
  cases htype : token.type with
  | objectBegin =>
    simp only [htype] at h
    exact ih.readObject h (.object (by simp) (by simp))
  | arrayBegin =>
    simp only [htype] at h
    exact ih.readArray h
  | number =>
    simp only [htype, Option.some.injEq] at h
    subst h
    exact representable_decoded hvalue fun v hv => representable_numberOf hv
  | string =>
    simp only [htype, Option.some.injEq] at h
    subst h
    refine representable_decoded hvalue fun v hv => ?_
    cases hstring : stringOf token with
    | ok decoded =>
      rw [hstring] at hv
      obtain rfl := Except.ok.inj hv
      exact .string decoded
    | error info =>
      rw [hstring] at hv
      cases hv
  | true =>
    simp only [htype, Option.some.injEq] at h
    subst h
    exact .boolean true
  | false =>
    simp only [htype, Option.some.injEq] at h
    subst h
    exact .boolean false
  | null =>
    simp only [htype, Option.some.injEq] at h
    subst h
    exact .null
  | arraySeparator =>
    simp only [htype] at h
    split at h
    · obtain rfl := Option.some.inj h
      exact .null
    · obtain rfl := Option.some.inj h
      exact hvalue
  | _ =>
    simp only [htype, Option.some.injEq] at h
    subst h
    exact hvalue

theorem representable_afterMember {members : List (StdString × Value)} {outcome : Outcome}
    {again : Reading → Option Outcome} (hmembers : (Value.objectValue members).Representable)
    (hagain : ∀ {s o}, again s = some o → o.value.Representable)
    (h : afterMember setup members outcome again = some o) : o.value.Representable := by
  unfold afterMember at h
  dsimp only at h
  split at h
  · obtain rfl := Option.some.inj h
    exact hmembers
  · split at h
    · obtain rfl := Option.some.inj h
      exact hmembers
    · split at h
      · obtain rfl := Option.some.inj h
        exact hmembers
      · exact hagain h

theorem representable_afterElement {elems : List Value} {outcome : Outcome}
    {again : Reading → Option Outcome} (helems : (Value.arrayValue elems).Representable)
    (hagain : ∀ {s o}, again s = some o → o.value.Representable)
    (h : afterElement setup elems outcome again = some o) : o.value.Representable := by
  unfold afterElement at h
  dsimp only at h
  split at h
  · obtain rfl := Option.some.inj h
    exact helems
  · split at h
    · obtain rfl := Option.some.inj h
      exact helems
    · split at h
      · exact hagain h
      · obtain rfl := Option.some.inj h
        exact helems

theorem representable_readObject {fuel : Nat} (ih : AllRepresentable setup fuel) {name : StdString}
    {members : List (StdString × Value)}
    (h : readObject setup (fuel + 1) name members s = some o)
    (hmembers : (Value.objectValue members).Representable) : o.value.Representable := by
  rw [readObject] at h
  dsimp only at h
  split at h
  · obtain rfl := Option.some.inj h
    exact hmembers
  · split at h
    · obtain rfl := Option.some.inj h
      exact hmembers
    · obtain rfl := Option.some.inj h
      exact hmembers
    · rename_i name _
      split at h
      · obtain rfl := Option.some.inj h
        exact hmembers
      · split at h
        · cases h
        · rename_i outcome hvalue
          -- a member that could not be read stays as far as it came
          have hmore := hmembers.setMember (ih.readValue hvalue (hmembers.memberAt _)) name
          exact representable_afterMember hmore (fun h => ih.readObject h hmore) h

theorem representable_readArray {fuel : Nat} (ih : AllRepresentable setup fuel)
    (h : readArray setup (fuel + 1) s = some o) : o.value.Representable := by
  rw [readArray] at h
  split at h
  · obtain rfl := Option.some.inj h
    exact .array (by simp)
  · exact ih.readElements h (.array (by simp))

theorem representable_readElements {fuel : Nat} (ih : AllRepresentable setup fuel)
    {elems : List Value} (h : readElements setup (fuel + 1) elems s = some o)
    (helems : (Value.arrayValue elems).Representable) : o.value.Representable := by
  rw [readElements] at h
  split at h
  · cases h
  · rename_i outcome hvalue
    have hmore := helems.concat (ih.readValue hvalue .null)
    exact representable_afterElement hmore (fun h => ih.readElements h hmore) h

theorem allRepresentable (setup : Setup) (fuel : Nat) : AllRepresentable setup fuel := by
  induction fuel with
  | zero =>
    constructor
    · exact fun h => absurd h (by simp [readValue])
    · exact fun h => absurd h (by simp [readObject])
    · exact fun h => absurd h (by simp [readArray])
    · exact fun h => absurd h (by simp [readElements])
  | succ fuel ih =>
    constructor
    · exact representable_readValue ih
    · exact representable_readObject ih
    · exact representable_readArray ih
    · exact representable_readElements ih

/-- **The reader builds nothing that cannot be written**, also of a text that it refuses. -/
theorem representable_of_parse {document : StdString} (h : parse setup document = some o) :
    o.value.Representable := by
  rw [parse] at h
  split at h
  · cases h
  · rename_i outcome hvalue
    have houtcome := (allRepresentable setup _).readValue hvalue .null
    dsimp only at h
    split at h
    · obtain rfl := Option.some.inj h
      exact houtcome
    · obtain rfl := Option.some.inj h
      exact houtcome

end Reader

/-! ## What comes back is printed as it was -/

variable {sscanf : StdString → Option Real}

theorem isContainer_ofUnsigned (n : Nat) : isContainer (.ofUnsigned n) = false := by
  rw [Value.ofUnsigned]
  split
  · rfl
  · rfl

/-- Whether an element is one that needs a line of its own. -/
theorem flat_reread {v : Value} (hv : v.RealFree) :
    (isContainer (v.reread sscanf) && 0 < (v.reread sscanf).size) =
      (isContainer v && 0 < v.size) := by
  cases hv with
  | int i =>
    rw [Value.reread]
    split
    · rfl
    · rw [isContainer_ofUnsigned]
      rfl
  | uint n =>
    rw [Value.reread, isContainer_ofUnsigned]
    rfl
  | @array elems _ =>
    rw [Value.reread, Value.size, Value.size, Value.rereadElements_eq, List.length_map]
    rfl
  | @object members _ =>
    rw [Value.reread, Value.size, Value.size, OrderedMap.entries_collect_entries,
      Value.rereadMembers_eq, OrderedMap.entries_collect_map, List.length_map]
    rfl
  | _ => rfl

namespace StyledWriter

/-- How an array is written depends on the number of its elements, on which of them need lines of
their own, and on what writes them. -/
theorem writeArrayValue_map {f : Value → Value} {elems : List Value} (steps : List Step)
    (hf : ∀ v ∈ elems, (isContainer (f v) && 0 < (f v).size) = (isContainer v && 0 < v.size)) :
    writeArrayValue (elems.map f) steps = writeArrayValue elems steps := by
  have hany : (elems.map f).any (fun v => isContainer v && 0 < v.size) =
      elems.any fun v => isContainer v && 0 < v.size := by
    rw [List.any_map, Bool.eq_iff_iff, List.any_eq_true, List.any_eq_true]
    exact exists_congr fun v => and_congr_right fun hv => by rw [Function.comp, hf v hv]
  funext s
  simp only [writeArrayValue, isMultineArray, List.length_map, hany]

theorem writeValue_ofUnsigned (n : Nat) : writeValue (.ofUnsigned n) = pushValue (Nat.toDigits 10 n) := by
  rw [Value.ofUnsigned]
  split
  · rw [writeValue, valueToString, if_neg (by omega)]
    rfl
  · rfl

/-- What comes back is written as it was. -/
theorem writeValue_reread {v : Value} (hv : v.RealFree) :
    writeValue (v.reread sscanf) = writeValue v := by
  induction hv with
  | null => rfl
  | int i =>
    rw [Value.reread]
    split
    · rfl
    · rename_i hneg
      have hi : i.toNat = i.natAbs := by omega
      rw [writeValue_ofUnsigned, writeValue, valueToString, if_neg hneg, hi]
  | uint n => exact writeValue_ofUnsigned n
  | string s =>
    rw [Value.reread, writeValue, writeValue, valueToQuotedString_eq, valueToQuotedString_eq,
      cString_cString]
  | boolean b => rfl
  | @array elems hfree ih =>
    have helems : elementSteps (elems.map (Value.reread sscanf)) = elementSteps elems := by
      rw [elementSteps_eq, elementSteps_eq, List.map_map]
      exact List.map_congr_left ih
    rw [Value.reread, Value.rereadElements_eq, writeValue, writeValue, helems,
      writeArrayValue_map _ fun v hv => flat_reread (hfree v hv)]
  | @object members _ ih =>
    have hmembers : (OrderedMap.collect (memberSteps
          (OrderedMap.collect (Value.rereadMembers sscanf members)).entries)).entries =
        (OrderedMap.collect (memberSteps members)).entries := by
      rw [memberSteps_eq, memberSteps_eq, Value.rereadMembers_eq, OrderedMap.entries_collect_map,
        OrderedMap.entries_collect_entries, ← OrderedMap.entries_collect_map, List.map_map]
      have hmap : members.map (Prod.map id writeValue ∘ Prod.map id (Value.reread sscanf)) =
          members.map (Prod.map id writeValue) :=
        List.map_congr_left fun m hm => Prod.ext rfl (ih m hm)
      rw [hmap]
    rw [Value.reread, writeValue, writeValue]
    unfold writeObjectValue
    rw [hmembers]

end StyledWriter

/-! ## What is printed -/

/-- "produce output that is structured": what could be read of the text, written by a new
`StyledWriter`. -/
def structured (setup : Setup) (announcement : StdString) : StdString :=
  ({} : StyledWriter).write (((parse setup announcement).map Outcome.value).getD .nullValue)

theorem structured_eq {setup : Setup} {announcement : StdString} {o : Outcome}
    (h : parse setup announcement = some o) :
    structured setup announcement = ({} : StyledWriter).write o.value := by
  rw [structured, h]
  rfl

theorem Value.RealFree.index {v u : Value} {key : StdString} (hv : v.RealFree)
    (h : v.index key = .ok u) : u.RealFree := by
  cases hv with
  | null =>
    obtain rfl := Except.ok.inj h
    exact .null
  | @object members hfree =>
    obtain rfl := Except.ok.inj h
    cases hfound : members.lookup key with
    | none => exact .null
    | some u =>
      obtain ⟨before, after, hmembers, -⟩ := List.lookup_eq_some_iff.mp hfound
      exact hfree (key, u) (hmembers ▸ List.mem_append_right before List.mem_cons_self)
  | _ => cases h

theorem Value.RealFree.indexPath {v u : Value} {keys : List StdString} (hv : v.RealFree)
    (h : v.indexPath keys = .ok u) : u.RealFree := by
  induction keys generalizing v with
  | nil =>
    obtain rfl := Except.ok.inj h
    exact hv
  | cons key keys ih =>
    have hstep : v.indexPath (key :: keys) = v.index key >>= fun u => u.indexPath keys := rfl
    rw [hstep, Lib.bind_eq_ok] at h
    obtain ⟨w, hindex, hrest⟩ := h
    exact ih (hv.index hindex) hrest

/-- What is printed of a text that says a value, and that it can be. -/
theorem structured_said {setup : Setup} {document : StdString} {v : Value}
    (h : Says setup.sscanf document v) (hstrict : setup.features.strictRoot = false) :
    structured setup document = ({} : StyledWriter).write v ∧ v.Representable := by
  obtain ⟨s, hparse, -⟩ := h.parse fun hs => absurd (hstrict.symm.trans hs) Bool.false_ne_true
  exact ⟨structured_eq hparse, Reader.representable_of_parse hparse⟩

/-- **What is printed says what the text said, and stays as it is** when it is read and printed once
more: the accessors find in it what they found before. -/
theorem structured_again {setup : Setup} (hstrict : setup.features.strictRoot = false)
    {announcement : StdString} {v : Value} (h : Says setup.sscanf announcement v)
    (hreal : v.RealFree) :
    structured setup (structured setup announcement) = structured setup announcement ∧
      ∃ v', Says setup.sscanf (structured setup announcement) v' ∧
        ∀ keys u, v.indexPath keys = .ok u →
          ∃ u', v'.indexPath keys = .ok u' ∧ u'.asString = u.asString ∧ u'.asUInt = u.asUInt ∧
            ∀ key, u'.isMember key = u.isMember key := by
  obtain ⟨hprinted, hrepresentable⟩ := structured_said h hstrict
  have hsaid := StyledWriter.says_write {} (hrepresentable.writable hreal setup.sscanf)
  rw [hprinted]
  refine ⟨?_, _, hsaid, fun keys u hu => ?_⟩
  · rw [(structured_said hsaid hstrict).1, StyledWriter.write, StyledWriter.write,
      StyledWriter.writeValue_reread hreal]
  · refine Value.reread_reads hu fun r hr => ?_
    subst hr
    cases hreal.indexPath hu

theorem spells_seven : Spells (fun _ => none) false (.value (.intValue 7)) ['7'] :=
  .number ⟨'7', [], rfl, by decide, List.forall_mem_nil _⟩ rfl

/-- A row of one number, on one line or on several. -/
theorem says_seven :
    Says (fun _ => none) "[7]".toList (.arrayValue [.intValue 7]) ∧
      Says (fun _ => none) "[\n   7\n]\n".toList (.arrayValue [.intValue 7]) := by
  have hbefore : Blank "\n   ".toList := List.all_eq_true.mp (by decide)
  have hafter : Blank "\n".toList := List.forall_mem_singleton.mpr rfl
  refine ⟨⟨[], "[7]".toList, [], rfl, blank_nil, blank_nil, ?_⟩,
    ⟨[], "[\n   7\n]".toList, "\n".toList, rfl, blank_nil, hafter, ?_⟩⟩
  · exact .array (.lastElement (.element .nil .nil spells_seven))
  · exact .array (.lastElement (.element hbefore.gap hafter.gap spells_seven))

theorem structured_again_seven :
    structured { sscanf := fun _ => none } (structured { sscanf := fun _ => none } "[7]".toList) =
        structured { sscanf := fun _ => none } "[7]".toList ∧
      ∃ v', Says (fun _ => none) (structured { sscanf := fun _ => none } "[7]".toList) v' ∧
        ∀ keys u, (Value.arrayValue [.intValue 7]).indexPath keys = .ok u →
          ∃ u', v'.indexPath keys = .ok u' ∧ u'.asString = u.asString ∧ u'.asUInt = u.asUInt ∧
            ∀ key, u'.isMember key = u.isMember key :=
  structured_again rfl says_seven.1 (.array (List.forall_mem_singleton.mpr (.int 7)))

/-- **Two texts are printed alike exactly if they come back as one value**: neither white space, nor
the order of members, nor how numbers and strings are written makes a difference. -/
theorem structured_eq_iff {setup : Setup} (hstrict : setup.features.strictRoot = false)
    {announcement announcement' : StdString} {v v' : Value}
    (h : Says setup.sscanf announcement v) (h' : Says setup.sscanf announcement' v')
    (hreal : v.RealFree) (hreal' : v'.RealFree) :
    structured setup announcement = structured setup announcement' ↔
      v.reread setup.sscanf = v'.reread setup.sscanf := by
  obtain ⟨hprinted, hrepresentable⟩ := structured_said h hstrict
  obtain ⟨hprinted', hrepresentable'⟩ := structured_said h' hstrict
  have hlax : ∀ u, setup.features.strictRoot = true → isContainer u = true := fun _ hs =>
    absurd (hstrict.symm.trans hs) Bool.false_ne_true
  rw [hprinted, hprinted']
  constructor
  · intro htext
    obtain ⟨s, hparse, -⟩ :=
      (StyledWriter.says_write {} (hrepresentable.writable hreal setup.sscanf)).parse (hlax _)
    obtain ⟨s', hparse', -⟩ :=
      (StyledWriter.says_write {} (hrepresentable'.writable hreal' setup.sscanf)).parse (hlax _)
    rw [htext, hparse'] at hparse
    exact congrArg Outcome.value (Option.some.inj hparse).symm
  · intro hreread
    rw [StyledWriter.write, StyledWriter.write,
      ← @StyledWriter.writeValue_reread setup.sscanf v hreal, hreread,
      StyledWriter.writeValue_reread hreal']

theorem structured_eq_seven :
    structured { sscanf := fun _ => none } "[7]".toList =
      structured { sscanf := fun _ => none } "[\n   7\n]\n".toList :=
  (structured_eq_iff rfl says_seven.1 says_seven.2 (.array (List.forall_mem_singleton.mpr (.int 7)))
    (.array (List.forall_mem_singleton.mpr (.int 7)))).mpr rfl

end DevScan.Json
