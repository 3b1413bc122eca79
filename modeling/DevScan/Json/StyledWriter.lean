import DevScan.Json.RoundTrip

/-!
# `Json/StyledWriter.lean` — `Json::StyledWriter`

The other writer of `jsoncpp/src/lib_json/json_writer.cpp`, which a listener prints announcements
with: lines that are indented, and arrays on one line if they fit. To find out whether one fits, its
elements are written already, not to the document but to `childValues_` (`isMultineArray`); they are
not written a second time then. What ends up in the document spells the value that was written
(`writeValue_wrote`): whatever of it is white space stands where some may stand.

The members and elements of a value are handed to the loops as what writes them. Comments, which the
reader may attach to a value, are not modelled; there are none here.
-/

set_option autoImplicit false

namespace DevScan.Json

open Lib (OrderedMap)
open Reader (isContainer isSpace Setup parse)

structure StyledWriter where
  document : StdString := []
  childValues : List StdString := []
  indentString : StdString := []
  addChildValues : Bool := false
deriving DecidableEq, Repr

def Value.size : Value → Nat
  | .arrayValue elems => elems.length
  | .objectValue members => (OrderedMap.collect members).entries.length
  | _ => 0

namespace StyledWriter

def rightMargin : Nat := 74

def indentSize : Nat := 3

def pushValue (value : StdString) (s : StyledWriter) : StyledWriter :=
  if s.addChildValues then { s with childValues := s.childValues ++ [value] }
  else { s with document := s.document ++ value }

def put (text : StdString) (s : StyledWriter) : StyledWriter := { s with document := s.document ++ text }

def writeIndent (s : StyledWriter) : StyledWriter :=
  match s.document.getLast? with
  | none => s.put s.indentString
  | some last =>
    if last = ' ' then s
    else if last ≠ '\n' then (s.put "\n".toList).put s.indentString
    else s.put s.indentString

def writeWithIndent (value : StdString) (s : StyledWriter) : StyledWriter := s.writeIndent.put value

def indent (s : StyledWriter) : StyledWriter :=
  { s with indentString := s.indentString ++ List.replicate indentSize ' ' }

def unindent (s : StyledWriter) : StyledWriter :=
  { s with indentString := s.indentString.take (s.indentString.length - indentSize) }

/-- What writes one element or member. -/
abbrev Step := StyledWriter → StyledWriter

/-- The loops over elements and members: a comma behind each but the last. -/
def separated : List Step → Step
  | [], s => s
  | [step], s => step s
  | step :: steps, s => separated steps ((step s).put ",".toList)

/-- Whether the array needs more than one line, and `childValues_` if its elements were written. -/
def isMultineArray (elems : List Value) (steps : List Step) (s : StyledWriter) :
    Bool × StyledWriter :=
  let s := { s with childValues := [] }
  let isMultiLine := elems.length * 3 ≥ rightMargin ∨
    elems.any fun childValue => isContainer childValue && 0 < childValue.size
  if isMultiLine then (true, s)
  else
    let s := steps.foldl (fun s step => step s) { s with addChildValues := true }
    let lineLength := 4 + (elems.length - 1) * 2 + (s.childValues.map List.length).sum
    (lineLength ≥ rightMargin, { s with addChildValues := false })

def writeArrayValue (elems : List Value) (steps : List Step) (s : StyledWriter) : StyledWriter :=
  if elems.length = 0 then s.pushValue "[]".toList
  else
    let (isArrayMultiLine, s) := isMultineArray elems steps s
    if isArrayMultiLine then
      let s := (s.writeWithIndent "[".toList).indent
      let hasChildValue := s.childValues ≠ []
      let s :=
        if hasChildValue then separated (s.childValues.map writeWithIndent) s
        else separated (steps.map fun step s => step s.writeIndent) s
      s.unindent.writeWithIndent "]".toList
    else ((s.put "[ ".toList).put (List.intercalate ", ".toList s.childValues)).put " ]".toList

/-- One member, its name with what writes its value. -/
def writeMember (member : StdString × Step) (s : StyledWriter) : StyledWriter :=
  member.2 ((s.writeWithIndent (valueToQuotedString member.1)).put " : ".toList)

def writeObjectValue (members : List (StdString × Step)) (s : StyledWriter) : StyledWriter :=
  let members := (OrderedMap.collect members).entries
  if members.isEmpty then s.pushValue "{}".toList
  else
    let s := (s.writeWithIndent "\x7b".toList).indent
    let s := separated (members.map writeMember) s
    s.unindent.writeWithIndent "\x7d".toList

mutual

def writeValue : Value → Step
  | .nullValue => pushValue "null".toList
  | .intValue i => pushValue (valueToString i)
  | .uintValue n => pushValue (Nat.toDigits 10 n)
  | .realValue r => pushValue r.text
  | .stringValue s => pushValue (valueToQuotedString s)
  | .booleanValue b => pushValue (if b then "true".toList else "false".toList)
  | .arrayValue elems => writeArrayValue elems (elementSteps elems)
  | .objectValue members => writeObjectValue (memberSteps members)

def elementSteps : List Value → List Step
  | [] => []
  | v :: elems => writeValue v :: elementSteps elems

def memberSteps : List (StdString × Value) → List (StdString × Step)
  | [] => []
  | (name, v) :: members => (name, writeValue v) :: memberSteps members

end

def write (s : StyledWriter) (root : Value) : StdString :=
  ((writeValue root { s with document := [], addChildValues := false, indentString := [] }).put
    "\n".toList).document

/-! ## What is put into the document -/

variable {s s' s'' : StyledWriter} {text more : StdString}

/-- Nothing is collected, and lines start with spaces. -/
structure Ready (s : StyledWriter) : Prop where
  direct : s.addChildValues = false
  spaces : ∀ c ∈ s.indentString, c = ' '

/-- The text is put behind the document, and lines start where they did. -/
structure Wrote (s s' : StyledWriter) (text : StdString) : Prop where
  document : s'.document = s.document ++ text
  indentString : s'.indentString = s.indentString
  addChildValues : s'.addChildValues = s.addChildValues

theorem Wrote.ready (h : Wrote s s' text) (hs : Ready s) : Ready s' where
  direct := h.addChildValues.trans hs.direct
  spaces := h.indentString ▸ hs.spaces

theorem Wrote.trans (h : Wrote s s' text) (h' : Wrote s' s'' more) : Wrote s s'' (text ++ more) where
  document := by rw [h'.document, h.document, List.append_assoc]
  indentString := h'.indentString.trans h.indentString
  addChildValues := h'.addChildValues.trans h.addChildValues

theorem wrote_put (s : StyledWriter) (text : StdString) : Wrote s (s.put text) text := ⟨rfl, rfl, rfl⟩

theorem writeIndent_wrote (hs : Ready s) : ∃ gap, Blank gap ∧ Wrote s s.writeIndent gap := by
  have hindent : Blank s.indentString := by
    intro c hc
    rw [hs.spaces c hc]
    rfl
  rw [writeIndent]
  split
  · exact ⟨_, hindent, wrote_put s _⟩
  · split
    · exact ⟨[], blank_nil, ⟨(List.append_nil _).symm, rfl, rfl⟩⟩
    · split
      · have hline : Blank "\n".toList := List.forall_mem_singleton.mpr rfl
        exact ⟨_, hline.append hindent, (wrote_put s _).trans (wrote_put _ _)⟩
      · exact ⟨_, hindent, wrote_put s _⟩

theorem writeWithIndent_wrote (hs : Ready s) (value : StdString) :
    ∃ gap, Blank gap ∧ Wrote s (s.writeWithIndent value) (gap ++ value) := by
  obtain ⟨gap, hgap, hwrote⟩ := writeIndent_wrote hs
  exact ⟨gap, hgap, hwrote.trans (wrote_put _ value)⟩

theorem pushValue_wrote (hs : Ready s) (value : StdString) : Wrote s (s.pushValue value) value := by
  rw [pushValue, if_neg (by rw [hs.direct]; exact Bool.false_ne_true)]
  exact wrote_put s value

theorem Ready.indent (hs : Ready s) : Ready s.indent where
  direct := hs.direct
  spaces := by
    intro c hc
    rcases List.mem_append.mp hc with hc | hc
    · exact hs.spaces c hc
    · exact List.eq_of_mem_replicate hc

/-- What is written between `indent` and `unindent` is written as far as lines are concerned. -/
theorem Wrote.unindent (h : Wrote s.indent s' text) : Wrote s s'.unindent text where
  document := h.document
  indentString := by
    rw [StyledWriter.unindent, h.indentString, StyledWriter.indent, List.length_append,
      List.length_replicate, Nat.add_sub_cancel, List.take_left]
  addChildValues := h.addChildValues

/-! ## Rows -/

/-- What it writes is such a text, also with white space behind it. -/
def Writes (P : StdString → Prop) (step : Step) : Prop :=
  ∀ s, Ready s → ∃ text, Wrote s (step s) text ∧ ∀ after, Blank after → P (text ++ after)

theorem separated_writes {α : Type} {one : α → StdString → Prop} {row : List α → StdString → Prop}
    (hlast : ∀ {x text}, one x text → row [x] text)
    (hmore : ∀ {x xs text rest}, one x text → row xs rest → row (x :: xs) (text ++ ',' :: rest))
    {xs : List α} {step : α → Step} (hne : xs ≠ []) (h : ∀ x ∈ xs, Writes (one x) (step x)) :
    Writes (row xs) (separated (xs.map step)) := by
  induction xs with
  | nil => exact absurd rfl hne
  | cons x xs ih =>
    intro s hs
    obtain ⟨text, hwrote, hone⟩ := h x List.mem_cons_self s hs
    by_cases hend : xs = []
    · subst hend
      exact ⟨text, hwrote, fun after hafter => hlast (hone after hafter)⟩
    · have hseparated : separated ((x :: xs).map step) s =
          separated (xs.map step) ((step x s).put ",".toList) := by
        obtain ⟨y, ys, rfl⟩ := List.exists_cons_of_ne_nil hend
        rfl
      have hcomma := hwrote.trans (wrote_put (step x s) ",".toList)
      obtain ⟨rest, hwroterest, hrow⟩ :=
        ih hend (fun y hy => h y (List.mem_cons_of_mem x hy)) _ (hcomma.ready hs)
      rw [hseparated]
      refine ⟨text ++ ",".toList ++ rest, hcomma.trans hwroterest, fun after hafter => ?_⟩
      have hone' := hone [] blank_nil
      rw [List.append_nil] at hone'
      rw [List.append_assoc, List.append_assoc]
      exact hmore hone' (hrow after hafter)

/-! ## Values -/

variable {sscanf : StdString → Option Real} {comments : Bool}

theorem elementSteps_eq (elems : List Value) : elementSteps elems = elems.map writeValue := by
  induction elems with
  | nil => rfl
  | cons v elems ih => rw [elementSteps, ih, List.map_cons]

theorem memberSteps_eq (members : List (StdString × Value)) :
    memberSteps members = members.map (Prod.map id writeValue) := by
  induction members with
  | nil => rfl
  | cons member members ih => rw [memberSteps, ih, List.map_cons, Prod.map, id]

/-- Neither an array nor an object with anything in it. -/
def Flat (v : Value) : Prop := (isContainer v && 0 < v.size) = false

theorem writeValue_flat {v : Value} (h : Flat v) :
    writeValue v = pushValue (({} : FastWriter).writeValue v) := by
  cases v with
  | arrayValue elems =>
    cases elems with
    | nil => rfl
    | cons v elems => exact absurd h (by simp [Flat, isContainer, Value.size])
  | objectValue members =>
    have hlength : ¬0 < (OrderedMap.collect members).entries.length := of_decide_eq_false h
    have hempty := List.eq_nil_of_length_eq_zero (Nat.eq_zero_of_not_pos hlength)
    funext s
    rw [writeValue, memberSteps_eq, writeObjectValue, OrderedMap.entries_collect_map, hempty,
      FastWriter.writeValue, FastWriter.writeMembers_eq, OrderedMap.entries_collect_map, hempty]
    rfl
  | _ => rfl

/-- What is written is this value, with white space in front of it. -/
def WritesValue (sscanf : StdString → Option Real) (comments : Bool) (v : Value) (step : Step) : Prop :=
  ∀ s, Ready s → ∃ gap text, Blank gap ∧ Wrote s (step s) (gap ++ text) ∧
    Spells sscanf comments (.value v) text

theorem writesValue_push {v : Value} {text : StdString} (h : Spells sscanf comments (.value v) text) :
    WritesValue sscanf comments v (pushValue text) := fun _ hs =>
  ⟨[], text, blank_nil, pushValue_wrote hs text, h⟩

theorem Spells.between {v : Value} {gap text after : StdString} (hgap : Blank gap)
    (hafter : Blank after) (h : Spells sscanf comments (.value v) text) :
    Spells sscanf comments (.element v) (gap ++ text ++ after) :=
  .element hgap.gap hafter.gap h

theorem writes_element {v : Value} {step : Step} (h : WritesValue sscanf comments v step) :
    Writes (Spells sscanf comments (.element v)) fun s => step s.writeIndent := by
  intro s hs
  obtain ⟨gap, hgap, hindent⟩ := writeIndent_wrote hs
  obtain ⟨gap', text, hgap', hwrote, hspells⟩ := h _ (hindent.ready hs)
  refine ⟨gap ++ (gap' ++ text), hindent.trans hwrote, fun after hafter => ?_⟩
  rw [← List.append_assoc gap]
  exact Spells.between (hgap.append hgap') hafter hspells

theorem writes_childValue {v : Value} {text : StdString}
    (h : Spells sscanf comments (.value v) text) :
    Writes (Spells sscanf comments (.element v)) (writeWithIndent text) := by
  intro s hs
  obtain ⟨gap, hgap, hwrote⟩ := writeWithIndent_wrote hs text
  exact ⟨gap ++ text, hwrote, fun after hafter => Spells.between hgap hafter h⟩

theorem writes_member {name : StdString} {v : Value} {step : Step} (hname : cString name = name)
    (h : WritesValue sscanf comments v step) :
    Writes (Spells sscanf comments (.member name v)) (writeMember (name, step)) := by
  intro s hs
  obtain ⟨gap, hgap, hwrote⟩ := writeWithIndent_wrote hs (valueToQuotedString name)
  have hcolon := hwrote.trans (wrote_put _ " : ".toList)
  obtain ⟨gap', text, hgap', hvalue, hspells⟩ := h _ (hcolon.ready hs)
  refine ⟨_, hcolon.trans hvalue, fun after hafter => ?_⟩
  have hspace : Blank " ".toList := List.forall_mem_singleton.mpr rfl
  have hmember := spells_member hname hgap.gap (@Blank.gap false _ hspace)
    (Spells.between (hspace.append hgap') hafter hspells)
  simpa using hmember

/-- Elements that are written to `childValues_`. -/
theorem foldl_flat {elems : List Value} (hflat : ∀ v ∈ elems, Flat v) {s : StyledWriter}
    (hs : s.addChildValues = true) :
    (elems.map writeValue).foldl (fun s step => step s) s =
      { s with childValues := s.childValues ++ elems.map ({} : FastWriter).writeValue } := by
  induction elems generalizing s with
  | nil =>
    rw [List.map_nil, List.map_nil, List.append_nil]
    rfl
  | cons v elems ih =>
    have hpushed : ({ s with childValues := s.childValues ++ [({} : FastWriter).writeValue v] } :
        StyledWriter).addChildValues = true := hs
    rw [List.map_cons, List.foldl_cons, writeValue_flat (hflat v List.mem_cons_self), pushValue,
      if_pos hs, ih (fun w hw => hflat w (List.mem_cons_of_mem v hw)) hpushed, List.map_cons,
      List.append_assoc, List.singleton_append]

/-- Either nothing was written, or all elements were, and to `childValues_`. -/
theorem isMultineArray_cases (elems : List Value) {s : StyledWriter} (hs : Ready s) :
    isMultineArray elems (elementSteps elems) s = (true, { s with childValues := [] }) ∨
    ∃ isMultiLine, isMultineArray elems (elementSteps elems) s =
      (isMultiLine, { s with childValues := elems.map ({} : FastWriter).writeValue }) := by
  rw [isMultineArray]
  dsimp only
  split
  · exact Or.inl rfl
  · rename_i hshort
    rw [not_or, Bool.not_eq_true, List.any_eq_false] at hshort
    have hflat : ∀ v ∈ elems, Flat v := fun v hv => eq_false_of_ne_true (hshort.2 v hv)
    rw [elementSteps_eq, foldl_flat hflat rfl, List.nil_append, ← hs.direct]
    exact Or.inr ⟨_, rfl⟩

/-- On more than one line: the brackets on lines of their own. -/
theorem brackets_wrote {P : StdString → Prop} {step : Step} (hstep : Writes P step) (hs : Ready s)
    (opening closing : StdString) :
    ∃ gap text, Blank gap ∧ P text ∧
      Wrote s ((step (s.writeWithIndent opening).indent).unindent.writeWithIndent closing)
        (gap ++ (opening ++ text ++ closing)) := by
  obtain ⟨gap, hgap, hopen⟩ := writeWithIndent_wrote hs opening
  obtain ⟨text, hwrote, htext⟩ := hstep _ (hopen.ready hs).indent
  have hrow := hopen.trans hwrote.unindent
  obtain ⟨after, hafter, hclose⟩ := writeWithIndent_wrote (hrow.ready hs) closing
  refine ⟨gap, text ++ after, hgap, htext after hafter, ?_⟩
  have hall := hrow.trans hclose
  simpa using hall

/-- On one line. -/
theorem oneLine_wrote (s : StyledWriter) (texts : List StdString) :
    Wrote s (((s.put "[ ".toList).put (List.intercalate ", ".toList texts)).put " ]".toList)
      ("[ ".toList ++ List.intercalate ", ".toList texts ++ " ]".toList) :=
  ((wrote_put s _).trans (wrote_put _ _)).trans (wrote_put _ _)

/-- The blanks of one line belong to the elements. -/
theorem spells_oneLine {elems : List Value} {write : Value → StdString} {reread : Value → Value}
    (hne : elems ≠ []) (h : ∀ v ∈ elems, Spells sscanf comments (.value (reread v)) (write v)) :
    Spells sscanf comments (.elements (elems.map reread))
      (' ' :: List.intercalate ", ".toList (elems.map write) ++ " ".toList) := by
  have hspace : Blank " ".toList := List.forall_mem_singleton.mpr rfl
  induction elems with
  | nil => exact absurd rfl hne
  | cons v elems ih =>
    have hv := h v List.mem_cons_self
    by_cases hend : elems = []
    · subst hend
      rw [List.map_singleton, List.map_singleton, List.intercalate_singleton]
      exact .lastElement (Spells.between hspace hspace hv)
    · have hrest := ih hend fun w hw => h w (List.mem_cons_of_mem v hw)
      have helement := Spells.between hspace blank_nil hv
      rw [List.map_cons, List.map_cons, List.intercalate_cons_of_ne_nil (by simpa using hend)]
      have hmore := Spells.moreElements helement hrest
      simpa using hmore

theorem childValues_writeIndent (s : StyledWriter) : s.writeIndent.childValues = s.childValues := by
  rw [writeIndent]
  split
  · rfl
  · split
    · rfl
    · split
      · rfl
      · rfl

/-- An array on more than one line, however its elements are written. -/
theorem lines_wrote {s₀ : StyledWriter} {vs : List Value} {step : Step}
    (hstep : Writes (Spells sscanf comments (.elements vs)) step) (hs : Ready s₀)
    (hsame : Wrote s₀ s []) :
    ∃ gap text, Blank gap ∧
      Wrote s₀ ((step (s.writeWithIndent "[".toList).indent).unindent.writeWithIndent "]".toList)
        (gap ++ text) ∧
      Spells sscanf comments (.value (.arrayValue vs)) text := by
  obtain ⟨gap, text, hgap, htext, hwrote⟩ := brackets_wrote hstep (hsame.ready hs) "[".toList "]".toList
  exact ⟨gap, _, hgap, hsame.trans hwrote, .array htext⟩

theorem writes_lines {elems : List Value} {step : Value → Step} (hne : elems ≠ [])
    (h : ∀ v ∈ elems, Writes (Spells sscanf comments (.element (v.reread sscanf))) (step v)) :
    Writes (Spells sscanf comments (.elements (elems.map (Value.reread sscanf))))
      (separated (elems.map step)) :=
  @separated_writes Value (fun v => Spells sscanf comments (.element (v.reread sscanf)))
    (fun vs => Spells sscanf comments (.elements (vs.map (Value.reread sscanf)))) .lastElement
    .moreElements elems step hne h

theorem writeArrayValue_writes {elems : List Value}
    (hfast : ∀ v ∈ elems,
      Spells sscanf comments (.value (v.reread sscanf)) (({} : FastWriter).writeValue v))
    (h : ∀ v ∈ elems, WritesValue sscanf comments (v.reread sscanf) (writeValue v)) :
    WritesValue sscanf comments ((Value.arrayValue elems).reread sscanf)
      (writeArrayValue elems (elementSteps elems)) := by
  intro s hs
  by_cases hempty : elems = []
  · subst hempty
    exact writesValue_push (.emptyArray .nil) s hs
  have hlength : elems.length ≠ 0 := fun hzero => hempty (List.eq_nil_of_length_eq_zero hzero)
  have hsame : ∀ childValues, Wrote s { s with childValues := childValues } [] := fun _ =>
    ⟨(List.append_nil _).symm, rfl, rfl⟩
  have hchildren : ∀ childValues : List StdString,
      (({ s with childValues := childValues } : StyledWriter).writeWithIndent
        "[".toList).indent.childValues = childValues := fun _ => childValues_writeIndent _
  rw [Value.reread, Value.rereadElements_eq, writeArrayValue, if_neg hlength]
  rcases isMultineArray_cases elems hs with hcase | ⟨isMultiLine, hcase⟩
  · rw [hcase]
    dsimp only
    rw [if_pos rfl, hchildren, if_neg (fun hne => hne rfl), elementSteps_eq, List.map_map]
    exact lines_wrote (writes_lines hempty fun v hv => writes_element (h v hv)) hs (hsame [])
  · have hmap : elems.map ({} : FastWriter).writeValue ≠ [] := by simpa using hempty
    rw [hcase]
    dsimp only
    rw [hchildren, if_pos hmap, List.map_map]
    cases isMultiLine with
    | true =>
      rw [if_pos rfl]
      exact lines_wrote (writes_lines hempty fun v hv => writes_childValue (hfast v hv)) hs (hsame _)
    | false =>
      rw [if_neg Bool.false_ne_true]
      refine ⟨[], _, blank_nil, (hsame _).trans (oneLine_wrote _ _), ?_⟩
      have hrow := Spells.array (spells_oneLine hempty hfast)
      simpa using hrow

theorem writeObjectValue_writes {members : List (StdString × Value)}
    (hnames : ∀ m ∈ members, cString m.1 = m.1)
    (h : ∀ m ∈ members, WritesValue sscanf comments (m.2.reread sscanf) (writeValue m.2)) :
    WritesValue sscanf comments ((Value.objectValue members).reread sscanf)
      (writeObjectValue (memberSteps members)) := by
  intro s hs
  by_cases hempty : members = []
  · subst hempty
    exact writesValue_push (.emptyObject .nil) s hs
  have hentries := collect_ne_nil hempty
  have hmembers : Writes (Spells sscanf comments (.members
        ((OrderedMap.collect members).entries.map (Prod.map id (Value.reread sscanf)))))
      (separated ((OrderedMap.collect members).entries.map
        fun m => writeMember (m.1, writeValue m.2))) := by
    refine @separated_writes _ (fun m => Spells sscanf comments (.member m.1 (m.2.reread sscanf)))
      (fun ms => Spells sscanf comments (.members (ms.map (Prod.map id (Value.reread sscanf)))))
      .lastMember .moreMembers _ _ hentries fun m hm => ?_
    have hmem := mem_of_mem_collect hm
    exact writes_member (hnames m hmem) (h m hmem)
  obtain ⟨gap, text, hgap, htext, hwrote⟩ := brackets_wrote hmembers hs "\x7b".toList "\x7d".toList
  rw [writeObjectValue, memberSteps_eq, OrderedMap.entries_collect_map, List.isEmpty_map,
    if_neg (by simpa using hentries), List.map_map]
  refine ⟨gap, _, hgap, hwrote, ?_⟩
  rw [reread_object hnames]
  exact .object htext

/-- **What is written spells the value**, with white space in front of it, wherever the writer is:
and the lines after it start where those before it did. -/
theorem writeValue_wrote {v : Value} (hv : v.Writable sscanf) :
    WritesValue sscanf comments (v.reread sscanf) (writeValue v) := by
  induction hv with
  | null => exact writesValue_push .null
  | int hmin hmax => exact writesValue_push (spells_int hmin hmax)
  | uint hmax => exact writesValue_push (spells_uint hmax)
  | real hread => exact writesValue_push (spells_real hread)
  | string s => exact writesValue_push (spells_quoted s)
  | boolean b => exact writesValue_push (spells_boolean b)
  | array helems ih =>
    exact writeArrayValue_writes (fun v hv => FastWriter.spells_writeValue {} rfl (helems v hv)) ih
  | object hnames _ ih => exact writeObjectValue_writes hnames ih

/-! ## Documents -/

/-- The document is a value without comments, with nothing but white space around it. -/
def Says (sscanf : StdString → Option Real) (document : StdString) (v : Value) : Prop :=
  ∃ gap text after, document = gap ++ text ++ after ∧ Blank gap ∧ Blank after ∧
    Spells sscanf false (.value v) text

theorem Says.parse {setup : Setup} {document : StdString} {v : Value}
    (h : Says setup.sscanf document v)
    (hroot : setup.features.strictRoot = true → isContainer v = true) :
    ∃ reading, parse setup document = some ⟨true, v, reading⟩ ∧ reading.errors = [] := by
  obtain ⟨gap, text, after, rfl, hgap, hafter, hspells⟩ := h
  have hfollows : Reader.Follows (after ++ []) :=
    Reader.follows_gap (@Blank.gap false _ hafter) fun c hc => absurd hc (by simp)
  rw [List.append_nil] at hfollows
  exact Reader.parse_of_spells hspells.mono hgap.gap (fun _ => hfollows) hroot

theorem says_write (s : StyledWriter) {v : Value} (hv : v.Writable sscanf) :
    Says sscanf (s.write v) (v.reread sscanf) := by
  have hready : Ready { s with document := [], addChildValues := false, indentString := [] } :=
    ⟨rfl, fun c hc => absurd hc List.not_mem_nil⟩
  obtain ⟨gap, text, hgap, hwrote, hspells⟩ := writeValue_wrote hv _ hready
  refine ⟨gap, text, "\n".toList, ?_, hgap, List.forall_mem_singleton.mpr rfl, hspells⟩
  rw [write, put, hwrote.document, List.nil_append]

/-- **The two writers write two spellings of one document**: every reader takes them for the same
value, in strict mode if it is an array or an object. -/
theorem parse_styled (setup : Setup) (s : StyledWriter) (w : FastWriter)
    (hnull : w.dropNullPlaceholders = false) {v : Value} (hv : v.Writable setup.sscanf)
    (hroot : setup.features.strictRoot = true → isContainer v = true) :
    ∃ v' reading reading', parse setup (s.write v) = some ⟨true, v', reading⟩ ∧
      parse setup (w.write v) = some ⟨true, v', reading'⟩ ∧
      reading.errors = [] ∧ reading'.errors = [] := by
  obtain ⟨reading, hparse, herrors⟩ := (says_write s hv).parse fun hs => isContainer_reread (hroot hs)
  obtain ⟨reading', hparse', herrors'⟩ := parse_write setup w hnull hv hroot
  exact ⟨_, reading, reading', hparse, hparse', herrors, herrors'⟩

theorem parse_styled_swapped :
    ∃ v' reading reading',
      parse { sscanf := fun _ => none } (({} : StyledWriter).write swapped.1) =
        some ⟨true, v', reading⟩ ∧
      parse { sscanf := fun _ => none } (({} : FastWriter).write swapped.1) =
        some ⟨true, v', reading'⟩ ∧
      reading.errors = [] ∧ reading'.errors = [] :=
  parse_styled _ _ _ rfl (writable_pair _ rfl rfl (.uint (by decide)) (.string _)) (fun _ => rfl)

example : write {} (.objectValue [("b".toList, .arrayValue [.intValue 1, .nullValue]),
      ("a".toList, .arrayValue [.arrayValue [.booleanValue true]])]) =
    "\x7b\n   \"a\" : [\n      [ true ]\n   ],\n   \"b\" : [ 1, null ]\n\x7d\n".toList := by
  decide +kernel

end StyledWriter
end DevScan.Json
