import DevScan.Defines
import DevScan.Json.Assign

/-!
# `Json/Exception.lean` — `hbm::exception::jsonrpcException`

An exception that carries a JSON-RPC error, and whose `what` is the text of it, with a stack trace
behind. No text `FastWriter` writes has a NUL in it (`nul_not_mem_writeValue`), so that `c_str` cuts
the trace at most; and the reader does not mind what stands behind a value. So the error can be read
from `what` (`what_reads`).
-/

set_option autoImplicit false

namespace DevScan

def Jsonrpc.code : StdString := "code".toList
def Jsonrpc.message : StdString := "message".toList

namespace Json

open Lib (OrderedMap)
open Reader (nul)

variable {sscanf : StdString → Option Real}

/-! ## Texts without a NUL -/

theorem nul_not_mem_escaped {c : Char} (hc : c ≠ nul) : nul ∉ escaped c := by
  rw [escaped]
  split_ifs with h1 h2 h3 h4 h5 h6 h7 h8
  · decide
  · decide
  · decide
  · decide
  · decide
  · decide
  · decide
  · rw [isControlCharacter, Bool.and_eq_true, decide_eq_true_eq, decide_eq_true_eq] at h8
    have hdigits : ∀ n < 0x20, nul ∉ "\\u".toList ++ hexDigits n := by decide
    exact hdigits c.toNat (by omega)
  · exact fun h => hc (List.mem_singleton.mp h).symm

theorem nul_not_mem_quoted (s : StdString) : nul ∉ valueToQuotedString s := by
  rw [valueToQuotedString_eq, List.mem_append, List.mem_cons, List.mem_flatMap]
  rintro ((h | ⟨c, hc, h⟩) | h)
  · exact absurd h (by decide)
  · have hkept : decide (c ≠ Char.ofNat 0) = true :=
      List.mem_takeWhile_imp (p := (· ≠ Char.ofNat 0)) hc
    exact nul_not_mem_escaped (of_decide_eq_true hkept) h
  · exact absurd h (by decide)

theorem nul_not_mem_digits (n : Nat) : nul ∉ Nat.toDigits 10 n := fun h =>
  absurd (Reader.isDigit_toDigits n _ h) (by decide)

theorem not_mem_intercalate {c : Char} {between : StdString} (hbetween : c ∉ between)
    {texts : List StdString} (h : ∀ text ∈ texts, c ∉ text) : c ∉ List.intercalate between texts := by
  induction texts with
  | nil => exact List.not_mem_nil
  | cons text texts ih =>
    obtain ⟨htext, htexts⟩ := List.forall_mem_cons.mp h
    by_cases hend : texts = []
    · subst hend
      rwa [List.intercalate_singleton]
    · rw [List.intercalate_cons_of_ne_nil hend, List.mem_append, List.mem_append]
      exact not_or.mpr ⟨not_or.mpr ⟨htext, hbetween⟩, ih htexts⟩

theorem nul_not_mem_numberText {text : StdString} (h : NumberText text) : nul ∉ text := by
  obtain ⟨c, rest, rfl, hc, hrest⟩ := h
  rw [List.mem_cons]
  rintro (rfl | hmem)
  · exact absurd hc (by decide)
  · exact absurd (hrest nul hmem) (by decide)

namespace FastWriter

theorem nul_not_mem_writeMember (w : FastWriter) {member : StdString × StdString}
    (h : nul ∉ member.2) : nul ∉ w.writeMember member := by
  rw [writeMember, List.mem_append, List.mem_append]
  refine not_or.mpr ⟨not_or.mpr ⟨nul_not_mem_quoted _, ?_⟩, h⟩
  split
  · decide
  · decide

theorem nul_not_mem_writeValue (w : FastWriter) {v : Value} (hv : v.Writable sscanf) :
    nul ∉ w.writeValue v := by
  induction hv with
  | null =>
    rw [writeValue]
    split
    · decide
    · decide
  | @int i =>
    rw [writeValue, valueToString]
    split
    · exact List.not_mem_cons_of_ne_of_not_mem (by decide) (nul_not_mem_digits _)
    · exact nul_not_mem_digits _
  | uint => exact nul_not_mem_digits _
  | @real r hread =>
    rcases hread with hnull | ⟨htext, -⟩
    · rw [writeValue, hnull]
      decide
    · exact nul_not_mem_numberText htext
  | string s => exact nul_not_mem_quoted s
  | boolean b =>
    rw [writeValue]
    split
    · decide
    · decide
  | @array elems _ ih =>
    rw [writeValue, writeElements_eq, List.mem_append, List.mem_append]
    refine not_or.mpr ⟨not_or.mpr ⟨by decide, not_mem_intercalate (by decide) ?_⟩, by decide⟩
    exact List.forall_mem_map.mpr ih
  | @object members _ _ ih =>
    rw [writeValue, writeMembers_eq, OrderedMap.entries_collect_map, List.mem_append, List.mem_append,
      List.map_map]
    refine not_or.mpr ⟨not_or.mpr ⟨by decide, not_mem_intercalate (by decide) ?_⟩, by decide⟩
    exact List.forall_mem_map.mpr fun m hm =>
      w.nul_not_mem_writeMember (ih m (mem_of_mem_collect hm))

end FastWriter

/-! ## The exception -/

/-- `std::runtime_error::what()` and the stack trace, as a `const char*`. -/
def exceptionWhat (description stackTrace : StdString) : StdString :=
  cString (cString description ++ "\n".toList ++ stackTrace)

structure JsonrpcException where
  errorObj : Value
  localWhat : StdString

namespace JsonrpcException

/-- `jsonrpcException(const Json::Value&)`; the stack trace is that of the place it is made at. -/
def ofError (stackTrace : StdString) (error : Value) : JsonrpcException :=
  ⟨error, FastWriter.write { omitEndingLineFeed := true } error ++ exceptionWhat [] stackTrace⟩

/-- `jsonrpcException(int, const std::string&)`. -/
def ofCode (stackTrace : StdString) (code : Int) (message : StdString) : Except Exn JsonrpcException := do
  let errorObj ←
    if message.isEmpty = false then
      Value.nullValue.assign [Jsonrpc.err, Jsonrpc.message] (.stringValue message)
    else pure .nullValue
  let errorObj ← errorObj.assign [Jsonrpc.err, Jsonrpc.code] (.intValue code)
  return ofError stackTrace errorObj

def what (e : JsonrpcException) : StdString := cString e.localWhat

theorem cString_append {text : StdString} (h : nul ∉ text) (rest : StdString) :
    cString (text ++ rest) = text ++ cString rest :=
  List.takeWhile_append_of_pos fun c hc => decide_eq_true fun heq => h ((show c = nul from heq) ▸ hc)

/-- The text of the error, and in another line what is left of the trace. -/
theorem what_ofError {error : Value} (h : error.Writable sscanf) (stackTrace : StdString) :
    ∃ rest, (ofError stackTrace error).what =
      FastWriter.writeValue { omitEndingLineFeed := true } error ++ '\n' :: rest := by
  refine ⟨cString (cString stackTrace), ?_⟩
  rw [what, ofError, FastWriter.write, if_pos rfl, List.append_nil,
    cString_append (FastWriter.nul_not_mem_writeValue _ h)]
  rfl

/-- **The error can be read from `what`**, whatever stack trace stands behind it. -/
theorem what_reads (setup : Reader.Setup) {error : Value} (h : error.Writable setup.sscanf)
    (hroot : setup.features.strictRoot = true → Reader.isContainer error = true)
    (stackTrace : StdString) :
    setup.reader (ofError stackTrace error).what = some (error.reread setup.sscanf) := by
  obtain ⟨rest, hwhat⟩ := what_ofError h stackTrace
  have hfollows : Reader.Follows ('\n' :: rest) := Reader.follows_cons (by decide) rest
  obtain ⟨s, hparse, -⟩ := Reader.parse_of_spells
    (FastWriter.spells_writeValue { omitEndingLineFeed := true } rfl h) .nil (fun _ => hfollows)
    fun hs => isContainer_reread (hroot hs)
  rw [hwhat]
  exact Reader.Setup.reader_eq hparse

/-- What the constructor puts together. -/
def ofCodeFields (code : Int) (message : StdString) : List (List StdString × Value) :=
  (if message.isEmpty = false then [([Jsonrpc.err, Jsonrpc.message], .stringValue message)] else []) ++
    [([Jsonrpc.err, Jsonrpc.code], .intValue code)]

theorem ofCode_eq (stackTrace : StdString) (code : Int) (message : StdString) :
    ofCode stackTrace code message =
      (Value.nullValue.assignAll (ofCodeFields code message)).map (ofError stackTrace) := by
  rw [ofCode, ofCodeFields, Value.assignAll, List.foldlM_append]
  cases message with
  | nil => rfl
  | cons c message => rfl

theorem ofCodeFields_apart (code : Int) (message : StdString) :
    Value.Apart (ofCodeFields code message) := by
  rw [ofCodeFields]
  split
  · simp only [Value.Apart, List.map_cons, List.map_nil, List.cons_append, List.nil_append]
    decide
  · simp only [Value.Apart, List.map_cons, List.map_nil, List.nil_append]
    decide

theorem forall_mem_ofCodeFields {P : List StdString × Value → Prop} {code : Int} {message : StdString}
    (hmessage : P ([Jsonrpc.err, Jsonrpc.message], .stringValue message))
    (hcode : P ([Jsonrpc.err, Jsonrpc.code], .intValue code)) :
    ∀ field ∈ ofCodeFields code message, P field := by
  rw [ofCodeFields]
  split
  · exact List.forall_mem_cons.mpr ⟨hmessage, List.forall_mem_singleton.mpr hcode⟩
  · exact List.forall_mem_singleton.mpr hcode

/-- The message that was given is in the document, or none is. -/
theorem indexPath_message {code : Int} {message : StdString} {w : Value}
    (hthere : ∀ field ∈ ofCodeFields code message,
      w.IndexableAlong field.1 ∧ w.getPath field.1 = field.2)
    (helsewhere : ∀ other, (∀ field ∈ ofCodeFields code message, Value.diverge field.1 other = true) →
      w.IndexableAlong other ∧ w.getPath other = .nullValue) :
    ∃ u, w.indexPath [Jsonrpc.err, Jsonrpc.message] = .ok u ∧ (∀ r, u ≠ .realValue r) ∧
      u.asString = .ok (cString message) := by
  cases message with
  | nil =>
    have hparts : Value.diverge [Jsonrpc.err, Jsonrpc.code] [Jsonrpc.err, Jsonrpc.message] = true := by
      decide
    have hnone := helsewhere _ (List.forall_mem_singleton.mpr hparts)
    exact ⟨.nullValue, Value.indexPath_eq_iff.mpr hnone, nofun, rfl⟩
  | cons c message =>
    exact ⟨_, Value.indexPath_eq_iff.mpr (hthere _ List.mem_cons_self), nofun, rfl⟩

/-- **Code and message can be read from `what`.** A message that is empty is left out, and reads as an
empty one. -/
theorem ofCode_reads (setup : Reader.Setup) (stackTrace : StdString) {code : Int}
    (hmin : -0x80000000 ≤ code) (hmax : code ≤ 0x7FFFFFFF) (message : StdString) :
    ∃ e v, ofCode stackTrace code message = .ok e ∧ setup.reader e.what = some v ∧
      v.indexPath [Jsonrpc.err, Jsonrpc.code] = .ok (.intValue code) ∧
      ∃ u, v.indexPath [Jsonrpc.err, Jsonrpc.message] = .ok u ∧ u.asString = .ok (cString message) := by
  obtain ⟨error, hassign, hthere, helsewhere⟩ := Value.assignAll_assigned
    (ofCodeFields_apart code message) fun field _ => Value.indexableAlong_null field.1
  have hwritable : error.Writable setup.sscanf := by
    have hint : (Value.intValue code).Writable setup.sscanf :=
      .int (by rw [minLargestIntAbs]; omega) (by rw [minLargestIntAbs]; omega)
    have hkeys : ∀ field ∈ ofCodeFields code message, ∀ key ∈ field.1, cString key = key := by
      have hmessage : ∀ key ∈ [Jsonrpc.err, Jsonrpc.message], cString key = key := by decide
      have hcode : ∀ key ∈ [Jsonrpc.err, Jsonrpc.code], cString key = key := by decide
      exact forall_mem_ofCodeFields hmessage hcode
    exact Value.Writable.assignAll .null hkeys (forall_mem_ofCodeFields (.string message) hint) hassign
  have hcode : error.indexPath [Jsonrpc.err, Jsonrpc.code] = .ok (.intValue code) :=
    Value.indexPath_eq_iff.mpr (hthere _ (List.mem_append_right _ List.mem_cons_self))
  obtain ⟨u, hmessage, hreal, hstring⟩ := indexPath_message hthere fun other hother => by
    obtain ⟨halong, hget⟩ := helsewhere other hother
    exact ⟨halong.mpr (Value.indexableAlong_null other), hget.trans (Value.getPath_null other)⟩
  obtain ⟨u', hmessage', hstring', -⟩ := @Value.reread_reads setup.sscanf _ _ _ hmessage hreal
  refine ⟨ofError stackTrace error, error.reread setup.sscanf, ?_, what_reads setup hwritable
    (fun _ => Value.isContainer_of_indexPath (by simp) hcode nofun) stackTrace, ?_, u', hmessage',
    hstring'.trans hstring⟩
  · rw [ofCode_eq, hassign]
    rfl
  · have hread : (Value.intValue code).reread setup.sscanf = .intValue code := by
      rw [Value.reread]
      split
      · rfl
      · rw [Value.ofUnsigned, if_pos (by rw [maxInt]; omega), Int.toNat_of_nonneg (by omega)]
    rw [Value.indexPath_reread hcode, hread]

theorem ofCode_reads_invalidParams :
    ∃ e v, ofCode [] (-32602) "no".toList = .ok e ∧
      Reader.Setup.reader { sscanf := fun _ => none } e.what = some v ∧
      v.indexPath [Jsonrpc.err, Jsonrpc.code] = .ok (.intValue (-32602)) ∧
      ∃ u, v.indexPath [Jsonrpc.err, Jsonrpc.message] = .ok u ∧ u.asString = .ok (cString "no".toList) :=
  ofCode_reads _ [] (by decide) (by decide) _

end JsonrpcException
end Json
end DevScan
