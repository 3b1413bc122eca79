import DevScan.Json.Value
import DevScan.Lib.Throwing
import Mathlib.Data.List.Basic

/-!
# `Json/Shapes.lean` — which values the accessors read

A value of any type may stand anywhere in a document. Two questions about it decide what an
accessor does: can it be looked into (`Indexable`), and has it a string form (`Scalar`). The
members themselves are read here without exceptions (`get`), and each accessor is the one of its
readings, whenever the shape allows (`index_eq_iff`, `asString_eq_iff`).
-/

set_option autoImplicit false

namespace DevScan.Json.Value

open Lib (bind_eq_ok pure_eq_ok)

def IsObject (v : Value) : Prop := ∃ members, v = objectValue members

/-- An object, or null, each member of which is null. -/
def Indexable : Value → Prop
  | nullValue => True
  | objectValue _ => True
  | _ => False

/-- Everything but arrays and objects; null is the empty string. -/
def Scalar : Value → Prop
  | arrayValue _ => False
  | objectValue _ => False
  | _ => True

/-- The string form of a scalar. -/
def text (v : Value) : StdString := v.asString.toOption.getD []

/-- A count of at least one that an `unsigned int` can hold, or `true`. -/
def Counts : Value → Prop
  | intValue i => 1 ≤ i ∧ i ≤ maxUInt
  | uintValue n => 1 ≤ n ∧ n ≤ maxUInt
  | booleanValue b => b = true
  | _ => False

/-- The member of an object, null where there is none. -/
def get (v : Value) (key : StdString) : Value :=
  match v with
  | objectValue members => (members.lookup key).getD nullValue
  | _ => nullValue

def getPath (v : Value) (keys : List StdString) : Value := keys.foldl get v

/-! ## The accessors -/

theorem asString_eq_iff {v : Value} {s : StdString} :
    v.asString = .ok s ↔ v.Scalar ∧ v.text = s := by
  cases v with
  | arrayValue elems => simp [asString, Scalar]
  | objectValue members => simp [asString, Scalar]
  | _ => simp [asString, Scalar, text, Except.toOption]

/-- Reals apart, which are what the `double` converts to. -/
theorem asUInt_pos_iff {v : Value} (hreal : ∀ r, v ≠ realValue r) :
    (∃ n, v.asUInt = .ok n ∧ 0 < n) ↔ v.Counts := by
  cases v with
  | nullValue => simp [asUInt, Counts]
  | intValue i =>
    simp only [asUInt, Counts]
    split
    · rename_i hrange
      simp only [Except.ok.injEq, exists_eq_left']
      omega
    · simp only [reduceCtorEq, false_and, exists_false, false_iff]
      omega
  | uintValue n =>
    simp only [asUInt, Counts]
    split
    · rename_i hrange
      simp only [Except.ok.injEq, exists_eq_left']
      omega
    · simp only [reduceCtorEq, false_and, exists_false, false_iff]
      omega
  | realValue r => exact absurd rfl (hreal r)
  | stringValue s => simp [asUInt, Counts]
  | booleanValue b => cases b <;> simp [asUInt, Counts]
  | arrayValue elems => simp [asUInt, Counts]
  | objectValue members => simp [asUInt, Counts]

theorem index_eq_iff {v w : Value} {key : StdString} :
    v.index key = .ok w ↔ v.Indexable ∧ v.get key = w := by
  cases v with
  | nullValue => simp [index, Indexable, get]
  | objectValue members => simp [index, Indexable, get]
  | _ => simp [index, Indexable]

/-- Every value a path leads through can be looked into. -/
def IndexableAlong (v : Value) (keys : List StdString) : Prop :=
  ∀ outer, outer <+: keys → outer ≠ keys → (v.getPath outer).Indexable

theorem indexableAlong_nil (v : Value) : v.IndexableAlong [] := by
  intro outer hprefix hne
  exact absurd (List.prefix_nil.mp hprefix) hne

theorem indexableAlong_cons {v : Value} {key : StdString} {keys : List StdString} :
    v.IndexableAlong (key :: keys) ↔ v.Indexable ∧ (v.get key).IndexableAlong keys := by
  constructor
  · intro h
    refine ⟨h [] (List.nil_prefix) (by simp), fun outer hprefix hne => ?_⟩
    exact h (key :: outer) (List.cons_prefix_cons.mpr ⟨rfl, hprefix⟩) (by simpa using hne)
  · rintro ⟨hhead, hrest⟩ outer hprefix hne
    cases outer with
    | nil => exact hhead
    | cons key' outer =>
      obtain ⟨rfl, htail⟩ := List.cons_prefix_cons.mp hprefix
      exact hrest outer htail (by simpa using hne)

theorem indexPath_eq_iff {v w : Value} {keys : List StdString} :
    v.indexPath keys = .ok w ↔ v.IndexableAlong keys ∧ v.getPath keys = w := by
  induction keys generalizing v with
  | nil => simp [indexPath, getPath, indexableAlong_nil, pure_eq_ok]
  | cons key keys ih =>
    have hstep : v.indexPath (key :: keys) = v.index key >>= fun u => u.indexPath keys := rfl
    rw [hstep, bind_eq_ok, indexableAlong_cons]
    constructor
    · rintro ⟨u, hindex, hrest⟩
      obtain ⟨hhead, rfl⟩ := index_eq_iff.mp hindex
      obtain ⟨halong, hget⟩ := ih.mp hrest
      exact ⟨⟨hhead, halong⟩, hget⟩
    · rintro ⟨⟨hhead, halong⟩, hget⟩
      exact ⟨v.get key, index_eq_iff.mpr ⟨hhead, rfl⟩, ih.mpr ⟨halong, hget⟩⟩

end DevScan.Json.Value
