import Mathlib.Data.List.Nodup

/-!
# `Lib/Ledger.lean` — each item is settled once

Items are issued one after the other and numbered in this order. Each is **settled** at some
time, with a verdict that cannot be changed any more; at most the item issued last is still
outstanding, because issuing the next one settles it. A ledger carries what makes it one: no item
is settled twice, and every item is either settled or outstanding.
-/

set_option autoImplicit false

namespace DevScan.Lib

variable {β : Type*}

structure Ledger (β : Type*) where
  /-- The number of items issued. -/
  count : Nat
  outstanding : Option Nat
  verdicts : List (Nat × β)
  nodup : (verdicts.map Prod.fst).Nodup
  open_of_outstanding : ∀ i, outstanding = some i → i ∉ verdicts.map Prod.fst
  issued_iff : ∀ i, i < count ↔ outstanding = some i ∨ i ∈ verdicts.map Prod.fst

namespace Ledger

def empty : Ledger β where
  count := 0
  outstanding := none
  verdicts := []
  nodup := List.nodup_nil
  open_of_outstanding := by simp
  issued_iff := by simp

/-- The outstanding item gets its verdict, if there is one. -/
def settle (verdict : β) (l : Ledger β) : Ledger β :=
  match h : l.outstanding with
  | none => l
  | some i =>
    { count := l.count
      outstanding := none
      verdicts := l.verdicts ++ [(i, verdict)]
      nodup := by
        rw [List.map_append, List.nodup_append]
        refine ⟨l.nodup, List.nodup_singleton _, fun a ha b hb hab => ?_⟩
        have hb : b = i := by simpa using hb
        exact l.open_of_outstanding i h (hb ▸ hab ▸ ha)
      open_of_outstanding := by simp
      issued_iff := by
        intro j
        rw [l.issued_iff, h, List.map_append, List.mem_append]
        simp [or_comm, eq_comm] }

section settle

variable {l : Ledger β} (verdict : β)

theorem settle_of_none (h : l.outstanding = none) : l.settle verdict = l := by
  unfold settle
  split
  · rfl
  · rename_i i hi
    exact absurd (hi.symm.trans h) (by simp)

theorem verdicts_settle {i : Nat} (h : l.outstanding = some i) :
    (l.settle verdict).verdicts = l.verdicts ++ [(i, verdict)] := by
  unfold settle
  split
  · rename_i hi
    exact absurd (hi.symm.trans h) (by simp)
  · rename_i j hj
    obtain rfl := Option.some.inj (hj.symm.trans h)
    rfl

@[simp] theorem outstanding_settle : (l.settle verdict).outstanding = none := by
  unfold settle
  split
  · assumption
  · rfl

@[simp] theorem count_settle : (l.settle verdict).count = l.count := by
  unfold settle
  split <;> rfl

end settle

/-- The next item is issued; the one before it gets its verdict if it has none. -/
def issue (verdict : β) (l : Ledger β) : Ledger β where
  count := l.count + 1
  outstanding := some l.count
  verdicts := (l.settle verdict).verdicts
  nodup := (l.settle verdict).nodup
  open_of_outstanding := by
    intro i hi hmem
    have hlt := ((l.settle verdict).issued_iff i).mpr (Or.inr hmem)
    rw [count_settle, ← Option.some.inj hi] at hlt
    exact Nat.lt_irrefl _ hlt
  issued_iff := by
    intro i
    have hissued := (l.settle verdict).issued_iff i
    rw [outstanding_settle, count_settle] at hissued
    rw [Nat.lt_succ_iff_lt_or_eq, hissued]
    simp [or_comm, eq_comm]

theorem settled {l : Ledger β} {i : Nat} (hi : i < l.count) (hout : l.outstanding ≠ some i) :
    ∃ verdict, (i, verdict) ∈ l.verdicts := by
  rcases (l.issued_iff i).mp hi with hout' | hmem
  · exact absurd hout' hout
  · obtain ⟨⟨j, verdict⟩, hentry, rfl⟩ := List.mem_map.mp hmem
    exact ⟨verdict, hentry⟩

/-- The outstanding item is not among the settled ones. -/
theorem not_mem_of_outstanding {l : Ledger β} {i : Nat} (h : l.outstanding = some i) (verdict : β) :
    (i, verdict) ∉ l.verdicts := fun hmem =>
  l.open_of_outstanding i h (List.mem_map_of_mem hmem)

/-! ## Reports -/

/-- The items up to `due` have been reported, and no item twice or with another verdict. -/
structure Honoured (l : Ledger β) (reports : List (Nat × β)) (due : Nat) : Prop where
  once : (reports.map Prod.fst).Nodup
  right : ∀ report ∈ reports, report ∈ l.verdicts
  due : ∀ i < due, ∃ verdict, (i, verdict) ∈ reports

theorem honoured_verdicts {l : Ledger β} {due : Nat} (hcount : due ≤ l.count)
    (hout : ∀ i, l.outstanding = some i → due ≤ i) : l.Honoured l.verdicts due where
  once := l.nodup
  right _ h := h
  due i hi := settled (Nat.lt_of_lt_of_le hi hcount) fun hout' =>
    absurd (hout i hout') (Nat.not_le.mpr hi)

/-- An item that was still outstanding has come due without a word. -/
theorem not_honoured_of_outstanding {l l' : Ledger β} (h : l.outstanding ≠ none) :
    ¬l'.Honoured l.verdicts l.count := by
  intro hhonoured
  obtain ⟨i, hi⟩ := Option.ne_none_iff_exists'.mp h
  have hissued : i < l.count := (l.issued_iff i).mpr (Or.inl hi)
  obtain ⟨verdict, hmem⟩ := hhonoured.due i hissued
  exact not_mem_of_outstanding hi verdict hmem

/-- An item that was settled is reported again. -/
theorem not_honoured_of_again {l l' : Ledger β} {due i : Nat} (hi : i < l.count)
    (hnone : l.outstanding = none) (verdict : β) :
    ¬l'.Honoured (l.verdicts ++ [(i, verdict)]) due := by
  intro hhonoured
  obtain ⟨verdict', hmem⟩ := settled hi (by simp [hnone])
  have honce := hhonoured.once
  rw [List.map_append, List.nodup_append] at honce
  exact honce.2.2 i (List.mem_map_of_mem hmem) i (by simp) rfl

end Ledger
end DevScan.Lib
