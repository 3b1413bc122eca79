import Mathlib.Data.List.Induction
import Mathlib.Logic.Function.Basic

/-!
# `Lib/Replica.lean` — a table kept by messages

A **source** table is told to a **replica** by messages, each giving the value a key has from
now on, `none` for a key that is gone. The telling may be switched off and on: while it is off
only removals are told. What survives that is the invariant `Mirrors`: the replica holds no key
the source does not, and while the telling is on, the two are equal.

There is one rule for each way the source is told about: a write (`Mirrors.write`), a removal of
any number of keys (`Mirrors.remove`), a full replay (`Mirrors.replay`).
-/

set_option autoImplicit false

namespace DevScan.Lib.Replica

variable {κ ν : Type*}

structure Message (κ ν : Type*) where
  key : κ
  value : Option ν

/-- The replica is behind the source, and equal to it while it is being told. -/
structure Mirrors (told : Prop) (source replica : κ → Option ν) : Prop where
  absent : ∀ k, source k = none → replica k = none
  agrees : told → replica = source

variable [DecidableEq κ]

def receive (t : κ → Option ν) (msg : Message κ ν) : κ → Option ν :=
  Function.update t msg.key msg.value

/-- The table a replica that holds `t` comes to by the messages. -/
def follow (t : κ → Option ν) (msgs : List (Message κ ν)) : κ → Option ν := msgs.foldl receive t

@[simp] theorem follow_nil (t : κ → Option ν) : follow t [] = t := rfl

theorem follow_append (t : κ → Option ν) (a b : List (Message κ ν)) :
    follow t (a ++ b) = follow (follow t a) b := List.foldl_append

@[simp] theorem follow_cons (t : κ → Option ν) (msg : Message κ ν) (msgs : List (Message κ ν)) :
    follow t (msg :: msgs) = follow (Function.update t msg.key msg.value) msgs := rfl

/-- What a replica has for a key is what the last message about it says. -/
theorem follow_eq_last (t : κ → Option ν) (msgs : List (Message κ ν)) (k : κ) :
    follow t msgs k =
      ((msgs.filter fun msg => msg.key = k).getLast?.map Message.value).getD (t k) := by
  induction msgs using List.reverseRecOn with
  | nil => rfl
  | append_singleton msgs msg ih =>
    rw [follow_append, follow_cons, follow_nil, List.filter_append]
    by_cases hk : msg.key = k
    · simp [hk]
    · have hk' : k ≠ msg.key := fun h => hk h.symm
      simp [hk, hk', ih]

theorem follow_of_not_mem {t : κ → Option ν} {msgs : List (Message κ ν)} {k : κ}
    (h : ∀ msg ∈ msgs, msg.key ≠ k) : follow t msgs k = t k := by
  induction msgs generalizing t with
  | nil => rfl
  | cons msg msgs ih =>
    have hhead : receive t msg k = t k :=
      Function.update_of_ne (Ne.symm (h msg List.mem_cons_self)) _ _
    rw [follow, List.foldl_cons, ← follow, ih fun m hm => h m (List.mem_cons_of_mem _ hm), hhead]

/-- Messages about a key that all say the same: it does not matter how many there are, nor in
which order they come. -/
theorem follow_of_agree {t : κ → Option ν} {msgs : List (Message κ ν)} {k : κ} {o : Option ν}
    (hmem : ∃ msg ∈ msgs, msg.key = k) (h : ∀ msg ∈ msgs, msg.key = k → msg.value = o) :
    follow t msgs k = o := by
  induction msgs generalizing t with
  | nil => exact absurd hmem (by simp)
  | cons msg msgs ih =>
    rw [follow, List.foldl_cons, ← follow]
    by_cases hlater : ∃ m ∈ msgs, m.key = k
    · exact ih hlater fun m hm => h m (List.mem_cons_of_mem _ hm)
    · have hlast : ∀ m ∈ msgs, m.key ≠ k := fun m hm hk => hlater ⟨m, hm, hk⟩
      obtain ⟨m, hm, rfl⟩ := hmem
      rcases List.mem_cons.mp hm with rfl | hm
      · rw [follow_of_not_mem hlast, receive, Function.update_self]
        exact h m List.mem_cons_self rfl
      · exact absurd rfl (hlast m hm)

namespace Mirrors

variable {told told' : Prop} {source source' replica : κ → Option ν}

/-- A write is told if it changes anything. -/
theorem write [Decidable told] [DecidableEq ν] (h : Mirrors told source replica) (k : κ) (v : ν) :
    Mirrors told (Function.update source k (some v))
      (follow replica (if told ∧ source k ≠ some v then [⟨k, some v⟩] else [])) := by
  constructor
  · intro k' hk'
    have hne : k' ≠ k := by
      rintro rfl
      rw [Function.update_self] at hk'
      exact absurd hk' (by simp)
    rw [Function.update_of_ne hne] at hk'
    rw [follow_of_not_mem, h.absent k' hk']
    intro msg hmsg
    split at hmsg
    · rw [List.mem_singleton.mp hmsg]
      exact Ne.symm hne
    · exact absurd hmsg (by simp)
  · intro ht
    by_cases hsame : source k = some v
    · rw [if_neg fun hc => hc.2 hsame, follow_nil, h.agrees ht, ← hsame, Function.update_eq_self]
    · rw [if_pos ⟨ht, hsame⟩, h.agrees ht]
      rfl

/-- A removal is told for every key the source had among those removed, and for no key that is
kept. -/
theorem remove (h : Mirrors told source replica) (gone : κ → Prop) {msgs : List (Message κ ν)}
    (hgone : ∀ k, gone k → source' k = none) (hkept : ∀ k, ¬gone k → source' k = source k)
    (hmsgs : ∀ msg ∈ msgs, gone msg.key ∧ msg.value = none)
    (hall : ∀ k, gone k → source k ≠ none → ∃ msg ∈ msgs, msg.key = k) :
    Mirrors told source' (follow replica msgs) := by
  have hreplica : ∀ k, gone k → follow replica msgs k = none := by
    intro k hk
    by_cases hmem : ∃ msg ∈ msgs, msg.key = k
    · exact follow_of_agree hmem fun msg hmsg _ => (hmsgs msg hmsg).2
    · rw [follow_of_not_mem fun msg hmsg hkey => hmem ⟨msg, hmsg, hkey⟩]
      exact h.absent k (by_contra fun hne => hmem (hall k hk hne))
  have huntold : ∀ k, ¬gone k → follow replica msgs k = replica k := fun k hk =>
    follow_of_not_mem fun msg hmsg hkey => hk (hkey ▸ (hmsgs msg hmsg).1)
  constructor
  · intro k hk
    by_cases hg : gone k
    · exact hreplica k hg
    · rw [huntold k hg]
      exact h.absent k ((hkept k hg) ▸ hk)
  · intro ht
    funext k
    by_cases hg : gone k
    · rw [hreplica k hg, hgone k hg]
    · rw [huntold k hg, hkept k hg, h.agrees ht]

/-- A full replay brings the replica up to date, whether or not it was told before. -/
theorem replay (h : Mirrors told source replica) {msgs : List (Message κ ν)}
    (hmsgs : ∀ msg ∈ msgs, msg.value = source msg.key)
    (hall : ∀ k, source k ≠ none → ∃ msg ∈ msgs, msg.key = k) :
    Mirrors told' source (follow replica msgs) := by
  have heq : follow replica msgs = source := by
    funext k
    by_cases hmem : ∃ msg ∈ msgs, msg.key = k
    · exact follow_of_agree hmem fun msg hmsg hk => hk ▸ hmsgs msg hmsg
    · rw [follow_of_not_mem fun msg hmsg hk => hmem ⟨msg, hmsg, hk⟩]
      have hnone : source k = none := by_contra fun hne => hmem (hall k hne)
      rw [h.absent k hnone, hnone]
  exact ⟨fun k hk => by rw [heq, hk], fun _ => heq⟩

end Mirrors

end DevScan.Lib.Replica
