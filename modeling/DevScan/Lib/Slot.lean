import DevScan.Lib.Custody

/-!
# `Lib/Slot.lean` — remembering one number

Somebody takes numbers from a pool and remembers the last of them, to give it back later on; by then
he may or may not forget it. He is **faithful** as long as he gives back nothing but what is his, and
has nothing that he does not remember (`Faithful`). Whoever takes a number, or forgets one, with
something in his hands breaks faith at once, and so does whoever gives back what is no longer his.
-/

set_option autoImplicit false

namespace DevScan.Lib.Custody

open Pool (owns_takeOwn owns_of_takeOwn owns_of_giveBack owns_otherTakes_iff owns_otherGivesBack_iff)

structure Slot (κ : Type*) where
  pool : Pool κ := {}
  remembered : Option κ := none

namespace Slot

variable {κ : Type*} {s : Slot κ} {k : κ}

/-- A number is asked for, but there is none: what was remembered is forgotten. -/
def lose (s : Slot κ) : Slot κ := { s with remembered := none }

def EmptyHanded (s : Slot κ) : Prop := ∀ k, ¬s.pool.Owns k

/-- What is remembered is there. -/
def Holding (s : Slot κ) : Prop := ∀ k, s.remembered = some k → s.pool.Owns k

/-- Nothing is given back that is not his, and nothing of his is forgotten. -/
structure Faithful (s : Slot κ) : Prop where
  sound : s.pool.Sound
  returned : ∀ o ∈ s.pool.returned, ∃ n, o = some (.own n)
  remembered : ∀ k, s.pool.Owns k → s.remembered = some k

theorem emptyHanded_empty : ({} : Slot κ).EmptyHanded := fun _ hk => hk.elim nofun

theorem faithful_empty : ({} : Slot κ).Faithful where
  sound := Pool.sound_empty
  returned := List.forall_mem_nil _
  remembered k hk := absurd hk (emptyHanded_empty k)

/-- **With empty hands, everything has been given back once.** -/
theorem Faithful.returned_once (h : s.Faithful) (hempty : s.EmptyHanded) {n : Nat}
    (hn : n < s.pool.taken) : s.pool.returned.count (some (.own n)) = 1 :=
  h.sound.returned_once hempty hn

theorem Faithful.emptyHanded (h : s.Faithful) (hnone : s.remembered = none) : s.EmptyHanded :=
  fun k hk => absurd ((h.remembered k hk).symm.trans hnone) nofun

theorem faithful_lose_iff (h : s.Faithful) : s.lose.Faithful ↔ s.EmptyHanded :=
  ⟨fun hlose => hlose.emptyHanded rfl,
    fun hempty => ⟨h.sound, h.returned, fun k hk => absurd hk (hempty k)⟩⟩

variable [DecidableEq κ]

def take (s : Slot κ) (k : κ) : Slot κ := ⟨s.pool.takeOwn k, some k⟩

def giveBack (s : Slot κ) (forget : Bool) : Slot κ :=
  match s.remembered with
  | none => s
  | some k => ⟨s.pool.giveBack k, if forget then none else some k⟩

def otherTakes (s : Slot κ) (k : κ) : Slot κ := { s with pool := s.pool.otherTakes k }

def otherGivesBack (s : Slot κ) (k : κ) : Slot κ := { s with pool := s.pool.otherGivesBack k }

/-- A number is taken with empty hands, or there will be one that is not remembered. -/
theorem faithful_take_iff (h : s.Faithful) (hfree : s.pool.table k = none) :
    (s.take k).Faithful ↔ s.EmptyHanded := by
  constructor
  · intro htake m hm
    have heq : some k = some m := htake.remembered m (hm.takeOwn hfree)
    obtain rfl := Option.some.inj heq
    obtain ⟨n, hn⟩ := hm
    exact absurd (hn.symm.trans hfree) nofun
  · intro hempty
    refine ⟨h.sound.takeOwn hfree, h.returned, fun m hm => ?_⟩
    rcases owns_of_takeOwn hm with rfl | hm
    · rfl
    · exact absurd hm (hempty m)

theorem holding_take : (s.take k).Holding := by
  intro m hm
  obtain rfl := Option.some.inj hm
  exact owns_takeOwn

theorem emptyHanded_giveBack (h : s.Faithful) (forget : Bool) : (s.giveBack forget).EmptyHanded := by
  rw [giveBack]
  split
  · exact h.emptyHanded ‹_›
  · rename_i k hk
    intro m hm
    obtain ⟨hne, hm⟩ := owns_of_giveBack hm
    exact hne (Option.some.inj ((h.remembered m hm).symm.trans hk))

/-- What is given back has to be his still. -/
theorem faithful_giveBack_iff (h : s.Faithful) (forget : Bool) :
    (s.giveBack forget).Faithful ↔ s.Holding := by
  have hempty := emptyHanded_giveBack h forget
  constructor
  · intro hback k hk
    refine hback.returned (s.pool.table k) ?_
    rw [giveBack, hk]
    exact List.mem_append_right _ (List.mem_singleton.mpr rfl)
  · intro hholding
    refine ⟨?_, ?_, fun m hm => absurd hm (hempty m)⟩
    · rw [giveBack]
      split
      · exact h.sound
      · exact h.sound.giveBack (hholding _ ‹_›)
    · rw [giveBack]
      split
      · exact h.returned
      · rename_i k hk
        obtain ⟨n, hn⟩ := hholding k hk
        intro o ho
        rcases List.mem_append.mp ho with ho | ho
        · exact h.returned o ho
        · exact ⟨n, (List.mem_singleton.mp ho).trans hn⟩

theorem Faithful.otherTakes (h : s.Faithful) (hfree : s.pool.table k = none) :
    (s.otherTakes k).Faithful :=
  ⟨h.sound.otherTakes hfree, h.returned,
    fun m hm => h.remembered m ((owns_otherTakes_iff hfree).mp hm)⟩

theorem Faithful.otherGivesBack (h : s.Faithful) (hother : s.pool.table k = some .other) :
    (s.otherGivesBack k).Faithful :=
  ⟨h.sound.otherGivesBack hother, h.returned,
    fun m hm => h.remembered m ((owns_otherGivesBack_iff hother).mp hm)⟩

end Slot
end DevScan.Lib.Custody
