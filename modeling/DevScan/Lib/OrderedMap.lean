import Mathlib.Order.Lattice

/-!
# `Lib/OrderedMap.lean` — maps that are walked in the order of their keys

Keys and values in a list, the keys strictly ascending: what a walk over the map visits. There is
one way to change it, `update`, which makes the key if it is not there yet and changes its value in
place. A list of things each of which updates its key **groups** them (`find?_foldl_update`): the
value of a key is what the things of that key make of it, in their order, and the others leave it
as it is.
-/

set_option autoImplicit false

namespace DevScan.Lib

variable {κ ν α : Type*} [LinearOrder κ]

structure OrderedMap (κ ν : Type*) [LinearOrder κ] where
  entries : List (κ × ν) := []
  sorted : entries.Pairwise fun a b => a.1 < b.1 := by exact List.Pairwise.nil

namespace OrderedMap

/-- The value of a key, `initial` where there is none, goes through `f`. -/
def updateEntries (initial : ν) (k : κ) (f : ν → ν) : List (κ × ν) → List (κ × ν)
  | [] => [(k, f initial)]
  | entry :: rest =>
    if k < entry.1 then (k, f initial) :: entry :: rest
    else if k = entry.1 then (k, f entry.2) :: rest
    else entry :: updateEntries initial k f rest

theorem mem_updateEntries {initial : ν} {k : κ} {f : ν → ν} {entries : List (κ × ν)}
    {entry : κ × ν} (h : entry ∈ updateEntries initial k f entries) :
    entry.1 = k ∨ entry ∈ entries := by
  induction entries with
  | nil => exact Or.inl (congrArg Prod.fst (List.mem_singleton.mp h))
  | cons head rest ih =>
    rw [updateEntries] at h
    split at h
    · rcases List.mem_cons.mp h with rfl | h
      · exact Or.inl rfl
      · exact Or.inr h
    · split at h
      · rcases List.mem_cons.mp h with rfl | h
        · exact Or.inl rfl
        · exact Or.inr (List.mem_cons_of_mem _ h)
      · rcases List.mem_cons.mp h with rfl | h
        · exact Or.inr List.mem_cons_self
        · exact (ih h).imp_right (List.mem_cons_of_mem _)

theorem sorted_updateEntries (initial : ν) (k : κ) (f : ν → ν) {entries : List (κ × ν)}
    (h : entries.Pairwise fun a b => a.1 < b.1) :
    (updateEntries initial k f entries).Pairwise fun a b => a.1 < b.1 := by
  induction entries with
  | nil => exact List.pairwise_singleton _ _
  | cons head rest ih =>
    obtain ⟨hhead, hrest⟩ := List.pairwise_cons.mp h
    rw [updateEntries]
    split
    · rename_i hlt
      refine List.pairwise_cons.mpr ⟨fun entry hentry => ?_, h⟩
      rcases List.mem_cons.mp hentry with rfl | hentry
      · exact hlt
      · exact lt_trans hlt (hhead entry hentry)
    · rename_i hnot
      split
      · rename_i heq
        refine List.pairwise_cons.mpr ⟨fun entry hentry => ?_, hrest⟩
        exact heq ▸ hhead entry hentry
      · rename_i hne
        refine List.pairwise_cons.mpr ⟨fun entry hentry => ?_, ih hrest⟩
        rcases mem_updateEntries hentry with hkey | hentry
        · rw [hkey]
          exact lt_of_le_of_ne (not_lt.mp hnot) (Ne.symm hne)
        · exact hhead entry hentry

def update (m : OrderedMap κ ν) (initial : ν) (k : κ) (f : ν → ν) : OrderedMap κ ν where
  entries := updateEntries initial k f m.entries
  sorted := sorted_updateEntries initial k f m.sorted

/-- The value of a key. -/
def find? (m : OrderedMap κ ν) (k : κ) : Option ν :=
  (m.entries.find? fun entry => entry.1 = k).map Prod.snd

/-- The map has no keys. -/
def empty : OrderedMap κ ν := {}

@[simp] theorem find?_empty (k : κ) : (empty : OrderedMap κ ν).find? k = none := rfl

@[simp] theorem find?_update (m : OrderedMap κ ν) (initial : ν) (k k' : κ) (f : ν → ν) :
    (m.update initial k f).find? k' =
      if k' = k then some (f ((m.find? k).getD initial)) else m.find? k' := by
  obtain ⟨entries, hsorted⟩ := m
  simp only [find?, update]
  induction entries with
  | nil =>
    by_cases heq : k' = k
    · simp [updateEntries, heq]
    · simp [updateEntries, heq, Ne.symm heq]
  | cons head rest ih =>
    obtain ⟨hhead, hrest⟩ := List.pairwise_cons.mp hsorted
    rw [updateEntries]
    split
    · rename_i hlt
      -- the key was not there: all keys are behind it
      have habsent : (head :: rest).find? (fun entry => entry.1 = k) = none := by
        refine List.find?_eq_none.mpr fun entry hentry => ?_
        have hbehind : k < entry.1 := by
          rcases List.mem_cons.mp hentry with rfl | hentry
          · exact hlt
          · exact lt_trans hlt (hhead entry hentry)
        exact fun heq => absurd (of_decide_eq_true heq) (ne_of_gt hbehind)
      rw [habsent, List.find?_cons]
      by_cases heq : k' = k
      · simp [heq]
      · simp [heq, Ne.symm heq]
    · split
      · rename_i heq
        subst heq
        rw [List.find?_cons, List.find?_cons]
        by_cases heq : k' = head.1
        · simp [heq]
        · simp [heq, Ne.symm heq]
      · rename_i hne
        have hnot : decide (head.1 = k) = false := decide_eq_false (Ne.symm hne)
        rw [List.find?_cons, List.find?_cons, List.find?_cons, hnot]
        by_cases heq : head.1 = k'
        · have hother : k' ≠ k := fun h => hne (h ▸ heq.symm)
          simp [heq, hother]
        · simpa [heq] using ih hrest

/-- A key has the value it stands with. -/
theorem find?_eq_some_iff (m : OrderedMap κ ν) (k : κ) (v : ν) :
    m.find? k = some v ↔ (k, v) ∈ m.entries := by
  obtain ⟨entries, hsorted⟩ := m
  simp only [find?]
  induction entries with
  | nil => simp
  | cons head rest ih =>
    obtain ⟨hhead, hrest⟩ := List.pairwise_cons.mp hsorted
    rw [List.find?_cons]
    by_cases heq : head.1 = k
    · have hnot : (k, v) ∉ rest := fun hmem => absurd heq (ne_of_lt (hhead _ hmem))
      simp only [heq, decide_true, Option.map_some, Option.some.injEq, List.mem_cons, hnot, or_false]
      exact ⟨fun hv => Prod.ext heq.symm hv.symm, fun hv => (congrArg Prod.snd hv).symm⟩
    · have hnot : (k, v) ≠ head := fun h => heq (congrArg Prod.fst h).symm
      simp only [heq, decide_false, List.mem_cons, hnot, false_or]
      exact ih hrest

/-- **Each key has what the things of that key make of its value**, in their order; the others leave
it as it is. -/
theorem find?_foldl_update (initial : ν) (key : α → κ) (f : α → ν → ν) (xs : List α)
    (m : OrderedMap κ ν) (k : κ) :
    (xs.foldl (fun m x => m.update initial (key x) (f x)) m).find? k =
      (xs.filter fun x => key x = k).foldl (fun v x => some (f x (v.getD initial)))
        (m.find? k) := by
  induction xs generalizing m with
  | nil => rfl
  | cons x xs ih =>
    rw [List.foldl_cons, ih, find?_update]
    by_cases heq : key x = k
    · subst heq
      rw [List.filter_cons_of_pos (by simp), List.foldl_cons, if_pos rfl]
    · rw [List.filter_cons_of_neg (by simpa using heq), if_neg (Ne.symm heq)]

/-- Once a key has a value, the things of the key change it one after the other. -/
theorem foldl_some (initial : ν) (f : α → ν → ν) (xs : List α) (v : ν) :
    xs.foldl (fun v x => some (f x (v.getD initial))) (some v) =
      some (xs.foldl (fun v x => f x v) v) := by
  induction xs generalizing v with
  | nil => rfl
  | cons x xs ih => exact ih (f x v)

/-- **Grouping**: from no keys at all, the keys are those of the things, and each has what its
things make of the initial value. -/
theorem find?_foldl_empty (initial : ν) (key : α → κ) (f : α → ν → ν) (xs : List α) (k : κ) :
    (xs.foldl (fun m x => m.update initial (key x) (f x)) empty).find? k =
      if xs.filter (fun x => key x = k) = [] then none
      else some ((xs.filter fun x => key x = k).foldl (fun v x => f x v) initial) := by
  rw [find?_foldl_update, find?_empty]
  cases hxs : xs.filter fun x => key x = k with
  | nil => rfl
  | cons x xs => exact foldl_some initial f xs (f x initial)

/-! ## Collecting pairs -/

/-- The map with these keys and values; of two pairs with one key the first is kept. -/
def collect (pairs : List (κ × ν)) : OrderedMap κ ν :=
  pairs.foldl (fun m pair => m.update pair.2 pair.1 id) empty

theorem find?_foldl_id [BEq κ] [LawfulBEq κ] (pairs : List (κ × ν)) (m : OrderedMap κ ν) (k : κ) :
    (pairs.foldl (fun m pair => m.update pair.2 pair.1 id) m).find? k =
      (m.find? k).or (pairs.lookup k) := by
  induction pairs generalizing m with
  | nil => rw [List.foldl_nil, List.lookup_nil, Option.or_none]
  | cons pair pairs ih =>
    rw [List.foldl_cons, ih, find?_update, List.lookup_cons]
    by_cases heq : k = pair.1
    · subst heq
      cases hfound : m.find? pair.1 with
      | none => simp
      | some v => simp
    · rw [if_neg heq, beq_false_of_ne heq]

@[simp] theorem find?_collect [BEq κ] [LawfulBEq κ] (pairs : List (κ × ν)) (k : κ) :
    (collect pairs).find? k = pairs.lookup k := by
  rw [collect, find?_foldl_id, find?_empty, Option.none_or]

/-- A key that comes behind all others is put behind them. -/
theorem updateEntries_last {initial : ν} {k : κ} {f : ν → ν} {entries : List (κ × ν)}
    (h : ∀ entry ∈ entries, entry.1 < k) :
    updateEntries initial k f entries = entries ++ [(k, f initial)] := by
  induction entries with
  | nil => rfl
  | cons entry rest ih =>
    have hlt : entry.1 < k := h entry List.mem_cons_self
    rw [updateEntries, if_neg (lt_asymm hlt), if_neg (ne_of_gt hlt),
      ih fun e he => h e (List.mem_cons_of_mem entry he), List.cons_append]

/-- What a map holds makes up that map. -/
theorem entries_collect_entries (m : OrderedMap κ ν) : (collect m.entries).entries = m.entries := by
  have h : ∀ (entries : List (κ × ν)) (before : OrderedMap κ ν),
      (before.entries ++ entries).Pairwise (fun a b => a.1 < b.1) →
      (entries.foldl (fun m pair => m.update pair.2 pair.1 id) before).entries =
        before.entries ++ entries := by
    intro entries
    induction entries with
    | nil => exact fun before _ => (List.append_nil _).symm
    | cons entry entries ih =>
      intro before hsorted
      have hlast : (before.update entry.2 entry.1 id).entries = before.entries ++ [entry] :=
        updateEntries_last fun e he =>
          (List.pairwise_append.mp hsorted).2.2 e he entry List.mem_cons_self
      rw [List.append_cons, ← hlast] at hsorted ⊢
      exact ih _ hsorted
  exact h m.entries empty m.sorted

theorem find?_eq_lookup [BEq κ] [LawfulBEq κ] (m : OrderedMap κ ν) (k : κ) :
    m.find? k = m.entries.lookup k := by
  rw [← find?_collect, find?, find?, entries_collect_entries]

theorem updateEntries_map {μ : Type*} (f : ν → μ) (initial : ν) (k : κ) (entries : List (κ × ν)) :
    updateEntries (f initial) k id (entries.map (Prod.map id f)) =
      (updateEntries initial k id entries).map (Prod.map id f) := by
  induction entries with
  | nil => rfl
  | cons entry rest ih =>
    rw [List.map_cons, updateEntries, updateEntries, ih]
    simp only [Prod.map_fst, Prod.map_snd, id_eq, apply_ite (List.map (Prod.map id f)), List.map_cons,
      Prod.map_apply]

/-- Values that are changed before they are collected might as well be changed afterwards. -/
theorem entries_collect_map {μ : Type*} (f : ν → μ) (pairs : List (κ × ν)) :
    (collect (pairs.map (Prod.map id f))).entries = (collect pairs).entries.map (Prod.map id f) := by
  have h : ∀ (m : OrderedMap κ ν) (m' : OrderedMap κ μ),
      m'.entries = m.entries.map (Prod.map id f) →
      ((pairs.map (Prod.map id f)).foldl (fun m pair => m.update pair.2 pair.1 id) m').entries =
        (pairs.foldl (fun m pair => m.update pair.2 pair.1 id) m).entries.map (Prod.map id f) := by
    induction pairs with
    | nil => exact fun m m' heq => heq
    | cons pair pairs ih =>
      intro m m' heq
      rw [List.map_cons, List.foldl_cons, List.foldl_cons]
      refine ih _ _ ?_
      have hentries := updateEntries_map f pair.2 pair.1 m.entries
      rwa [← heq] at hentries
  exact h empty empty rfl

end OrderedMap
end DevScan.Lib
