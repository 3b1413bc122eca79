import DevScan.Json.RoundTrip

/-!
# `Json/Assign.lean` — what assignments leave in a value

`v[k₁][k₂]… = x` for one path after the other, as documents are put together here. An assignment
succeeds if every value the path leads through can be looked into; what is at the end of the path is
the value that was assigned, and what other paths lead to, those that part from it at some key, is
still there (`assigned`). So a row of assignments of which no two are in each other's way can be read
in any order (`assignAll_reads`).
-/

set_option autoImplicit false

namespace DevScan.Json.Value

open Lib (bind_eq_ok pure_eq_ok)

/-- The paths part at some key. -/
def diverge : List StdString → List StdString → Bool
  | key :: path, key' :: path' => if key = key' then diverge path path' else true
  | _, _ => false

theorem diverge_comm (p q : List StdString) : diverge p q = diverge q p := by
  fun_induction diverge p q with
  | case1 key path path' ih => rw [diverge, if_pos rfl, ih]
  | case2 key path key' path' hne => rw [diverge, if_neg (Ne.symm hne)]
  | case3 p q h =>
    cases p with
    | nil =>
      cases q with
      | nil => rfl
      | cons key' q => rfl
    | cons key p =>
      cases q with
      | nil => rfl
      | cons key' q => exact absurd rfl (h key p key' q rfl)

theorem lookup_setMember (members : List (StdString × Value)) (key key' : StdString) (value : Value) :
    (setMember members key value).lookup key' =
      if key' = key then some value else members.lookup key' := by
  induction members with
  | nil =>
    rw [setMember, List.lookup_cons]
    split
    · rename_i heq
      rw [if_pos (beq_iff_eq.mp heq)]
    · rename_i hne
      rw [if_neg (beq_eq_false_iff_ne.mp (by simpa using hne))]
  | cons m members ih =>
    rw [setMember]
    split
    · rename_i heq
      rw [List.lookup_cons, List.lookup_cons, heq]
      by_cases hkey : key' = key
      · rw [if_pos hkey, beq_iff_eq.mpr hkey]
      · rw [if_neg hkey, beq_false_of_ne hkey]
    · rename_i hne
      rw [List.lookup_cons, List.lookup_cons, ih]
      by_cases hkey : key' = m.1
      · have hother : key' ≠ key := fun h => hne (hkey.symm.trans h)
        rw [beq_iff_eq.mpr hkey, if_neg hother, if_neg hother]
      · rw [beq_false_of_ne hkey]

/-- The members of an object; null has none. -/
def members : Value → List (StdString × Value)
  | objectValue members => members
  | _ => []

theorem get_members (v : Value) (key : StdString) :
    v.get key = (v.members.lookup key).getD nullValue := by
  cases v with
  | objectValue members => rfl
  | _ => rfl

/-- One step of an assignment; null becomes an object. -/
theorem assign_cons {v : Value} (hv : v.Indexable) (key : StdString) (keys : List StdString)
    (x : Value) :
    v.assign (key :: keys) x = (v.get key).assign keys x >>= fun member =>
      pure (objectValue (setMember v.members key member)) := by
  cases v with
  | nullValue => rfl
  | objectValue members => rfl
  | _ => exact hv.elim

theorem get_setMember (v : Value) (key key' : StdString) (member : Value) :
    (objectValue (setMember v.members key member)).get key' =
      if key' = key then member else v.get key' := by
  rw [get_members, get_members, members, lookup_setMember]
  split
  · rfl
  · rfl

/-- What an assignment leaves: the value at the end of the path, and at the end of every path that
parts from it what was there before. -/
structure Assigned (v w : Value) (path : List StdString) (x : Value) : Prop where
  along : w.IndexableAlong path
  there : w.getPath path = x
  elsewhere : ∀ other, diverge path other = true →
    (w.IndexableAlong other ↔ v.IndexableAlong other) ∧ w.getPath other = v.getPath other

/-- **An assignment succeeds** if the path can be followed, **and changes nothing elsewhere**. -/
theorem assigned {v : Value} {path : List StdString} (h : v.IndexableAlong path) (x : Value) :
    ∃ w, v.assign path x = .ok w ∧ Assigned v w path x := by
  induction path generalizing v with
  | nil =>
    refine ⟨x, ?_, indexableAlong_nil x, rfl, fun other hother => absurd hother (by simp [diverge])⟩
    cases v with
    | _ => rfl
  | cons key path ih =>
    obtain ⟨hv, hmember⟩ := indexableAlong_cons.mp h
    obtain ⟨member, hassign, hassigned⟩ := ih hmember
    refine ⟨objectValue (setMember v.members key member), ?_, ?_, ?_, fun other hother => ?_⟩
    · rw [assign_cons hv, hassign]
      rfl
    · rw [indexableAlong_cons, get_setMember, if_pos rfl]
      exact ⟨trivial, hassigned.along⟩
    · rw [getPath, List.foldl_cons, get_setMember, if_pos rfl]
      exact hassigned.there
    · cases other with
      | nil => exact absurd hother (by simp [diverge])
      | cons key' other =>
        rw [indexableAlong_cons, indexableAlong_cons, getPath, getPath, List.foldl_cons,
          List.foldl_cons, get_setMember]
        rw [diverge] at hother
        split at hother
        · rename_i heq
          obtain ⟨halong, hget⟩ := hassigned.elsewhere other hother
          rw [if_pos heq.symm, ← heq]
          exact ⟨and_congr (iff_of_true trivial hv) halong, hget⟩
        · rename_i hne
          rw [if_neg (Ne.symm hne)]
          exact ⟨and_congr (iff_of_true trivial hv) Iff.rfl, rfl⟩

/-! ## Rows of assignments -/

/-- One assignment after the other. -/
def assignAll (v : Value) (fields : List (List StdString × Value)) : Except Exn Value :=
  fields.foldlM (fun v field => v.assign field.1 field.2) v

/-- No two of them are in each other's way. -/
def Apart (fields : List (List StdString × Value)) : Prop :=
  (fields.map Prod.fst).Pairwise fun path other => diverge path other = true

instance (fields : List (List StdString × Value)) : Decidable (Apart fields) :=
  inferInstanceAs (Decidable (List.Pairwise _ _))

theorem assignAll_assigned {v : Value} {fields : List (List StdString × Value)}
    (hapart : Apart fields) (h : ∀ field ∈ fields, v.IndexableAlong field.1) :
    ∃ w, v.assignAll fields = .ok w ∧
      (∀ field ∈ fields, w.IndexableAlong field.1 ∧ w.getPath field.1 = field.2) ∧
      ∀ other, (∀ field ∈ fields, diverge field.1 other = true) →
        (w.IndexableAlong other ↔ v.IndexableAlong other) ∧ w.getPath other = v.getPath other := by
  induction fields generalizing v with
  | nil => exact ⟨v, rfl, fun _ h => absurd h List.not_mem_nil, fun _ _ => ⟨Iff.rfl, rfl⟩⟩
  | cons field fields ih =>
    obtain ⟨hfirst, hrest⟩ := List.pairwise_cons.mp hapart
    obtain ⟨w, hassign, hassigned⟩ := assigned (h field List.mem_cons_self) field.2
    have hparts : ∀ later ∈ fields, diverge field.1 later.1 = true := fun later hlater =>
      hfirst later.1 (List.mem_map_of_mem hlater)
    obtain ⟨u, hall, hthere, helsewhere⟩ := ih hrest fun later hlater =>
      (hassigned.elsewhere later.1 (hparts later hlater)).1.mpr (h later (List.mem_cons_of_mem _ hlater))
    refine ⟨u, ?_, fun f hf => ?_, fun other hother => ?_⟩
    · rw [assignAll, List.foldlM_cons, hassign]
      exact hall
    · rcases List.mem_cons.mp hf with rfl | hf
      · have hback : ∀ later ∈ fields, diverge later.1 f.1 = true := fun later hlater =>
          (diverge_comm _ _).trans (hparts later hlater)
        obtain ⟨halong, hget⟩ := helsewhere f.1 hback
        exact ⟨halong.mpr hassigned.along, hget.trans hassigned.there⟩
      · exact hthere f hf
    · obtain ⟨halong, hget⟩ := helsewhere other fun later hlater =>
        hother later (List.mem_cons_of_mem _ hlater)
      obtain ⟨halong', hget'⟩ := hassigned.elsewhere other (hother field List.mem_cons_self)
      exact ⟨halong.trans halong', hget.trans hget'⟩

theorem indexableAlong_null (path : List StdString) : nullValue.IndexableAlong path := by
  induction path with
  | nil => exact indexableAlong_nil _
  | cons key path ih => exact indexableAlong_cons.mpr ⟨trivial, ih⟩

/-- **A document that is put together can be read**, each path for itself. -/
theorem assignAll_reads {fields : List (List StdString × Value)} (hapart : Apart fields) :
    ∃ w, nullValue.assignAll fields = .ok w ∧
      ∀ field ∈ fields, w.indexPath field.1 = .ok field.2 := by
  obtain ⟨w, hassign, hthere, -⟩ := assignAll_assigned hapart fun field _ =>
    indexableAlong_null field.1
  exact ⟨w, hassign, fun field hfield => indexPath_eq_iff.mpr (hthere field hfield)⟩

theorem getPath_null (keys : List StdString) : nullValue.getPath keys = nullValue := by
  induction keys with
  | nil => rfl
  | cons key keys ih => exact ih

/-- What has members that are not null is an object. -/
theorem isContainer_of_indexPath {v u : Value} {keys : List StdString} (hne : keys ≠ [])
    (h : v.indexPath keys = .ok u) (hu : u ≠ nullValue) : Reader.isContainer v = true := by
  obtain ⟨key, keys, rfl⟩ := List.exists_cons_of_ne_nil hne
  obtain ⟨halong, hget⟩ := indexPath_eq_iff.mp h
  have hindexable := (indexableAlong_cons.mp halong).1
  cases v with
  | objectValue members => rfl
  | nullValue => exact absurd (hget.symm.trans (getPath_null _)) hu
  | _ => exact hindexable.elim

/-! ## What is put together can be written -/

variable {sscanf : StdString → Option Real}

theorem Writable.members {v : Value} (hv : v.Writable sscanf) :
    ∀ m ∈ v.members, cString m.1 = m.1 ∧ m.2.Writable sscanf := by
  cases hv with
  | object hnames h => exact fun m hm => ⟨hnames m hm, h m hm⟩
  | _ => exact List.forall_mem_nil _

theorem Writable.get {v : Value} (hv : v.Writable sscanf) (key : StdString) :
    (v.get key).Writable sscanf := by
  rw [get_members]
  cases hlookup : v.members.lookup key with
  | none => exact .null
  | some member =>
    obtain ⟨before, after, hmembers, -⟩ := List.lookup_eq_some_iff.mp hlookup
    refine (hv.members (key, member) ?_).2
    rw [hmembers]
    exact List.mem_append_right before List.mem_cons_self

theorem mem_setMember {members : List (StdString × Value)} {key : StdString} {value : Value}
    {m : StdString × Value} (h : m ∈ setMember members key value) : m = (key, value) ∨ m ∈ members := by
  induction members with
  | nil => exact Or.inl (List.mem_singleton.mp h)
  | cons first members ih =>
    rw [setMember] at h
    split at h
    · rename_i heq
      rcases List.mem_cons.mp h with rfl | h
      · exact Or.inl (Prod.ext heq rfl)
      · exact Or.inr (List.mem_cons_of_mem _ h)
    · rcases List.mem_cons.mp h with rfl | h
      · exact Or.inr List.mem_cons_self
      · exact (ih h).imp_right (List.mem_cons_of_mem _)

theorem Writable.assign {path : List StdString} {v w x : Value} (hv : v.Writable sscanf)
    (hpath : ∀ key ∈ path, cString key = key) (hx : x.Writable sscanf) (h : v.assign path x = .ok w) :
    w.Writable sscanf := by
  induction path generalizing v w with
  | nil =>
    have hassign : v.assign [] x = .ok x := by cases v with | _ => rfl
    obtain rfl := Except.ok.inj (hassign.symm.trans h)
    exact hx
  | cons key path ih =>
    have hindexable : v.Indexable := by
      cases v with
      | nullValue => trivial
      | objectValue members => trivial
      | _ => exact absurd h (by simp [Value.assign])
    rw [assign_cons hindexable, bind_eq_ok] at h
    obtain ⟨member, hmember, hw⟩ := h
    obtain rfl := pure_eq_ok.mp hw
    have hwritable : ∀ m ∈ setMember v.members key member, cString m.1 = m.1 ∧ m.2.Writable sscanf := by
      intro m hm
      rcases mem_setMember hm with rfl | hm
      · exact ⟨hpath key List.mem_cons_self,
          ih (hv.get key) (fun k hk => hpath k (List.mem_cons_of_mem _ hk)) hmember⟩
      · exact hv.members m hm
    exact .object (fun m hm => (hwritable m hm).1) fun m hm => (hwritable m hm).2

theorem Writable.assignAll {fields : List (List StdString × Value)} {v w : Value}
    (hv : v.Writable sscanf) (hpaths : ∀ field ∈ fields, ∀ key ∈ field.1, cString key = key)
    (hvalues : ∀ field ∈ fields, field.2.Writable sscanf) (h : v.assignAll fields = .ok w) :
    w.Writable sscanf := by
  induction fields generalizing v with
  | nil => exact pure_eq_ok.mp h ▸ hv
  | cons field fields ih =>
    rw [Value.assignAll, List.foldlM_cons, bind_eq_ok] at h
    obtain ⟨u, hassign, hrest⟩ := h
    have hu := hv.assign (hpaths field List.mem_cons_self) (hvalues field List.mem_cons_self) hassign
    exact ih hu (fun f hf => hpaths f (List.mem_cons_of_mem _ hf))
      (fun f hf => hvalues f (List.mem_cons_of_mem _ hf)) hrest

end DevScan.Json.Value
