import DevScan.Net.Telegram

/-!
# `Net/TelegramBounds.lean` — what is read is what was received

The loop over the messages is safe as long as the length it counts down is what is left of the
telegram. It is, until a message ends within the last three bytes of what was received:
`NLMSG_NEXT` takes off the length rounded up, and a `size_t` wraps. The attributes are counted
down in an `int` and end as they should; but an address message may be shorter than an
`ifaddrmsg`, and an attribute shorter than the address that is read from it.

`messages` are the messages in plain arithmetic, and `staysInside_iff` says what the layout of
each has to be.
-/

set_option autoImplicit false

namespace DevScan.Net.Telegram

open Lib.Int32 (toInt)

/-- The length never wraps, and only received bytes are read. -/
def Inside (t : Telegram) (w : Walk) : Prop :=
  (∀ w', (t.process w).next = some w' → align (t.nlmsgLen w.nh) ≤ w.bufferSize) ∧
    ∀ r ∈ (t.process w).reads, r.Within t.nBytes

/-- `processNetlinkTelegram` comes to an end, and in every round of its loop is inside the
telegram. -/
def StaysInside (t : Telegram) : Prop :=
  Lib.Loop.Safe (fun w => (t.process w).next) t.Inside t.start

/-! ## The layout of a telegram -/

/-- There is a message at this offset, and it does not end the loop. -/
def HasMessage (t : Telegram) (nh : Nat) : Prop :=
  sizeofNlmsghdr ≤ t.nlmsgLen nh ∧ nh + t.nlmsgLen nh ≤ t.nBytes ∧ ¬t.Last nh

instance (t : Telegram) (nh : Nat) : Decidable (t.HasMessage nh) :=
  inferInstanceAs (Decidable (_ ∧ _ ∧ _))

theorem small {t : Telegram} {n : Nat} (h : n ≤ t.nBytes) : n + 3 < Lib.Int32.modulus := by
  have hle := t.nBytes_le
  have hmodulus : maxDatagramSize + 3 < Lib.Int32.modulus := by decide
  omega

theorem nlmsgLen_le_align {t : Telegram} {nh : Nat} (h : nh + t.nlmsgLen nh ≤ t.nBytes) :
    t.nlmsgLen nh ≤ align (t.nlmsgLen nh) :=
  le_align (t.small (Nat.le_trans (Nat.le_add_left _ _) h))

/-- The messages from an offset on, with their number. -/
def messages (t : Telegram) (round nh : Nat) : List (Nat × Nat) :=
  if t.HasMessage nh then
    (round, nh) :: t.messages (round + 1) (nh + align (t.nlmsgLen nh))
  else []
termination_by t.nBytes - nh
decreasing_by
  rename_i hmessage
  have hle := nlmsgLen_le_align hmessage.2.1
  have hheader := hmessage.1
  have hsixteen : sizeofNlmsghdr = 16 := rfl
  have hend := hmessage.2.1
  omega

/-- **The layout a message needs**: its padding has been received, an address message starts
with a complete `ifaddrmsg`, and an attribute whose payload is read has one. -/
structure LaidOut (t : Telegram) (round nh : Nat) : Prop where
  padding : nh + align (t.nlmsgLen nh) ≤ t.nBytes
  ifaddrmsg : (t.messageType? nh).isSome → nlmsgData nh + sizeofIfaddrmsg ≤ t.nBytes
  payload : ∀ type, t.messageType? nh = some type → t.ifaFamily (nlmsgData nh) = afInet →
    ∀ rth ∈ t.attributes (ifaRta (nlmsgData nh)) (t.ifaPayload nh),
      t.ReadsPayload round nh type rth → rtaData rth + sizeofInAddr ≤ t.nBytes

/-! ## The attributes -/

/-- What the message has left for attributes; negative if it is shorter than an `ifaddrmsg`. -/
theorem ifaPayload_eq {t : Telegram} {nh : Nat} (h : t.HasMessage nh) :
    t.ifaPayload nh = t.nlmsgLen nh - (sizeofNlmsghdr + sizeofIfaddrmsg : Nat) := by
  have hle : t.nlmsgLen nh ≤ t.nBytes := Nat.le_trans (Nat.le_add_left _ _) h.2.1
  have hbytes := t.nBytes_le
  have hbound : maxDatagramSize < Lib.Int32.bound := by decide
  exact Lib.Int32.toInt_sub (by omega) (by decide)

/-- **The attributes of a message that has been received**: their headers have been received as
well. -/
theorem attributeReads_within {t : Telegram} {round nh : Nat} {type : MessageType} {rth : Nat}
    {rtl : Int} (h : rth + rtl ≤ t.nBytes) :
    (∀ r ∈ t.attributeReads round nh type rth rtl, r.Within t.nBytes) ↔
      ∀ rth' ∈ t.attributes rth rtl,
        t.ReadsPayload round nh type rth' → rtaData rth' + sizeofInAddr ≤ t.nBytes := by
  fun_induction attributeReads t round nh type rth rtl with
  | case1 rth rtl hok ih =>
    have hheader : Read.Within ⟨rth, sizeofRtattr⟩ t.nBytes := by
      have hle := hok.2
      show rth + sizeofRtattr ≤ t.nBytes
      omega
    rw [List.forall_mem_cons, and_iff_right hheader, attributes]
    by_cases hfits : t.RtaFits rth rtl
    · have hentered : (sizeofRtattr : Int) ≤ rtl ∧ t.RtaFits rth rtl := ⟨hok.2, hfits⟩
      have hrest := ih hfits (by push_cast; omega)
      rw [if_pos hentered, if_pos hfits, List.forall_mem_append, List.forall_mem_cons, hrest]
      refine and_congr_left fun _ => ?_
      by_cases hreads : t.ReadsPayload round nh type rth
      · rw [if_pos hreads, List.forall_mem_singleton]
        exact ⟨fun hwithin _ => hwithin, fun hwithin => hwithin hreads⟩
      · rw [if_neg hreads]
        exact iff_of_true (by simp) fun h => absurd h hreads
    · have hleft : ¬((sizeofRtattr : Int) ≤ rtl ∧ t.RtaFits rth rtl) := fun h => hfits h.2
      rw [if_neg hleft, if_neg hfits]
      exact iff_of_true (by simp) (by simp)
  | case2 rth rtl hok =>
    rw [attributes, if_neg]
    · exact iff_of_true (by simp) (by simp)
    · intro h
      have hfour : sizeofRtattr = 4 := rfl
      exact hok ⟨by omega, h.1⟩

/-! ## The messages -/

/-- The walk, as long as nothing has wrapped. -/
def walkAt (t : Telegram) (round nh : Nat) : Walk := ⟨round, nh, t.nBytes - nh⟩

theorem messageReads_within {t : Telegram} {round nh : Nat} (h : t.HasMessage nh)
    (hpadding : nh + align (t.nlmsgLen nh) ≤ t.nBytes) :
    (∀ r ∈ t.messageReads round nh, r.Within t.nBytes) ↔ t.LaidOut round nh := by
  have hattributes : ∀ type,
      (∀ r ∈ t.attributeReads round nh type (ifaRta (nlmsgData nh)) (t.ifaPayload nh),
        r.Within t.nBytes) ↔ _ := fun type => attributeReads_within (by
    rw [ifaPayload_eq h]
    have hend := h.2.1
    simp only [ifaRta, nlmsgData]
    push_cast
    omega)
  unfold messageReads
  cases htype : t.messageType? nh with
  | none =>
    refine iff_of_true (by simp) ⟨hpadding, fun hsome => ?_, fun type hsome => ?_⟩
    · exact absurd hsome (by simp [htype])
    · exact absurd (htype.symm.trans hsome) (by simp)
  | some type =>
    simp only [List.forall_mem_cons]
    constructor
    · rintro ⟨hifaddrmsg, hrest⟩
      refine ⟨hpadding, fun _ => hifaddrmsg, fun type' htype' hfamily => ?_⟩
      obtain rfl := Option.some.inj (htype.symm.trans htype')
      rw [if_pos hfamily] at hrest
      exact (hattributes type).mp hrest
    · intro hlaid
      refine ⟨hlaid.ifaddrmsg (by simp [htype]), ?_⟩
      split
      · rename_i hfamily
        exact (hattributes type).mpr (hlaid.payload type htype hfamily)
      · simp

/-- The header of a message is read if there are as many bytes left. -/
theorem header_within {t : Telegram} {round nh : Nat}
    (h : sizeofNlmsghdr ≤ (t.walkAt round nh).bufferSize) :
    Read.Within ⟨nh, sizeofNlmsghdr⟩ t.nBytes := by
  have hsixteen : sizeofNlmsghdr = 16 := rfl
  have hleft : sizeofNlmsghdr ≤ t.nBytes - nh := h
  show nh + sizeofNlmsghdr ≤ t.nBytes
  omega

/-- Without a message the loop ends, and inside. -/
theorem process_of_no_message {t : Telegram} (round : Nat) {nh : Nat} (h : ¬t.HasMessage nh) :
    (t.process (t.walkAt round nh)).next = none ∧ t.Inside (t.walkAt round nh) := by
  have hlast : ∀ reads : List Read, t.process (t.walkAt round nh) = ⟨reads, none⟩ →
      (∀ r ∈ reads, r.Within t.nBytes) →
      (t.process (t.walkAt round nh)).next = none ∧ t.Inside (t.walkAt round nh) := by
    intro reads hprocess hreads
    rw [Inside, hprocess]
    exact ⟨rfl, fun w' hw' => absurd hw' (by simp), hreads⟩
  by_cases hheader : sizeofNlmsghdr ≤ (t.walkAt round nh).bufferSize
  · refine hlast [⟨nh, sizeofNlmsghdr⟩] ?_ (by simpa using header_within hheader)
    rw [process, if_pos hheader]
    split
    · rename_i hfits
      rw [if_pos]
      · rfl
      · have hsixteen : sizeofNlmsghdr = 16 := rfl
        have hheader' : sizeofNlmsghdr ≤ t.nBytes - nh := hheader
        have hend : t.nlmsgLen nh ≤ t.nBytes - nh := hfits.2
        exact Classical.byContradiction fun hnot => h ⟨hfits.1, by omega, hnot⟩
    · rfl
  · refine hlast [] ?_ (by simp)
    rw [process, if_neg hheader]

/-- With one, the next round is at the message behind its padding, and inside is the layout. -/
theorem process_of_message {t : Telegram} (round : Nat) {nh : Nat} (h : t.HasMessage nh) :
    ∃ w', (t.process (t.walkAt round nh)).next = some w' ∧
      (t.Inside (t.walkAt round nh) ↔ t.LaidOut round nh) ∧
      (t.LaidOut round nh → w' = t.walkAt (round + 1) (nh + align (t.nlmsgLen nh))) := by
  have hsixteen : sizeofNlmsghdr = 16 := rfl
  have hlen := h.1
  have hend := h.2.1
  have hheader : sizeofNlmsghdr ≤ (t.walkAt round nh).bufferSize := by
    show sizeofNlmsghdr ≤ t.nBytes - nh
    omega
  have hfits : t.NlmsgFits (t.walkAt round nh) := by
    refine ⟨hlen, ?_⟩
    show t.nlmsgLen nh ≤ t.nBytes - nh
    omega
  have hprocess : t.process (t.walkAt round nh) =
      ⟨⟨nh, sizeofNlmsghdr⟩ :: t.messageReads round nh,
        some (t.nlmsgNext (t.walkAt round nh))⟩ := by
    rw [process, if_pos hheader, if_pos hfits]
    exact if_neg h.2.2
  refine ⟨_, congrArg Round.next hprocess, ?_, fun hlaid => ?_⟩
  · rw [Inside, hprocess]
    simp only [List.forall_mem_cons, Option.some.injEq, forall_eq']
    constructor
    · rintro ⟨hpadding, -, hreads⟩
      have hpadding' : align (t.nlmsgLen nh) ≤ t.nBytes - nh := hpadding
      exact (messageReads_within h (by omega)).mp hreads
    · intro hlaid
      have hpadding := hlaid.padding
      refine ⟨?_, header_within hheader, (messageReads_within h hpadding).mpr hlaid⟩
      show align (t.nlmsgLen nh) ≤ t.nBytes - nh
      omega
  · have hpadding := hlaid.padding
    have hmodulus : maxDatagramSize < Lib.SizeT.modulus := by decide
    have hle := t.nBytes_le
    have hsub : Lib.SizeT.sub (t.nBytes - nh) (align (t.nlmsgLen nh)) =
        t.nBytes - (nh + align (t.nlmsgLen nh)) := by
      rw [Lib.SizeT.sub_of_le (by omega) (by omega), Nat.sub_sub]
    exact congrArg (Walk.mk (round + 1) (nh + align (t.nlmsgLen nh))) hsub

/-- **The loop, from any message on.** -/
theorem safe_walkAt (t : Telegram) (round nh : Nat) :
    Lib.Loop.Safe (fun w => (t.process w).next) t.Inside (t.walkAt round nh) ↔
      ∀ m ∈ t.messages round nh, t.LaidOut m.1 m.2 := by
  fun_induction messages t round nh with
  | case1 round nh hmessage ih =>
    obtain ⟨w', hnext, hinside, hbehind⟩ := process_of_message round hmessage
    rw [Lib.Loop.safe_iff_of_some hnext, List.forall_mem_cons, hinside]
    constructor
    · rintro ⟨hlaid, hrest⟩
      rw [hbehind hlaid] at hrest
      exact ⟨hlaid, ih.mp hrest⟩
    · rintro ⟨hlaid, hrest⟩
      rw [hbehind hlaid]
      exact ⟨hlaid, ih.mpr hrest⟩
  | case2 round nh hmessage =>
    obtain ⟨hnone, hinside⟩ := process_of_no_message round hmessage
    rw [Lib.Loop.safe_iff_of_none hnone]
    exact iff_of_true hinside (by simp)

/-- **When parsing stays inside the telegram**: exactly if each of its messages is laid out as
one has to be. -/
theorem staysInside_iff (t : Telegram) :
    t.StaysInside ↔ ∀ m ∈ t.messages 0 0, t.LaidOut m.1 m.2 :=
  t.safe_walkAt 0 0

/-- A `RTM_NEWLINK` of 17 bytes, without padding. -/
def unpadded : Telegram where
  byteOrder := .littleEndian
  byte offset := if offset = 0 then 17 else if offset = 4 then 16 else 0
  nBytes := 17
  nBytes_le := by decide
  updates _ := []
  hasHandler := true

/-- The three bytes of padding are taken off 17 bytes as well: the length wraps. -/
theorem unpadded_wraps : ¬unpadded.StaysInside := by
  intro hsafe
  have hinside : unpadded.Inside unpadded.start :=
    hsafe.2 _ (Lib.Loop.visits_iff.mpr (Or.inl rfl))
  exact absurd (hinside.1 _ rfl) (by decide)

end DevScan.Net.Telegram
