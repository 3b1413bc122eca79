import DevScan.Stream.WindowsSend

/-!
# `Stream/WindowsBlocks.lean` — what the Windows `sendBlocks` counts

`sendBlocks` counts what `sendBlock` returns, a failure that is hidden there with it, and returns an
error code of `WSASend` as it is. As long as an `int` can count the blocks, all that `WSASend` has
not accepted is sent block by block (`resumeLoop_ends`), and it depends on `blocksEnd` whether the
bytes that are returned have been accepted.

No `int` is the length of 2³¹ bytes or more: a call that is to send them has to return something
negative. The `DWORD` it counts in and the sum of the blocks are the same until the sum leaves 32
bits. Then the count starts again at zero, and the next buffer would be sent from an address in
front of it. `Miscounts` says by counting alone how the loop comes to its end or gets there.
-/

set_option autoImplicit false

namespace DevScan.Stream.Windows

open Lib.Int32 (toInt bound modulus bound_lt_modulus toInt_of_lt toInt_lt toInt_neg toInt_mod)
open Lib.SizeT (signedBound add_of_lt sub_of_le)

/-! ## Blocks one after the other -/

/-- What is left of each of the blocks behind the first `count` bytes. -/
def lengthsBehind : Nat → List (List UInt8) → List Nat
  | _, [] => []
  | count, block :: blocks => (block.length - count) :: lengthsBehind (count - block.length) blocks

/-- A block has ended, and those behind it end in turn. -/
theorem Ends.next {retVal total : Int} {block rest : List UInt8} {error : Bool}
    {left : List Round} {sent sent' : Sent} {ending : Option (Bool × List Round)}
    (hlength : (block ++ rest).length < bound)
    (h : Ends retVal block (some (error, left)) sent) (hrest : Ends total rest ending sent') :
    Ends total (block ++ rest) (ending.map fun e => (error || e.1, e.2))
      (sent'.after sent.accepted) := by
  have hlt : ∀ {a b : List UInt8}, a.length ≤ block.length → b.length < rest.length →
      (a ++ b).length < (block ++ rest).length := fun ha hb => by
    rw [List.length_append, List.length_append]
    omega
  cases h with
  | complete _ =>
    cases hrest with
    | reported hret hrest => exact .reported hret (hlt (Nat.le_refl _) hrest)
    | complete _ => exact .complete hlength
    | error hrest => exact .error (hlt (Nat.le_refl _) hrest)
  | error herror =>
    cases hrest with
    | reported hret hrest => exact .reported hret (hlt (Nat.le_of_lt herror) hrest)
    | complete _ =>
      refine .error ?_
      rw [List.length_append, List.length_append]
      exact Nat.add_lt_add_right herror _
    | error hrest => exact .error (hlt (Nat.le_of_lt herror) hrest)

theorem map_false_or (ending : Option (Bool × List Round)) :
    (ending.map fun e => (false || e.1, e.2)) = ending := by
  cases ending <;> rfl

section Resume

variable {rounds : List Round} {bytesWritten blockSum : Nat} {buffer : List UInt8}
  {buffers : List (List UInt8)}

/-- One round of the loop, at a block that was not written completely: its rest is sent. -/
theorem resumeLoop_cut (hlt : blockSum + buffer.length < Lib.SizeT.modulus)
    (hle : blockSum ≤ bytesWritten) (hcut : bytesWritten < blockSum + buffer.length) {sent : Sent}
    (hsent : sendBlock rounds (buffer.drop (bytesWritten - blockSum)) = sent) :
    resumeLoop rounds bytesWritten blockSum (buffer :: buffers) =
      match sent.retVal with
      | none => some sent
      | some retVal =>
        if 0 < retVal then
          (resumeLoop sent.rounds (Lib.Int32.add bytesWritten (Lib.Int32.toDword retVal))
            (blockSum + buffer.length) buffers).map fun rest => rest.after sent.accepted
        else some { sent with retVal := some (-1) } := by
  have hremaining : Lib.SizeT.sub (blockSum + buffer.length) bytesWritten =
      blockSum + buffer.length - bytesWritten := sub_of_le (by omega) hlt
  have hstart : ¬buffer.length <
      Lib.SizeT.sub buffer.length (Lib.SizeT.sub (blockSum + buffer.length) bytesWritten) := by
    rw [hremaining, sub_of_le (by omega) (by omega)]
    omega
  simp only [resumeLoop, add_of_lt hlt]
  rewrite [if_pos hcut, if_neg hstart, rest_of_cut hlt hle hcut, hsent]
  rfl

theorem resumeLoop_passed (hlt : blockSum + buffer.length < Lib.SizeT.modulus)
    (hcut : ¬bytesWritten < blockSum + buffer.length) :
    resumeLoop rounds bytesWritten blockSum (buffer :: buffers) =
      resumeLoop rounds bytesWritten (blockSum + buffer.length) buffers := by
  simp only [resumeLoop, add_of_lt hlt]
  rw [if_neg hcut]

/-- `sendBlock` returns nothing greater than zero: -1 is returned. -/
theorem resumeLoop_failed (hlt : blockSum + buffer.length < Lib.SizeT.modulus)
    (hle : blockSum ≤ bytesWritten) (hcut : bytesWritten < blockSum + buffer.length) {sent : Sent}
    (hsent : sendBlock rounds (buffer.drop (bytesWritten - blockSum)) = sent)
    (hfailed : ∀ retVal, sent.retVal = some retVal → retVal ≤ 0) :
    ∃ retVal : Option Int, (∀ v, retVal = some v → v = -1) ∧
      resumeLoop rounds bytesWritten blockSum (buffer :: buffers) =
        some { sent with retVal := retVal } := by
  rw [resumeLoop_cut hlt hle hcut hsent]
  cases hreturned : sent.retVal with
  | none =>
    refine ⟨none, fun v hv => absurd hv (by simp), ?_⟩
    simp only [← hreturned]
  | some retVal =>
    refine ⟨some (-1), fun v hv => (Option.some.inj hv).symm, ?_⟩
    have hneg := hfailed retVal hreturned
    exact if_neg (by omega)

/-- The rest of the block the cut lies in is taken for sent: on with the blocks behind it, with what
a `DWORD` holds of the sum. -/
theorem resumeLoop_sent (hlt : blockSum + buffer.length < Lib.SizeT.modulus)
    (hle : blockSum ≤ bytesWritten) (hcut : bytesWritten < blockSum + buffer.length) {sent : Sent}
    (hsent : sendBlock rounds (buffer.drop (bytesWritten - blockSum)) = sent)
    (hleft : blockSum + buffer.length - bytesWritten < bound)
    (hret : sent.retVal = some (toInt (blockSum + buffer.length - bytesWritten))) :
    resumeLoop rounds bytesWritten blockSum (buffer :: buffers) =
      (resumeLoop sent.rounds ((blockSum + buffer.length) % modulus) (blockSum + buffer.length)
        buffers).map fun rest => rest.after sent.accepted := by
  have hmodulus := bound_lt_modulus
  have hvalue := toInt_of_lt hleft
  have hnext : Lib.Int32.add bytesWritten
      (Lib.Int32.toDword (blockSum + buffer.length - bytesWritten : Nat)) =
        (blockSum + buffer.length) % modulus := by
    rw [Lib.Int32.toDword_natCast (by omega), Lib.Int32.add, Nat.add_sub_of_le (Nat.le_of_lt hcut)]
  rw [resumeLoop_cut hlt hle hcut hsent, hret, hvalue]
  simp only
  rw [if_pos (by omega), hnext]

theorem length_rest (hle : blockSum ≤ bytesWritten) :
    (buffer.drop (bytesWritten - blockSum)).length = blockSum + buffer.length - bytesWritten := by
  rw [List.length_drop]
  omega

theorem rest_ends (hle : blockSum ≤ bytesWritten) (rounds : List Round) :
    Ends (toInt (blockSum + buffer.length - bytesWritten)) (buffer.drop (bytesWritten - blockSum))
      (blockEnd (blockSum + buffer.length - bytesWritten) rounds)
      (sendBlock rounds (buffer.drop (bytesWritten - blockSum))) := by
  have hends := sendLoop_ends (toInt (buffer.drop (bytesWritten - blockSum)).length) rounds
    (buffer.drop (bytesWritten - blockSum))
  rwa [← sendBlock, length_rest hle] at hends

end Resume

theorem resumeLoop_ends {buffers : List (List UInt8)} :
    ∀ {rounds : List Round} {bytesWritten blockSum : Nat},
      blockSum + buffers.flatten.length < bound → blockSum ≤ bytesWritten →
      bytesWritten ≤ blockSum + buffers.flatten.length →
      ∃ sent, resumeLoop rounds bytesWritten blockSum buffers = some sent ∧
        Ends (blockSum + buffers.flatten.length : Nat)
          (buffers.flatten.drop (bytesWritten - blockSum))
          (blocksEnd (lengthsBehind (bytesWritten - blockSum) buffers) rounds) sent := by
  have hbound : bound < Lib.SizeT.modulus := by decide
  have hmodulus := bound_lt_modulus
  induction buffers with
  | nil =>
    intro rounds bytesWritten blockSum hlt hle hge
    rw [List.flatten_nil, List.length_nil] at hge
    obtain rfl : bytesWritten = blockSum := Nat.le_antisymm hge hle
    rw [List.flatten_nil, List.length_nil, Nat.add_zero] at hlt
    refine ⟨_, rfl, ?_⟩
    rw [List.flatten_nil, List.drop_nil, List.length_nil, Nat.add_zero, ← toInt_of_lt hlt]
    exact .complete (by decide)
  | cons buffer buffers ih =>
    intro rounds bytesWritten blockSum hlt hle hge
    rw [List.flatten_cons, List.length_append] at hlt hge ⊢
    rw [lengthsBehind, blocksEnd]
    by_cases hcut : bytesWritten < blockSum + buffer.length
    · -- the cut lies in this block: its rest is sent, then the blocks behind it
      have hblock := @rest_ends _ _ buffer hle rounds
      rw [List.drop_append_of_le_length (by omega), ← List.length_drop, length_rest hle]
      cases hending : blockEnd (blockSum + buffer.length - bytesWritten) rounds with
      | none =>
        rw [hending] at hblock
        generalize hsent : sendBlock rounds (buffer.drop (bytesWritten - blockSum)) = sent at hblock
        cases hblock with
        | reported hret haccepted =>
          obtain ⟨retVal, hfailed, hloop⟩ := @resumeLoop_failed _ _ _ _ buffers (by omega) hle hcut _
            hsent fun v hv => by rw [hret v hv]; decide
          refine ⟨_, hloop, .reported hfailed ?_⟩
          rw [List.length_append]
          exact Nat.lt_add_right _ haccepted
      | some ending =>
        obtain ⟨error, left⟩ := ending
        rw [hending] at hblock
        obtain ⟨hretVal, hrounds⟩ := hblock.returns
        obtain ⟨sent', hloop, hih⟩ := @ih left (blockSum + buffer.length) (blockSum + buffer.length)
          (by omega) (Nat.le_refl _) (by omega)
        have hzero : bytesWritten - blockSum - buffer.length = 0 := by omega
        rw [Nat.sub_self, List.drop_zero, Nat.add_assoc] at hih
        rw [resumeLoop_sent (by omega) hle hcut rfl (by omega) hretVal, hrounds, hzero,
          Nat.mod_eq_of_lt (by omega), hloop]
        refine ⟨_, rfl, ?_⟩
        exact hblock.next (by rw [List.length_append, List.length_drop]; omega) hih
    · -- this block has been written completely
      obtain ⟨sent, hloop, hih⟩ := @ih rounds bytesWritten (blockSum + buffer.length) (by omega)
        (by omega) (by omega)
      have hzero : buffer.length - (bytesWritten - blockSum) = 0 := by omega
      rw [resumeLoop_passed (by omega) hcut, drop_block hcut, ← Nat.add_assoc, hzero, Nat.sub_sub,
        blockEnd]
      simp only [map_false_or]
      exact ⟨sent, hloop, hih⟩

/-! The buffers hold the blocks, as long as those are short enough for a `WSABUF`. -/

theorem wsaBufs_eq {blocks : List (List UInt8)} (hlength : blocks.flatten.length < bound) :
    wsaBufs blocks = List.replicate blocks.length [] ++ blocks := by
  have hmap : (blocks.map fun item => item.take (item.length % Lib.Int32.modulus)) =
      blocks.map id := by
    refine List.map_congr_left fun item hitem => ?_
    have hle := (List.sublist_flatten_of_mem hitem).length_le
    have hmodulus := bound_lt_modulus
    rw [Nat.mod_eq_of_lt (by omega), List.take_length]
    rfl
  rw [wsaBufs, hmap, List.map_id]

theorem lengthsBehind_min (count : Nat) (blocks : List (List UInt8)) :
    lengthsBehind (min count blocks.flatten.length) blocks = lengthsBehind count blocks := by
  induction blocks generalizing count with
  | nil => rfl
  | cons block blocks ih =>
    rw [lengthsBehind, lengthsBehind, List.flatten_cons, List.length_append, ← ih (count - block.length)]
    congr 1
    · omega
    · congr 1
      omega

/-- Empty buffers are passed over. -/
theorem blocksEnd_replicate (n count : Nat) (blocks : List (List UInt8)) (rounds : List Round) :
    blocksEnd (lengthsBehind count (List.replicate n [] ++ blocks)) rounds =
      blocksEnd (lengthsBehind count blocks) rounds := by
  induction n with
  | zero => rfl
  | succ n ih =>
    rw [List.replicate_succ, List.cons_append, lengthsBehind, List.length_nil, Nat.zero_sub,
      Nat.sub_zero, blocksEnd, blockEnd]
    simp only [map_false_or]
    exact ih

/-- Behind everything there is nothing left. -/
theorem blocksEnd_written {count : Nat} {blocks : List (List UInt8)}
    (h : blocks.flatten.length ≤ count) (rounds : List Round) :
    blocksEnd (lengthsBehind count blocks) rounds = some (false, rounds) := by
  induction blocks generalizing count with
  | nil => rfl
  | cons block blocks ih =>
    rw [List.flatten_cons, List.length_append] at h
    have hzero : block.length - count = 0 := by omega
    rw [lengthsBehind, blocksEnd, hzero, blockEnd]
    simp only [map_false_or]
    exact ih (by omega)

/-- What `WSASend` has accepted and what is sent behind it. -/
theorem sendBlocks_ends {blocks : List (List UInt8)} (hlength : blocks.flatten.length < bound)
    (count : Nat) (rounds : List Round) :
    ∃ sent, sendBlocks (.accepted count) rounds blocks = some sent ∧
      Ends blocks.flatten.length blocks.flatten (blocksEnd (lengthsBehind count blocks) rounds)
        sent := by
  have hmodulus := bound_lt_modulus
  have hsigned : bound < signedBound := by decide
  have hflatten : (wsaBufs blocks).flatten = blocks.flatten := by
    rw [wsaBufs_eq hlength]
    simp
  have hwritten : (blocks.flatten.take count).length ≤ blocks.flatten.length :=
    List.length_take_le' _ _
  simp only [sendBlocks, hflatten]
  rw [completeLength_eq (by omega), Nat.mod_eq_of_lt (by omega)]
  split
  · -- `WSASend` has accepted everything
    rename_i hall
    rw [List.length_take] at hall
    have hle : blocks.flatten.length ≤ count := by omega
    refine ⟨_, rfl, ?_⟩
    rw [blocksEnd_written hle, List.take_of_length_le hle, toInt_of_lt hlength]
    exact .complete hlength
  · -- what it has accepted is the front of the blocks, and the loop sends the rest
    obtain ⟨sent, hloop, hrest⟩ := @resumeLoop_ends (wsaBufs blocks) rounds
      (blocks.flatten.take count).length 0 (by rw [hflatten]; omega) (Nat.zero_le _)
      (by rw [hflatten]; omega)
    rw [wsaBufs_eq hlength, blocksEnd_replicate, ← wsaBufs_eq hlength, hflatten, Nat.sub_zero,
      Nat.zero_add, List.length_take, lengthsBehind_min, ← List.drop_eq_drop_min] at hrest
    have hfront : Ends 0 (blocks.flatten.take count) (some (false, rounds))
        ⟨some 0, blocks.flatten.take count, rounds⟩ := .complete (by omega)
    have hnext := hfront.next (by rw [List.take_append_drop]; exact hlength) hrest
    rw [List.take_append_drop, map_false_or] at hnext
    rw [hloop]
    exact ⟨_, rfl, hnext⟩

/-- `WSASend` fails with something else than a transient condition, and its error code is returned. -/
def FailsForGood : SendResult → Prop
  | .accepted _ => False
  | .failed errno => errno ≠ wsaEWouldBlock ∧ errno ≠ wsaEIntr ∧ errno ≠ wsaEInProgress

instance (wsaSend : SendResult) : Decidable (FailsForGood wsaSend) :=
  match wsaSend with
  | .accepted _ => inferInstanceAs (Decidable False)
  | .failed _ => inferInstanceAs (Decidable (_ ∧ _))

/-- After a transient condition `sendBlocks` goes on as if `WSASend` had accepted nothing. -/
theorem sendBlocks_transient {blocks : List (List UInt8)} {errno : Errno}
    (h : ¬FailsForGood (.failed errno)) (rounds : List Round) :
    sendBlocks (.failed errno) rounds blocks = sendBlocks (.accepted 0) rounds blocks := by
  have hnothing : ∀ sent : Option Sent, (sent.map fun rest => rest.after []) = sent := fun sent => by
    cases sent with
    | none => rfl
    | some sent => rfl
  simp only [sendBlocks, FailsForGood] at h ⊢
  simp only [if_neg h, List.take_zero, List.length_nil, Nat.zero_mod, hnothing]

/-- **A failure is counted as bytes**: `WSASend` fails for good, so that its error code is
returned, or a real error of `send` is hidden of the bytes `WSASend` has not accepted. -/
def FailureCounted (wsaSend : SendResult) (rounds : List Round) (blocks : List (List UInt8)) :
    Prop :=
  match wsaSend with
  | .accepted count => ErrorHidden (lengthsBehind count blocks) rounds
  | .failed errno =>
    if FailsForGood (.failed errno) then errno ≠ 0 ∨ blocks.flatten ≠ []
    else ErrorHidden (lengthsBehind 0 blocks) rounds

instance (wsaSend : SendResult) (rounds : List Round) (blocks : List (List UInt8)) :
    Decidable (FailureCounted wsaSend rounds blocks) :=
  match wsaSend with
  | .accepted count => inferInstanceAs (Decidable (ErrorHidden (lengthsBehind count blocks) rounds))
  | .failed _ => inferInstanceAs (Decidable (if FailsForGood _ then _ ∨ _ else ErrorHidden _ _))

/-- What a call returns that is not negative counts all of `bytes`, and they have been accepted. One
that gets out of a buffer counts nothing. -/
def CountsBytes (bytes : List UInt8) (sent : Option Sent) : Prop :=
  match sent with
  | some sent => ∀ retVal, sent.retVal = some retVal → 0 ≤ retVal →
    retVal = bytes.length ∧ sent.accepted = bytes
  | none => False

theorem Ends.countsBytes_iff {bytes : List UInt8} {ending : Option (Bool × List Round)}
    {sent : Sent} (h : Ends bytes.length bytes ending sent) :
    CountsBytes bytes (some sent) ↔ ending.map Prod.fst ≠ some true := by
  cases h with
  | reported hret _ =>
    refine ⟨fun _ => by simp, fun _ retVal hv hpos => ?_⟩
    rw [hret retVal hv] at hpos
    exact absurd hpos (by decide)
  | complete _ =>
    exact ⟨fun _ => by simp, fun _ retVal hv _ => ⟨(Option.some.inj hv).symm, rfl⟩⟩
  | error hlt =>
    refine ⟨fun h => ?_, fun h => absurd rfl h⟩
    obtain ⟨-, hall⟩ := h _ rfl (Int.natCast_nonneg _)
    exact absurd (congrArg List.length hall) (Nat.ne_of_lt hlt)

/-! ## Where no `int` is the length -/

/-- **The loop gets to its end with something that is not negative, or out of a buffer**: it goes
past the blocks of these lengths, from where `WSASend` left off, and no failure is reported of any.
Where the sum leaves 32 bits, `bytesWritten` starts again at zero: it is sent from in front of the
next block, or if there is none the rest of the sum is returned. -/
def Miscounts : List Nat → Nat → Nat → List Round → Prop
  | [], bytesWritten, _, _ => 0 ≤ toInt bytesWritten
  | len :: lens, bytesWritten, blockSum, rounds =>
    if bytesWritten < blockSum + len then
      blockSum + len - bytesWritten < bound ∧
        ∃ ending ∈ blockEnd (blockSum + len - bytesWritten) rounds,
          if blockSum + len < modulus then
            Miscounts lens (blockSum + len) (blockSum + len) ending.2
          else lens ≠ [] ∨ 0 ≤ toInt (blockSum + len)
    else Miscounts lens bytesWritten (blockSum + len) rounds

/-- What comes of a call that has more to send than an `int` can count. -/
inductive Counted (miscounts : Prop) : Option Sent → Prop
  | negative {sent : Sent} :
      ¬miscounts → (∀ v, sent.retVal = some v → v < 0) → Counted miscounts (some sent)
  | number {sent : Sent} {retVal : Int} :
      miscounts → sent.retVal = some retVal → 0 ≤ retVal → retVal < bound →
      Counted miscounts (some sent)
  | outside : miscounts → Counted miscounts none

namespace Counted

variable {miscounts : Prop} {sent : Option Sent}

theorem after (h : Counted miscounts sent) (before : List UInt8) :
    Counted miscounts (sent.map fun rest => rest.after before) := by
  cases h with
  | negative hnot hret => exact .negative hnot hret
  | number hmis hret hpos hlt => exact .number hmis hret hpos hlt
  | outside hmis => exact .outside hmis

theorem congr {miscounts' : Prop} (h : Counted miscounts sent) (hiff : miscounts ↔ miscounts') :
    Counted miscounts' sent := propext hiff ▸ h

/-- The `DWORD` is returned. -/
theorem returned (count : Nat) (accepted : List UInt8) (rounds : List Round) :
    Counted (0 ≤ toInt count) (some ⟨some (toInt count), accepted, rounds⟩) := by
  by_cases hpos : 0 ≤ toInt count
  · exact .number hpos rfl hpos (toInt_lt count)
  · refine .negative hpos fun v hv => ?_
    rw [← Option.some.inj hv]
    omega

theorem countsBytes_iff {bytes : List UInt8} (h : Counted miscounts sent)
    (hbytes : bound ≤ bytes.length) : CountsBytes bytes sent ↔ ¬miscounts := by
  cases h with
  | negative hnot hret =>
    refine ⟨fun _ => hnot, fun _ retVal hv hpos => ?_⟩
    have hneg := hret retVal hv
    omega
  | number hmis hret hpos hlt =>
    refine ⟨fun h => ?_, fun hnot => absurd hmis hnot⟩
    obtain ⟨htotal, -⟩ := h _ hret hpos
    omega
  | outside hmis => exact ⟨fun h => h.elim, fun hnot => absurd hmis hnot⟩

end Counted

/-- `sendBlock` returns nothing greater than zero where an `int` does not count the bytes, or where a
failure is reported. -/
theorem Ends.nonpos {bytes : List UInt8} {count : Nat} {ending : Option (Bool × List Round)}
    {sent : Sent} (h : Ends (toInt count) bytes ending sent) (hlt : count < modulus)
    (hbad : ¬(count < bound ∧ ending ≠ none)) : ∀ retVal, sent.retVal = some retVal → retVal ≤ 0 := by
  have hneg : ending ≠ none → toInt count < 0 := fun hne =>
    toInt_neg (by by_contra hsmall; exact hbad ⟨by omega, hne⟩) hlt
  intro retVal hv
  cases h with
  | reported hret _ =>
    rw [hret retVal hv]
    decide
  | complete _ =>
    rw [← Option.some.inj hv]
    exact Int.le_of_lt (hneg (by simp))
  | error _ =>
    rw [← Option.some.inj hv]
    exact Int.le_of_lt (hneg (by simp))

/-- A count that has wrapped around: the next buffer is left to the front. -/
theorem resumeLoop_wrapped {rounds : List Round} {bytesWritten blockSum : Nat} {buffer : List UInt8}
    {buffers : List (List UInt8)} (hlt : blockSum + buffer.length < Lib.SizeT.modulus)
    (hwrapped : bytesWritten < blockSum) :
    resumeLoop rounds bytesWritten blockSum (buffer :: buffers) = none := by
  have hremaining : Lib.SizeT.sub (blockSum + buffer.length) bytesWritten =
      blockSum + buffer.length - bytesWritten := sub_of_le (by omega) hlt
  have hstart : buffer.length <
      Lib.SizeT.sub buffer.length (blockSum + buffer.length - bytesWritten) := by
    rw [Lib.SizeT.sub]
    have hmod : (buffer.length + Lib.SizeT.modulus - (blockSum + buffer.length - bytesWritten)) %
        Lib.SizeT.modulus =
          buffer.length + Lib.SizeT.modulus - (blockSum + buffer.length - bytesWritten) :=
      Nat.mod_eq_of_lt (by omega)
    omega
  simp only [resumeLoop, add_of_lt hlt]
  rw [if_pos (by omega), hremaining, if_pos hstart]

/-- The sum has left 32 bits. -/
theorem resumeLoop_overflown {rounds : List Round} {blockSum : Nat} {buffers : List (List UInt8)}
    (hbuffers : ∀ buffer ∈ buffers, buffer.length < modulus) (hle : modulus ≤ blockSum)
    (hlt : blockSum < modulus + modulus) :
    Counted (buffers.map List.length ≠ [] ∨ 0 ≤ toInt blockSum)
      (resumeLoop rounds (blockSum % modulus) blockSum buffers) := by
  have hsize : modulus + modulus + modulus < Lib.SizeT.modulus := by decide
  cases buffers with
  | nil =>
    rw [resumeLoop]
    refine (Counted.returned _ _ _).congr ?_
    simp [toInt_mod]
  | cons next buffers =>
    have hnext := hbuffers next List.mem_cons_self
    have hmod : blockSum % modulus = blockSum - modulus := by
      rw [Nat.mod_eq_sub_mod hle, Nat.mod_eq_of_lt (by omega)]
    rw [resumeLoop_wrapped (by omega) (by omega)]
    exact .outside (Or.inl (by simp))

theorem resumeLoop_counted {buffers : List (List UInt8)}
    (hbuffers : ∀ buffer ∈ buffers, buffer.length < modulus) :
    ∀ {rounds : List Round} {bytesWritten blockSum : Nat},
      blockSum ≤ bytesWritten → bytesWritten < modulus →
      Counted (Miscounts (buffers.map List.length) bytesWritten blockSum rounds)
        (resumeLoop rounds bytesWritten blockSum buffers) := by
  have hsize : modulus + modulus + modulus < Lib.SizeT.modulus := by decide
  have hmodulus := bound_lt_modulus
  induction buffers with
  | nil =>
    intro rounds bytesWritten blockSum _ _
    exact Counted.returned bytesWritten [] rounds
  | cons buffer buffers ih =>
    intro rounds bytesWritten blockSum hle hlt
    have hbuffer := hbuffers buffer List.mem_cons_self
    have hrest := fun buffer hmem => hbuffers buffer (List.mem_cons_of_mem _ hmem)
    rw [List.map_cons, Miscounts]
    by_cases hcut : bytesWritten < blockSum + buffer.length
    · have hblock := @rest_ends _ _ buffer hle rounds
      generalize hsent : sendBlock rounds (buffer.drop (bytesWritten - blockSum)) = sent at hblock
      rw [if_pos hcut]
      generalize hending : blockEnd (blockSum + buffer.length - bytesWritten) rounds = ending at hblock
      by_cases hgood : blockSum + buffer.length - bytesWritten < bound ∧ ending ≠ none
      · -- the rest is taken for sent, and the sum may leave 32 bits with it
        obtain ⟨hbig, hsome⟩ := hgood
        obtain ⟨⟨error, left⟩, rfl⟩ := Option.ne_none_iff_exists'.mp hsome
        obtain ⟨hretVal, hrounds⟩ := hblock.returns
        rw [resumeLoop_sent (by omega) hle hcut hsent hbig hretVal, hrounds]
        refine Counted.after ?_ sent.accepted
        simp only [hbig, true_and, Option.mem_some_iff, exists_eq_left']
        split
        · rename_i hsum
          rw [Nat.mod_eq_of_lt hsum]
          exact ih hrest (Nat.le_refl _) hsum
        · rename_i hsum
          exact resumeLoop_overflown hrest (Nat.le_of_not_lt hsum) (by omega)
      · -- a failure is reported, or what `sendBlock` returns is negative for being too long
        obtain ⟨retVal, hminus, hloop⟩ := @resumeLoop_failed _ _ _ _ buffers (by omega) hle hcut _ hsent
          (hblock.nonpos (by omega) hgood)
        rw [hloop]
        refine .negative (fun h => hgood ⟨h.1, fun hnone => ?_⟩) fun v hv => by rw [hminus v hv]; decide
        simpa [hnone] using h.2
    · -- this block has been written completely
      rw [if_neg hcut, resumeLoop_passed (by omega) hcut]
      exact ih hrest (by omega) hlt

instance decidableMiscounts : ∀ (lens : List Nat) (bytesWritten blockSum : Nat)
    (rounds : List Round), Decidable (Miscounts lens bytesWritten blockSum rounds)
  | [], bytesWritten, _, _ => inferInstanceAs (Decidable (0 ≤ toInt bytesWritten))
  | len :: lens, bytesWritten, blockSum, rounds =>
    have := decidableMiscounts lens
    inferInstanceAs (Decidable (if bytesWritten < blockSum + len then
      blockSum + len - bytesWritten < bound ∧
        ∃ ending ∈ blockEnd (blockSum + len - bytesWritten) rounds,
          if blockSum + len < modulus then
            Miscounts lens (blockSum + len) (blockSum + len) ending.2
          else lens ≠ [] ∨ 0 ≤ toInt (blockSum + len)
    else Miscounts lens bytesWritten (blockSum + len) rounds))

/-- The lengths the `WSABUF`s of the blocks hold. -/
def wsaLengths (blocks : List (List UInt8)) : List Nat := blocks.map fun item => item.length % modulus

/-- The same for a call, with what `WSASend` has accepted. -/
def MiscountedFrom (count : Nat) (rounds : List Round) (blocks : List (List UInt8)) : Prop :=
  let bytesWritten := min count (wsaLengths blocks).sum % modulus
  if bytesWritten = completeLength blocks then 0 ≤ toInt bytesWritten
  else Miscounts (wsaLengths blocks) bytesWritten 0 rounds

instance (count : Nat) (rounds : List Round) (blocks : List (List UInt8)) :
    Decidable (MiscountedFrom count rounds blocks) :=
  inferInstanceAs (Decidable (if _ = _ then _ else _))

/-- **Blocks are miscounted whose length is no `int`**: `WSASend` fails for good, so that its error
code is returned, or what is counted from there on is not negative. -/
def Miscounted (wsaSend : SendResult) (rounds : List Round) (blocks : List (List UInt8)) : Prop :=
  match wsaSend with
  | .accepted count => MiscountedFrom count rounds blocks
  | .failed errno => FailsForGood (.failed errno) ∨ MiscountedFrom 0 rounds blocks

instance (wsaSend : SendResult) (rounds : List Round) (blocks : List (List UInt8)) :
    Decidable (Miscounted wsaSend rounds blocks) :=
  match wsaSend with
  | .accepted count => inferInstanceAs (Decidable (MiscountedFrom count rounds blocks))
  | .failed _ => inferInstanceAs (Decidable (_ ∨ _))

theorem map_length_wsaBufs (blocks : List (List UInt8)) :
    (wsaBufs blocks).map List.length = List.replicate blocks.length 0 ++ wsaLengths blocks := by
  rw [wsaBufs, List.map_append, List.map_replicate, List.map_map, wsaLengths]
  congr 1
  refine List.map_congr_left fun item _ => ?_
  exact List.length_take_of_le (Nat.mod_le _ _)

theorem miscounts_replicate (n : Nat) (lens : List Nat) (bytesWritten : Nat)
    (rounds : List Round) :
    Miscounts (List.replicate n 0 ++ lens) bytesWritten 0 rounds ↔
      Miscounts lens bytesWritten 0 rounds := by
  induction n with
  | zero => exact Iff.rfl
  | succ n ih =>
    rw [List.replicate_succ, List.cons_append, Miscounts, if_neg (by omega)]
    exact ih

theorem sendBlocks_counted (count : Nat) (rounds : List Round) (blocks : List (List UInt8)) :
    Counted (MiscountedFrom count rounds blocks) (sendBlocks (.accepted count) rounds blocks) := by
  have hbuffers : ∀ buffer ∈ wsaBufs blocks, buffer.length < modulus := fun buffer hmem => by
    rcases List.mem_append.mp hmem with hempty | hblock
    · rw [List.eq_of_mem_replicate hempty]
      decide
    · obtain ⟨item, -, rfl⟩ := List.mem_map.mp hblock
      exact Nat.lt_of_le_of_lt (List.length_take_le _ _) (Nat.mod_lt _ (by decide))
  have hsum : (wsaBufs blocks).flatten.length = (wsaLengths blocks).sum := by
    rw [List.length_flatten, map_length_wsaBufs]
    simp
  simp only [sendBlocks, MiscountedFrom, List.length_take, hsum]
  split
  · exact Counted.returned _ _ _
  · refine Counted.after ?_ _
    have hloop := @resumeLoop_counted _ hbuffers rounds
      (min count (wsaLengths blocks).sum % modulus) 0 (Nat.zero_le _) (Nat.mod_lt _ (by decide))
    rw [map_length_wsaBufs] at hloop
    exact hloop.congr (miscounts_replicate _ _ _ _)

/-- As long as the sum stays within 32 bits it ends as something that is no `int`. -/
theorem not_miscounts {lens : List Nat} :
    ∀ {bytesWritten blockSum : Nat} {rounds : List Round}, blockSum ≤ bytesWritten →
      bytesWritten ≤ blockSum + lens.sum → bound ≤ blockSum + lens.sum →
      blockSum + lens.sum < modulus → ¬Miscounts lens bytesWritten blockSum rounds := by
  induction lens with
  | nil =>
    intro bytesWritten blockSum rounds hle hge hbound hlt
    rw [List.sum_nil, Nat.add_zero] at hge hbound hlt
    obtain rfl : bytesWritten = blockSum := Nat.le_antisymm hge hle
    have hneg := toInt_neg hbound hlt
    rw [Miscounts]
    omega
  | cons len lens ih =>
    intro bytesWritten blockSum rounds hle hge hbound hlt
    rw [List.sum_cons, ← Nat.add_assoc] at hge hbound hlt
    rw [Miscounts]
    split
    · rintro ⟨-, ending, -, hmis⟩
      rw [if_pos (by omega)] at hmis
      exact ih (Nat.le_refl _) (by omega) hbound hlt hmis
    · exact ih (by omega) hge hbound hlt

/-- Fewer than 2³² bytes are not miscounted unless `WSASend` fails for good. -/
theorem miscounted_iff {blocks : List (List UInt8)} (hbound : bound ≤ blocks.flatten.length)
    (hlt : blocks.flatten.length < modulus) (wsaSend : SendResult) (rounds : List Round) :
    Miscounted wsaSend rounds blocks ↔ FailsForGood wsaSend := by
  have hsigned : modulus < signedBound := by decide
  have hsum : (wsaLengths blocks).sum = blocks.flatten.length := by
    rw [wsaLengths, List.length_flatten]
    congr 1
    refine List.map_congr_left fun item hitem => Nat.mod_eq_of_lt ?_
    exact Nat.lt_of_le_of_lt (List.sublist_flatten_of_mem hitem).length_le hlt
  have hnot : ∀ count, ¬MiscountedFrom count rounds blocks := fun count => by
    rw [MiscountedFrom, hsum, Nat.mod_eq_of_lt (by omega), completeLength_eq (by omega)]
    split
    · rename_i hall
      have hneg := toInt_neg hbound hlt
      rw [hall]
      omega
    · exact not_miscounts (Nat.zero_le _) (by rw [hsum]; omega) (by rw [hsum]; omega)
        (by rw [hsum]; omega)
  cases wsaSend with
  | accepted count => exact iff_of_false (hnot count) id
  | failed errno => exact or_iff_left (hnot 0)

/-! ## Every list of blocks -/

/-- The error code that is returned is the number of bytes only if it is 0 and there are none. -/
theorem countsBytes_code_iff {errno : Errno} (h : FailsForGood (.failed errno))
    (rounds : List Round) (blocks : List (List UInt8)) :
    CountsBytes blocks.flatten (sendBlocks (.failed errno) rounds blocks) ↔
      errno = 0 ∧ blocks.flatten = [] := by
  have hcode : sendBlocks (.failed errno) rounds blocks = some ⟨some errno, [], rounds⟩ := if_pos h
  rw [hcode]
  constructor
  · intro hcounts
    obtain ⟨htotal, hall⟩ := hcounts errno rfl (Int.natCast_nonneg errno)
    rw [← show [] = blocks.flatten from hall] at htotal
    exact ⟨Int.ofNat.inj htotal, hall.symm⟩
  · rintro ⟨rfl, hnil⟩ retVal hv _
    rw [hnil]
    exact ⟨(Option.some.inj hv).symm, rfl⟩

/-- An `int` counts the bytes. -/
theorem countsBytes_short_iff {blocks : List (List UInt8)} (hlength : blocks.flatten.length < bound)
    (wsaSend : SendResult) (rounds : List Round) :
    CountsBytes blocks.flatten (sendBlocks wsaSend rounds blocks) ↔
      ¬FailureCounted wsaSend rounds blocks := by
  have haccepted : ∀ count, (CountsBytes blocks.flatten (sendBlocks (.accepted count) rounds blocks) ↔
      ¬ErrorHidden (lengthsBehind count blocks) rounds) := fun count => by
    obtain ⟨sent, hsent, hends⟩ := sendBlocks_ends hlength count rounds
    rw [hsent]
    exact hends.countsBytes_iff
  cases wsaSend with
  | accepted count => exact haccepted count
  | failed errno =>
    by_cases hfails : FailsForGood (.failed errno)
    · rw [countsBytes_code_iff hfails, FailureCounted, if_pos hfails, not_or, not_not, not_not]
    · rw [sendBlocks_transient hfails, FailureCounted, if_neg hfails]
      exact haccepted 0

/-- No `int` counts them. -/
theorem countsBytes_long_iff {blocks : List (List UInt8)} (hlength : bound ≤ blocks.flatten.length)
    (wsaSend : SendResult) (rounds : List Round) :
    CountsBytes blocks.flatten (sendBlocks wsaSend rounds blocks) ↔
      ¬Miscounted wsaSend rounds blocks := by
  cases wsaSend with
  | accepted count => exact (sendBlocks_counted count rounds blocks).countsBytes_iff hlength
  | failed errno =>
    by_cases hfails : FailsForGood (.failed errno)
    · rw [countsBytes_code_iff hfails]
      refine iff_of_false (fun h => ?_) fun h => h (Or.inl hfails)
      rw [h.2] at hlength
      exact absurd hlength (by decide)
    · rw [sendBlocks_transient hfails, Miscounted, or_iff_right hfails]
      exact (sendBlocks_counted 0 rounds blocks).countsBytes_iff hlength

/-- **What `sendBlocks` counts.** What it returns is the length of the blocks, all of them accepted,
or negative, exactly if no failure is counted as bytes. Where no `int` is the length it must not
miscount, which below 2³² bytes it does only if `WSASend` fails for good. -/
theorem sendBlocks_countsBytes_iff (wsaSend : SendResult) (rounds : List Round)
    (blocks : List (List UInt8)) :
    CountsBytes blocks.flatten (sendBlocks wsaSend rounds blocks) ↔
      if blocks.flatten.length < bound then ¬FailureCounted wsaSend rounds blocks
      else if blocks.flatten.length < modulus then ¬FailsForGood wsaSend
      else ¬Miscounted wsaSend rounds blocks := by
  split
  · rename_i hshort
    exact countsBytes_short_iff hshort wsaSend rounds
  · rename_i hlong
    have hiff := countsBytes_long_iff (Nat.le_of_not_lt hlong) wsaSend rounds
    split
    · rename_i hlt
      rwa [miscounted_iff (Nat.le_of_not_lt hlong) hlt] at hiff
    · exact hiff

/-- `WSASend` stops inside the second block, and the rest is sent. -/
theorem sendBlocks_countsBytes_partial :
    CountsBytes [1, 2, 3]
      (sendBlocks (.accepted 2) [⟨.fds 1 true, .accepted 9⟩] [[1], [2, 3]]) :=
  (sendBlocks_countsBytes_iff (.accepted 2) [⟨.fds 1 true, .accepted 9⟩] [[1], [2, 3]]).mpr (by decide)

/-- The connection has been reset, and `sendBlocks` returns 10054. -/
theorem sendBlocks_returns_code :
    sendBlocks (.failed wsaEConnReset) [] [[1, 2, 3]] = some ⟨some 10054, [], []⟩ := by decide

end DevScan.Stream.Windows
