import DevScan.Stream.SocketNonblocking

/-!
# `Stream/SendBlocks.lean` — the byte stream stays intact

Whatever the kernel answers, the bytes it accepts in a call are a prefix of those to be sent, and
a call that reports success has had all of them accepted (`Delivers`). More exactly, a call that
returns has failed with one of the calls under it or has sent everything (`Settles`).
`sendLoop_settles` says so for the loop that sends one block, and `resumeLoop_settles` for the loop
over the `iovec`s: what that has to send is everything behind the first `bytesWritten` bytes, and
its running sum `blockSum` never gets ahead of those without a block being cut.
-/

set_option autoImplicit false

namespace DevScan.Stream

/-- What has been accepted is the beginning of `bytes`; a call that does not fail returns
`total`, and everything has been accepted. -/
structure Delivers (bytes : List UInt8) (total : Int) (sent : Sent) : Prop where
  isPrefix : sent.accepted <+: bytes
  complete : ∀ retVal, sent.retVal = some retVal →
    retVal = -1 ∨ retVal = total ∧ sent.accepted = bytes

namespace Delivers

variable {bytes : List UInt8} {total : Int} {sent : Sent}

/-- A call that has sent nothing, and fails. -/
theorem nothing (answers : SendAnswers) : Delivers bytes total ⟨some (-1), [], answers⟩ :=
  ⟨List.nil_prefix, fun _ hret => Or.inl (Option.some.inj hret).symm⟩

end Delivers

/-! ## Calls that fail

Every call takes its answers from the front of those it is given: what it has used up is what is
missing from those it leaves. -/

/-- The request fails for good, or nothing of it is accepted. -/
def SendResult.Fails : SendResult → Prop
  | .accepted count => count = 0
  | .failed errno => errno ≠ eWouldBlock ∧ errno ≠ eAgain ∧ errno ≠ eIntr

/-- With an infinite timeout `poll` reports the one descriptor, or fails. -/
def PollResult.Fails : PollResult → Prop
  | .fds count => count ≠ 1
  | .failed errno => errno ≠ eIntr

namespace SendAnswers

instance : Append SendAnswers := ⟨fun a b => ⟨a.sends ++ b.sends, a.polls ++ b.polls⟩⟩

/-- Some of the answers is that a call fails. -/
def Fail (a : SendAnswers) : Prop := (∃ r ∈ a.sends, r.Fails) ∨ ∃ p ∈ a.polls, p.Fails

theorem append_assoc (a b c : SendAnswers) : a ++ b ++ c = a ++ (b ++ c) :=
  congrArg₂ SendAnswers.mk (List.append_assoc ..) (List.append_assoc ..)

theorem fail_append (a b : SendAnswers) : (a ++ b).Fail ↔ a.Fail ∨ b.Fail := by
  show (∃ r ∈ a.sends ++ b.sends, r.Fails) ∨ (∃ p ∈ a.polls ++ b.polls, p.Fails) ↔ _
  simp only [List.mem_append, or_and_right, exists_or, Fail]
  exact or_or_or_comm

theorem fail_sends (r : SendResult) : Fail ⟨[r], []⟩ ↔ r.Fails := by simp [Fail]

theorem append_right_cancel {a b c : SendAnswers} (h : a ++ c = b ++ c) : a = b := by
  obtain ⟨hsends, hpolls⟩ := SendAnswers.mk.inj h
  cases a
  cases b
  exact congrArg₂ SendAnswers.mk (List.append_cancel_right hsends) (List.append_cancel_right hpolls)

end SendAnswers

/-- What has been accepted is the beginning of `bytes`. If a call under it has failed it returns
-1; otherwise it goes on as long as there are answers, and when it returns that is `total`, and
everything has been accepted. -/
structure Settles (bytes : List UInt8) (total : Int) (answers : SendAnswers) (sent : Sent) :
    Prop where
  isPrefix : sent.accepted <+: bytes
  goesOn : sent.retVal = none → sent.answers.sends = [] ∨ sent.answers.polls = []
  settled : ∃ used, answers = used ++ sent.answers ∧ ∀ retVal, sent.retVal = some retVal →
    used.Fail ∧ retVal = -1 ∨ ¬used.Fail ∧ retVal = total ∧ sent.accepted = bytes

namespace Settles

variable {bytes : List UInt8} {total : Int} {answers : SendAnswers} {sent : Sent}

theorem delivers (h : Settles bytes total answers sent) : Delivers bytes total sent := by
  obtain ⟨used, -, hused⟩ := h.settled
  refine ⟨h.isPrefix, fun retVal hret => ?_⟩
  rcases hused retVal hret with ⟨-, hfail⟩ | ⟨-, hall⟩
  · exact Or.inl hfail
  · exact Or.inr hall

/-- Everything has been accepted, and no call is needed any more. -/
theorem done : Settles bytes total answers ⟨some total, bytes, answers⟩ := by
  refine ⟨List.prefix_rfl, fun hret => absurd hret (by simp), ⟨[], []⟩, rfl,
    fun retVal hret => Or.inr ⟨?_, ?_, rfl⟩⟩
  · simp [SendAnswers.Fail]
  · exact (Option.some.inj hret).symm

/-- The answers have run out. -/
theorem waits (used left : SendAnswers) (hleft : left.sends = [] ∨ left.polls = []) :
    Settles bytes total (used ++ left) ⟨none, [], left⟩ :=
  ⟨List.nil_prefix, fun _ => hleft, used, rfl, fun _ hret => absurd hret (by simp)⟩

/-- A call has failed. -/
theorem fails {used : SendAnswers} (hfail : used.Fail) (left : SendAnswers) :
    Settles bytes total (used ++ left) ⟨some (-1), [], left⟩ :=
  ⟨List.nil_prefix, fun hret => absurd hret (by simp), used, rfl,
    fun _ hret => Or.inl ⟨hfail, (Option.some.inj hret).symm⟩⟩

/-- Calls have gone well and had `before` accepted; what follows settles the rest. -/
theorem after {used : SendAnswers} (h : Settles bytes total answers sent) (hused : ¬used.Fail)
    (before : List UInt8) :
    Settles (before ++ bytes) total (used ++ answers) (sent.after before) := by
  obtain ⟨more, rfl, hmore⟩ := h.settled
  refine ⟨(List.prefix_append_right_inj before).mpr h.isPrefix, h.goesOn, used ++ more,
    (SendAnswers.append_assoc ..).symm, fun retVal hret => ?_⟩
  rw [SendAnswers.fail_append, or_iff_right hused]
  rcases hmore retVal hret with hfail | ⟨hgood, htotal, hall⟩
  · exact Or.inl hfail
  · exact Or.inr ⟨hgood, htotal, congrArg (before ++ ·) hall⟩

/-- No call has been made yet. -/
theorem append_left (h : Settles bytes total answers sent) (before : List UInt8) :
    Settles (before ++ bytes) total answers (sent.after before) := by
  have hnone : ¬SendAnswers.Fail ⟨[], []⟩ := by simp [SendAnswers.Fail]
  exact h.after hnone before

/-- Nothing has been accepted yet. -/
theorem next {used : SendAnswers} (h : Settles bytes total answers sent) (hused : ¬used.Fail) :
    Settles bytes total (used ++ answers) sent := h.after hused []

end Settles

/-! ## One block -/

theorem pollLoop_settled (polls : List PollResult) :
    ((pollLoop polls).1 = none → (pollLoop polls).2 = []) ∧
    ∃ used, polls = used ++ (pollLoop polls).2 ∧
      ∀ err, (pollLoop polls).1 = some err → ((∃ p ∈ used, p.Fails) ↔ err ≠ 1) := by
  induction polls with
  | nil => exact ⟨fun _ => rfl, [], rfl, fun err hret => absurd hret (by simp [pollLoop])⟩
  | cons p polls ih =>
    cases p with
    | fds count =>
      refine ⟨fun hret => absurd hret (by simp [pollLoop]), [.fds count], rfl, fun err hret => ?_⟩
      rw [← Option.some.inj hret]
      simp only [List.mem_singleton, exists_eq_left, PollResult.Fails]
      omega
    | failed errno =>
      simp only [pollLoop]
      split
      · rename_i hintr
        obtain ⟨hover, used, hused, hfails⟩ := ih
        refine ⟨hover, .failed errno :: used, congrArg (_ :: ·) hused, fun err hret => ?_⟩
        have hgoesOn : ¬(PollResult.failed errno).Fails := not_not_intro hintr
        rw [← hfails err hret]
        simp only [List.mem_cons, exists_eq_or_imp, or_iff_right hgoesOn]
      · rename_i hintr
        refine ⟨fun hret => absurd hret (by simp), [.failed errno], rfl, fun err hret => ?_⟩
        rw [← Option.some.inj hret]
        simpa [PollResult.Fails] using hintr

/-- A `send` that would block, and the wait behind it. -/
theorem pollLoop_used {errno : Errno} (hagain : errno = eAgain ∨ errno = eWouldBlock)
    (sends : List SendResult) (polls : List PollResult) :
    ((pollLoop polls).1 = none → (pollLoop polls).2 = []) ∧
    ∃ used : SendAnswers,
      (⟨.failed errno :: sends, polls⟩ : SendAnswers) = used ++ ⟨sends, (pollLoop polls).2⟩ ∧
      ∀ err, (pollLoop polls).1 = some err → (used.Fail ↔ err ≠ 1) := by
  obtain ⟨hover, used, hused, hfails⟩ := pollLoop_settled polls
  refine ⟨hover, ⟨[.failed errno], used⟩, congrArg (SendAnswers.mk _) hused, fun err hret => ?_⟩
  rw [← hfails err hret]
  simp only [SendAnswers.Fail, List.mem_singleton, exists_eq_left, SendResult.Fails]
  tauto

/-- A `send` has taken some of the bytes. -/
theorem not_fail_accepted {pDat : List UInt8} {count : Nat} (hsome : 0 < (pDat.take count).length) :
    ¬SendAnswers.Fail ⟨[.accepted count], []⟩ := by
  rw [SendAnswers.fail_sends]
  intro hzero
  rw [show count = 0 from hzero] at hsome
  exact absurd hsome (by simp)

/-- A `send` has taken none of the bytes there are. -/
theorem fail_accepted {byte : UInt8} {pDat : List UInt8} {count : Nat}
    (hnone : ¬0 < ((byte :: pDat).take count).length) :
    SendAnswers.Fail ⟨[.accepted count], []⟩ := by
  rw [SendAnswers.fail_sends]
  show count = 0
  rw [List.length_take, List.length_cons] at hnone
  omega

theorem sendLoop_settles (size : Nat) (sends : List SendResult) (polls : List PollResult)
    (pDat : List UInt8) :
    Settles pDat (Lib.SizeT.toSigned size) ⟨sends, polls⟩ (sendLoop size sends polls pDat) := by
  induction sends generalizing polls pDat with
  | nil =>
    cases pDat with
    | nil => exact .done
    | cons byte pDat => exact .waits ⟨[], []⟩ ⟨[], polls⟩ (Or.inl rfl)
  | cons result sends ih =>
    cases pDat with
    | nil => exact .done
    | cons byte pDat =>
      have hone : ∀ polls, (⟨result :: sends, polls⟩ : SendAnswers) =
          ⟨[result], []⟩ ++ ⟨sends, polls⟩ := fun polls => rfl
      cases result with
      | accepted count =>
        rw [hone]
        simp only [sendLoop]
        split
        · rename_i hsome
          have hrest := (ih polls ((byte :: pDat).drop count)).after (not_fail_accepted hsome)
            ((byte :: pDat).take count)
          rwa [List.take_append_drop] at hrest
        · rename_i hnone
          exact .fails (fail_accepted hnone) ⟨sends, polls⟩
      | failed errno =>
        simp only [sendLoop]
        split
        · -- the kernel will take more later on: wait for that
          rename_i hagain
          obtain ⟨hover, used, hanswers, hfails⟩ := pollLoop_used hagain sends polls
          rw [hanswers]
          cases hpoll : pollLoop polls with
          | mk err rest =>
            rw [hpoll] at hover hfails
            cases err with
            | none => exact .waits used ⟨sends, rest⟩ (Or.inr (hover rfl))
            | some err =>
              simp only
              split
              · rename_i hbad
                exact .fails ((hfails err rfl).mpr hbad) _
              · rename_i hready
                exact (ih rest _).next fun h => hready ((hfails err rfl).mp h)
        · rename_i hagain
          rw [hone]
          split
          · rename_i hintr
            refine .fails ((SendAnswers.fail_sends _).mpr ?_) _
            exact ⟨fun h => hagain (Or.inl h), fun h => hagain (Or.inr h), hintr⟩
          · rename_i hintr
            refine (ih polls _).next fun h => ?_
            exact hintr ((SendAnswers.fail_sends _).mp h).2.2

theorem sendBlock_settles (answers : SendAnswers) (pBlock : List UInt8) :
    Settles pBlock (Lib.SizeT.toSigned pBlock.length) answers (sendBlock answers pBlock) :=
  sendLoop_settles _ _ _ _

/-! ## The blocks behind the cut -/

open Lib.SizeT (signedBound signedBound_lt_modulus add_of_lt sub_of_le toSigned_of_lt
  ofSigned_natCast)

/-- What is sent of the block the cut lies in: its rest behind the cut. -/
theorem rest_of_cut {iov : List UInt8} {bytesWritten blockSum : Nat}
    (hlt : blockSum + iov.length < Lib.SizeT.modulus) (hle : blockSum ≤ bytesWritten)
    (hcut : bytesWritten < blockSum + iov.length) :
    (iov.drop (Lib.SizeT.sub iov.length (Lib.SizeT.sub (blockSum + iov.length) bytesWritten))).take
        (Lib.SizeT.sub (blockSum + iov.length) bytesWritten) =
      iov.drop (bytesWritten - blockSum) := by
  have hremaining : Lib.SizeT.sub (blockSum + iov.length) bytesWritten =
      blockSum + iov.length - bytesWritten := sub_of_le (by omega) hlt
  have hstart : Lib.SizeT.sub iov.length (blockSum + iov.length - bytesWritten) =
      bytesWritten - blockSum := by
    rw [sub_of_le (by omega) (by omega)]
    omega
  rw [hremaining, hstart]
  refine List.take_of_length_le ?_
  rw [List.length_drop]
  omega

/-- A block in front of the cut is passed over. -/
theorem drop_block {iov rest : List UInt8} {bytesWritten blockSum : Nat}
    (hcut : ¬bytesWritten < blockSum + iov.length) :
    (iov ++ rest).drop (bytesWritten - blockSum) =
      rest.drop (bytesWritten - (blockSum + iov.length)) := by
  have hskip : iov.length ≤ bytesWritten - blockSum := by omega
  rw [List.drop_append, List.drop_of_length_le hskip, List.nil_append, Nat.sub_sub]

/-- Nothing is sent when everything counts as written. -/
theorem resumeLoop_written (answers : SendAnswers) {bytesWritten : Nat} :
    ∀ {iovs : List (List UInt8)} {blockSum : Nat}, blockSum + iovs.flatten.length < signedBound →
      blockSum + iovs.flatten.length ≤ bytesWritten →
      resumeLoop answers bytesWritten blockSum iovs =
        ⟨some (Lib.SizeT.toSigned bytesWritten), [], answers⟩ := by
  intro iovs
  induction iovs with
  | nil => intro blockSum _ _; rfl
  | cons iov iovs ih =>
    intro blockSum hlt hle
    rw [List.flatten_cons, List.length_append] at hlt hle
    have hmodulus := signedBound_lt_modulus
    have hadd : Lib.SizeT.add blockSum iov.length = blockSum + iov.length := add_of_lt (by omega)
    simp only [resumeLoop, hadd]
    rw [if_neg (by omega)]
    exact ih (by omega) (by omega)

/-- The loop sends what lies behind the first `bytesWritten` bytes, block by block. -/
theorem resumeLoop_settles {iovs : List (List UInt8)} :
    ∀ {answers : SendAnswers} {bytesWritten blockSum : Nat},
      blockSum + iovs.flatten.length < signedBound → blockSum ≤ bytesWritten →
      bytesWritten ≤ blockSum + iovs.flatten.length →
      Settles (iovs.flatten.drop (bytesWritten - blockSum)) (blockSum + iovs.flatten.length : Nat)
        answers (resumeLoop answers bytesWritten blockSum iovs) := by
  induction iovs with
  | nil =>
    intro answers bytesWritten blockSum hlt hle hge
    rw [List.flatten_nil, List.length_nil] at hge
    obtain rfl : bytesWritten = blockSum := Nat.le_antisymm hge hle
    rw [List.flatten_nil, List.length_nil, Nat.add_zero] at hlt
    rw [List.flatten_nil, List.drop_nil, List.length_nil, Nat.add_zero, ← toSigned_of_lt hlt]
    exact .done
  | cons iov iovs ih =>
    intro answers bytesWritten blockSum hlt hle hge
    rw [List.flatten_cons, List.length_append] at hlt hge ⊢
    have hmodulus := signedBound_lt_modulus
    have hadd : Lib.SizeT.add blockSum iov.length = blockSum + iov.length := add_of_lt (by omega)
    simp only [resumeLoop, hadd]
    by_cases hcut : bytesWritten < blockSum + iov.length
    · -- the cut lies in this block: its rest is sent, then the blocks behind it
      rw [if_pos hcut]
      rw [rest_of_cut (by omega) hle hcut, List.drop_append_of_le_length (by omega)]
      have hblock := sendBlock_settles answers (iov.drop (bytesWritten - blockSum))
      rw [List.length_drop, toSigned_of_lt (by omega)] at hblock
      have hfront := List.IsPrefix.trans hblock.isPrefix
        (List.prefix_append (iov.drop (bytesWritten - blockSum)) iovs.flatten)
      obtain ⟨used, hused, hsettled⟩ := hblock.settled
      split
      · rename_i hwaiting
        exact ⟨hfront, hblock.goesOn, used, hused,
          fun v hret => absurd (hwaiting.symm.trans hret) (by simp)⟩
      · rename_i retVal hreturned
        rcases hsettled retVal hreturned with ⟨hfail, rfl⟩ | ⟨hgood, htotal, hall⟩
        · rw [if_neg (by decide)]
          exact ⟨hfront, fun hret => absurd hret (by simp), used, hused,
            fun v hret => Or.inl ⟨hfail, (Option.some.inj hret).symm⟩⟩
        · have hnext : Lib.SizeT.add bytesWritten (Lib.SizeT.ofSigned retVal) =
              blockSum + iov.length := by
            rw [htotal, ofSigned_natCast (by omega), add_of_lt (by omega)]
            omega
          rw [if_pos (by omega), hnext, hall]
          have hih := (@ih (sendBlock answers (iov.drop (bytesWritten - blockSum))).answers
            (blockSum + iov.length) (blockSum + iov.length) (by omega) (Nat.le_refl _)
            (by omega)).after hgood (iov.drop (bytesWritten - blockSum))
          rw [Nat.sub_self, List.drop_zero, Nat.add_assoc, ← hused] at hih
          exact hih
    · -- this block has been written completely
      rw [if_neg hcut]
      have hih := @ih answers bytesWritten (blockSum + iov.length) (by omega) (by omega) (by omega)
      rw [drop_block hcut, ← Nat.add_assoc]
      exact hih

/-! ## All blocks -/

@[simp] theorem flatten_iovecs (blocks : List (List UInt8)) :
    (iovecs blocks).flatten = blocks.flatten := by
  simp [iovecs]

theorem completeLength_eq {blocks : List (List UInt8)}
    (hlength : blocks.flatten.length < signedBound) :
    completeLength blocks = blocks.flatten.length := by
  have hfold : ∀ (blocks : List (List UInt8)) (length : Nat),
      length + blocks.flatten.length < signedBound →
      blocks.foldl (fun length item => Lib.SizeT.add length item.length) length =
        length + blocks.flatten.length := by
    intro blocks
    induction blocks with
    | nil => intro length _; rfl
    | cons item blocks ih =>
      intro length hlt
      rw [List.flatten_cons, List.length_append] at hlt ⊢
      have hmodulus := signedBound_lt_modulus
      rw [List.foldl_cons, add_of_lt (by omega), ih _ (by omega), Nat.add_assoc]
  rw [completeLength, hfold blocks 0 (by omega), Nat.zero_add]

/-- `writev` fails: the call fails too, or the error value counts as having written everything. In
either case it makes no further call. -/
theorem sendBlocks_failed {blocks : List (List UInt8)}
    (hlength : blocks.flatten.length < signedBound) (errno : Errno) (answers : SendAnswers) :
    sendBlocks (.failed errno) answers blocks = ⟨some (-1), [], answers⟩ := by
  have hmodulus := signedBound_lt_modulus
  have hiovecs : 0 + (iovecs blocks).flatten.length < signedBound := by
    rw [flatten_iovecs]
    omega
  have hmany : 0 + (iovecs blocks).flatten.length ≤ Lib.SizeT.ofSigned (-1) := by
    rw [Lib.SizeT.ofSigned_neg_one]
    omega
  simp only [sendBlocks]
  rw [resumeLoop_written answers hiovecs hmany, ite_self]
  exact ite_self _

/-- `writev` accepts something, or there is nothing to accept. -/
theorem sendBlocks_settles {blocks : List (List UInt8)} {count : Nat}
    (hlength : blocks.flatten.length < signedBound) (hcount : count = 0 → blocks.flatten = [])
    (answers : SendAnswers) :
    Settles blocks.flatten blocks.flatten.length answers
      (sendBlocks (.accepted count) answers blocks) := by
  have hiovecs : 0 + (iovecs blocks).flatten.length < signedBound := by
    rw [flatten_iovecs]
    omega
  unfold sendBlocks
  rw [completeLength_eq hlength, flatten_iovecs]
  simp only
  split
  · rename_i hzero
    have hnil : blocks.flatten = [] := by
      rcases List.take_eq_nil_iff.mp (List.eq_nil_of_length_eq_zero hzero) with hnone | hnil
      · exact hcount hnone
      · exact hnil
    rw [hnil]
    exact .done
  · have hle : (blocks.flatten.take count).length ≤ blocks.flatten.length :=
      List.length_take_le' _ _
    have hwritten : blocks.flatten.take (blocks.flatten.take count).length =
        blocks.flatten.take count := by
      rw [List.length_take, ← List.take_eq_take_min]
    split
    · rename_i hall
      rw [hall, List.take_length] at hwritten
      rw [← hwritten, toSigned_of_lt hlength]
      exact .done
    · have hrest := (@resumeLoop_settles (iovecs blocks) answers
        (blocks.flatten.take count).length 0 hiovecs (Nat.zero_le _)
        (by rw [flatten_iovecs]; omega)).append_left (blocks.flatten.take count)
      have hwhole := List.take_append_drop (blocks.flatten.take count).length blocks.flatten
      rw [hwritten] at hwhole
      rw [flatten_iovecs, Nat.sub_zero, Nat.zero_add, hwhole] at hrest
      exact hrest

/-- **`sendBlocks` keeps the byte stream intact.** All that is asked of the kernel is that
`writev` accepts something if there is something. -/
theorem sendBlocks_intact {blocks : List (List UInt8)} {writev : SendResult}
    (hlength : blocks.flatten.length < signedBound)
    (hwritev : writev = .accepted 0 → blocks.flatten = []) (answers : SendAnswers) :
    (sendBlocks writev answers blocks).accepted <+: blocks.flatten ∧
      ∀ retVal, (sendBlocks writev answers blocks).retVal = some retVal → 0 ≤ retVal →
        retVal = blocks.flatten.length ∧
          (sendBlocks writev answers blocks).accepted = blocks.flatten := by
  have hdelivers : Delivers blocks.flatten blocks.flatten.length
      (sendBlocks writev answers blocks) := by
    cases writev with
    | failed errno =>
      rw [sendBlocks_failed hlength]
      exact .nothing _
    | accepted count =>
      exact (sendBlocks_settles hlength (fun hzero => hwritev (congrArg _ hzero)) answers).delivers
  refine ⟨hdelivers.isPrefix, fun retVal hret hpos => ?_⟩
  rcases hdelivers.complete retVal hret with hfail | hall
  · omega
  · exact hall

/-- `writev` stops inside the second of three blocks, and the first `send` accepts a single
byte. -/
theorem sendBlocks_intact_partial :
    (sendBlocks (.accepted 3) ⟨[.accepted 1, .accepted 9, .accepted 9], []⟩
        [[1, 2], [3, 4, 5], [6]]).accepted <+: [[1, 2], [3, 4, 5], [6]].flatten ∧
      ∀ retVal, (sendBlocks (.accepted 3) ⟨[.accepted 1, .accepted 9, .accepted 9], []⟩
          [[1, 2], [3, 4, 5], [6]]).retVal = some retVal → 0 ≤ retVal →
        retVal = ([[1, 2], [3, 4, 5], [6]] : List (List UInt8)).flatten.length ∧
          (sendBlocks (.accepted 3) ⟨[.accepted 1, .accepted 9, .accepted 9], []⟩
            [[1, 2], [3, 4, 5], [6]]).accepted = [[1, 2], [3, 4, 5], [6]].flatten :=
  sendBlocks_intact (by decide) (by simp) _

end DevScan.Stream
