import DevScan.Stream.SendBlocks

/-!
# `Stream/Transient.lean` — what makes a send fail

A call that would block or was interrupted has not failed: `sendBlock` asks again, and so does
`sendBlocks` for each block it sends by `sendBlock`. The exception is its first call. When
`writev` reports a transient condition the code goes on with `bytesWritten` = (size_t)-1, by which
every block has been written already, and returns that: -1, although no call has failed.
-/

set_option autoImplicit false

namespace DevScan.Stream

open Lib.SizeT (signedBound toSigned_of_lt)

/-- What `writev` says about lengths that do not add up to a `ssize_t`. -/
def eInval : Errno := 22

/-- Some call of those made has failed: `answers` less what is left of them were used. -/
def CallFailed (answers : SendAnswers) (sent : Sent) : Prop :=
  ∃ used, answers = used ++ sent.answers ∧ used.Fail

/-- The call fails by a failure of the kernel's only: it returns -1 only if one of the calls it
has made failed; otherwise it goes on as long as there are answers, and returns the number of
`bytes` when all of them have been accepted. -/
structure FailsByCalls (bytes : List UInt8) (failed : Prop) (sent : Sent) : Prop where
  goesOn : sent.retVal = none → sent.answers.sends = [] ∨ sent.answers.polls = []
  failure : sent.retVal = some (-1) → failed
  success : ∀ retVal, sent.retVal = some retVal →
    (¬failed ↔ retVal = bytes.length ∧ sent.accepted = bytes)

/-- The first call fails for good, or accepts nothing of what there is. -/
def SendResult.FailsOn (bytes : List UInt8) : SendResult → Prop
  | .accepted count => count = 0 ∧ bytes ≠ []
  | .failed errno => errno ≠ eWouldBlock ∧ errno ≠ eAgain ∧ errno ≠ eIntr

/-- It would block, or has been interrupted. -/
def SendResult.Transient : SendResult → Prop
  | .accepted _ => False
  | .failed errno => errno = eWouldBlock ∨ errno = eAgain ∨ errno = eIntr

instance (r : SendResult) : Decidable r.Transient := by
  cases r <;> unfold SendResult.Transient <;> infer_instance

theorem callFailed_iff {used answers : SendAnswers} {sent : Sent}
    (h : answers = used ++ sent.answers) : CallFailed answers sent ↔ used.Fail := by
  constructor
  · rintro ⟨used', h', hfail⟩
    rwa [SendAnswers.append_right_cancel (h.symm.trans h')]
  · exact fun hfail => ⟨used, h, hfail⟩

theorem not_callFailed_of_unused {answers : SendAnswers} {sent : Sent}
    (h : sent.answers = answers) : ¬CallFailed answers sent := by
  have hnone : answers = ⟨[], []⟩ ++ sent.answers := h.symm
  rw [callFailed_iff hnone]
  simp [SendAnswers.Fail]

/-- A call that settles what it has to send fails by its calls only. -/
theorem Settles.failsByCalls {bytes : List UInt8} {answers : SendAnswers} {sent : Sent}
    (h : Settles bytes bytes.length answers sent) :
    FailsByCalls bytes (CallFailed answers sent) sent := by
  obtain ⟨used, hused, hsettled⟩ := h.settled
  rw [callFailed_iff hused]
  refine ⟨h.goesOn, fun hret => ?_, fun retVal hret => ?_⟩
  · rcases hsettled _ hret with ⟨hfail, -⟩ | ⟨-, htotal, -⟩
    · exact hfail
    · omega
  · rcases hsettled _ hret with ⟨hfail, rfl⟩ | ⟨hgood, hall⟩
    · exact ⟨fun hgood => absurd hfail hgood, fun ⟨htotal, _⟩ => by omega⟩
    · exact ⟨fun _ => hall, fun _ => hgood⟩

/-- `sendBlock` fails by its calls only. -/
theorem sendBlock_failsByCalls {pBlock : List UInt8} (hlength : pBlock.length < signedBound)
    (answers : SendAnswers) :
    FailsByCalls pBlock (CallFailed answers (sendBlock answers pBlock))
      (sendBlock answers pBlock) := by
  have h := sendBlock_settles answers pBlock
  rw [toSigned_of_lt hlength] at h
  exact h.failsByCalls

/-- Unless `writev` reports a transient condition, `sendBlocks` fails by its calls only. -/
theorem sendBlocks_failsByCalls {blocks : List (List UInt8)} {writev : SendResult}
    (hlength : ∀ count, writev = .accepted count → blocks.flatten.length < signedBound)
    (htransient : ¬writev.Transient) (answers : SendAnswers) :
    FailsByCalls blocks.flatten
      (writev.FailsOn blocks.flatten ∨ CallFailed answers (sendBlocks writev answers blocks))
      (sendBlocks writev answers blocks) := by
  cases writev with
  | accepted count =>
    by_cases hnone : count = 0 ∧ blocks.flatten ≠ []
    · obtain ⟨rfl, hne⟩ := hnone
      have hzero : sendBlocks (.accepted 0) answers blocks = ⟨some 0, [], answers⟩ := by
        simp [sendBlocks]
      rw [hzero]
      refine ⟨fun hret => absurd hret (by simp), fun hret => absurd hret (by simp),
        fun retVal hret => ?_⟩
      exact ⟨fun hgood => absurd (Or.inl ⟨rfl, hne⟩) hgood, fun hsent => absurd hsent.2 hne.symm⟩
    · have hsome : count = 0 → blocks.flatten = [] := fun hzero =>
        Classical.byContradiction fun hne => hnone ⟨hzero, hne⟩
      have hfailsOn : ¬(SendResult.accepted count).FailsOn blocks.flatten := hnone
      rw [or_iff_right hfailsOn]
      exact (sendBlocks_settles (hlength count rfl) hsome answers).failsByCalls
  | failed errno =>
    have hreal : errno ≠ eWouldBlock ∧ errno ≠ eAgain ∧ errno ≠ eIntr := by
      simpa only [SendResult.Transient, not_or] using htransient
    have hfailed : sendBlocks (.failed errno) answers blocks = ⟨some (-1), [], answers⟩ :=
      if_pos hreal
    rw [hfailed]
    refine ⟨fun hret => absurd hret (by simp), fun _ => Or.inl hreal, fun retVal hret => ?_⟩
    refine ⟨fun hgood => absurd (Or.inl hreal) hgood, fun hsent => ?_⟩
    have htotal := hsent.1
    have hret := Option.some.inj hret
    omega

/-- A transient condition of `writev` fails the call, although no call has failed. -/
theorem not_failsByCalls_of_transient {blocks : List (List UInt8)} {writev : SendResult}
    (hlength : blocks.flatten.length < signedBound) (htransient : writev.Transient)
    (answers : SendAnswers) :
    ¬FailsByCalls blocks.flatten
      (writev.FailsOn blocks.flatten ∨ CallFailed answers (sendBlocks writev answers blocks))
      (sendBlocks writev answers blocks) := by
  cases writev with
  | accepted count => exact htransient.elim
  | failed errno =>
    intro h
    have hfailed := sendBlocks_failed hlength errno answers
    rcases h.failure (by rw [hfailed]) with hreal | hcall
    · exact htransient.elim hreal.1 fun h' => h'.elim hreal.2.1 hreal.2.2
    · exact not_callFailed_of_unused (by rw [hfailed]) hcall

/-- **When a transient condition is no failure.** `sendBlocks` fails by its calls only exactly if
its first call reports none; `sendBlock` of the same bytes always does. Of the kernel this asks
that `writev` refuses lengths that do not add up to a `ssize_t`. -/
theorem sendBlocks_failsByCalls_iff {blocks : List (List UInt8)} {writev : SendResult}
    (hinval : signedBound ≤ blocks.flatten.length → writev = .failed eInval)
    (answers : SendAnswers) :
    (FailsByCalls blocks.flatten
      (writev.FailsOn blocks.flatten ∨ CallFailed answers (sendBlocks writev answers blocks))
      (sendBlocks writev answers blocks) ↔ ¬writev.Transient) ∧
    (blocks.flatten.length < signedBound → ∀ answers,
      FailsByCalls blocks.flatten (CallFailed answers (sendBlock answers blocks.flatten))
        (sendBlock answers blocks.flatten)) := by
  refine ⟨⟨fun h htransient => ?_, fun htransient => ?_⟩,
    fun hlength => sendBlock_failsByCalls hlength⟩
  · refine not_failsByCalls_of_transient (Nat.lt_of_not_le fun hle => ?_) htransient answers h
    rw [hinval hle] at htransient
    exact absurd htransient (by decide)
  · refine sendBlocks_failsByCalls (fun count haccepted => Nat.lt_of_not_le fun hle => ?_)
      htransient answers
    exact absurd ((hinval hle).symm.trans haccepted) (by simp)

/-- A short `writev` and an interrupted `send`: the rest is sent all the same. -/
theorem sendBlocks_failsByCalls_interrupted :
    FailsByCalls [1, 2, 3]
      ((SendResult.accepted 1).FailsOn [1, 2, 3] ∨ CallFailed ⟨[.failed eIntr, .accepted 9], []⟩
        (sendBlocks (.accepted 1) ⟨[.failed eIntr, .accepted 9], []⟩ [[1, 2, 3]]))
      (sendBlocks (.accepted 1) ⟨[.failed eIntr, .accepted 9], []⟩ [[1, 2, 3]]) := by
  have hinval : signedBound ≤ ([[1, 2, 3]] : List (List UInt8)).flatten.length →
      SendResult.accepted 1 = .failed eInval := fun h => absurd h (by decide)
  exact (sendBlocks_failsByCalls_iff hinval _).1.mpr (by decide)

/-- The first call would block; nothing has failed, `sendBlock` would wait and send, and
`sendBlocks` returns -1. -/
theorem sendBlocks_gives_up :
    (sendBlocks (.failed eAgain) ⟨[.accepted 9], [.fds 1]⟩ [[1, 2, 3]]).retVal = some (-1) ∧
      ¬((SendResult.failed eAgain).FailsOn [1, 2, 3] ∨ CallFailed ⟨[.accepted 9], [.fds 1]⟩
        (sendBlocks (.failed eAgain) ⟨[.accepted 9], [.fds 1]⟩ [[1, 2, 3]])) ∧
      sendBlock ⟨[.failed eAgain, .accepted 9], [.fds 1]⟩ [1, 2, 3] =
        ⟨some 3, [1, 2, 3], ⟨[], []⟩⟩ := by
  refine ⟨by decide, ?_, by decide⟩
  rintro (hreal | hcall)
  · exact absurd rfl hreal.2.1
  · exact not_callFailed_of_unused (by decide) hcall

end DevScan.Stream
