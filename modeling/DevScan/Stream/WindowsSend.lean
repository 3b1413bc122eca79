import DevScan.Stream.WindowsSocket
import DevScan.Stream.SendBlocks

/-!
# `Stream/WindowsSend.lean` — what the Windows `sendBlock` reports

Five exits of the loop of `sendBlock` are failures, and four of them return -1. The fifth, a real
error of `send`, sets a `retVal` of its own, and `sendBlock` returns the size of the block it has
not sent. `blockEnd` says by counting alone how the sending of a block ends; `sendLoop_ends` is
that the loop ends so.
-/

set_option autoImplicit false

namespace DevScan.Stream.Windows

open Lib.Int32 (toInt bound bound_lt_modulus toInt_of_lt toInt_lt bound_le_sub)

/-! ## How the sending of a block ends -/

/-- `send` is called and fails for good. -/
def Round.SendError (r : Round) : Prop :=
  match r.select, r.send with
  | .fds nfds isSet, .failed errno =>
    nfds = 1 ∧ isSet = true ∧
      errno ≠ wsaEWouldBlock ∧ errno ≠ wsaEIntr ∧ errno ≠ wsaEInProgress
  | _, _ => False

/-- How many bytes `send` takes of `bytesLeft`, if it is called. -/
def Round.count (r : Round) (bytesLeft : Nat) : Nat :=
  match r.select, r.send with
  | .fds 1 true, .accepted count => min bytesLeft (min count (toInt bytesLeft).toNat)
  | _, _ => 0

/-- The loop goes on: it was interrupted, nothing was ready, or some bytes were taken. -/
def Round.GoesOn (r : Round) (bytesLeft : Nat) : Prop :=
  match r.select, r.send with
  | .fds nfds isSet, .accepted _ => nfds = 1 ∧ (isSet = true → 0 < r.count bytesLeft)
  | .fds nfds isSet, .failed errno =>
    nfds = 1 ∧ (isSet = true →
      errno = wsaEWouldBlock ∨ errno = wsaEIntr ∨ errno = wsaEInProgress)
  | .failed errno, _ => errno = wsaEIntr

instance (r : Round) : Decidable r.SendError := by
  unfold Round.SendError; split <;> infer_instance

instance (r : Round) (bytesLeft : Nat) : Decidable (r.GoesOn bytesLeft) := by
  unfold Round.GoesOn; split <;> infer_instance

/-- How the sending of `bytesLeft` bytes ends: whether by a real error of `send`, and the rounds
behind that. `none` is a failure that is reported, or no end. -/
def blockEnd : Nat → List Round → Option (Bool × List Round)
  | 0, rounds => some (false, rounds)
  | _ + 1, [] => none
  | bytesLeft + 1, round :: rounds =>
    if round.SendError then some (true, rounds)
    else if round.GoesOn (bytesLeft + 1) then
      blockEnd (bytesLeft + 1 - round.count (bytesLeft + 1)) rounds
    else none

theorem blockEnd_cons {bytes : List UInt8} (hne : bytes ≠ []) (round : Round)
    (rounds : List Round) :
    blockEnd bytes.length (round :: rounds) =
      if round.SendError then some (true, rounds)
      else if round.GoesOn bytes.length then
        blockEnd (bytes.length - round.count bytes.length) rounds
      else none := by
  obtain ⟨byte, rest, rfl⟩ := List.exists_cons_of_ne_nil hne
  rfl

/-- `send` does not take more than it is asked for. -/
theorem Round.count_le (r : Round) (bytesLeft : Nat) :
    r.count bytesLeft ≤ (toInt bytesLeft).toNat := by
  unfold Round.count
  split
  · omega
  · exact Nat.zero_le _

/-- The same for blocks one after the other, which go on behind a real error. -/
def blocksEnd : List Nat → List Round → Option (Bool × List Round)
  | [], rounds => some (false, rounds)
  | bytesLeft :: blocks, rounds =>
    match blockEnd bytesLeft rounds with
    | none => none
    | some (error, rounds) => (blocksEnd blocks rounds).map fun ending => (error || ending.1, ending.2)

/-- **An error is hidden**: the sending of some block ends by a real error of `send`, and no
failure is reported of any. -/
def ErrorHidden (blocks : List Nat) (rounds : List Round) : Prop :=
  (blocksEnd blocks rounds).map Prod.fst = some true

instance (blocks : List Nat) (rounds : List Round) : Decidable (ErrorHidden blocks rounds) :=
  inferInstanceAs (Decidable (_ = _))

/-- What a call comes to that has `bytes` to send and returns `retVal` unless it reports a failure,
by the way its sending ends. -/
inductive Ends (retVal : Int) (bytes : List UInt8) : Option (Bool × List Round) → Sent → Prop
  | reported {sent : Sent} :
      (∀ v, sent.retVal = some v → v = -1) → sent.accepted.length < bytes.length →
      Ends retVal bytes none sent
  | complete {left : List Round} :
      bytes.length < bound → Ends retVal bytes (some (false, left)) ⟨some retVal, bytes, left⟩
  | error {left : List Round} {accepted : List UInt8} :
      accepted.length < bytes.length →
      Ends retVal bytes (some (true, left)) ⟨some retVal, accepted, left⟩

namespace Ends

variable {retVal : Int} {bytes before : List UInt8} {ending : Option (Bool × List Round)}
  {sent : Sent}

/-- A round has had `before` accepted, no more than `send` is asked for. -/
theorem after (h : Ends retVal bytes ending sent)
    (hbefore : before.length ≤ (toInt (before ++ bytes).length).toNat) :
    Ends retVal (before ++ bytes) ending (sent.after before) := by
  cases h with
  | reported hret hlt =>
    refine .reported hret ?_
    rw [Sent.after, List.length_append, List.length_append]
    exact Nat.add_lt_add_left hlt _
  | complete hlt =>
    refine .complete (Nat.lt_of_not_le fun hle => ?_)
    have hsub := bound_le_sub hle hbefore
    rw [List.length_append] at hsub
    omega
  | error hlt =>
    refine .error ?_
    rw [List.length_append, List.length_append]
    exact Nat.add_lt_add_left hlt _

/-- Where no failure is reported, `retVal` is returned. -/
theorem returns {error : Bool} {left : List Round} (h : Ends retVal bytes (some (error, left)) sent) :
    sent.retVal = some retVal ∧ sent.rounds = left := by
  cases h with
  | complete _ => exact ⟨rfl, rfl⟩
  | error _ => exact ⟨rfl, rfl⟩

end Ends

theorem length_taken (pDat : List UInt8) (count : Nat) :
    (taken pDat count).length = Round.count ⟨.fds 1 true, .accepted count⟩ pDat.length := by
  rw [taken, List.length_take, Nat.min_comm]
  rfl

theorem take_length_taken (pDat : List UInt8) (count : Nat) :
    pDat.take (taken pDat count).length = taken pDat count := by
  rw [taken, List.length_take, ← List.take_eq_take_min]

/-- **One round.** It ends by a real error, or it goes on with what `send` has left, or -1 is
returned. -/
theorem sendLoop_round (retVal : Int) (round : Round) (rounds : List Round) {pDat : List UInt8}
    (hne : pDat ≠ []) :
    (round.SendError ∧ sendLoop retVal (round :: rounds) pDat = ⟨some retVal, [], rounds⟩) ∨
      (¬round.SendError ∧ round.GoesOn pDat.length ∧
        sendLoop retVal (round :: rounds) pDat =
          (sendLoop retVal rounds (pDat.drop (round.count pDat.length))).after
            (pDat.take (round.count pDat.length))) ∨
      (¬round.SendError ∧ ¬round.GoesOn pDat.length ∧
        sendLoop retVal (round :: rounds) pDat = ⟨some (-1), [], rounds⟩) := by
  obtain ⟨byte, rest, rfl⟩ := List.exists_cons_of_ne_nil hne
  obtain ⟨select, result⟩ := round
  cases select with
  | failed errno =>
    by_cases hintr : errno = wsaEIntr
    · exact Or.inr (Or.inl ⟨id, hintr, if_neg (not_not_intro hintr)⟩)
    · exact Or.inr (Or.inr ⟨id, hintr, if_pos hintr⟩)
  | fds nfds isSet =>
    by_cases hone : nfds = 1
    · subst hone
      cases isSet with
      | false =>
        refine Or.inr (Or.inl ⟨?_, ?_, rfl⟩)
        · cases result <;> simp [Round.SendError]
        · cases result <;> simp [Round.GoesOn]
      | true =>
        cases result with
        | accepted count =>
          simp only [sendLoop, if_true]
          rw [← length_taken, take_length_taken]
          by_cases hsome : 0 < (taken (byte :: rest) count).length
          · refine Or.inr (Or.inl ⟨id, ⟨rfl, fun _ => ?_⟩, if_pos hsome⟩)
            exact length_taken (byte :: rest) count ▸ hsome
          · refine Or.inr (Or.inr ⟨id, fun h => hsome ?_, if_neg hsome⟩)
            exact length_taken (byte :: rest) count ▸ h.2 rfl
        | failed errno =>
          simp only [sendLoop, if_true]
          by_cases hreal : errno ≠ wsaEWouldBlock ∧ errno ≠ wsaEIntr ∧ errno ≠ wsaEInProgress
          · exact Or.inl ⟨⟨rfl, rfl, hreal⟩, if_pos hreal⟩
          · refine Or.inr (Or.inl ⟨fun h => hreal h.2.2, ⟨rfl, fun _ => ?_⟩, if_neg hreal⟩)
            tauto
    · refine Or.inr (Or.inr ⟨?_, ?_, ?_⟩)
      · cases result with
        | accepted count => exact id
        | failed errno => exact fun h => hone h.1
      · cases result <;> exact fun h => hone h.1
      · exact if_neg hone

theorem sendLoop_ends (retVal : Int) (rounds : List Round) (pDat : List UInt8) :
    Ends retVal pDat (blockEnd pDat.length rounds) (sendLoop retVal rounds pDat) := by
  induction rounds generalizing pDat with
  | nil =>
    cases pDat with
    | nil => exact .complete (by decide)
    | cons byte pDat => exact .reported (fun v hv => absurd hv (by simp [sendLoop])) (Nat.succ_pos _)
  | cons round rounds ih =>
    by_cases hnil : pDat = []
    · subst hnil
      exact .complete (by decide)
    · rw [blockEnd_cons hnil]
      rcases sendLoop_round retVal round rounds hnil with
        ⟨herror, hloop⟩ | ⟨herror, hgoes, hloop⟩ | ⟨herror, hgoes, hloop⟩
      · rw [if_pos herror, hloop]
        exact .error (List.length_pos_iff.mpr hnil)
      · rw [if_neg herror, if_pos hgoes, hloop]
        have hrest := ih (pDat.drop (round.count pDat.length))
        rw [List.length_drop] at hrest
        have hafter := @Ends.after retVal _ (pDat.take (round.count pDat.length)) _ _ hrest
        rw [List.take_append_drop] at hafter
        exact hafter (Nat.le_trans (List.length_take_le _ _) (round.count_le _))
      · rw [if_neg herror, if_neg hgoes, hloop]
        exact .reported (fun v hv => (Option.some.inj hv).symm) (List.length_pos_iff.mpr hnil)

theorem errorHidden_singleton (bytesLeft : Nat) (rounds : List Round) :
    ErrorHidden [bytesLeft] rounds ↔ (blockEnd bytesLeft rounds).map Prod.fst = some true := by
  rw [ErrorHidden, blocksEnd]
  cases blockEnd bytesLeft rounds with
  | none => exact Iff.rfl
  | some ending => simp [blocksEnd]

/-- **What `sendBlock` reports.** It returns the size for the whole block and -1 otherwise, exactly
if no real error of `send` ends it; or if the size happens to be -1 as an `int`. -/
theorem sendBlock_reports_iff (rounds : List Round) (pBlock : List UInt8) :
    (∀ retVal, (sendBlock rounds pBlock).retVal = some retVal →
      retVal = pBlock.length ∧ (sendBlock rounds pBlock).accepted = pBlock ∨
        retVal = -1 ∧ (sendBlock rounds pBlock).accepted ≠ pBlock) ↔
      (ErrorHidden [pBlock.length] rounds → toInt pBlock.length = -1) := by
  have hends := sendLoop_ends (toInt pBlock.length) rounds pBlock
  rw [errorHidden_singleton, sendBlock]
  generalize sendLoop (toInt pBlock.length) rounds pBlock = sent at hends
  cases hending : blockEnd pBlock.length rounds with
  | none =>
    rw [hending] at hends
    cases hends with
    | reported hret hlt =>
      refine ⟨fun _ h => absurd h (by simp), fun _ retVal hv => Or.inr ⟨hret retVal hv, ?_⟩⟩
      exact fun heq => absurd hlt (by simp [heq])
  | some ending =>
    obtain ⟨error, left⟩ := ending
    rw [hending] at hends
    cases hends with
    | complete hlt =>
      refine ⟨fun _ h => absurd h (by simp), fun _ retVal hv => Or.inl ⟨?_, rfl⟩⟩
      rw [← Option.some.inj hv, toInt_of_lt hlt]
    | error hlt =>
      have hne : ∀ {accepted : List UInt8}, accepted.length < pBlock.length → accepted ≠ pBlock :=
        fun hlt heq => absurd hlt (by simp [heq])
      refine ⟨fun h _ => ?_, fun h retVal hv => Or.inr ⟨?_, hne hlt⟩⟩
      · rcases h _ rfl with ⟨-, hall⟩ | ⟨hfail, -⟩
        · exact absurd hall (hne hlt)
        · exact hfail
      · rw [← Option.some.inj hv]
        exact h rfl

def wsaEConnReset : Errno := 10054

/-- The connection is reset after one of three bytes, and 3 is returned. -/
theorem sendBlock_hides_error :
    (sendBlock [⟨.fds 1 true, .accepted 1⟩, ⟨.fds 1 true, .failed wsaEConnReset⟩]
      [1, 2, 3]) = ⟨some 3, [1], []⟩ := by decide

end DevScan.Stream.Windows
