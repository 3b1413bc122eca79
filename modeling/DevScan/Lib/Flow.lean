import Mathlib.Data.List.Basic

/-!
# `Lib/Flow.lean` — what passes through a buffer

A relay takes elements in, holds some of them and hands the others out. It is **intact** when
what has gone out, followed by what is held, is what has come in: nothing is lost, repeated or
reordered. It stays intact when it hands out the front of what it holds (`split`), when more
comes in behind (`feed`) and when what it holds goes out in turn (`next`).
-/

set_option autoImplicit false

namespace DevScan.Lib

variable {α : Type*}

/-- What has gone out, followed by what is held, is what has come in. -/
def Intact (input output held : List α) : Prop := output ++ held = input

namespace Intact

variable {input output held : List α}

/-- Hand out the first `n` of what is held, all of it if there are fewer. -/
theorem split (held : List α) (n : Nat) : Intact held (held.take n) (held.drop n) :=
  List.take_append_drop n held

theorem feed (h : Intact input output held) (more : List α) :
    Intact (input ++ more) output (held ++ more) := by
  rw [Intact, ← List.append_assoc, h]

/-- What is held is handed out in turn. -/
theorem next {block held' : List α} (h : Intact input output held) (h' : Intact held block held') :
    Intact input (output ++ block) held' := by
  rw [Intact, List.append_assoc, h', h]

/-- A round: more comes in, a block goes out of what is held then. -/
theorem round {more block held' : List α} (h : Intact input output held)
    (h' : Intact (held ++ more) block held') : Intact (input ++ more) (output ++ block) held' :=
  (h.feed more).next h'

end Intact
end DevScan.Lib
