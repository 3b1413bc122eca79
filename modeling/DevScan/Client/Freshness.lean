import DevScan.Client.Pending
import DevScan.Lib.Runs

/-!
# `Client/Freshness.lean` — is what a request returns an answer to it

A request returns `m_response`, and nothing ever clears it. So a request that gets no answer
returns what an earlier one was answered with. `fresh_iff` says for a whole history of requests on
one client what that comes to: every return value is fresh **exactly if, from the first answered
request on, every request is answered**, and no telegram makes `recvCb` throw.
-/

set_option autoImplicit false

namespace DevScan.Client

open Lib (run transitions)

section

variable (parse : Char → Json.Reader) (write : Json.Value → StdString)

def afterRequest (c : ConfigureClient) (r : Request) : ConfigureClient := (r.call parse write c).2

/-- The telegrams read while a request is pending. -/
def receivedDuring (c : ConfigureClient) (r : Request) : List Telegram :=
  (afterRequest parse write c r).received.drop c.received.length

/-- **What a request should return**: nothing, or a telegram that was received while it was
pending, is a result or an error, and carries the id generated for it. -/
def Fresh (c : ConfigureClient) (r : Request) : Prop :=
  ∃ s, (r.call parse write c).1 = .ok s ∧
    (s = [] ∨ ∃ t ∈ receivedDuring parse write c r, t.text = s ∧ ResponseTo parse r.id t)

/-- An answer to the request is received while it is pending. -/
def Answered (c : ConfigureClient) (r : Request) : Prop :=
  ∃ t ∈ receivedDuring parse write c r, ResponseTo parse r.id t

/-- Nothing that is received while the request is pending makes `recvCb` throw. -/
def Undamaged (c : ConfigureClient) (r : Request) : Prop :=
  ∀ t ∈ receivedDuring parse write c r, t.text = [] ∨ Digestible parse t

end

variable {parse : Char → Json.Reader} {write : Json.Value → StdString}

/-- A request leaves the last answer it received, or what was there before. -/
theorem afterRequest_response (c : ConfigureClient) (r : Request) :
    (afterRequest parse write c r).response =
        lastAnswer parse r.id (receivedDuring parse write c r) c.response ∧
      ((∃ s, (r.call parse write c).1 = .ok s) ↔ Undamaged parse write c r) ∧
      ∀ s, (r.call parse write c).1 = .ok s → s = (afterRequest parse write c r).response := by
  obtain ⟨telegrams, hreceived, hresponse, hok, hreturn⟩ := r.call_read parse write c
  have htelegrams : receivedDuring parse write c r = telegrams := by
    rw [receivedDuring, afterRequest, hreceived, List.drop_left]
  rw [Undamaged, htelegrams]
  exact ⟨hresponse, hok, hreturn⟩

theorem afterRequest_response_of_answered {c : ConfigureClient} {r : Request}
    (h : Answered parse write c r) :
    ∃ t ∈ receivedDuring parse write c r, t.text = (afterRequest parse write c r).response ∧
      ResponseTo parse r.id t := by
  obtain ⟨t, ht, hanswer⟩ := h
  obtain ⟨t', hmem, hanswer', hlast⟩ := lastAnswer_mem ⟨t, ht, isAnswer_iff.mpr hanswer⟩ c.response
  rw [(afterRequest_response c r).1]
  exact ⟨t', hmem, hlast.symm, isAnswer_iff.mp hanswer'⟩

theorem afterRequest_response_of_not_answered {c : ConfigureClient} {r : Request}
    (h : ¬Answered parse write c r) : (afterRequest parse write c r).response = c.response := by
  rw [(afterRequest_response c r).1]
  refine lastAnswer_of_none (fun t ht => Bool.eq_false_iff.mpr fun hc => ?_) _
  exact h ⟨t, ht, isAnswer_iff.mp hc⟩

theorem fresh_iff_of_request (c : ConfigureClient) (r : Request) :
    Fresh parse write c r ↔
      Undamaged parse write c r ∧ (c.response = [] ∨ Answered parse write c r) := by
  obtain ⟨-, hok, hreturn⟩ := @afterRequest_response parse write c r
  constructor
  · intro h
    obtain ⟨s, hs, hfresh⟩ := h
    refine ⟨hok.mp ⟨s, hs⟩, ?_⟩
    by_cases hanswered : Answered parse write c r
    · exact Or.inr hanswered
    · have hkept := afterRequest_response_of_not_answered hanswered
      rcases hfresh with hempty | ⟨t, hmem, -, hanswer⟩
      · exact Or.inl (hkept ▸ hreturn s hs ▸ hempty)
      · exact absurd ⟨t, hmem, hanswer⟩ hanswered
  · intro h
    obtain ⟨hundamaged, hcases⟩ := h
    obtain ⟨s, hs⟩ := hok.mpr hundamaged
    have hresponse := hreturn s hs
    refine ⟨s, hs, ?_⟩
    by_cases hanswered : Answered parse write c r
    · exact Or.inr (hresponse ▸ afterRequest_response_of_answered hanswered)
    · rw [afterRequest_response_of_not_answered hanswered] at hresponse
      exact Or.inl (hresponse.trans (hcases.resolve_right hanswered))

/-- **What a client holds after a history**: nothing, as long as no request was answered. -/
theorem run_response_eq_nil_iff (c : ConfigureClient) (requests : List Request) :
    (run (afterRequest parse write) c requests).response = [] ↔
      c.response = [] ∧ ∀ p ∈ transitions (afterRequest parse write) c requests,
        ¬Answered parse write p.1 p.2 := by
  induction requests generalizing c with
  | nil => simp [transitions]
  | cons r requests ih =>
    rw [Lib.run_cons, ih, transitions, List.forall_mem_cons, ← and_assoc]
    refine and_congr_left fun _ => ?_
    by_cases h : Answered parse write c r
    · refine iff_of_false (fun hnil => ?_) (fun hc => hc.2 h)
      obtain ⟨t, -, htext, hanswer⟩ := afterRequest_response_of_answered h
      exact hanswer.1 (htext.trans hnil)
    · rw [afterRequest_response_of_not_answered h]
      exact (and_iff_left h).symm

/-- **Histories of requests.** All of them return what is fresh exactly if nothing that is
received makes `recvCb` throw and, once one was answered, all are. -/
theorem fresh_iff (parse : Char → Json.Reader) (write : Json.Value → StdString)
    (requests : List Request) :
    (∀ p ∈ transitions (afterRequest parse write) {} requests, Fresh parse write p.1 p.2) ↔
      (∀ p ∈ transitions (afterRequest parse write) {} requests,
        Undamaged parse write p.1 p.2) ∧
      ∀ pre r post, requests = pre ++ r :: post →
        (∃ p ∈ transitions (afterRequest parse write) {} pre, Answered parse write p.1 p.2) →
        Answered parse write (run (afterRequest parse write) {} pre) r := by
  have hempty : ({} : ConfigureClient).response = [] := rfl
  constructor
  · intro h
    refine ⟨fun p hp => ((fresh_iff_of_request p.1 p.2).mp (h p hp)).1, ?_⟩
    intro pre r post hrequests hearlier
    obtain ⟨q, hq, hanswered⟩ := hearlier
    have hfresh := h (run (afterRequest parse write) {} pre, r)
      ((Lib.mem_transitions_iff _).mpr ⟨pre, post, hrequests, rfl⟩)
    refine (((fresh_iff_of_request _ r).mp hfresh).2).resolve_left fun hnil => ?_
    exact ((run_response_eq_nil_iff {} pre).mp hnil).2 q hq hanswered
  · intro h p hp
    obtain ⟨hundamaged, hanswered⟩ := h
    refine (fresh_iff_of_request p.1 p.2).mpr ⟨hundamaged p hp, ?_⟩
    obtain ⟨pre, post, hrequests, hpre⟩ := (Lib.mem_transitions_iff _).mp hp
    by_cases hearlier : ∃ q ∈ transitions (afterRequest parse write) {} pre,
        Answered parse write q.1 q.2
    · exact Or.inr (hpre ▸ hanswered pre p.2 post hrequests hearlier)
    · left
      rw [hpre, run_response_eq_nil_iff]
      exact ⟨hempty, fun q hq hc => hearlier ⟨q, hq, hc⟩⟩

/-- Where nothing but harmless telegrams arrives, a request comes to what the abstract one does. -/
theorem afterRequest_settles {c : ConfigureClient} {r : Request}
    (hqueue : ∀ t ∈ c.queue, Harmless parse t)
    (hwaves : ∀ w ∈ r.env.waves, ∀ t ∈ w.arrivals, Harmless parse t)
    (hdue : c.readable = false → c.queue.filter (isAnswer parse r.id) = []) :
    (afterRequest parse write c r).response =
      settle parse r.id r.env.waves c.queue c.stopped c.response := by
  obtain ⟨interfaceIp, ttl, tree, -, heq⟩ := r.call_eq parse write c
  rw [afterRequest, heq, ConfigureClient.executeRequest_snd]
  exact (executeFor_settles
    (c := ConfigureClient.send r.env.network interfaceIp ttl (write tree) { c with id := r.id })
    hqueue hwaves hdue).2

/-! ## A request nobody answers -/

/-- An answer to the request with id `1400000000:17`. -/
def sampleAnswer : Telegram := ⟨"\x7b\"id\":\"1400000000:17\",\"result\":0\x7d".toList, '\x00'⟩

def sampleReader : Char → Json.Reader := fun _ text =>
  if text = sampleAnswer.text then
    some (.objectValue [(Jsonrpc.id, .stringValue "1400000000:17".toList),
      (Jsonrpc.result, .intValue 0)])
  else none

/-- The request that is answered, and one a minute later during which nothing arrives. -/
def sampleRequests : Request × Request :=
  (.setDefaultGateway ⟨1400000000, 17, .obliging, [⟨[sampleAnswer], false, false⟩]⟩
      "172.19.2.4".toList 1 "0009E5".toList "172.19.1.1".toList,
    .setDefaultGateway ⟨1400000060, 18, .obliging, []⟩ "172.19.2.4".toList 1 "0009E5".toList
      "172.19.1.2".toList)

/-- **A request returns a stale answer in general**: the second one returns what the first was
answered with, however the requests are written. -/
theorem stale_sampleRequests :
    ¬∃ write, ∀ p ∈ transitions (afterRequest sampleReader write) {}
      [sampleRequests.1, sampleRequests.2], Fresh sampleReader write p.1 p.2 := by
  intro h
  obtain ⟨write, h⟩ := h
  have hharmless : ∀ w ∈ sampleRequests.1.env.waves, ∀ t ∈ w.arrivals,
      Harmless sampleReader t := by
    intro w hw t ht
    obtain rfl := List.mem_singleton.mp hw
    obtain rfl := List.mem_singleton.mp ht
    refine ⟨by decide, Or.inr (Or.inr ⟨_, if_pos rfl, fun _ => rfl⟩)⟩
  have hfirst : (afterRequest sampleReader write {} sampleRequests.1).response =
      sampleAnswer.text := by
    rw [afterRequest_settles (by simp) hharmless (by simp)]
    decide
  -- nothing is received during the second one
  have hfresh := h (afterRequest sampleReader write {} sampleRequests.1, sampleRequests.2)
    (by simp [transitions])
  rcases ((fresh_iff_of_request _ _).mp hfresh).2 with hnil | hanswered
  · rw [hfirst] at hnil
    exact absurd hnil (by decide)
  · obtain ⟨t, ht, -⟩ := hanswered
    have hnothing : ∀ c : ConfigureClient,
        receivedDuring sampleReader write c sampleRequests.2 = [] :=
      fun c => List.drop_length
    rw [hnothing] at ht
    exact absurd ht (by simp)

end DevScan.Client
