import DevScan.Client.Receiving

/-!
# `Client/Pending.lean` — a pending request sees the answers and nothing else

The abstract model of a pending request is a function of the **answers** that arrive, wave by
wave (`settle`). The loop refines it (`executeFor_settles`) as long as what arrives besides the
answers is *harmless*: not empty, and nothing `recvCb` throws on. Every drain then empties the
queue, so that a telegram is read in the round it arrives in.
-/

set_option autoImplicit false

namespace DevScan.Client

open ConfigureClient

/-- The telegram neither ends the reading nor makes `recvCb` throw. -/
def Harmless (parse : Char → Json.Reader) (telegram : Telegram) : Prop :=
  telegram.text ≠ [] ∧ Digestible parse telegram

theorem ResponseTo.harmless {parse : Char → Json.Reader} {id : StdString} {telegram : Telegram}
    (h : ResponseTo parse id telegram) : Harmless parse telegram :=
  ⟨h.1, (isResponse_ok_iff id).mp ⟨true, isResponse_eq_true_iff.mpr h.2⟩⟩

/-- **What a pending request comes to**: the last answer of the first round that brings one or,
if the stop event of that round is handled in one that brings further answers before it, the last
of those. -/
def settle (parse : Char → Json.Reader) (id : StdString) :
    List Wave → (unread : List Telegram) → (stopped : Bool) → (response : StdString) → StdString
  | [], _, _, response => response
  | w :: waves, unread, stopped, response =>
    let answers := (unread ++ w.arrivals).filter (isAnswer parse id)
    if stopped then if w.stopFirst then response else lastAnswer parse id answers response
    else settle parse id waves [] (!answers.isEmpty) (lastAnswer parse id answers response)

theorem lastAnswer_filter (parse : Char → Json.Reader) (id : StdString) (telegrams : List Telegram)
    (response : StdString) :
    lastAnswer parse id (telegrams.filter (isAnswer parse id)) response =
      lastAnswer parse id telegrams response := by
  induction telegrams generalizing response with
  | nil => rfl
  | cons t telegrams ih =>
    by_cases h : isAnswer parse id t = true
    · rw [List.filter_cons_of_pos h, lastAnswer, lastAnswer, List.foldl_cons, List.foldl_cons]
      exact ih _
    · rw [List.filter_cons_of_neg h, ih, lastAnswer, lastAnswer, List.foldl_cons, if_neg h]

/-- Of what is unread only the answers count. -/
theorem settle_congr {parse : Char → Json.Reader} {id : StdString} {waves : List Wave}
    {a b : List Telegram} (h : a.filter (isAnswer parse id) = b.filter (isAnswer parse id))
    (stopped : Bool) (response : StdString) :
    settle parse id waves a stopped response = settle parse id waves b stopped response := by
  cases waves with
  | nil => rfl
  | cons w waves => simp only [settle, List.filter_append, h]

theorem any_eq_not_isEmpty_filter {α : Type} (p : α → Bool) (l : List α) :
    l.any p = !(l.filter p).isEmpty := by
  rw [Bool.eq_iff_iff]
  simp

/-! ## One round of the loop -/

section Round

variable {parse : Char → Json.Reader} {w : Wave} {waves : List Wave} {c c' : ConfigureClient}

theorem executeFor_stop (hstopped : c.stopped = true)
    (hfirst : (w.stopFirst || !(c.arrive w).readable) = true) :
    c.executeFor parse (w :: waves) = (.ok (), (c.arrive w).reported w) := by
  rw [executeFor, if_pos]
  rw [show (c.arrive w).stopped = c.stopped from rfl, hstopped, hfirst]
  rfl

theorem executeFor_drain_stop {n : Int} (hstopped : c.stopped = true) (hfirst : w.stopFirst = false)
    (hreadable : (c.arrive w).readable = true)
    (hdrain : (receiver parse).drain ((c.arrive w).reported w) = (.ok n, c')) :
    c.executeFor parse (w :: waves) = (.ok (), c') := by
  have hnot : ¬((c.arrive w).stopped && (w.stopFirst || !(c.arrive w).readable)) = true := by
    rw [hfirst, hreadable]
    simp
  rw [executeFor, if_neg hnot, if_pos hreadable, hdrain]
  exact if_pos hstopped

theorem executeFor_drain {n : Int} (hstopped : c.stopped = false)
    (hreadable : (c.arrive w).readable = true)
    (hdrain : (receiver parse).drain ((c.arrive w).reported w) = (.ok n, c')) :
    c.executeFor parse (w :: waves) = c'.executeFor parse waves := by
  have hrunning : (c.arrive w).stopped = false := hstopped
  rw [executeFor, if_neg (by rw [hrunning]; simp), if_pos hreadable, hdrain]
  exact if_neg (by rw [hrunning]; simp)

theorem executeFor_idle (hstopped : c.stopped = false) (hreadable : (c.arrive w).readable = false) :
    c.executeFor parse (w :: waves) = (c.arrive w).executeFor parse waves := by
  have hrunning : (c.arrive w).stopped = false := hstopped
  rw [executeFor, if_neg (by rw [hrunning]; simp), if_neg (by rw [hreadable]; simp)]

/-- A round that drains reads the queue to its end, if all of it is harmless. -/
theorem drain_harmless (w : Wave) (h : ∀ t ∈ c.queue, Harmless parse t) :
    ∃ n c', (receiver parse).drain (c.reported w) = (.ok n, c') ∧ c'.queue = [] ∧ c'.id = c.id ∧
      c'.response = lastAnswer parse c.id c.queue c.response ∧
      c'.stopped = !(c.queue.filter (isAnswer parse c.id)).isEmpty := by
  obtain ⟨n, hn, htook, hqueue⟩ := drain_all (c := c.reported w) h
  refine ⟨n, _, Prod.ext hn rfl, hqueue, htook.id, htook.response, ?_⟩
  rw [htook.stopped, ← any_eq_not_isEmpty_filter]
  exact Bool.false_or _

end Round

/-- **The loop refines the abstract request**, if no unread answer is without an event. -/
theorem executeFor_settles {parse : Char → Json.Reader} {waves : List Wave} {c : ConfigureClient}
    (hqueue : ∀ t ∈ c.queue, Harmless parse t)
    (hwaves : ∀ w ∈ waves, ∀ t ∈ w.arrivals, Harmless parse t)
    (hdue : c.readable = false → c.queue.filter (isAnswer parse c.id) = []) :
    (c.executeFor parse waves).1 = .ok () ∧
      (c.executeFor parse waves).2.response =
        settle parse c.id waves c.queue c.stopped c.response := by
  induction waves generalizing c with
  | nil => exact ⟨rfl, rfl⟩
  | cons w waves ih =>
    have hlater : ∀ w' ∈ waves, ∀ t ∈ w'.arrivals, Harmless parse t := fun w' hw' =>
      hwaves w' (List.mem_cons_of_mem _ hw')
    have hw : ∀ t ∈ (c.arrive w).queue, Harmless parse t := by
      intro t ht
      rcases List.mem_append.mp ht with ht | ht
      · exact hqueue t ht
      · exact hwaves w List.mem_cons_self t ht
    have hidle : (c.arrive w).readable = false →
        (c.queue ++ w.arrivals).filter (isAnswer parse c.id) = [] := by
      intro hreadable
      obtain ⟨hc, harrivals⟩ := Bool.or_eq_false_iff.mp hreadable
      have hnone : w.arrivals = [] := by simpa using harrivals
      rw [hnone, List.append_nil, hdue hc]
    obtain ⟨n, c', hdrain, hempty, hid, hresponse, hstopped⟩ := drain_harmless w hw
    rw [settle, lastAnswer_filter]
    cases hs : c.stopped with
    | true =>
      cases hfirst : w.stopFirst with
      | true => rw [executeFor_stop hs (by rw [hfirst]; rfl)]; exact ⟨rfl, rfl⟩
      | false =>
        cases hr : (c.arrive w).readable with
        | true => rw [executeFor_drain_stop hs hfirst hr hdrain]; exact ⟨rfl, hresponse⟩
        | false =>
          rw [executeFor_stop hs (by rw [hr]; simp), ← lastAnswer_filter, hidle hr]
          exact ⟨rfl, rfl⟩
    | false =>
      cases hr : (c.arrive w).readable with
      | true =>
        rw [executeFor_drain hs hr hdrain]
        obtain ⟨hok, hsettle⟩ := ih (by rw [hempty]; simp) hlater (by rw [hempty]; simp)
        refine ⟨hok, ?_⟩
        rw [hsettle, hempty, hid, hresponse, hstopped]
        rfl
      | false =>
        -- nothing is reported; what is unread holds no answer and stays where it is
        rw [executeFor_idle hs hr]
        obtain ⟨hok, hsettle⟩ := ih hw hlater (fun _ => hidle hr)
        refine ⟨hok, hsettle.trans ?_⟩
        rw [← lastAnswer_filter, hidle hr]
        refine (settle_congr (b := []) (hidle hr) _ _).trans ?_
        exact congrArg (fun stopped => settle parse c.id waves [] stopped c.response) hs

end DevScan.Client
