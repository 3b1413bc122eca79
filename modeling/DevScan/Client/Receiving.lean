import DevScan.Client.ConfigureClient
import DevScan.Lib.Throwing

/-!
# `Client/Receiving.lean` — what a request reads, and what it makes of it

Whatever arrives and however the loop is woken, the telegrams a request reads leave one trace in
the client: the answer it returns is the last of them that answers its id, or what `m_response`
was before if there is none (`Took`). Whether it returns at all depends on the telegrams alone:
it throws exactly if it reads one that `recvCb` cannot look into (`Digestible`).
-/

set_option autoImplicit false

namespace DevScan

open Lib (bind_eq_ok pure_eq_ok)

/-- Arrays and objects: `asString` throws on them. -/
def Json.Value.isContainer : Json.Value → Bool
  | .arrayValue _ => true
  | .objectValue _ => true
  | _ => false

theorem Json.Value.asString_eq_ok_iff {v : Json.Value} :
    (∃ s, v.asString = .ok s) ↔ v.isContainer = false := by
  cases v with
  | arrayValue | objectValue =>
    refine iff_of_false ?_ (by simp [isContainer])
    intro h
    obtain ⟨s, hs⟩ := h
    cases hs
  | _ => exact iff_of_true ⟨_, rfl⟩ rfl

namespace Client

/-! ## Telegrams -/

/-- The telegram is an object with a result or an error, and its id reads as the given one. -/
def ResponseTo (parse : Char → Json.Reader) (id : StdString) (telegram : Telegram) : Prop :=
  telegram.text ≠ [] ∧ ∃ members, parse telegram.behind telegram.text = some (.objectValue members) ∧
    ((members.lookup Jsonrpc.result).isSome ∨ (members.lookup Jsonrpc.err).isSome) ∧
    ((members.lookup Jsonrpc.id).getD .nullValue).asString = .ok id

/-- The telegram does not make `recvCb` throw: it is no JSON document, or null, or an object
which, if it has a result or an error, has an id that is neither an array nor an object. -/
def Digestible (parse : Char → Json.Reader) (telegram : Telegram) : Prop :=
  parse telegram.behind telegram.text = none ∨ parse telegram.behind telegram.text = some .nullValue ∨
    ∃ members, parse telegram.behind telegram.text = some (.objectValue members) ∧
      ((members.lookup Jsonrpc.result).isSome ∨ (members.lookup Jsonrpc.err).isSome →
        ((members.lookup Jsonrpc.id).getD .nullValue).isContainer = false)

theorem isResponse_of_object {parse : Char → Json.Reader} {id : StdString} {telegram : Telegram}
    {members : List (StdString × Json.Value)}
    (h : parse telegram.behind telegram.text = some (.objectValue members)) :
    isResponse parse id telegram =
      if (members.lookup Jsonrpc.result).isSome ∨ (members.lookup Jsonrpc.err).isSome then
        (((members.lookup Jsonrpc.id).getD .nullValue).asString).map fun s => decide (id = s)
      else .ok false := by
  unfold isResponse
  rw [h]
  simp only [Json.Value.isMember, Json.Value.index]
  cases (members.lookup Jsonrpc.result).isSome <;> cases (members.lookup Jsonrpc.err).isSome <;>
    cases hid : ((members.lookup Jsonrpc.id).getD .nullValue).asString <;>
    simp [hid, bind, Except.bind, pure, Except.pure, Except.map]

theorem isResponse_eq_true_iff {parse : Char → Json.Reader} {id : StdString}
    {telegram : Telegram} :
    isResponse parse id telegram = .ok true ↔
      ∃ members, parse telegram.behind telegram.text = some (.objectValue members) ∧
        ((members.lookup Jsonrpc.result).isSome ∨ (members.lookup Jsonrpc.err).isSome) ∧
        ((members.lookup Jsonrpc.id).getD .nullValue).asString = .ok id := by
  constructor
  · intro h
    cases hparse : parse telegram.behind telegram.text with
    | none => simp [isResponse, hparse] at h
    | some node =>
      cases node with
      | objectValue members =>
        refine ⟨members, rfl, ?_⟩
        rw [isResponse_of_object hparse] at h
        split at h
        · rename_i hmember
          refine ⟨hmember, ?_⟩
          cases hid : ((members.lookup Jsonrpc.id).getD .nullValue).asString with
          | error e => rw [hid] at h; cases h
          | ok s =>
            rw [hid] at h
            have hs : id = s := by simpa [Except.map] using h
            rw [hs]
        · cases h
      | _ => simp [isResponse, hparse, Json.Value.isMember, bind, Except.bind, pure, Except.pure] at h
  · intro h
    obtain ⟨members, hparse, hmember, hid⟩ := h
    rw [isResponse_of_object hparse, if_pos hmember, hid]
    simp [Except.map]

theorem isResponse_ok_iff {parse : Char → Json.Reader} {telegram : Telegram} (id : StdString) :
    (∃ b, isResponse parse id telegram = .ok b) ↔ Digestible parse telegram := by
  unfold Digestible
  cases hparse : parse telegram.behind telegram.text with
  | none => simp [isResponse, hparse]
  | some node =>
    cases node with
    | nullValue =>
      simp [isResponse, hparse, Json.Value.isMember, bind, Except.bind, pure, Except.pure]
    | objectValue members =>
      simp only [reduceCtorEq, Option.some.injEq, Json.Value.objectValue.injEq, exists_eq_left',
        false_or, ← Json.Value.asString_eq_ok_iff]
      rw [isResponse_of_object hparse]
      split
      · rename_i hmember
        cases ((members.lookup Jsonrpc.id).getD .nullValue).asString with
        | ok s => exact iff_of_true ⟨_, rfl⟩ fun _ => ⟨s, rfl⟩
        | error e =>
          refine iff_of_false ?_ fun h => ?_
          · simp [Except.map]
          · obtain ⟨s, hs⟩ := h hmember
            cases hs
      · rename_i hmember
        exact iff_of_true ⟨false, rfl⟩ fun h => absurd h hmember
    | _ => simp [isResponse, hparse, Json.Value.isMember, bind, Except.bind]

/-- What `recvCb` decides about a telegram it has read. -/
def isAnswer (parse : Char → Json.Reader) (id : StdString) (telegram : Telegram) : Bool :=
  decide (telegram.text ≠ []) && match isResponse parse id telegram with
    | .ok b => b
    | .error _ => false

theorem isAnswer_iff {parse : Char → Json.Reader} {id : StdString} {telegram : Telegram} :
    isAnswer parse id telegram = true ↔ ResponseTo parse id telegram := by
  rw [ResponseTo, ← isResponse_eq_true_iff, isAnswer, Bool.and_eq_true, decide_eq_true_eq]
  refine and_congr_right fun _ => ?_
  cases isResponse parse id telegram with
  | ok b => simp
  | error e => simp

/-- The last of the telegrams that answers, or `response` if none does. -/
def lastAnswer (parse : Char → Json.Reader) (id : StdString) (telegrams : List Telegram)
    (response : StdString) : StdString :=
  telegrams.foldl (fun response telegram =>
    if isAnswer parse id telegram then telegram.text else response) response

theorem lastAnswer_append (parse : Char → Json.Reader) (id : StdString) (a b : List Telegram)
    (response : StdString) :
    lastAnswer parse id (a ++ b) response =
      lastAnswer parse id b (lastAnswer parse id a response) := List.foldl_append

theorem lastAnswer_of_none {parse : Char → Json.Reader} {id : StdString} {telegrams : List Telegram}
    (h : ∀ t ∈ telegrams, isAnswer parse id t = false) (response : StdString) :
    lastAnswer parse id telegrams response = response := by
  induction telegrams with
  | nil => rfl
  | cons t telegrams ih =>
    have hhead : isAnswer parse id t = false := h t List.mem_cons_self
    rw [lastAnswer, List.foldl_cons, hhead, if_neg Bool.false_ne_true]
    exact ih fun t' ht' => h t' (List.mem_cons_of_mem _ ht')

theorem lastAnswer_mem {parse : Char → Json.Reader} {id : StdString} {telegrams : List Telegram}
    (h : ∃ t ∈ telegrams, isAnswer parse id t = true) (response : StdString) :
    ∃ t ∈ telegrams, isAnswer parse id t = true ∧
      lastAnswer parse id telegrams response = t.text := by
  induction telegrams generalizing response with
  | nil => exact absurd h (by simp)
  | cons t telegrams ih =>
    rw [lastAnswer, List.foldl_cons, ← lastAnswer]
    by_cases hlater : ∃ t' ∈ telegrams, isAnswer parse id t' = true
    · obtain ⟨t', hmem, hanswer, hlast⟩ :=
        ih hlater (if isAnswer parse id t then t.text else response)
      exact ⟨t', List.mem_cons_of_mem _ hmem, hanswer, hlast⟩
    · have hnone : ∀ t' ∈ telegrams, isAnswer parse id t' = false := fun t' ht' =>
        Bool.eq_false_iff.mpr fun hc => hlater ⟨t', ht', hc⟩
      obtain ⟨t', ht', hanswer⟩ := h
      rcases List.mem_cons.mp ht' with rfl | ht'
      · rw [hanswer, if_pos rfl, lastAnswer_of_none hnone]
        exact ⟨t', List.mem_cons_self, hanswer, rfl⟩
      · exact absurd hanswer (by rw [hnone t' ht']; simp)

/-! ## Reading -/

/-- Between two states of the client the given telegrams were read from the head of the queue,
and nothing else happened. -/
structure Took (parse : Char → Json.Reader) (c c' : ConfigureClient) (telegrams : List Telegram) :
    Prop where
  queue : c.queue = telegrams ++ c'.queue
  received : c'.received = c.received ++ telegrams
  id : c'.id = c.id
  response : c'.response = lastAnswer parse c.id telegrams c.response
  stopped : c'.stopped = (c.stopped || telegrams.any (isAnswer parse c.id))
  readable : c'.readable = c.readable

namespace Took

variable {parse : Char → Json.Reader} {c c' c'' : ConfigureClient} {a b : List Telegram}

theorem refl (parse : Char → Json.Reader) (c : ConfigureClient) : Took parse c c [] :=
  ⟨rfl, (List.append_nil _).symm, rfl, rfl, (Bool.or_false _).symm, rfl⟩

theorem trans (h : Took parse c c' a) (h' : Took parse c' c'' b) : Took parse c c'' (a ++ b) where
  queue := by rw [h.queue, h'.queue, List.append_assoc]
  received := by rw [h'.received, h.received, List.append_assoc]
  id := h'.id.trans h.id
  response := by rw [h'.response, h.response, h.id, lastAnswer_append]
  stopped := by rw [h'.stopped, h.stopped, h.id, List.any_append, Bool.or_assoc]
  readable := h'.readable.trans h.readable

end Took

open ConfigureClient

theorem recvCb_nil (parse : Char → Json.Reader) {c : ConfigureClient} (hqueue : c.queue = []) :
    recvCb parse c = (.ok (-1), c) := by
  unfold recvCb
  rw [hqueue]

/-- `recvCb` reads one telegram, whatever it is, and throws if it cannot look into it. -/
theorem recvCb_cons (parse : Char → Json.Reader) {c : ConfigureClient} {telegram : Telegram}
    {queue : List Telegram} (hqueue : c.queue = telegram :: queue) :
    Took parse c (recvCb parse c).2 [telegram] ∧
      (recvCb parse c).1 =
        if telegram.text = [] then .ok 0
        else (isResponse parse c.id telegram).map fun _ => (telegram.text.length : Int) := by
  unfold recvCb
  rw [hqueue]
  by_cases hempty : telegram.text = []
  · obtain ⟨text, behind⟩ := telegram
    obtain rfl : text = [] := hempty
    exact ⟨⟨hqueue, rfl, rfl, by simp [lastAnswer, isAnswer, took], by simp [isAnswer, took], rfl⟩,
      rfl⟩
  · have hlength : (0 : Int) < telegram.text.length := by
      have := List.length_pos_iff.mpr hempty
      omega
    cases h : isResponse parse c.id telegram with
    | error e =>
      simp only [took, hlength, if_true, hempty, if_false, h]
      exact ⟨⟨hqueue, rfl, rfl, by simp [lastAnswer, isAnswer, h], by simp [isAnswer, h], rfl⟩, rfl⟩
    | ok b =>
      simp only [took, hlength, if_true, hempty, if_false, h]
      cases b with
      | true =>
        exact ⟨⟨hqueue, rfl, rfl, by simp [lastAnswer, isAnswer, h, hempty],
          by simp [isAnswer, h, hempty], rfl⟩, rfl⟩
      | false =>
        exact ⟨⟨hqueue, rfl, rfl, by simp [lastAnswer, isAnswer, h], by simp [isAnswer, h], rfl⟩, rfl⟩

theorem recvCb_positive {parse : Char → Json.Reader} {c c' : ConfigureClient} {n : Int}
    (hcall : recvCb parse c = (.ok n, c')) (hn : 0 < n) :
    ∃ telegram, Took parse c c' [telegram] ∧ telegram.text ≠ [] ∧ Digestible parse telegram := by
  cases hqueue : c.queue with
  | nil =>
    rw [recvCb_nil parse hqueue] at hcall
    cases hcall
    omega
  | cons telegram queue =>
    obtain ⟨htook, hresult⟩ := recvCb_cons parse hqueue
    rw [hcall] at htook hresult
    refine ⟨telegram, htook, ?_⟩
    by_cases hempty : telegram.text = []
    · rw [if_pos hempty] at hresult
      cases hresult
      omega
    · refine ⟨hempty, (isResponse_ok_iff c.id).mp ?_⟩
      rw [if_neg hempty] at hresult
      cases h : isResponse parse c.id telegram with
      | ok b => exact ⟨b, rfl⟩
      | error e => rw [h] at hresult; cases hresult

/-- The loop around `recvCb`: it reads some telegrams, and throws if it cannot look into the last
of them. -/
theorem drain_took (parse : Char → Json.Reader) (c : ConfigureClient) :
    ∃ telegrams, Took parse c ((receiver parse).drain c).2 telegrams ∧
      ((∃ n, ((receiver parse).drain c).1 = .ok n) ↔
        ∀ t ∈ telegrams, t.text = [] ∨ Digestible parse t) := by
  obtain ⟨s, ⟨telegrams, htook, hdigestible⟩, hdrain, -⟩ := (receiver parse).drain_last
    (P := fun s => ∃ telegrams, Took parse c s telegrams ∧ ∀ t ∈ telegrams, Digestible parse t)
    (fun s n s' hs hcall hn => by
      obtain ⟨telegrams, htook, hdigestible⟩ := hs
      obtain ⟨telegram, hnext, -, hd⟩ := recvCb_positive hcall hn
      refine ⟨telegrams ++ [telegram], htook.trans hnext, fun t ht => ?_⟩
      rcases List.mem_append.mp ht with ht | ht
      · exact hdigestible t ht
      · exact List.mem_singleton.mp ht ▸ hd)
    ⟨[], Took.refl parse c, by simp⟩
  rw [hdrain]
  show ∃ telegrams, Took parse c (recvCb parse s).2 telegrams ∧ _
  cases hqueue : s.queue with
  | nil =>
    refine ⟨telegrams, ?_, iff_of_true ?_ fun t ht => Or.inr (hdigestible t ht)⟩
    · rw [recvCb_nil parse hqueue]; exact htook
    · exact ⟨-1, by rw [show (receiver parse).call s = recvCb parse s from rfl,
        recvCb_nil parse hqueue]⟩
  | cons telegram queue =>
    obtain ⟨hnext, hresult⟩ := recvCb_cons parse hqueue
    refine ⟨telegrams ++ [telegram], htook.trans hnext, ?_⟩
    have hall : (∀ t ∈ telegrams ++ [telegram], t.text = [] ∨ Digestible parse t) ↔
        telegram.text = [] ∨ Digestible parse telegram :=
      ⟨fun h => h telegram (by simp), fun h t ht => by
        rcases List.mem_append.mp ht with ht | ht
        · exact Or.inr (hdigestible t ht)
        · exact List.mem_singleton.mp ht ▸ h⟩
    rw [hall, show (receiver parse).call s = recvCb parse s from rfl, hresult]
    by_cases hempty : telegram.text = []
    · exact iff_of_true ⟨0, if_pos hempty⟩ (Or.inl hempty)
    · rw [if_neg hempty, or_iff_right hempty, ← isResponse_ok_iff s.id]
      cases isResponse parse s.id telegram with
      | ok b => exact iff_of_true ⟨_, rfl⟩ ⟨b, rfl⟩
      | error e => simp [Except.map]

theorem drain_all {parse : Char → Json.Reader} {c : ConfigureClient}
    (h : ∀ t ∈ c.queue, t.text ≠ [] ∧ Digestible parse t) :
    ∃ n, ((receiver parse).drain c).1 = .ok n ∧
      Took parse c ((receiver parse).drain c).2 c.queue ∧
      ((receiver parse).drain c).2.queue = [] := by
  obtain ⟨s, ⟨telegrams, htook⟩, hdrain, hlast⟩ := (receiver parse).drain_last
    (P := fun s => ∃ telegrams, Took parse c s telegrams)
    (fun s n s' hs hcall hn => by
      obtain ⟨telegrams, htook⟩ := hs
      obtain ⟨telegram, hnext, -, -⟩ := recvCb_positive hcall hn
      exact ⟨telegrams ++ [telegram], htook.trans hnext⟩)
    ⟨[], Took.refl parse c⟩
  rw [hdrain]
  cases hqueue : s.queue with
  | nil =>
    have hcall : (receiver parse).call s = (.ok (-1), s) := recvCb_nil parse hqueue
    have hread : c.queue = telegrams := by rw [htook.queue, hqueue, List.append_nil]
    rw [hcall]
    exact ⟨-1, rfl, hread ▸ htook, hqueue⟩
  | cons telegram queue =>
    -- the last call cannot have been made on a telegram: its length would have been returned
    exfalso
    obtain ⟨-, hresult⟩ := recvCb_cons parse hqueue
    obtain ⟨hempty, hd⟩ := h telegram (by rw [htook.queue, hqueue]; simp)
    obtain ⟨b, hb⟩ := (isResponse_ok_iff s.id).mpr hd
    rw [if_neg hempty, hb] at hresult
    have hle : (telegram.text.length : Int) ≤ 0 := hlast _ hresult
    have := List.length_pos_iff.mpr hempty
    omega

/-! ## Requests -/

/-- Between two states of the client the given telegrams were read; of what else happened only
the id and the answer are said. -/
structure Read (parse : Char → Json.Reader) (c c' : ConfigureClient) (telegrams : List Telegram) :
    Prop where
  received : c'.received = c.received ++ telegrams
  id : c'.id = c.id
  response : c'.response = lastAnswer parse c.id telegrams c.response

theorem Read.none {parse : Char → Json.Reader} {c c' : ConfigureClient} (hreceived : c'.received = c.received)
    (hid : c'.id = c.id) (hresponse : c'.response = c.response) : Read parse c c' [] :=
  ⟨by rw [hreceived, List.append_nil], hid, hresponse⟩

theorem Read.trans {parse : Char → Json.Reader} {c c' c'' : ConfigureClient} {a b : List Telegram}
    (h : Read parse c c' a) (h' : Read parse c' c'' b) : Read parse c c'' (a ++ b) where
  received := by rw [h'.received, h.received, List.append_assoc]
  id := h'.id.trans h.id
  response := by rw [h'.response, h.response, h.id, lastAnswer_append]

/-- **What the loop reads while it waits.** -/
theorem executeFor_read (parse : Char → Json.Reader) (waves : List Wave) (c : ConfigureClient) :
    ∃ telegrams, Read parse c (c.executeFor parse waves).2 telegrams ∧
      ((c.executeFor parse waves).1 = .ok () ↔ ∀ t ∈ telegrams, t.text = [] ∨ Digestible parse t) := by
  induction waves generalizing c with
  | nil => exact ⟨[], .none rfl rfl rfl, iff_of_true rfl (by simp)⟩
  | cons w waves ih =>
    rw [executeFor]
    split
    · exact ⟨[], .none rfl rfl rfl, iff_of_true rfl (by simp)⟩
    · split
      · obtain ⟨telegrams, htook, hok⟩ := drain_took parse ((c.arrive w).reported w)
        have hread : Read parse c ((receiver parse).drain ((c.arrive w).reported w)).2 telegrams :=
          ⟨htook.received, htook.id, htook.response⟩
        split
        · rename_i e c' hdrain
          rw [hdrain] at hread hok
          refine ⟨telegrams, hread, iff_of_false (by simp) fun h => ?_⟩
          obtain ⟨n, hn⟩ := hok.mpr h
          cases hn
        · rename_i n c' hdrain
          rw [hdrain] at hread hok
          have hdigestible := hok.mp ⟨n, rfl⟩
          split
          · exact ⟨telegrams, hread, iff_of_true rfl hdigestible⟩
          · obtain ⟨later, hlater, hlaterOk⟩ := ih c'
            refine ⟨telegrams ++ later, hread.trans hlater, hlaterOk.trans ?_⟩
            constructor
            · intro h t ht
              rcases List.mem_append.mp ht with ht | ht
              · exact hdigestible t ht
              · exact h t ht
            · exact fun h t ht => h t (List.mem_append_right _ ht)
      · obtain ⟨telegrams, hread, hok⟩ := ih (c.arrive w)
        exact ⟨telegrams, ⟨hread.received, hread.id, hread.response⟩, hok⟩

theorem ConfigureClient.executeRequest_snd (parse : Char → Json.Reader) (env : Surroundings)
    (interfaceIp : StdString) (ttl : UInt8) (message : StdString) (c : ConfigureClient) :
    (c.executeRequest parse env interfaceIp ttl message).2 =
      ((c.send env.network interfaceIp ttl message).executeFor parse env.waves).2 := by
  rw [executeRequest]
  split
  · rename_i c' hloop
    rw [hloop]
  · rename_i e c' hloop
    rw [hloop]

/-- A request is one `executeRequest` under its new id, and what it sends carries that id. -/
theorem Request.call_eq (parse : Char → Json.Reader) (write : Json.Value → StdString)
    (c : ConfigureClient) (r : Request) :
    ∃ interfaceIp ttl tree, tree.index Jsonrpc.id = .ok (.stringValue r.id) ∧
      r.call parse write c =
        executeRequest parse r.env interfaceIp ttl (write tree) { c with id := r.id } := by
  cases r with
  | setInterfaceConfigurationMethod env ip ttl uuid interfaceName method =>
    exact ⟨ip, ttl, _, rfl, rfl⟩
  | setInterfaceConfiguration env ip ttl uuid interfaceName method address netmask =>
    exact ⟨ip, ttl, _, rfl, rfl⟩
  | setDefaultGateway env ip ttl uuid gateway => exact ⟨ip, ttl, _, rfl, rfl⟩
  | setInterfaceManualConfiguration env ip ttl uuid interfaceName address netmask =>
    exact ⟨ip, ttl, _, rfl, rfl⟩

/-- **What a request comes to.** It reads some telegrams; if it can look into all of them, it
returns the last that answers it, or what the client had before. -/
theorem Request.call_read (parse : Char → Json.Reader) (write : Json.Value → StdString)
    (c : ConfigureClient) (r : Request) :
    ∃ telegrams, (r.call parse write c).2.received = c.received ++ telegrams ∧
      (r.call parse write c).2.response = lastAnswer parse r.id telegrams c.response ∧
      ((∃ s, (r.call parse write c).1 = .ok s) ↔ ∀ t ∈ telegrams, t.text = [] ∨ Digestible parse t) ∧
      ∀ s, (r.call parse write c).1 = .ok s → s = (r.call parse write c).2.response := by
  obtain ⟨interfaceIp, ttl, tree, -, heq⟩ := r.call_eq parse write c
  obtain ⟨telegrams, hread, hok⟩ := executeFor_read parse r.env.waves
    (send r.env.network interfaceIp ttl (write tree) { c with id := r.id })
  refine ⟨telegrams, ?_⟩
  rw [heq, executeRequest]
  cases hloop : executeFor parse r.env.waves
    (send r.env.network interfaceIp ttl (write tree) { c with id := r.id }) with
  | mk result c' =>
    rw [hloop] at hread hok
    cases result with
    | ok u => exact ⟨hread.received, hread.response, iff_of_true ⟨_, rfl⟩ (hok.mp rfl),
        fun s hs => (Except.ok.inj hs).symm⟩
    | error e =>
      refine ⟨hread.received, hread.response, iff_of_false (fun h => ?_) (fun h => ?_), ?_⟩
      · obtain ⟨s, hs⟩ := h
        cases hs
      · cases hok.mpr h
      · intro s hs
        cases hs

end Client
end DevScan
