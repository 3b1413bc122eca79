import DevScan.Client.Pending
import DevScan.Json.Assign
import DevScan.Json.Buffer
import DevScan.Json.Spelled

/-!
# `Client/Messages.lean` — what goes over the wire, from one end to the other

The requests with the writer and the reader they are sent and received with: `Json::FastWriter` without
the line feed at the end, and `Json::Reader().parse` with whatever features a device may have chosen.
Every request sends one message, and who reads it finds every field as it was given
(`sent_reads`). An answer carries the id of the request, so that it is taken for an answer to another
one exactly if both were made in one second and drew one number (`answer_taken_iff`).
-/

set_option autoImplicit false

namespace DevScan

namespace Client

open ConfigureClient

/-! ## Requests -/

/-- `writer.write`, after `writer.omitEndingLineFeed()`. -/
def ConfigureClient.write : Json.Value → StdString :=
  Json.FastWriter.write { omitEndingLineFeed := true }

namespace Request

def outgoingInterfaceIp : Request → StdString
  | setInterfaceConfigurationMethod _ ip .. => ip
  | setInterfaceConfiguration _ ip .. => ip
  | setDefaultGateway _ ip .. => ip
  | setInterfaceManualConfiguration _ ip .. => ip

def ttl : Request → UInt8
  | setInterfaceConfigurationMethod _ _ ttl .. => ttl
  | setInterfaceConfiguration _ _ ttl .. => ttl
  | setDefaultGateway _ _ ttl .. => ttl
  | setInterfaceManualConfiguration _ _ ttl .. => ttl

def uuid : Request → StdString
  | setInterfaceConfigurationMethod _ _ _ uuid .. => uuid
  | setInterfaceConfiguration _ _ _ uuid .. => uuid
  | setDefaultGateway _ _ _ uuid .. => uuid
  | setInterfaceManualConfiguration _ _ _ uuid .. => uuid

/-- What is asked for, each with its place in the settings of the device. -/
def settings : Request → List (List StdString × StdString)
  | setInterfaceConfigurationMethod _ _ _ _ interfaceName method =>
    [([tagInterface, tagName], interfaceName), ([tagInterface, configurationMethod], method)]
  | setInterfaceConfiguration _ _ _ _ interfaceName method address netmask =>
    [([tagInterface, tagName], interfaceName), ([tagInterface, configurationMethod], method),
     ([tagInterface, tagIpV4, tagManualAddress], address),
     ([tagInterface, tagIpV4, tagManualNetmask], netmask)]
  | setDefaultGateway _ _ _ _ gateway => [([tagDefaultGateway, tagIpV4Address], gateway)]
  | setInterfaceManualConfiguration _ _ _ _ interfaceName address netmask =>
    [([tagInterface, tagName], interfaceName),
     ([tagInterface, tagIpV4, tagManualAddress], address),
     ([tagInterface, tagIpV4, tagManualNetmask], netmask)]

/-- Every field of the message a request sends, with its path. -/
def fields (r : Request) : List (List StdString × Json.Value) :=
  [([Jsonrpc.jsonrpc], .stringValue "2.0".toList), ([Jsonrpc.method], .stringValue tagConfigure)] ++
    r.settings.map (fun setting =>
      (Jsonrpc.params :: tagNetSettings :: setting.1, .stringValue setting.2)) ++
    [([Jsonrpc.params, tagDevice, tagUuid], .stringValue r.uuid),
     ([Jsonrpc.params, tagTtl], .intValue r.ttl.toNat), ([Jsonrpc.id], .stringValue r.id)]

theorem requestTree_eq (r : Request) :
    requestTree r.settings r.uuid r.ttl r.id = Json.Value.nullValue.assignAll r.fields := by
  rw [Json.Value.assignAll, fields, List.foldlM_append, List.foldlM_append]
  simp only [List.foldlM_map, requestTree, List.foldlM_cons, List.foldlM_nil, bind_assoc, bind_pure]

/-- The paths of the fields are those of one of the four requests, whatever is asked for. -/
theorem apart_fields (r : Request) : Json.Value.Apart r.fields := by
  cases r with
  | _ =>
    simp only [Json.Value.Apart, fields, settings, List.map_cons, List.map_nil, List.cons_append,
      List.nil_append]
    decide

theorem fields_paths (r : Request) : ∀ field ∈ r.fields, ∀ key ∈ field.1, Json.cString key = key := by
  have hpaths : ∀ path ∈ r.fields.map Prod.fst, ∀ key ∈ path, Json.cString key = key := by
    cases r with
    | _ =>
      simp only [fields, settings, List.map_cons, List.map_nil, List.cons_append, List.nil_append]
      decide
  exact fun field hfield => hpaths field.1 (List.mem_map_of_mem hfield)

theorem fields_values (sscanf : StdString → Option Json.Real) (r : Request) :
    ∀ field ∈ r.fields, field.2.Writable sscanf ∧ ∀ real, field.2 ≠ .realValue real := by
  have hstring : ∀ s : StdString, (Json.Value.stringValue s).Writable sscanf ∧
      ∀ real, Json.Value.stringValue s ≠ .realValue real := fun s => ⟨.string s, fun _ => nofun⟩
  have httl : (Json.Value.intValue r.ttl.toNat).Writable sscanf := by
    have hlt := r.ttl.toNat_lt
    refine .int ?_ ?_
    · rw [Json.minLargestIntAbs]; omega
    · rw [Json.minLargestIntAbs]; omega
  intro field hfield
  simp only [fields, List.mem_append, List.mem_cons, List.mem_map, List.not_mem_nil, or_false] at hfield
  rcases hfield with (((rfl | rfl) | ⟨setting, -, rfl⟩) | (rfl | rfl | rfl))
  · exact hstring _
  · exact hstring _
  · exact hstring _
  · exact hstring _
  · exact ⟨httl, fun _ => nofun⟩
  · exact hstring _

theorem call_configure (parse : Char → Json.Reader) (write : Json.Value → StdString) (c : ConfigureClient)
    (r : Request) :
    r.call parse write c =
      configure parse write r.env r.outgoingInterfaceIp r.ttl r.uuid r.settings c := by
  cases r with
  | _ => rfl

end Request

/-! ## Sending -/

theorem recvCb_sendSocket (parse : Char → Json.Reader) (c : ConfigureClient) :
    (recvCb parse c).2.sendSocket = c.sendSocket := by
  unfold recvCb took
  split
  · rfl
  · dsimp only
    split
    · split
      · rfl
      · rfl
      · rfl
    · rfl

theorem drain_sendSocket (parse : Char → Json.Reader) (c : ConfigureClient) :
    ((receiver parse).drain c).2.sendSocket = c.sendSocket :=
  (receiver parse).drain_invariant (P := fun s => s.sendSocket = c.sendSocket)
    (fun s hs => (recvCb_sendSocket parse s).trans hs) rfl

/-- Waiting for an answer sends nothing. -/
theorem executeFor_sendSocket (parse : Char → Json.Reader) (waves : List Wave) (c : ConfigureClient) :
    (c.executeFor parse waves).2.sendSocket = c.sendSocket := by
  induction waves generalizing c with
  | nil => rfl
  | cons w waves ih =>
    have hdrain := drain_sendSocket parse ((c.arrive w).reported w)
    rw [executeFor]
    split
    · rfl
    · split
      · split
        · rename_i e c' heq
          rw [heq] at hdrain
          exact hdrain
        · rename_i n c' heq
          rw [heq] at hdrain
          split
          · exact hdrain
          · exact (ih c').trans hdrain
      · exact ih (c.arrive w)

/-- The datagrams that are to go out: over the interface that is asked for or, if none is, over each
of the adapters. -/
def Request.datagrams (r : Request) (message : StdString) : List Net.Sending.Datagram :=
  let server := r.env.network.multicastServer
  if r.outgoingInterfaceIp = [] then
    (server.netadapterList.entries.map Prod.snd).filterMap fun adapter =>
      server.datagramOverAdapter adapter message r.ttl.toNat
  else (server.datagramOver r.outgoingInterfaceIp message r.ttl.toNat).toList

theorem Request.sends_send (r : Request) {message : StdString} (hmessage : message ≠ [])
    (c : ConfigureClient) :
    r.env.network.multicastServer.Sends c.sendSocket
      (c.send r.env.network r.outgoingInterfaceIp r.ttl message).sendSocket
      (r.datagrams message) := by
  rw [send, datagrams]
  dsimp only
  split
  · exact Net.Sending.Server.sends_overAll _ _ _ hmessage _ _
  · rw [Net.Sending.Server.sendStringOverInterfaceByAddress, if_neg hmessage]
    exact Net.Sending.Server.sends_byAddress _ _ _ _ _

/-- **Every request sends one message, in which everything that was asked for is found**, each field
under its path, by whoever reads it. -/
theorem Request.sent_reads (parse : Char → Json.Reader) (c : ConfigureClient) (r : Request) :
    ∃ message, r.env.network.multicastServer.Sends c.sendSocket
        (r.call parse ConfigureClient.write c).2.sendSocket (r.datagrams message) ∧
      ∀ setup : Json.Reader.Setup, ∃ v, setup.reader message = some v ∧
        ∀ field ∈ r.fields, ∃ u, v.indexPath field.1 = .ok u ∧
          u.asString = field.2.asString ∧ u.asUInt = field.2.asUInt := by
  obtain ⟨tree, hassign, hreads⟩ := Json.Value.assignAll_reads r.apart_fields
  have hreading : ∀ setup : Json.Reader.Setup,
      ∃ v, setup.reader (ConfigureClient.write tree) = some v ∧
        ∀ field ∈ r.fields, ∃ u, v.indexPath field.1 = .ok u ∧
          u.asString = field.2.asString ∧ u.asUInt = field.2.asUInt := fun setup => by
    have hwritable : tree.Writable setup.sscanf :=
      Json.Value.Writable.assignAll .null r.fields_paths
        (fun field hfield => (r.fields_values _ field hfield).1) hassign
    have hversion := hreads _ (List.mem_append_left _ (List.mem_append_left _ List.mem_cons_self))
    have hobject : Json.Reader.isContainer tree = true :=
      Json.Value.isContainer_of_indexPath (by simp) hversion nofun
    obtain ⟨s, hparse, -⟩ :=
      Json.parse_write setup { omitEndingLineFeed := true } rfl hwritable fun _ => hobject
    refine ⟨_, Json.Reader.Setup.reader_eq hparse, fun field hfield => ?_⟩
    obtain ⟨u, hu, hstring, huint, -⟩ :=
      Json.Value.reread_reads (hreads field hfield) (r.fields_values setup.sscanf field hfield).2
    exact ⟨u, hu, hstring, huint⟩
  have hmessage : ConfigureClient.write tree ≠ [] := fun hnil => by
    obtain ⟨v, hv, -⟩ := hreading { sscanf := fun _ => none }
    rw [hnil] at hv
    cases hv
  refine ⟨ConfigureClient.write tree, ?_, hreading⟩
  have htree : requestTree r.settings r.uuid r.ttl (createId r.env.time r.env.rand) = .ok tree :=
    r.requestTree_eq.trans hassign
  rw [r.call_configure, configure, htree]
  dsimp only
  rw [executeRequest_snd, executeFor_sendSocket]
  exact r.sends_send hmessage { c with id := createId r.env.time r.env.rand }

/-! ## Answers -/

theorem toDigits_injective {n m : Nat} (h : Nat.toDigits 10 n = Nat.toDigits 10 m) : n = m := by
  rw [← Json.Reader.worth_toDigits n, h, Json.Reader.worth_toDigits]

theorem not_mem_toDigits {c : Char} (hc : c.isDigit = false) (n : Nat) : c ∉ Nat.toDigits 10 n :=
  fun hmem => Bool.false_ne_true (hc.symm.trans (Json.Reader.isDigit_toDigits n c hmem))

theorem not_mem_valueToString (i : Int) : ':' ∉ Json.valueToString i := by
  have hdigits : ':' ∉ Nat.toDigits 10 i.natAbs := not_mem_toDigits rfl _
  rw [Json.valueToString]
  split
  · exact List.not_mem_cons_of_ne_of_not_mem (by decide) hdigits
  · exact hdigits

theorem valueToString_injective {i j : Int} (h : Json.valueToString i = Json.valueToString j) :
    i = j := by
  have hminus : ∀ n m, '-' :: Nat.toDigits 10 n ≠ Nat.toDigits 10 m := fun n m heq =>
    not_mem_toDigits (c := '-') rfl m (heq ▸ List.mem_cons_self)
  rw [Json.valueToString, Json.valueToString] at h
  split at h
  · split at h
    · have habs := toDigits_injective (List.cons.inj h).2
      omega
    · exact absurd h (hminus _ _)
  · split at h
    · exact absurd h.symm (hminus _ _)
    · have habs := toDigits_injective h
      omega

/-- Which requests have one id. -/
theorem createId_eq_iff (time time' : Int) (rand rand' : Nat) :
    createId time rand = createId time' rand' ↔ time = time' ∧ rand % 1000 = rand' % 1000 := by
  constructor
  · intro h
    simp only [createId, List.append_assoc] at h
    obtain ⟨htime, -, hrand⟩ := (List.append_cons_inj_of_notMem (not_mem_valueToString time)
      (not_mem_toDigits rfl _)).mp h
    exact ⟨valueToString_injective htime, toDigits_injective hrand⟩
  · rintro ⟨rfl, hrand⟩
    rw [createId, createId, hrand]

/-- An object spelled as an answer to a request, whoever wrote it and in whatever way. -/
structure Answers (setup : Json.Reader.Setup) (r : Request) (text : StdString)
    (members : List (StdString × Json.Value)) : Prop where
  spelled : Json.Spells setup.sscanf setup.features.allowComments (.value (.objectValue members)) text
  member : (members.lookup Jsonrpc.result).isSome ∨ (members.lookup Jsonrpc.err).isSome
  id : ((members.lookup Jsonrpc.id).getD .nullValue).asString = .ok r.id

section Taken

variable {setup : Json.Reader.Setup} {r : Request} {gap text : StdString}
  {members : List (StdString × Json.Value)}

theorem Answers.read (h : Answers setup r text members)
    (hgap : Json.Gap setup.features.allowComments gap) (rest : StdString) (behind : Char) :
    setup.bufferReader behind (gap ++ text ++ rest) = some (.objectValue members) ∧
      gap ++ text ++ rest ≠ [] := by
  obtain ⟨inner, rfl⟩ := Json.Reader.spells_object_head h.spelled
  obtain ⟨s, hparse, -⟩ := @Json.Reader.parse_of_spells gap (setup.before behind) _ _ h.spelled hgap
    rest (Json.Reader.ends_of_head (by decide) rest) fun _ => rfl
  exact ⟨Json.Reader.Setup.reader_eq hparse, by simp⟩

theorem Answers.responseTo (h : Answers setup r text members)
    (hgap : Json.Gap setup.features.allowComments gap) (rest : StdString) (behind : Char) :
    ResponseTo setup.bufferReader r.id ⟨gap ++ text ++ rest, behind⟩ :=
  ⟨(h.read hgap rest behind).2, members, (h.read hgap rest behind).1, h.member, h.id⟩

/-- **An answer is taken for one to another request exactly if both were made in the same second and
drew the same number**; what stands behind it in the telegram and in the buffer does not matter. -/
theorem answer_taken_iff (h : Answers setup r text members)
    (hgap : Json.Gap setup.features.allowComments gap) (rest : StdString) (behind : Char)
    (r' : Request) :
    ResponseTo setup.bufferReader r'.id ⟨gap ++ text ++ rest, behind⟩ ↔
      r.env.time = r'.env.time ∧ r.env.rand % 1000 = r'.env.rand % 1000 := by
  rw [← createId_eq_iff]
  constructor
  · rintro ⟨-, members', hmembers, -, hid⟩
    have hread := (h.read hgap rest behind).1.symm.trans hmembers
    obtain rfl := Json.Value.objectValue.inj (Option.some.inj hread)
    exact Except.ok.inj (h.id.symm.trans hid)
  · intro hid
    have hresponseTo := h.responseTo hgap rest behind
    rwa [show r.id = r'.id from hid] at hresponseTo

end Taken

/-- What a device sends back to the request with id `1400000000:17`. -/
def gatewayAnswer : StdString := "\x7b\"id\":\"1400000000:17\",\"result\":0\x7d".toList

/-- That request; the answer arrives at once. -/
def gatewayRequest : Request :=
  .setDefaultGateway ⟨1400000000, 17, .obliging, [⟨[⟨gatewayAnswer, '['⟩], false, false⟩]⟩
    "172.19.2.4".toList 1 "0009E5".toList "172.19.1.1".toList

theorem answers_gatewayAnswer :
    Answers { sscanf := fun _ => none } gatewayRequest gatewayAnswer
      [(Jsonrpc.id, .stringValue "1400000000:17".toList), (Jsonrpc.result, .intValue 0)] := by
  have hwritable : (Json.Value.objectValue [(Jsonrpc.id, .stringValue "1400000000:17".toList),
      (Jsonrpc.result, .intValue 0)]).Writable fun _ => none :=
    Json.writable_pair _ rfl rfl (.string _) (.int (by decide) (by decide))
  exact ⟨Json.FastWriter.spells_writeValue {} rfl hwritable, Or.inl rfl, rfl⟩

/-- One second, and two numbers of which the three last digits are the same. -/
theorem answer_taken_iff_gatewayAnswer :
    ResponseTo (Json.Reader.Setup.bufferReader { sscanf := fun _ => none })
        (Request.setDefaultGateway ⟨1400000000, 1017, .obliging, []⟩ [] 1 [] []).id
        ⟨[] ++ gatewayAnswer ++ "\n".toList, ']'⟩ ↔
      gatewayRequest.env.time = 1400000000 ∧ gatewayRequest.env.rand % 1000 = 1017 % 1000 :=
  answer_taken_iff answers_gatewayAnswer .nil _ _
    (.setDefaultGateway ⟨1400000000, 1017, .obliging, []⟩ [] 1 [] [])

/-! ## A request that is answered -/

section Answered

variable {parse : Char → Json.Reader} {id : StdString}

/-- An answer the abstract request holds when it stops is what it comes to, or a later one is. -/
theorem settle_stopped {t : Telegram} (h : isAnswer parse id t = true) (waves : List Wave) :
    ∃ t', isAnswer parse id t' = true ∧ settle parse id waves [] true t.text = t'.text ∧
      (t' = t ∨ ∃ w ∈ waves, t' ∈ w.arrivals) := by
  cases waves with
  | nil => exact ⟨t, h, rfl, Or.inl rfl⟩
  | cons w waves =>
    rw [settle, if_pos rfl, List.nil_append, lastAnswer_filter]
    split
    · exact ⟨t, h, rfl, Or.inl rfl⟩
    · by_cases hlater : ∃ t ∈ w.arrivals, isAnswer parse id t = true
      · obtain ⟨t', hmem, hanswer, hlast⟩ := lastAnswer_mem hlater t.text
        exact ⟨t', hanswer, hlast, Or.inr ⟨w, List.mem_cons_self, hmem⟩⟩
      · have hnone : ∀ t ∈ w.arrivals, isAnswer parse id t = false := fun t ht =>
          eq_false_of_ne_true fun hanswer => hlater ⟨t, ht, hanswer⟩
        exact ⟨t, h, lastAnswer_of_none hnone t.text, Or.inl rfl⟩

/-- An answer that arrives is not missed. -/
theorem settle_answered {waves : List Wave} {unread : List Telegram} {response : StdString}
    (h : ∃ w ∈ waves, ∃ t ∈ w.arrivals, isAnswer parse id t = true) :
    ∃ t, isAnswer parse id t = true ∧ settle parse id waves unread false response = t.text ∧
      (t ∈ unread ∨ ∃ w ∈ waves, t ∈ w.arrivals) := by
  induction waves generalizing unread response with
  | nil => exact absurd h (by simp)
  | cons w waves ih =>
    rw [settle, if_neg Bool.false_ne_true, lastAnswer_filter]
    by_cases hfirst : ∃ t ∈ unread ++ w.arrivals, isAnswer parse id t = true
    · -- this round stops the loop: what comes out is its last answer, or one of the next round
      obtain ⟨last, hmem, hanswer, hlast⟩ := lastAnswer_mem hfirst response
      obtain ⟨t, ht, htanswer⟩ := hfirst
      have hstopped : (!((unread ++ w.arrivals).filter (isAnswer parse id)).isEmpty) = true := by
        rw [← any_eq_not_isEmpty_filter]
        exact List.any_eq_true.mpr ⟨t, ht, htanswer⟩
      rw [hstopped, hlast]
      obtain ⟨t', hsettled, htext, hfrom⟩ := settle_stopped hanswer waves
      refine ⟨t', hsettled, htext, ?_⟩
      rcases hfrom with rfl | ⟨w', hw', hmem'⟩
      · rcases List.mem_append.mp hmem with hmem | hmem
        · exact Or.inl hmem
        · exact Or.inr ⟨w, List.mem_cons_self, hmem⟩
      · exact Or.inr ⟨w', List.mem_cons_of_mem _ hw', hmem'⟩
    · have hnone : (unread ++ w.arrivals).filter (isAnswer parse id) = [] :=
        List.filter_eq_nil_iff.mpr fun t ht hanswer => hfirst ⟨t, ht, hanswer⟩
      have hlater : ∃ w' ∈ waves, ∃ t ∈ w'.arrivals, isAnswer parse id t = true := by
        obtain ⟨w', hw', t, ht, hanswer⟩ := h
        rcases List.mem_cons.mp hw' with rfl | hw'
        · exact absurd ⟨t, List.mem_append_right _ ht, hanswer⟩ hfirst
        · exact ⟨w', hw', t, ht, hanswer⟩
      rw [hnone]
      obtain ⟨t, hsettled, htext, hfrom⟩ :=
        @ih [] (lastAnswer parse id (unread ++ w.arrivals) response) hlater
      refine ⟨t, hsettled, htext, ?_⟩
      rcases hfrom with hmem | ⟨w', hw', hmem⟩
      · exact absurd hmem List.not_mem_nil
      · exact Or.inr ⟨w', List.mem_cons_of_mem _ hw', hmem⟩

/-- Nor does the loop miss it: the first round that reads anything reads all there is. -/
theorem executeFor_answered {waves : List Wave} {c : ConfigureClient} (hstopped : c.stopped = false)
    (hqueue : ∀ t ∈ c.queue, Harmless parse t)
    (hwaves : ∀ w ∈ waves, ∀ t ∈ w.arrivals, Harmless parse t)
    (hanswer : ∃ w ∈ waves, ∃ t ∈ w.arrivals, isAnswer parse c.id t = true) :
    (c.executeFor parse waves).1 = .ok () ∧
      ∃ t, isAnswer parse c.id t = true ∧ (c.executeFor parse waves).2.response = t.text ∧
        (t ∈ c.queue ∨ ∃ w ∈ waves, t ∈ w.arrivals) := by
  induction waves generalizing c with
  | nil => exact absurd hanswer (by simp)
  | cons w waves ih =>
    obtain ⟨hw, hlater⟩ := List.forall_mem_cons.mp hwaves
    have harrived : ∀ t ∈ (c.arrive w).queue, Harmless parse t :=
      List.forall_mem_append.mpr ⟨hqueue, hw⟩
    cases hr : (c.arrive w).readable with
    | true =>
      obtain ⟨n, c', hdrain, hempty, hid, hresponse, hstopped'⟩ := drain_harmless w harrived
      obtain ⟨hok, hsettle⟩ := executeFor_settles (c := c') (by rw [hempty]; simp) hlater
        (by rw [hempty]; simp)
      have hcomes : (c'.executeFor parse waves).2.response =
          settle parse c.id (w :: waves) c.queue false c.response := by
        rw [hsettle, hempty, hid, hresponse, hstopped', settle, if_neg Bool.false_ne_true,
          lastAnswer_filter]
        rfl
      rw [executeFor_drain hstopped hr hdrain, hcomes]
      exact ⟨hok, settle_answered hanswer⟩
    | false =>
      -- nothing has arrived in this round
      obtain ⟨-, hnone⟩ := Bool.or_eq_false_iff.mp hr
      have hnil : w.arrivals = [] := by simpa using hnone
      have hrest : ∃ w ∈ waves, ∃ t ∈ w.arrivals, isAnswer parse c.id t = true := by
        obtain ⟨w', hw', t, ht, hisAnswer⟩ := hanswer
        rcases List.mem_cons.mp hw' with rfl | hw'
        · rw [hnil] at ht
          exact absurd ht List.not_mem_nil
        · exact ⟨w', hw', t, ht, hisAnswer⟩
      obtain ⟨hok, t, hisAnswer, hresponse, hfrom⟩ := ih (c := c.arrive w) hstopped harrived hlater hrest
      rw [executeFor_idle hstopped hr]
      refine ⟨hok, t, hisAnswer, hresponse, ?_⟩
      rcases hfrom with hmem | ⟨w', hw', hmem⟩
      · rw [arrive, hnil, List.append_nil] at hmem
        exact Or.inl hmem
      · exact Or.inr ⟨w', List.mem_cons_of_mem _ hw', hmem⟩

end Answered

/-- **A request that is answered in time returns an answer**, as long as nothing else arrives than
what is harmless and no stop is left from an earlier one. -/
theorem Request.call_answered {parse : Char → Json.Reader} {write : Json.Value → StdString}
    {c : ConfigureClient} {r : Request} (hstopped : c.stopped = false)
    (hqueue : ∀ t ∈ c.queue, Harmless parse t)
    (hwaves : ∀ w ∈ r.env.waves, ∀ t ∈ w.arrivals, Harmless parse t)
    (hanswer : ∃ w ∈ r.env.waves, ∃ t ∈ w.arrivals, ResponseTo parse r.id t) :
    ∃ t : Telegram, (r.call parse write c).1 = .ok t.text ∧ ResponseTo parse r.id t ∧
      (t ∈ c.queue ∨ ∃ w ∈ r.env.waves, t ∈ w.arrivals) := by
  obtain ⟨interfaceIp, ttl, tree, -, heq⟩ := r.call_eq parse write c
  have hisAnswer : ∃ w ∈ r.env.waves, ∃ t ∈ w.arrivals, isAnswer parse r.id t = true := by
    obtain ⟨w, hw, t, ht, hresponseTo⟩ := hanswer
    exact ⟨w, hw, t, ht, isAnswer_iff.mpr hresponseTo⟩
  obtain ⟨hok, t, hisAnswer, hresponse, hfrom⟩ := executeFor_answered
    (c := send r.env.network interfaceIp ttl (write tree) { c with id := r.id })
    hstopped hqueue hwaves hisAnswer
  refine ⟨t, ?_, isAnswer_iff.mp hisAnswer, hfrom⟩
  rw [heq, executeRequest]
  split
  · rename_i c' hloop
    rw [hloop] at hresponse
    rw [hresponse]
  · rename_i e c' hloop
    rw [hloop] at hok
    cases hok

theorem Request.call_answered_gateway :
    ∃ t : Telegram,
      (gatewayRequest.call (Json.Reader.Setup.bufferReader { sscanf := fun _ => none })
        ConfigureClient.write {}).1 = .ok t.text ∧
      ResponseTo (Json.Reader.Setup.bufferReader { sscanf := fun _ => none }) gatewayRequest.id t ∧
      (t ∈ ([] : List Telegram) ∨ ∃ w ∈ gatewayRequest.env.waves, t ∈ w.arrivals) := by
  have hresponseTo : ResponseTo (Json.Reader.Setup.bufferReader { sscanf := fun _ => none })
      gatewayRequest.id ⟨gatewayAnswer, '['⟩ := by
    have htaken := answers_gatewayAnswer.responseTo .nil [] '['
    rwa [List.append_nil] at htaken
  refine Request.call_answered rfl (List.forall_mem_nil _) ?_ ?_
  · intro w hw t ht
    obtain rfl := List.mem_singleton.mp hw
    obtain rfl := List.mem_singleton.mp ht
    exact hresponseTo.harmless
  · exact ⟨_, List.mem_singleton.mpr rfl, _, List.mem_singleton.mpr rfl, hresponseTo⟩

end Client
end DevScan
