import OpenSimp.Clients.Cpp
import OpenSimp.Properties.Decoding
import OpenSimp.Properties.Robustness

/-!
# Chat messages from end to end

A chat message that does not get its sender disconnected goes once to each of the other `Done`
clients and to nobody else. Both clients read the sender and the text out of it exactly when the
packet fits the buffer it is copied to and, if anybody gets it, the text is UTF-8 without a NUL.
-/

namespace OpenSimp

open Bytes FaultState System ServerNetwork Utf8

variable {R : Room} {L : Library} {w : World} {i : ℕ} {r : Row} {q : Reply} {text : Bytes}

namespace Config

variable (c : Config)

/-- No two clients have the same address and port. -/
def DistinctPeers (w : World) : Prop :=
  ∀ k k' r r', c.row? k = some r → c.row? k' = some r' → w.peer r.sock = w.peer r'.sock → k = k'

/-- No client but row `i` is `Done`. -/
def Alone (i : ℕ) : Prop := ∀ k r, c.row? k = some r → k ≠ i → r.status ≠ .done

/-- Every `Done` client but row `i` is sent one packet, from which both clients read the sender
`clientid` and the text, and no other client is sent anything. -/
structure Delivers (i : ℕ) (clientid text : Bytes) (acts : List Act) : Prop where
  once : ∀ k r, c.row? k = some r → k ≠ i → r.status = .done →
    ∃ d, sentTo r.sock acts = [.sealed d] ∧
      Rust.parsePacket d = some (.messagePacket clientid text) ∧
      Cpp.message d = .ok (some (clientid, text))
  nobodyElse : ∀ k r, c.row? k = some r → k = i ∨ r.status ≠ .done → sentTo r.sock acts = []

/-- Polling row `i` disconnects nobody. -/
def Stays (L : Library) (i : ℕ) (w : World) : Prop :=
  ∀ m, (Event.code L (.receive i w)).run c.machine = .ok ((), m) →
    ∀ position reason, .disconnected position reason ∉ m.acts

end Config

/-! ### Who is sent what -/

lemma nodup_recipients (exclude : Endpoint) :
    ((recipients w R.rows exclude).map Row.sock).Nodup :=
  (List.Sublist.map _ List.filter_sublist).nodup R.nodup_sock

/-- The other `Done` clients are sent one packet each. -/
lemma sentTo_other (hr : R.rows[i]? = some r) (hpeers : R.config.DistinctPeers w) {k : ℕ}
    {r' : Row} (hr' : R.rows[k]? = some r') (hk : k ≠ i) (hdone : r'.status = .done)
    (data : Bytes) :
    sentTo r'.sock (broadcastActs w (R.polled w i r).rows data (w.peer r.sock)) =
      [.sealed (cstr data)] := by
  obtain ⟨t, ht, hsock, -, hstatus⟩ := Room.exists_mem_polled w i r (List.mem_of_getElem? hr')
  have hpeer : w.peer t.sock ≠ w.peer r.sock := by
    intro heq
    rw [hsock] at heq
    exact hk (hpeers k i r' r ((Room.config_row? _ k).trans hr')
      ((Room.config_row? _ i).trans hr) heq)
  have hmem := mem_recipients.mpr ⟨ht, hstatus.trans hdone, hpeer⟩
  rw [sentTo_broadcastActs, ← hsock,
    List.filter_eq_singleton_of_map_nodup (nodup_recipients _) hmem, List.map_singleton]

/-- Row `i` and the clients that are not `Done` are sent nothing. -/
lemma sentTo_nobody (hr : R.rows[i]? = some r) {k : ℕ} {r' : Row} (hr' : R.rows[k]? = some r')
    (hk : k = i ∨ r'.status ≠ .done) (data : Bytes) :
    sentTo r'.sock (broadcastActs w (R.polled w i r).rows data (w.peer r.sock)) = [] := by
  rw [sentTo_broadcastActs, List.map_eq_nil_iff, List.filter_eq_nil_iff]
  intro t ht hsock
  have hsock : t.sock = r'.sock := by simpa using hsock
  obtain ⟨hmem, hdone, hpeer⟩ := mem_recipients.mp ht
  obtain ⟨t', ht', hsock', -, hstatus⟩ := Room.mem_polled hmem
  have heq : t' = r' :=
    List.eq_of_map_nodup R.nodup_sock ht' (List.mem_of_getElem? hr') (hsock'.trans hsock)
  rcases hk with rfl | hk
  · cases hr.symm.trans hr'
    exact hpeer (congrArg w.peer hsock)
  · exact hk (heq ▸ hstatus.trans hdone)

/-! ### Polls that disconnect nobody -/

lemma disconnected_mem_drop (reason : DisconnectReason) (acts : List Act) :
    .disconnected i reason ∈ (Reply.drop R w i r reason acts).acts :=
  List.mem_append_right _ (List.mem_append_right _ (List.mem_singleton_self _))

/-- A chat payload that does not get its sender disconnected is a chat request that is not
blank. -/
lemma Room.request_of_stays {iv : Bytes} (hdone : r.status = .done)
    (hdec : Cryptography.decrypt L w.data serverKey = .ok (iv, ascii "0" ++ text))
    (hstays : ∀ q, R.serve L w i r = .ok q → ∀ position reason,
      .disconnected position reason ∉ q.acts) :
    R.request L w r = .ok (.chat text) ∧ isBlank (cstr text) = false := by
  have hdrop : ∀ {req}, R.request L w r = .ok req → ∀ reason acts,
      (R.polled w i r).respond L w i (r.polled w) req =
        .ok (.drop (R.polled w i r) w i (r.polled w) reason acts) → False := by
    intro req hreq reason acts hrespond
    have hserve : R.serve L w i r =
        .ok (.drop (R.polled w i r) w i (r.polled w) reason acts) := by
      rw [Room.serve, hreq, ok_bind, hrespond]
    exact hstays _ hserve i reason (disconnected_mem_drop reason acts)
  have hopen : w.status ≠ .disconnected := by
    intro hclosed
    have hleave : R.request L w r = .ok .leave := by rw [Room.request, if_pos hclosed]
    exact hdrop hleave _ [] rfl
  have hspam : ¬ asMilliseconds (w.now - r.interval) ≤ 20 := by
    intro hspam
    have hreq : R.request L w r = .ok .spam := by
      rw [Room.request, if_neg hopen, if_neg (ne_nil_of_decrypt hdec), if_pos ⟨hdone, hspam⟩]
    exact hdrop hreq _ [] rfl
  have hreq := Room.request_of_sends (R := R) ⟨hdone, hopen, hspam, iv, hdec⟩
  by_cases hadm : Admissible (48 :: text)
  · have hchat := hreq.trans (congrArg Except.ok (requestOfPlaintext_of_chat hadm))
    refine ⟨hchat, Bool.eq_false_iff.mpr fun hblank => ?_⟩
    exact hdrop hchat _ _ (if_pos hblank)
  · have hillegal := hreq.trans (congrArg Except.ok (requestOfPlaintext_of_not_admissible hadm))
    exact (hdrop hillegal _ [] rfl).elim

/-- A chat request that is not blank returns if its packet fits, and is then broadcast. -/
lemma Room.serve_chat (hN : R.Named) (hr : R.rows[i]? = some r)
    (hreq : R.request L w r = .ok (.chat text)) (hblank : isBlank (cstr text) = false) :
    ((∃ q, R.serve L w i r = .ok q) ↔ (cstr (chatPacket text r.clientid)).length < 256) ∧
      ∀ q, R.serve L w i r = .ok q → q.acts =
        broadcastActs w (R.polled w i r).rows (chatPacket text r.clientid) (w.peer r.sock) := by
  refine ⟨?_, fun q hq => Room.acts_of_chat hN hr hreq hblank hq⟩
  rw [Room.serve_isOk (hN.named r (List.mem_of_getElem? hr)), hreq]
  simp [Request.HasRoom, hblank]

/-- What the broadcast of a chat packet delivers. -/
lemma Room.delivers_iff (hN : R.Named) (hr : R.rows[i]? = some r) (hdone : r.status = .done)
    (hpeers : R.config.DistinctPeers w) (hreq : R.request L w r = .ok (.chat text)) :
    R.config.Delivers i r.clientid text
        (broadcastActs w (R.polled w i r).rows (chatPacket text r.clientid) (w.peer r.sock)) ↔
      R.config.Alone i ∨ ((0 : Byte) ∉ text ∧ Valid text) := by
  have hid : ValidAlias r.clientid :=
    (hN.named r (List.mem_of_getElem? hr)).valid fun hs => by cases hs.symm.trans hdone
  have htext := Room.request_chat hreq
  constructor
  · intro h
    by_cases halone : R.config.Alone i
    · exact .inl halone
    · simp only [Config.Alone, Room.config_row?, not_forall, not_not] at halone
      obtain ⟨k, r', hr', hk, hdone'⟩ := halone
      obtain ⟨d, hsent, hparse, -⟩ := h.once k r' ((Room.config_row? _ k).trans hr') hk hdone'
      rw [sentTo_other hr hpeers hr' hk hdone'] at hsent
      simp only [List.cons.injEq, Packet.sealed.injEq, and_true] at hsent
      rw [← hsent, parsePacket_chat htext hid] at hparse
      by_contra hbad
      rw [if_neg fun h => hbad (.inr h)] at hparse
      cases hparse
  · intro h
    constructor
    · intro k r' hr' hk hdone'
      obtain halone | ⟨h0, hvalid⟩ := h
      · exact absurd hdone' (halone k r' hr' hk)
      · rw [Room.config_row?] at hr'
        rw [cstr_of_nul_not_mem h0] at htext
        refine ⟨_, sentTo_other hr hpeers hr' hk hdone' _, ?_, ?_⟩
        · rw [parsePacket_chat (by rwa [cstr_of_nul_not_mem h0]) hid, if_pos ⟨h0, hvalid⟩]
        · rw [cstr_chatPacket h0 hid]
          exact Cpp.message_eq htext hid.separator_not_mem
    · intro k r' hr' hk
      rw [Room.config_row?] at hr'
      exact sentTo_nobody hr hr' hk _

/-- In every state the server reaches, a chat payload that does not get its sender disconnected is
delivered exactly when it fits and, if anybody else is there, it is UTF-8 without a NUL. -/
theorem chat_delivered_iff (L : Library) {userdata : Bytes} {c : Config}
    (h : (server L).Reachable (Config.init userdata) c) (hr : c.row? i = some r)
    (hdone : r.status = .done) (hpeers : c.DistinctPeers w) {iv : Bytes}
    (hdec : Cryptography.decrypt L w.data serverKey = .ok (iv, ascii "0" ++ text))
    (hstays : c.Stays L i w) :
    (∃ m, (Event.code L (.receive i w)).run c.machine = .ok ((), m) ∧
        c.Delivers i r.clientid text m.acts) ↔
      (cstr (chatPacket text r.clientid)).length < 256 ∧
        (c.Alone i ∨ ((0 : Byte) ∉ text ∧ Valid text)) := by
  obtain ⟨R, hR, rfl⟩ := reachable_lift h
  rw [Room.config_row?] at hr
  have hN := Room.named_of_reachable hR
  simp only [Config.Stays, Room.code_receive_run hr] at hstays
  rw [Room.code_receive_run hr]
  obtain ⟨hreq, hblank⟩ := Room.request_of_stays (R := R) (i := i) hdone hdec
    fun q hserve => hstays q.machine (by rw [hserve]; rfl)
  obtain ⟨hreturns, hacts⟩ := Room.serve_chat hN hr hreq hblank
  rw [← hreturns, ← Room.delivers_iff hN hr hdone hpeers hreq]
  constructor
  · rintro ⟨m, hrun, hdelivers⟩
    cases hserve : R.serve L w i r with
    | error e => rw [hserve] at hrun; cases hrun
    | ok q =>
      rw [hserve] at hrun
      cases hrun
      exact ⟨⟨q, rfl⟩, hacts q hserve ▸ hdelivers⟩
  · rintro ⟨⟨q, hserve⟩, hdelivers⟩
    rw [← hacts q hserve] at hdelivers
    exact ⟨q.machine, by rw [hserve]; rfl, hdelivers⟩

/-- Alice and Bob log in and exchange keys. -/
def Toy.twoClients : List Event :=
  [joins 1, joins 2, polls 0 (logsIn (ascii "alice") (ascii "pw")) 5,
    polls 0 modulus 10,
    polls 1 (logsIn (ascii "bob") (ascii "pw")) 15, polls 1 modulus 20]

/-- Alice's next message. -/
def Toy.speaks (text : Bytes) : World := world .done (seals (ascii "0" ++ text)) 1000

lemma Config.getElem?_of_row? {c : Config} {k : ℕ} (h : c.row? k = some r) :
    c.server.clientArray[k]? = some r.sock := by
  rw [Config.row?] at h
  obtain ⟨conn, -, h⟩ := Option.bind_eq_some_iff.mp h
  obtain ⟨sock, hsock, h⟩ := Option.bind_eq_some_iff.mp h
  obtain ⟨clientid, -, h⟩ := Option.bind_eq_some_iff.mp h
  obtain ⟨op, -, h⟩ := Option.bind_eq_some_iff.mp h
  obtain ⟨status, -, h⟩ := Option.bind_eq_some_iff.mp h
  obtain ⟨interval, -, h⟩ := Option.bind_eq_some_iff.mp h
  cases h
  exact hsock

/-- Toy clients on different sockets have different addresses. -/
lemma Toy.distinctPeers_speaks {c : Config} (hnodup : c.server.clientArray.Nodup) (text : Bytes) :
    c.DistinctPeers (speaks text) := by
  intro k k' r r' hr hr' hpeer
  have hsock := Config.getElem?_of_row? hr
  have hsock' := Config.getElem?_of_row? hr'
  have heq : r.sock = r'.sock := congrArg Endpoint.address hpeer
  have hlt : k < c.server.clientArray.length := (List.getElem?_eq_some_iff.mp hsock).1
  exact (List.getElem?_inj hlt hnodup).mp (hsock.trans (heq ▸ hsock'.symm))

lemma Toy.acts_of_run {c : Config} {e : Event} {acts : List Act} {m : Machine}
    (hfire : (fire toy c e).map (·.obs.acts) = some acts)
    (hrun : (e.code toy).run c.machine = .ok ((), m)) : m.acts = acts := by
  obtain ⟨st, hst, rfl⟩ := Option.map_eq_some_iff.mp hfire
  rw [fire, hrun] at hst
  split_ifs at hst
  cases hst
  rfl

theorem chat_delivered_iff_toy :
    ∃ steps c m, play toy (Config.init []) Toy.twoClients = some (steps, c) ∧
      (Event.code toy (.receive 0 (Toy.speaks (ascii "hi")))).run c.machine =
        .ok ((), m) ∧
      c.Delivers 0 (ascii "alice") (ascii "hi") m.acts := by
  have hsome : (play toy (Config.init []) Toy.twoClients).map (fun x =>
      (x.2.server.clientArray, x.2.row? 0,
        (fire toy x.2 (.receive 0 (Toy.speaks (ascii "hi")))).map (·.obs.acts))) =
      some ([1, 2], some ⟨⟨ascii "alice", false, .done, 0⟩, 0, 1⟩,
        some [.broadcast (cstr (chatPacket (ascii "hi") (ascii "alice"))),
          .sent 2 (.sealed (cstr (chatPacket (ascii "hi") (ascii "alice"))))]) := by
    decide +kernel
  have hdec : Cryptography.decrypt toy (Toy.speaks (ascii "hi")).data serverKey =
      .ok (List.replicate 12 0, ascii "0" ++ ascii "hi") := by decide +kernel
  obtain ⟨⟨steps, c⟩, hplay, heq⟩ := Option.map_eq_some_iff.mp hsome
  simp only [Prod.mk.injEq] at heq
  obtain ⟨hsocks, hrow, hfire⟩ := heq
  have hstays : c.Stays toy 0 (Toy.speaks (ascii "hi")) := by
    intro m hrun position reason
    rw [Toy.acts_of_run hfire hrun]
    simp
  have hnodup : c.server.clientArray.Nodup := hsocks ▸ (by decide)
  obtain ⟨m, hrun, hdelivers⟩ := (chat_delivered_iff toy (run_of_play hplay).reachable hrow rfl
    (Toy.distinctPeers_speaks hnodup _) hdec hstays).mpr ⟨by decide, .inr (by decide)⟩
  exact ⟨steps, c, m, hplay, hrun, hdelivers⟩

/-- A text that is one byte which is not UTF-8 reaches nobody. -/
theorem not_chat_delivered_toy :
    ¬ ∀ c, (server toy).Reachable (Config.init []) c → ∀ i r w iv text, c.row? i = some r →
      r.status = .done → c.DistinctPeers w →
      Cryptography.decrypt toy w.data serverKey = .ok (iv, ascii "0" ++ text) → c.Stays toy i w →
      ∃ m, (Event.code toy (.receive i w)).run c.machine = .ok ((), m) ∧
        c.Delivers i r.clientid text m.acts := by
  have hsome : (play toy (Config.init []) Toy.twoClients).map (fun x =>
      (x.2.server.clientArray, x.2.row? 0, x.2.row? 1,
        (fire toy x.2 (.receive 0 (Toy.speaks [255]))).map (·.obs.acts))) =
      some ([1, 2], some ⟨⟨ascii "alice", false, .done, 0⟩, 0, 1⟩,
        some ⟨⟨ascii "bob", false, .done, 0⟩, 1, 2⟩,
        some [.broadcast (cstr (chatPacket [255] (ascii "alice"))),
          .sent 2 (.sealed (cstr (chatPacket [255] (ascii "alice"))))]) := by
    decide +kernel
  have hdec : Cryptography.decrypt toy (Toy.speaks [255]).data serverKey =
      .ok (List.replicate 12 0, ascii "0" ++ [255]) := by decide +kernel
  have hparse : Rust.parsePacket (cstr (chatPacket [255] (ascii "alice"))) = none := by
    decide +kernel
  obtain ⟨⟨steps, c⟩, hplay, heq⟩ := Option.map_eq_some_iff.mp hsome
  simp only [Prod.mk.injEq] at heq
  obtain ⟨hsocks, hrow, hbob, hfire⟩ := heq
  have hstays : c.Stays toy 0 (Toy.speaks [255]) := by
    intro m hrun position reason
    rw [Toy.acts_of_run hfire hrun]
    simp
  have hnodup : c.server.clientArray.Nodup := hsocks ▸ (by decide)
  intro hall
  obtain ⟨m, hrun, hdelivers⟩ := hall c (run_of_play hplay).reachable 0 _ _ _ [255] hrow rfl
    (Toy.distinctPeers_speaks hnodup _) hdec hstays
  obtain ⟨d, hsent, hread, -⟩ := hdelivers.once 1 _ hbob (by decide) rfl
  rw [Toy.acts_of_run hfire hrun] at hsent
  simp only [sentTo, List.filterMap_cons, List.filterMap_nil, if_true, List.cons.injEq,
    Packet.sealed.injEq, and_true] at hsent
  rw [← hsent, hparse] at hread
  cases hread

end OpenSimp
