import OpenSimp.Room.Outcome

/-!
# What a poll sends

`Room.Emission` lists the effects a poll can have: what is broadcast and to whom, the direct
replies, the two unencrypted messages of the handshake, and the disconnections.
-/

namespace OpenSimp

open Bytes FaultState ServerNetwork

/-- The aliases of the room, in the order of the rows. -/
def Room.clientids (R : Room) : List Bytes := R.rows.map (·.clientid)

/-- What a request of row `i`, which is `r`, passes to `broadcast`. -/
inductive Room.Announces (R : Room) (i : ℕ) (r : Row) : Request → Bytes → Prop where
  | leave {req : Request} :
      Announces R i r req
        (ascii "2" ++ [separator] ++ r.clientid ++ rosterText (R.clientids.eraseIdx i))
  | join {req : Request} {a : Bytes} (ha : R.Admits a) :
      Announces R i r req (joinMessage a (R.clientids.set i a))
  | welcome {u p : Bytes} (hu : R.Admits u) :
      Announces R i r (.register u p)
        (ascii "6" ++ [separator] ++ (ascii "Everybody welcome the new user " ++ u))
  | chat {text : Bytes} (hblank : isBlank (cstr text) = false) :
      Announces R i r (.chat text) (ascii "0" ++ [separator] ++ text ++ [separator] ++ r.clientid)
  | console : Announces R i r .console []

/-- The sockets and texts of the direct replies to a request of the row `r`. -/
inductive Room.Tells (R : Room) (r : Row) : Request → Sock → Bytes → Prop where
  | unreadable : Tells R r .unreadable r.sock (ascii "Your previous message was not sent")
  | blank {text : Bytes} : Tells R r (.chat text) r.sock (ascii "Stop sending empty shit.")
  | help {text : Bytes} (args : List Bytes) : Tells R r (.command text) r.sock (helpReply args)
  | plugins {text : Bytes} : Tells R r (.command text) r.sock (ascii "Plugins (0): ")
  | self {text : Bytes} :
      Tells R r (.command text) r.sock (ascii "You cannot send message to yourself")
  | direct {text : Bytes} {args : List Bytes} {target : Row} (hargs : Lexer.lex text
        (List.replicate Executor.slots []) space = .ok args) (hcmd : args.getD 0 [] = ascii "msg")
      (hmem : target ∈ R.rows) (hid : target.clientid = args.getD 1 [])
      (hsentinel : target.clientid ≠ sentinel) (hother : target.clientid ≠ r.clientid) :
      Tells R r (.command text) target.sock (directText target.clientid r.clientid args)
  | unknown {text : Bytes} {args : List Bytes} (hargs : Lexer.lex text
        (List.replicate Executor.slots []) space = .ok args)
      (hcmd : args.getD 0 [] ∉ commandNames) : Tells R r (.command text) r.sock
      (ascii "Command " ++ text ++ ascii " was not found. Type /help to get help.")

/-- The requests after which a client is asked for its public key. -/
def Request.LogsIn : Request → Prop
  | .login _ | .register _ _ => True
  | _ => False

/-- The effects a request of row `i`, which is `r`, can have. -/
inductive Room.Emission (R : Room) (L : Library) (w : World) (i : ℕ) (r : Row) :
    Request → Act → Prop where
  | broadcast {req : Request} {data : Bytes} (h : R.Announces i r req data) :
      Emission R L w i r req (.broadcast (cstr data))
  | announced {req : Request} {data : Bytes} {r' : Row} (h : R.Announces i r req data)
      (hmem : r' ∈ R.rows) (hdone : r'.status = .done)
      (hpeer : w.peer r'.sock ≠ w.peer r.sock) :
      Emission R L w i r req (.sent r'.sock (.sealed (cstr data)))
  | told {req : Request} {p : Sock} {str : Bytes} (h : R.Tells r req p str) :
      Emission R L w i r req (.sent p (directPacket str))
  | spb {req : Request} (hlogin : req.LogsIn) :
      Emission R L w i r req (.sent r.sock (.clear (ascii "spb")))
  | serverKey {n : ℤ} {ciphertext : Bytes → Bytes}
      (h : (((R.insertKey r.sock n).keys r.sock).bind fun n => L.rsaEncrypt n serverKey) =
        some ciphertext) :
      Emission R L w i r (.key n) (.sent r.sock (.clear (ciphertext w.seed)))
  | registered {u p : Bytes} (ha : R.Admits u) :
      Emission R L w i r (.register u p) (.registered u p)
  | disconnected {req : Request} {reason : DisconnectReason}
      (hunnamed : reason = .disconnectUnnamed →
        r.clientid = sentinel ∧ ∃ text, req = .chat text) :
      Emission R L w i r req (.disconnected i reason)

variable {R : Room} {L : Library} {w : World} {i : ℕ} {r : Row} {req : Request} {q : Reply}
  {a : Act}

lemma Room.clientids_rename (hr : R.rows[i]? = some r) (a : Bytes) :
    (R.rename i a).rows.map (·.clientid) = R.clientids.set i a :=
  List.map_modify_eq_set hr

lemma mem_broadcastActs {rows : List Row} {data : Bytes} {exclude : Endpoint}
    (ha : a ∈ broadcastActs w rows data exclude) :
    a = .broadcast (cstr data) ∨ ∃ r' ∈ rows, r'.status = .done ∧ w.peer r'.sock ≠ exclude ∧
      a = .sent r'.sock (.sealed (cstr data)) := by
  rcases List.mem_cons.mp ha with rfl | ha
  · exact .inl rfl
  · obtain ⟨r', hr', rfl⟩ := List.mem_map.mp ha
    obtain ⟨hmem, hrec⟩ := List.mem_filter.mp hr'
    have hrec := of_decide_eq_true hrec
    exact .inr ⟨r', hmem, hrec.1, hrec.2, rfl⟩

lemma emission_broadcastActs {data : Bytes} (h : R.Announces i r req data)
    (ha : a ∈ broadcastActs w R.rows data (w.peer r.sock)) : R.Emission L w i r req a := by
  rcases mem_broadcastActs ha with rfl | ⟨r', hmem, hdone, hpeer, rfl⟩
  · exact .broadcast h
  · exact .announced h hmem hdone hpeer

/-- Renaming a row changes no socket and no status. -/
lemma Room.rename_same (b : Bytes) :
    ((R.rename i b).rows.map fun r => (r.sock, r.status)) =
      R.rows.map fun r => (r.sock, r.status) := List.map_modify_of_eq fun _ => rfl

lemma Room.mem_rename {r' : Row} {b : Bytes} (hmem : r' ∈ (R.rename i b).rows) :
    ∃ r'' ∈ R.rows, r''.sock = r'.sock ∧ r''.status = r'.status := by
  have hpair : (r'.sock, r'.status) ∈ R.rows.map fun r => (r.sock, r.status) :=
    Room.rename_same (R := R) b ▸ List.mem_map_of_mem hmem
  obtain ⟨r'', hr'', heq⟩ := List.mem_map.mp hpair
  exact ⟨r'', hr'', (Prod.mk.inj heq).1, (Prod.mk.inj heq).2⟩

lemma emission_broadcastActs_rename {data b : Bytes} (h : R.Announces i r req data)
    (ha : a ∈ broadcastActs w (R.rename i b).rows data (w.peer r.sock)) :
    R.Emission L w i r req a := by
  rcases mem_broadcastActs ha with rfl | ⟨r', hmem, hdone, hpeer, rfl⟩
  · exact .broadcast h
  · obtain ⟨r'', hmem', hsock, hstatus⟩ := Room.mem_rename hmem
    rw [← hsock] at hpeer ⊢
    exact .announced h hmem' (hstatus.trans hdone) hpeer

lemma emission_joinActs (hr : R.rows[i]? = some r) {b : Bytes} (hb : R.Admits b)
    (ha : a ∈ R.joinActs w i r b) : R.Emission L w i r req a := by
  rw [Room.joinActs, Room.clientids_rename hr] at ha
  exact emission_broadcastActs_rename (.join hb) ha

lemma emission_disconnectActs {reason : DisconnectReason}
    (hunnamed : reason = .disconnectUnnamed → r.clientid = sentinel ∧ ∃ text, req = .chat text)
    (ha : a ∈ R.disconnectActs w i r reason) : R.Emission L w i r req a := by
  rcases List.mem_append.mp ha with ha | ha
  · exact emission_broadcastActs .leave ha
  · rw [List.mem_singleton.mp ha]
    exact .disconnected hunnamed

lemma emission_msgActs {text : Bytes} {args : List Bytes}
    (hargs : Lexer.lex text (List.replicate Executor.slots []) space = .ok args)
    (hcmd : args.getD 0 [] = ascii "msg") (ha : a ∈ R.msgActs r args) :
    R.Emission L w i r (.command text) a := by
  rw [Room.msgActs] at ha
  split_ifs at ha with hsentinel hself
  · simp at ha
  · rw [List.mem_singleton.mp ha]
    exact .told .self
  · cases hfind : R.rows.find? (·.clientid = args.getD 1 []) with
    | none =>
      rw [hfind] at ha
      simp at ha
    | some target =>
      rw [hfind] at ha
      have hid : target.clientid = args.getD 1 [] := by
        simpa using List.find?_some hfind
      rw [List.eq_of_mem_replicate ha, ← hid]
      exact .told (.direct hargs hcmd (List.mem_of_find?_eq_some hfind) hid (hid ▸ hsentinel)
        (hid ▸ hself))

lemma emission_commandActs {text : Bytes} {acts : List Act} (h : R.commandActs r text = .ok acts)
    (ha : a ∈ acts) : R.Emission L w i r (.command text) a := by
  rw [Room.commandActs] at h
  cases hargs : Lexer.lex text (List.replicate Executor.slots []) space with
  | error fault => rw [hargs] at h; cases h
  | ok args =>
    rw [hargs, ok_bind] at h
    split_ifs at h with hhelp hplugins hmsg
    · cases h
      rw [List.mem_singleton.mp ha]
      exact .told (.help args)
    · cases h
      rw [List.mem_singleton.mp ha]
      exact .told .plugins
    · cases h
      exact emission_msgActs hargs hmsg ha
    · cases h
      rw [List.mem_singleton.mp ha]
      refine .told (.unknown hargs ?_)
      simp only [commandNames, List.mem_cons, hhelp, hplugins, hmsg, List.not_mem_nil, or_self,
        not_false_eq_true]

lemma emission_relayed {text : Bytes} (h : R.relayed w i r text = .ok q)
    (hann : R.Announces i r req text) (ha : a ∈ q.acts) : R.Emission L w i r req a := by
  rw [Room.relayed, strcpy] at h
  split_ifs at h
  · cases h
    rcases mem_broadcastActs ha with rfl | ⟨r', hmem, hdone, hpeer, rfl⟩
    · rw [cstr_cstr]
      exact .broadcast hann
    · rw [cstr_cstr]
      exact .announced hann hmem hdone hpeer

lemma Room.respond_emission (hr : R.rows[i]? = some r) (hfits : req.Fits r.status)
    (h : R.respond L w i r req = .ok q) (ha : a ∈ q.acts) : R.Emission L w i r req a := by
  have hdrop : ∀ {reason}, (reason = .disconnectUnnamed →
      r.clientid = sentinel ∧ ∃ text, req = .chat text) →
      a ∈ [] ++ R.disconnectActs w i r reason → R.Emission L w i r req a :=
    fun {reason} hunnamed ha => emission_disconnectActs hunnamed ha
  have hspb : a ∈ [Act.sent r.sock (.clear (ascii "spb"))] → req.LogsIn →
      R.Emission L w i r req a := by
    intro ha hreq
    rw [List.mem_singleton.mp ha]
    exact .spb hreq
  cases req with
  | leave | spam | garbledLogin | wrongPassword | illegal =>
    cases h
    exact hdrop (by simp) ha
  | idle =>
    cases h
    simp [Reply.keep] at ha
  | unreadable =>
    cases h
    rw [List.mem_singleton.mp ha]
    exact .told .unreadable
  | login u =>
    rw [Room.respond] at h
    split_ifs at h with hu
    · cases h
      rcases List.mem_append.mp ha with ha | ha
      · exact emission_joinActs hr hu ha
      · exact hspb ha trivial
    · cases h
      exact hdrop (by simp) ha
  | register u p =>
    rw [Room.respond] at h
    split_ifs at h with hu
    · cases h
      simp only [Reply.keep, List.mem_append] at ha
      rcases ha with ((ha | ha) | ha) | ha
      · exact emission_joinActs hr hu ha
      · rw [List.mem_singleton.mp ha]
        exact .registered hu
      · exact emission_broadcastActs_rename (.welcome hu) ha
      · exact hspb ha trivial
    · cases h
      exact hdrop (by simp) ha
  | key n =>
    rw [Room.respond] at h
    cases hct : ((R.insertKey r.sock n).keys r.sock).bind fun n => L.rsaEncrypt n serverKey with
    | none =>
      rw [hct] at h
      cases h
      exact emission_disconnectActs (R := R) (by simp) ha
    | some ciphertext =>
      rw [hct] at h
      cases h
      rw [List.mem_singleton.mp ha]
      exact .serverKey hct
  | chat text =>
    rw [Room.respond] at h
    split_ifs at h with hblank hs
    · cases h
      rcases List.mem_append.mp ha with ha | ha
      · rw [List.mem_singleton.mp ha]
        exact .told .blank
      · exact hdrop (by simp) ha
    · cases h
      exact hdrop (fun _ => ⟨hs, text, rfl⟩) ha
    · exact emission_relayed h (.chat (by simpa using hblank)) ha
  | rename b =>
    rw [Room.respond] at h
    split_ifs at h with hb
    · cases h
      exact emission_joinActs hr hb ha
    · cases h
      exact hdrop (by simp) ha
  | console =>
    rw [Room.respond] at h
    exact emission_relayed h .console ha
  | command text =>
    rw [Room.respond] at h
    cases hacts : R.commandActs r text with
    | error e => rw [hacts] at h; cases h
    | ok acts =>
      rw [hacts] at h
      cases h
      exact emission_commandActs hacts ha

/-! ### Polls -/

/-- Polling changes no socket, alias or status. -/
lemma Room.polled_same :
    ((R.polled w i r).rows.map fun r => (r.sock, r.clientid, r.status)) =
      R.rows.map fun r => (r.sock, r.clientid, r.status) := by
  obtain ⟨f, hf, hrows, -⟩ := R.polled_rows w i r
  rw [hrows]
  apply List.map_modify_of_eq
  intro r
  rw [Row.update, (hf r.toProfile).1, (hf r.toProfile).2]

lemma Room.mem_polled {r' : Row} (hmem : r' ∈ (R.polled w i r).rows) :
    ∃ r'' ∈ R.rows, r''.sock = r'.sock ∧ r''.clientid = r'.clientid ∧
      r''.status = r'.status := by
  have hmem' : (r'.sock, r'.clientid, r'.status) ∈
      R.rows.map fun r => (r.sock, r.clientid, r.status) :=
    Room.polled_same (w := w) (i := i) (r := r) ▸ List.mem_map_of_mem hmem
  obtain ⟨r'', hr'', heq⟩ := List.mem_map.mp hmem'
  simp only [Prod.mk.injEq] at heq
  exact ⟨r'', hr'', heq⟩

/-- Every row of a room is there when the clock has been restarted. -/
lemma Room.exists_mem_polled (w : World) (i : ℕ) (r : Row) {r' : Row} (hmem : r' ∈ R.rows) :
    ∃ r'' ∈ (R.polled w i r).rows, r''.sock = r'.sock ∧ r''.clientid = r'.clientid ∧
      r''.status = r'.status := by
  have hmem' : (r'.sock, r'.clientid, r'.status) ∈
      (R.polled w i r).rows.map fun r => (r.sock, r.clientid, r.status) := by
    rw [Room.polled_same]
    exact List.mem_map_of_mem hmem
  obtain ⟨r'', hr'', heq⟩ := List.mem_map.mp hmem'
  simp only [Prod.mk.injEq] at heq
  exact ⟨r'', hr'', heq⟩

lemma Room.polled_clientids : (R.polled w i r).clientids = R.clientids := by
  obtain ⟨f, hf, hrows, -⟩ := R.polled_rows w i r
  rw [Room.clientids, hrows, Room.map_clientid_modify fun p => (hf p).1, ← Room.clientids]

lemma Room.Announces.of_polled {data : Bytes}
    (h : (R.polled w i r).Announces i (r.polled w) req data) : R.Announces i r req data := by
  cases h with
  | leave =>
    rw [Room.polled_clientids, Row.polled_clientid]
    exact .leave
  | join ha =>
    rw [Room.polled_clientids]
    exact .join ((Room.polled_admits _).mp ha)
  | welcome hu => exact .welcome ((Room.polled_admits _).mp hu)
  | chat hblank =>
    rw [Row.polled_clientid]
    exact .chat hblank
  | console => exact .console

lemma Room.Tells.of_polled {p : Sock} {str : Bytes}
    (h : (R.polled w i r).Tells (r.polled w) req p str) : R.Tells r req p str := by
  have hsock := Row.polled_sock (w := w) (r := r)
  cases h with
  | unreadable => exact hsock ▸ .unreadable
  | blank => exact hsock ▸ .blank
  | help args => exact hsock ▸ .help args
  | plugins => exact hsock ▸ .plugins
  | self => exact hsock ▸ .self
  | unknown hargs hcmd => exact hsock ▸ .unknown hargs hcmd
  | direct hargs hcmd hmem hid hsentinel hother =>
    obtain ⟨r'', hmem', hsock', hid', -⟩ := Room.mem_polled hmem
    rw [Row.polled_clientid] at hother ⊢
    rw [← hsock', ← hid']
    exact .direct hargs hcmd hmem' (hid'.trans hid) (hid' ▸ hsentinel) (hid' ▸ hother)

/-- What polling row `i`, which is `r`, can send. -/
theorem Room.serve_emission (hr : R.rows[i]? = some r) (hreq : R.request L w r = .ok req)
    (h : R.serve L w i r = .ok q) (ha : a ∈ q.acts) : R.Emission L w i r req a := by
  rw [Room.serve, hreq, ok_bind] at h
  have hfits : req.Fits (r.polled w).status := by
    rw [Row.polled_status]
    exact Room.request_fits hreq
  have hsock := Row.polled_sock (w := w) (r := r)
  cases Room.respond_emission (Room.getElem?_polled hr) hfits h ha with
  | broadcast h => exact .broadcast h.of_polled
  | announced h hmem hdone hpeer =>
    obtain ⟨r'', hmem', hsock', -, hstatus⟩ := Room.mem_polled hmem
    rw [hsock, ← hsock'] at hpeer
    rw [← hsock']
    exact .announced h.of_polled hmem' (hstatus.trans hdone) hpeer
  | told h => exact .told h.of_polled
  | spb hlogin => exact hsock ▸ .spb hlogin
  | serverKey hct =>
    rw [Room.insertKey, Room.polled_keys, hsock] at hct
    rw [hsock]
    exact .serverKey hct
  | registered hu => exact .registered ((Room.polled_admits _).mp hu)
  | disconnected hunnamed =>
    exact .disconnected fun h => Row.polled_clientid (w := w) ▸ hunnamed h

end OpenSimp
