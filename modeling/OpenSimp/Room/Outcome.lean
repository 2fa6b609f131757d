import OpenSimp.Room.Requests

/-!
# What a poll can do

`Room.request_fits` says which requests a client can make at which stage of its handshake, and
`Room.Outcome` lists what a poll can do to the room. Invariants of the room are proved from these,
not from `Room.serve`.
-/

namespace OpenSimp

open Bytes FaultState ServerNetwork

/-! ### Requests and statuses -/

/-- The requests that clients with a given status make. -/
def Request.Fits (status : AuthStatus) : Request → Prop
  | .leave | .idle => True
  | .spam => status = .done
  | .garbledLogin | .wrongPassword | .login _ | .register _ _ => status = .undone
  | .key _ => status = .keyReceived
  | .unreadable | .illegal | .chat _ | .rename _ | .console | .command _ =>
    status ≠ .undone ∧ status ≠ .keyReceived

variable {R : Room} {L : Library} {w : World} {i : ℕ} {r : Row} {req : Request} {q : Reply}

/-- `userdata.yml` has an entry for the user `u`. -/
def Registered (L : Library) (text u : Bytes) : Prop :=
  ∃ config user, L.yamlLoad text = some config ∧ config.subscript u = .ok user ∧
    user.isDefined = true

/-- `p` is the password that `userdata.yml` has for the user `u`. -/
def Stored (L : Library) (text u p : Bytes) : Prop :=
  ∃ config user password, L.yamlLoad text = some config ∧ config.subscript u = .ok user ∧
    user.isDefined = true ∧ user.subscript (ascii "password") = .ok password ∧
    password.isDefined = true ∧ password.asString = .ok p

lemma Stored.registered {text u p : Bytes} (h : Stored L text u p) : Registered L text u := by
  obtain ⟨config, user, _, hload, huser, hdef, -⟩ := h
  exact ⟨config, user, hload, huser, hdef⟩

/-- What the lookup in `userdata.yml` decides. -/
inductive LoginOutcome (L : Library) (text u p : Bytes) : Request → Prop where
  | login (h : Stored L text u p) : LoginOutcome L text u p (.login u)
  | wrongPassword (h : Registered L text u) (hne : ¬ Stored L text u p) :
      LoginOutcome L text u p .wrongPassword
  | register {config : Node} {user : Node} (hload : L.yamlLoad text = some config)
      (huser : config.subscript u = .ok user) (hdef : user.isDefined = false) :
      LoginOutcome L text u p (.register u p)

lemma requestOfCredentials_outcome {text u p : Bytes}
    (h : requestOfCredentials L text u p = .ok req) : LoginOutcome L text u p req := by
  rw [requestOfCredentials] at h
  cases hload : L.yamlLoad text with
  | none => rw [hload] at h; cases h
  | some config =>
    rw [hload] at h
    dsimp only at h
    cases huser : config.subscript u with
    | error e => rw [huser] at h; cases h
    | ok user =>
      rw [huser, ok_bind] at h
      by_cases hdef : user.isDefined = true
      · have hreg : Registered L text u := ⟨config, user, hload, huser, hdef⟩
        have hstored : ∀ p, Stored L text u p → ∃ password, user.subscript (ascii "password") =
            .ok password ∧ password.isDefined = true ∧ password.asString = .ok p := by
          rintro p ⟨config', user', password, hload', huser', -, hpass⟩
          cases hload.symm.trans hload'
          cases huser.symm.trans huser'
          exact ⟨password, hpass⟩
        rw [if_pos hdef] at h
        cases hpass : user.subscript (ascii "password") with
        | error e => rw [hpass] at h; cases h
        | ok password =>
          rw [hpass, ok_bind] at h
          by_cases hpdef : password.isDefined = true
          · rw [if_pos hpdef] at h
            cases hstr : password.asString with
            | error e => rw [hstr] at h; cases h
            | ok stored =>
              rw [hstr, ok_bind] at h
              by_cases hp : stored = p
              · rw [if_pos hp] at h
                cases h
                exact .login ⟨config, user, password, hload, huser, hdef, hpass, hpdef, hp ▸ hstr⟩
              · rw [if_neg hp] at h
                cases h
                refine .wrongPassword hreg fun hs => hp ?_
                obtain ⟨password', hpass', -, hstr'⟩ := hstored p hs
                cases hpass.symm.trans hpass'
                exact Except.ok.inj (hstr.symm.trans hstr')
          · rw [if_neg hpdef] at h
            cases h
            refine .wrongPassword hreg fun hs => hpdef ?_
            obtain ⟨password', hpass', hpdef', -⟩ := hstored p hs
            cases hpass.symm.trans hpass'
            exact hpdef'
      · rw [if_neg hdef] at h
        cases h
        exact .register hload huser (by simpa using hdef)

lemma LoginOutcome.fits {text u p : Bytes} (h : LoginOutcome L text u p req) :
    req.Fits .undone := by
  cases h <;> rfl

/-- The credentials in an `Undone` client's message. -/
def Presented (L : Library) (data u p : Bytes) : Prop :=
  ∃ decstr, L.rsaDecrypt data = some decstr ∧ (credentials decstr).uname = u ∧
    (credentials decstr).passwd = p ∧ u ≠ [] ∧ p ≠ []

lemma requestOfLogin_outcome {text data : Bytes} (h : requestOfLogin L text data = .ok req) :
    req = .garbledLogin ∨ ∃ u p, Presented L data u p ∧ LoginOutcome L text u p req := by
  rw [requestOfLogin] at h
  cases hdec : L.rsaDecrypt data with
  | none =>
    rw [hdec] at h
    cases h
    exact .inl rfl
  | some decstr =>
    rw [hdec] at h
    dsimp only at h
    split_ifs at h with hempty
    · cases h
      exact .inl rfl
    · rw [not_or] at hempty
      exact .inr ⟨_, _, ⟨decstr, hdec, rfl, rfl, hempty.1, hempty.2⟩,
        requestOfCredentials_outcome h⟩

lemma requestOfLogin_fits {text data : Bytes} (h : requestOfLogin L text data = .ok req) :
    req.Fits .undone := by
  rcases requestOfLogin_outcome h with rfl | ⟨u, p, -, hout⟩
  · rfl
  · exact hout.fits

/-- A key message is the text of a modulus that the key's constructor accepts. -/
lemma requestOfKey_eq_ok {data : Bytes} (h : requestOfKey L data = .ok req) :
    ∃ text n, ofBuffer maxRawData data = some text ∧ L.bigInt text = some n ∧
      L.rsaPublicKey n = true ∧ req = .key n := by
  rw [requestOfKey] at h
  cases htext : ofBuffer maxRawData data with
  | none => rw [htext] at h; cases h
  | some text =>
    rw [htext] at h
    dsimp only at h
    cases hn : L.bigInt text with
    | none => rw [hn] at h; cases h
    | some n =>
      rw [hn] at h
      dsimp only at h
      split_ifs at h with hkey
      cases h
      exact ⟨text, n, rfl, hn, hkey, rfl⟩

lemma requestOfPlaintext_fits (d : Bytes) {status : AuthStatus} (hundone : status ≠ .undone)
    (hkey : status ≠ .keyReceived) : (requestOfPlaintext d).Fits status := by
  rw [requestOfPlaintext]
  split_ifs <;> exact ⟨hundone, hkey⟩

lemma requestOfPacket_fits {data : Bytes} {status : AuthStatus} (hundone : status ≠ .undone)
    (hkey : status ≠ .keyReceived) (h : requestOfPacket L data = .ok req) : req.Fits status := by
  rw [requestOfPacket] at h
  rcases hdec : Cryptography.decrypt L data serverKey with fault | ⟨iv, d⟩
  · rw [hdec] at h
    cases fault <;> cases h
    exact ⟨hundone, hkey⟩
  · rw [hdec] at h
    cases h
    exact requestOfPlaintext_fits d hundone hkey

/-- Where a request comes from. -/
inductive Room.RequestSource (R : Room) (L : Library) (w : World) (r : Row) : Request → Prop where
  | leave (hclosed : w.status = .disconnected) : RequestSource R L w r .leave
  | idle (hdata : w.data = []) : RequestSource R L w r .idle
  | spam (hdone : r.status = .done) : RequestSource R L w r .spam
  | login {req : Request} (hundone : r.status = .undone)
      (h : requestOfLogin L R.userdata w.data = .ok req) : RequestSource R L w r req
  | key {req : Request} (hkey : r.status = .keyReceived) (h : requestOfKey L w.data = .ok req) :
      RequestSource R L w r req
  | packet {req : Request} (hundone : r.status ≠ .undone) (hkey : r.status ≠ .keyReceived)
      (h : requestOfPacket L w.data = .ok req) : RequestSource R L w r req

lemma Room.request_source (h : R.request L w r = .ok req) : R.RequestSource L w r req := by
  rw [Room.request] at h
  split_ifs at h with hclosed hdata hspam
  · cases h
    exact .leave hclosed
  · cases h
    exact .idle hdata
  · cases h
    exact .spam hspam.1
  · rw [Room.requestOfData] at h
    split_ifs at h with hundone hkey
    · exact .login hundone h
    · exact .key hkey h
    · exact .packet hundone hkey h

lemma Room.request_fits (h : R.request L w r = .ok req) : req.Fits r.status := by
  cases Room.request_source h with
  | leave | idle => trivial
  | spam hdone => exact hdone
  | login hundone h =>
    rw [hundone]
    exact requestOfLogin_fits h
  | key hkey h =>
    obtain ⟨_, n, -, -, -, rfl⟩ := requestOfKey_eq_ok h
    exact hkey
  | packet hundone hkey h => exact requestOfPacket_fits hundone hkey h

/-- A client registers only a user that is not in the file. -/
lemma Room.request_register {u p : Bytes} (h : R.request L w r = .ok (.register u p)) :
    Presented L w.data u p ∧ ¬ Registered L R.userdata u := by
  cases Room.request_source h with
  | login hundone h =>
    obtain h | ⟨u', p', hpres, hout⟩ := requestOfLogin_outcome h
    · cases h
    · cases hout with
      | register hload huser hdef =>
        refine ⟨hpres, ?_⟩
        rintro ⟨config', user', hload', huser', hdef'⟩
        cases hload.symm.trans hload'
        cases huser.symm.trans huser'
        cases hdef.symm.trans hdef'
  | key hkey h =>
    obtain ⟨_, n, -, -, -, hreq⟩ := requestOfKey_eq_ok h
    cases hreq
  | packet hundone hkey h => exact absurd (requestOfPacket_fits hundone hkey h) hundone

/-- A client logs in with the stored password. -/
lemma Room.request_login {u : Bytes} (h : R.request L w r = .ok (.login u)) :
    ∃ p, Presented L w.data u p ∧ Stored L R.userdata u p := by
  cases Room.request_source h with
  | login hundone h =>
    obtain h | ⟨u', p', hpres, hout⟩ := requestOfLogin_outcome h
    · cases h
    · cases hout with
      | login hstored => exact ⟨p', hpres, hstored⟩
  | key hkey h =>
    obtain ⟨_, n, -, -, -, hreq⟩ := requestOfKey_eq_ok h
    cases hreq
  | packet hundone hkey h => exact absurd (requestOfPacket_fits hundone hkey h) hundone

/-! ### Packets -/

/-- The poll of the `Done` client `r` reads a packet of the plaintext `d`. -/
structure SendsPlaintext (L : Library) (w : World) (r : Row) (d : Bytes) : Prop where
  done : r.status = .done
  still_open : w.status ≠ .disconnected
  no_spam : ¬ asMilliseconds (w.now - r.interval) ≤ 20
  decrypted : ∃ iv, Cryptography.decrypt L w.data serverKey = .ok (iv, d)

/-- The plaintext is one that `check` and the length test let through. -/
structure Admissible (d : Bytes) : Prop where
  check : check d = true
  length_lt : d.length < 4096

lemma Admissible.separator_not_mem {c : Byte} {text : Bytes} (h : Admissible (c :: text))
    (hc : c ≠ 0) : separator ∉ cstr text := by
  have hsep : separator ∉ cstr (c :: text) := of_decide_eq_true h.check
  rw [cstr_cons, if_neg hc, List.mem_cons, not_or] at hsep
  exact hsep.2

lemma ne_nil_of_decrypt {data iv d : Bytes}
    (h : Cryptography.decrypt L data serverKey = .ok (iv, d)) : data ≠ [] := by
  rintro rfl
  rw [Cryptography.decrypt_eq, if_pos (by decide)] at h
  cases h

lemma Room.request_of_sends {d : Bytes} (h : SendsPlaintext L w r d) :
    R.request L w r = .ok (requestOfPlaintext d) := by
  obtain ⟨hdone, hopen, hspam, iv, hdec⟩ := h
  rw [Room.request, if_neg hopen, if_neg (ne_nil_of_decrypt hdec), if_neg fun h => hspam h.2,
    Room.requestOfData, if_neg (by simp [hdone]), if_neg (by simp [hdone]), requestOfPacket, hdec]

/-- What a `Done` client asks for that is in no packet. -/
def Request.Unpacked : Request → Prop
  | .leave | .idle | .spam | .unreadable => True
  | _ => False

lemma requestOfPacket_eq_ok {data : Bytes} (h : requestOfPacket L data = .ok req)
    (hreq : ¬ req.Unpacked) :
    ∃ iv d, Cryptography.decrypt L data serverKey = .ok (iv, d) ∧ requestOfPlaintext d = req := by
  rw [requestOfPacket] at h
  rcases hdec : Cryptography.decrypt L data serverKey with fault | ⟨iv, d⟩
  · rw [hdec] at h
    cases fault <;> cases h
    exact absurd trivial hreq
  · rw [hdec] at h
    exact ⟨iv, d, rfl, Except.ok.inj h⟩

/-- The other requests of a `Done` client are those of its packet. -/
lemma Room.request_sends (hdone : r.status = .done) (h : R.request L w r = .ok req)
    (hreq : ¬ req.Unpacked) : ∃ d, SendsPlaintext L w r d ∧ requestOfPlaintext d = req := by
  rw [Room.request] at h
  split_ifs at h with hclosed hdata hspam
  · cases h
    exact absurd trivial hreq
  · cases h
    exact absurd trivial hreq
  · cases h
    exact absurd trivial hreq
  · rw [Room.requestOfData, if_neg (by simp [hdone]), if_neg (by simp [hdone])] at h
    obtain ⟨iv, d, hdec, hd⟩ := requestOfPacket_eq_ok h hreq
    exact ⟨d, ⟨hdone, hclosed, fun hs => hspam ⟨hdone, hs⟩, iv, hdec⟩, hd⟩

lemma requestOfPlaintext_of_chat {text : Bytes} (h : Admissible (48 :: text)) :
    requestOfPlaintext (48 :: text) = .chat text := by
  rw [requestOfPlaintext, if_neg (not_not.mpr h.check), if_neg (not_le.mpr h.length_lt)]
  rfl

lemma requestOfPlaintext_of_command {text : Bytes} (h : Admissible (53 :: text)) :
    requestOfPlaintext (53 :: text) = .command text := by
  rw [requestOfPlaintext, if_neg (not_not.mpr h.check), if_neg (not_le.mpr h.length_lt)]
  rfl

lemma requestOfPlaintext_of_not_admissible {d : Bytes} (h : ¬ Admissible d) :
    requestOfPlaintext d = .illegal := by
  rw [requestOfPlaintext]
  by_cases hcheck : check d = true
  · rw [if_neg (not_not.mpr hcheck), if_pos (not_lt.mp fun hlen => h ⟨hcheck, hlen⟩)]
  · rw [if_pos hcheck]

lemma requestOfPlaintext_chat {d text : Bytes} (h : requestOfPlaintext d = .chat text) :
    d = 48 :: text ∧ Admissible d := by
  rw [requestOfPlaintext] at h
  split_ifs at h with hcheck hlen h48
  cases h
  obtain ⟨t, rfl⟩ := startsWith_iff.mp h48
  exact ⟨rfl, hcheck, not_le.mp hlen⟩

lemma requestOfPlaintext_command {d text : Bytes} (h : requestOfPlaintext d = .command text) :
    d = 53 :: text ∧ Admissible d := by
  rw [requestOfPlaintext] at h
  split_ifs at h with hcheck hlen h48 h51 h52 h53
  cases h
  obtain ⟨t, rfl⟩ := startsWith_iff.mp h53
  exact ⟨rfl, hcheck, not_le.mp hlen⟩

lemma Room.request_packet (h : R.request L w r = .ok req) (hundone : r.status ≠ .undone)
    (hkey : r.status ≠ .keyReceived) (hreq : ¬ req.Unpacked) :
    ∃ d, requestOfPlaintext d = req := by
  cases Room.request_source h with
  | leave | idle | spam => exact absurd trivial hreq
  | login hs h => exact absurd hs hundone
  | key hs h => exact absurd hs hkey
  | packet hs hs' h =>
    obtain ⟨iv, d, -, hd⟩ := requestOfPacket_eq_ok h hreq
    exact ⟨d, hd⟩

/-- A text that is relayed or run has no separator as far as it is read. -/
lemma Room.request_chat {text : Bytes} (h : R.request L w r = .ok (.chat text)) :
    separator ∉ cstr text := by
  have hfits := Room.request_fits h
  obtain ⟨d, hd⟩ := Room.request_packet h hfits.1 hfits.2 (by simp [Request.Unpacked])
  obtain ⟨rfl, hadm⟩ := requestOfPlaintext_chat hd
  exact hadm.separator_not_mem (by decide)

lemma Room.request_command {text : Bytes} (h : R.request L w r = .ok (.command text)) :
    separator ∉ cstr text := by
  have hfits := Room.request_fits h
  obtain ⟨d, hd⟩ := Room.request_packet h hfits.1 hfits.2 (by simp [Request.Unpacked])
  obtain ⟨rfl, hadm⟩ := requestOfPlaintext_command hd
  exact hadm.separator_not_mem (by decide)

/-! ### Outcomes -/

/-- An event that changes the profile of row `i` by `f` and no other row. -/
structure Reply.Changes (q : Reply) (R : Room) (i : ℕ) (f : Profile → Profile) : Prop where
  gone : q.gone = none
  rows : q.room.rows = R.rows.modify i (Row.update f)
  accepted : q.room.accepted = R.accepted

/-- An event that erases row `i`. -/
structure Reply.Erases (q : Reply) (R : Room) (i : ℕ) : Prop where
  gone : q.gone = some i
  rows : q.room.rows = R.rows.eraseIdx i
  accepted : q.room.accepted = R.accepted
  userdata : q.room.userdata = R.userdata

lemma Reply.Changes.mem_rows {f : Profile → Profile} (h : q.Changes R i f)
    (hr : R.rows[i]? = some r) {r' : Row} :
    r' ∈ q.room.rows ↔ r' = r.update f ∨ r' ∈ R.rows ∧ r' ≠ r := by
  have hrows : (R.rows.map id).Nodup := by
    rw [List.map_id]
    exact R.nodup_sock.of_map
  rw [h.rows]
  exact List.mem_modify_iff_of_map_nodup hrows hr

lemma Reply.Erases.mem_rows (h : q.Erases R i) (hr : R.rows[i]? = some r) {r' : Row} :
    r' ∈ q.room.rows ↔ r' ∈ R.rows ∧ r' ≠ r := by
  rw [h.rows, List.mem_eraseIdx_iff_of_nodup R.nodup_sock.of_map hr]

/-- What a request of row `i`, which is `r`, can do to the room. -/
inductive Room.Outcome (R : Room) (L : Library) (i : ℕ) (r : Row) : Request → Reply → Prop where
  /-- Only the row's clock may have been restarted. -/
  | quiet {req : Request} {q : Reply} {f : Profile → Profile} (h : q.Changes R i f)
      (hf : ∀ p, (f p).clientid = p.clientid ∧ (f p).status = p.status)
      (hkeys : q.room.keys = R.keys) (huserdata : q.room.userdata = R.userdata) :
      Outcome R L i r req q
  | renamed {a : Bytes} {q : Reply} {f : Profile → Profile} (h : q.Changes R i f)
      (ha : R.Admits a) (hf : ∀ p, (f p).clientid = a ∧ (f p).status = p.status)
      (hkeys : q.room.keys = R.keys) (huserdata : q.room.userdata = R.userdata) :
      Outcome R L i r (.rename a) q
  | loggedIn {u : Bytes} {q : Reply} {f : Profile → Profile} (h : q.Changes R i f)
      (ha : R.Admits u) (hf : ∀ p, (f p).clientid = u ∧ (f p).status = .keyReceived)
      (hkeys : q.room.keys = R.keys) (huserdata : q.room.userdata = R.userdata) :
      Outcome R L i r (.login u) q
  | registered {u p : Bytes} {q : Reply} {f : Profile → Profile} (h : q.Changes R i f)
      (ha : R.Admits u) (hf : ∀ p, (f p).clientid = u ∧ (f p).status = .keyReceived)
      (hkeys : q.room.keys = R.keys)
      (huserdata : q.room.userdata = registeredText L R.userdata u p) :
      Outcome R L i r (.register u p) q
  | keyed {n : ℤ} {ciphertext : Bytes → Bytes} {q : Reply} {f : Profile → Profile}
      (h : q.Changes R i f) (hf : ∀ p, (f p).clientid = p.clientid ∧ (f p).status = .done)
      (hkeys : q.room.keys = (R.insertKey r.sock n).keys)
      (huserdata : q.room.userdata = R.userdata)
      (hct : (((R.insertKey r.sock n).keys r.sock).bind fun n => L.rsaEncrypt n serverKey) =
        some ciphertext) : Outcome R L i r (.key n) q
  | refusedKey {n : ℤ} {q : Reply} (h : q.Erases R i)
      (hct : (((R.insertKey r.sock n).keys r.sock).bind fun n => L.rsaEncrypt n serverKey) = none)
      (hkeys : q.room.keys = ((R.insertKey r.sock n).disconnect i r).keys) :
      Outcome R L i r (.key n) q
  | dropped {req : Request} {q : Reply} (h : q.Erases R i) (hreq : ∀ n, req ≠ .key n)
      (hkeys : q.room.keys = (R.disconnect i r).keys) : Outcome R L i r req q

lemma Reply.erases_drop (acts : List Act) (reason : DisconnectReason) (useAfterFree : Bool) :
    Reply.Erases { Reply.drop R w i r reason acts with useAfterFree := useAfterFree } R i :=
  ⟨rfl, rfl, rfl, rfl⟩

lemma Room.outcome_keep (acts : List Act) : R.Outcome L i r req (.keep R acts) := by
  refine .quiet (f := id) ⟨rfl, ?_, rfl⟩ (fun _ => ⟨rfl, rfl⟩) rfl rfl
  have : Row.update id = id := rfl
  rw [this, List.modify_id]
  rfl

lemma Room.relayed_outcome {text : Bytes} (h : R.relayed w i r text = .ok q) :
    R.Outcome L i r req q := by
  rw [Room.relayed] at h
  cases hcpy : strcpy 256 text with
  | none => rw [hcpy] at h; cases h
  | some data =>
    rw [hcpy] at h
    cases h
    exact .quiet ⟨rfl, rfl, rfl⟩ (fun _ => ⟨rfl, rfl⟩) rfl rfl

lemma Room.respond_outcome (h : R.respond L w i r req = .ok q) : R.Outcome L i r req q := by
  have hdrop : ∀ {acts reason useAfterFree}, (∀ n, req ≠ .key n) →
      R.Outcome L i r req { Reply.drop R w i r reason acts with useAfterFree := useAfterFree } :=
    fun {acts reason _} hreq => .dropped (Reply.erases_drop acts reason _) hreq rfl
  cases req with
  | leave | spam | garbledLogin | wrongPassword | illegal =>
    cases h
    exact hdrop (by simp)
  | idle | unreadable =>
    cases h
    exact Room.outcome_keep _
  | login u =>
    rw [Room.respond] at h
    split_ifs at h with ha
    · cases h
      exact .loggedIn (f := fun p => { p with clientid := u, status := .keyReceived })
        ⟨rfl, List.modify_modify_eq _ _ _ _, rfl⟩ ha (fun _ => ⟨rfl, rfl⟩) rfl rfl
    · cases h
      exact hdrop (by simp)
  | register u p =>
    rw [Room.respond] at h
    split_ifs at h with ha
    · cases h
      exact .registered (f := fun p => { p with clientid := u, status := .keyReceived })
        ⟨rfl, List.modify_modify_eq _ _ _ _, rfl⟩ ha (fun _ => ⟨rfl, rfl⟩) rfl rfl
    · cases h
      exact hdrop (by simp)
  | key n =>
    rw [Room.respond] at h
    cases hct : ((R.insertKey r.sock n).keys r.sock).bind fun n => L.rsaEncrypt n serverKey with
    | none =>
      rw [hct] at h
      cases h
      exact .refusedKey ⟨rfl, rfl, rfl, rfl⟩ hct rfl
    | some ciphertext =>
      rw [hct] at h
      cases h
      exact .keyed ⟨rfl, rfl, rfl⟩ (fun _ => ⟨rfl, rfl⟩) rfl rfl hct
  | chat text =>
    rw [Room.respond] at h
    split_ifs at h
    · cases h
      exact hdrop (by simp)
    · cases h
      exact hdrop (by simp)
    · exact Room.relayed_outcome h
  | rename a =>
    rw [Room.respond] at h
    split_ifs at h with ha
    · cases h
      exact .renamed ⟨rfl, rfl, rfl⟩ ha (fun _ => ⟨rfl, rfl⟩) rfl rfl
    · cases h
      exact hdrop (by simp)
  | console =>
    rw [Room.respond] at h
    exact Room.relayed_outcome h
  | command text =>
    rw [Room.respond] at h
    cases hacts : R.commandActs r text with
    | error e => rw [hacts] at h; cases h
    | ok acts =>
      rw [hacts] at h
      cases h
      exact Room.outcome_keep _

/-! ### Polls -/

/-- Polling a client first restarts its clock or changes nothing. -/
lemma Room.polled_rows (R : Room) (w : World) (i : ℕ) (r : Row) :
    ∃ f : Profile → Profile, (∀ p, (f p).clientid = p.clientid ∧ (f p).status = p.status) ∧
      (R.polled w i r).rows = R.rows.modify i (Row.update f) ∧ r.polled w = r.update f := by
  rw [Room.polled, Row.polled]
  split_ifs
  · exact ⟨fun p => { p with interval := w.now }, fun _ => ⟨rfl, rfl⟩, rfl, rfl⟩
  · have hid : Row.update id = id := rfl
    exact ⟨id, fun _ => ⟨rfl, rfl⟩, by rw [hid, List.modify_id], rfl⟩

lemma Room.getElem?_polled (hr : R.rows[i]? = some r) :
    (R.polled w i r).rows[i]? = some (r.polled w) := by
  obtain ⟨f, -, hrows, hrow⟩ := R.polled_rows w i r
  rw [hrows, hrow, List.getElem?_modify_eq, hr]
  rfl

lemma Room.polled_keys : (R.polled w i r).keys = R.keys := by
  rw [Room.polled]
  split_ifs <;> rfl

lemma Room.polled_userdata : (R.polled w i r).userdata = R.userdata := by
  rw [Room.polled]
  split_ifs <;> rfl

lemma Room.polled_accepted : (R.polled w i r).accepted = R.accepted := by
  rw [Room.polled]
  split_ifs <;> rfl

lemma Row.polled_sock : (r.polled w).sock = r.sock := by
  rw [Row.polled]
  split_ifs <;> rfl

lemma Row.polled_conn : (r.polled w).conn = r.conn := by
  rw [Row.polled]
  split_ifs <;> rfl

lemma Row.polled_status : (r.polled w).status = r.status := by
  rw [Row.polled]
  split_ifs <;> rfl

lemma Row.polled_clientid : (r.polled w).clientid = r.clientid := by
  rw [Row.polled]
  split_ifs <;> rfl

lemma Room.map_clientid_modify {f : Profile → Profile} (hf : ∀ p, (f p).clientid = p.clientid) :
    (R.rows.modify i (Row.update f)).map (·.clientid) = R.rows.map (·.clientid) :=
  List.map_modify_of_eq fun r => hf r.toProfile

lemma Room.polled_admits (a : Bytes) :
    (R.polled w i r).Admits a ↔ R.Admits a := by
  obtain ⟨f, hf, hrows, -⟩ := R.polled_rows w i r
  rw [Room.Admits, Room.Admits, hrows, Room.map_clientid_modify fun p => (hf p).1]

lemma Reply.Changes.of_polled {f : Profile → Profile}
    (h : q.Changes (R.polled w i r) i f) : ∃ g : Profile → Profile,
      (∀ p, (g p).clientid = p.clientid ∧ (g p).status = p.status) ∧ q.Changes R i (f ∘ g) := by
  obtain ⟨g, hg, hrows, -⟩ := R.polled_rows w i r
  refine ⟨g, hg, h.gone, ?_, h.accepted.trans Room.polled_accepted⟩
  rw [h.rows, hrows, List.modify_modify_eq]
  rfl

lemma Reply.Erases.of_polled (h : q.Erases (R.polled w i r) i) : q.Erases R i := by
  obtain ⟨g, -, hrows, -⟩ := R.polled_rows w i r
  refine ⟨h.gone, ?_, h.accepted.trans Room.polled_accepted,
    h.userdata.trans Room.polled_userdata⟩
  rw [h.rows, hrows, List.eraseIdx_modify_of_eq]

/-- The clock of a client that is not `Done` is not restarted. -/
lemma Room.polled_of_ne_done (hdone : r.status ≠ .done) : R.polled w i r = R := by
  rw [Room.polled, if_neg fun h => hdone h.2.2]

lemma Row.polled_of_ne_done (hdone : r.status ≠ .done) : r.polled w = r := by
  rw [Row.polled, if_neg fun h => hdone h.2.2]

lemma Room.serve_of_ne_done (hdone : r.status ≠ .done) (hreq : R.request L w r = .ok req) :
    R.serve L w i r = R.respond L w i r req := by
  rw [Room.serve, hreq, ok_bind, Room.polled_of_ne_done hdone, Row.polled_of_ne_done hdone]

/-- What a poll of row `i`, which is `r`, can do to the room. -/
theorem Room.serve_outcome (h : R.serve L w i r = .ok q) :
    ∃ req, R.request L w r = .ok req ∧ R.Outcome L i r req q := by
  rw [Room.serve] at h
  cases hreq : R.request L w r with
  | error e => rw [hreq] at h; cases h
  | ok req =>
    rw [hreq, ok_bind] at h
    refine ⟨req, rfl, ?_⟩
    cases Room.respond_outcome h with
    | quiet h hf hkeys huserdata =>
      obtain ⟨g, hg, h⟩ := h.of_polled
      exact .quiet h (fun p => ⟨(hf _).1.trans (hg p).1, (hf _).2.trans (hg p).2⟩)
        (hkeys.trans Room.polled_keys) (huserdata.trans Room.polled_userdata)
    | renamed h ha hf hkeys huserdata =>
      obtain ⟨g, hg, h⟩ := h.of_polled
      exact .renamed h ((Room.polled_admits _).mp ha)
        (fun p => ⟨(hf _).1, (hf _).2.trans (hg p).2⟩)
        (hkeys.trans Room.polled_keys) (huserdata.trans Room.polled_userdata)
    | loggedIn h ha hf hkeys huserdata =>
      obtain ⟨g, hg, h⟩ := h.of_polled
      exact .loggedIn h ((Room.polled_admits _).mp ha) (fun p => hf _)
        (hkeys.trans Room.polled_keys) (huserdata.trans Room.polled_userdata)
    | registered h ha hf hkeys huserdata =>
      obtain ⟨g, hg, h⟩ := h.of_polled
      refine .registered h ((Room.polled_admits _).mp ha) (fun p => hf _)
        (hkeys.trans Room.polled_keys) ?_
      rw [huserdata, Room.polled_userdata]
    | keyed h hf hkeys huserdata hct =>
      obtain ⟨g, hg, h⟩ := h.of_polled
      rw [Room.insertKey, Room.polled_keys, Row.polled_sock] at hct
      refine .keyed h (fun p => ⟨(hf _).1.trans (hg p).1, (hf _).2⟩) ?_
        (huserdata.trans Room.polled_userdata) hct
      rw [hkeys, Room.insertKey, Room.insertKey, Room.polled_keys, Row.polled_sock]
    | refusedKey h hct hkeys =>
      rw [Room.insertKey, Room.polled_keys, Row.polled_sock] at hct
      refine .refusedKey h.of_polled hct ?_
      rw [hkeys, Room.disconnect, Room.disconnect, Room.insertKey, Room.insertKey,
        Room.polled_keys, Row.polled_sock, Row.polled_status]
    | dropped h hreq hkeys =>
      refine .dropped h.of_polled hreq ?_
      rw [hkeys, Room.disconnect, Room.disconnect, Room.polled_keys, Row.polled_sock,
        Row.polled_status]

/-- Row `i` is erased or changed, and the other rows stay. -/
lemma Room.Outcome.changes_or_erases (h : R.Outcome L i r req q) :
    (∃ f, q.Changes R i f) ∨ q.Erases R i := by
  cases h with
  | quiet h | renamed h | loggedIn h | registered h | keyed h => exact .inl ⟨_, h⟩
  | refusedKey h | dropped h => exact .inr h

end OpenSimp
