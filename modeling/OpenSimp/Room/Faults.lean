import OpenSimp.Room.Names

/-!
# Polls that fail

Which requests the server has room to answer, which answer uses a deleted socket, and the state in
which an event fails: before it has sent anything or touched a socket it should not.
-/

namespace OpenSimp

open Bytes FaultState System ServerNetwork

variable {R : Room} {L : Library} {w : World} {i : ℕ} {r : Row} {req : Request} {q : Reply}

/-! ### Answering a request -/

/-- The server has the room it needs for the request of the client `clientid`. -/
def Request.HasRoom (clientid : Bytes) : Request → Prop
  | .chat text => isBlank (cstr text) = true ∨ (cstr (chatPacket text clientid)).length < 256
  | .command text => text.count space < Executor.slots
  | _ => True

lemma Room.relayed_isOk (text : Bytes) :
    (∃ q, R.relayed w i r text = .ok q) ↔ (cstr text).length < 256 := by
  rw [Room.relayed, strcpy]
  split_ifs with h
  · exact iff_of_true ⟨_, rfl⟩ h
  · refine iff_of_false ?_ h
    rintro ⟨q, hq⟩
    cases hq

lemma Room.commandActs_isOk (text : Bytes) :
    (∃ acts, R.commandActs r text = .ok acts) ↔ text.count space < Executor.slots := by
  rw [Room.commandActs, Executor.lex_slots, Executor.slots]
  by_cases h : text.count space ≤ 511
  · refine iff_of_true ?_ (by omega)
    rw [if_pos h, ok_bind]
    split_ifs <;> exact ⟨_, rfl⟩
  · refine iff_of_false ?_ (by omega)
    rw [if_neg h, error_bind]
    rintro ⟨acts, hacts⟩
    cases hacts

/-- Answering fails only for want of room. -/
lemma Room.respond_isOk (hid : ∀ text, req = .chat text → r.clientid ≠ sentinel) :
    (∃ q, R.respond L w i r req = .ok q) ↔ req.HasRoom r.clientid := by
  cases req with
  | leave | idle | spam | garbledLogin | wrongPassword | unreadable | illegal =>
    exact iff_of_true ⟨_, rfl⟩ trivial
  | login u | register u p | rename u =>
    refine iff_of_true ?_ trivial
    rw [Room.respond]
    split_ifs <;> exact ⟨_, rfl⟩
  | key n =>
    refine iff_of_true ?_ trivial
    rw [Room.respond]
    cases ((R.insertKey r.sock n).keys r.sock).bind fun n => L.rsaEncrypt n serverKey with
    | none => exact ⟨_, rfl⟩
    | some ciphertext => exact ⟨_, rfl⟩
  | chat text =>
    rw [Room.respond, Request.HasRoom]
    by_cases hblank : isBlank (cstr text) = true
    · rw [if_pos hblank]
      exact iff_of_true ⟨_, rfl⟩ (.inl hblank)
    · rw [if_neg hblank, if_neg (hid text rfl), Room.relayed_isOk, chatPacket]
      exact ⟨.inr, fun h => h.resolve_left hblank⟩
  | console =>
    rw [Room.respond, Room.relayed_isOk]
    exact iff_of_true (by decide) trivial
  | command text =>
    rw [Room.respond, Request.HasRoom, ← Room.commandActs_isOk (R := R) (r := r)]
    cases R.commandActs r text with
    | error e =>
      apply iff_of_false
      · rintro ⟨q, hq⟩
        cases hq
      · rintro ⟨acts, hacts⟩
        cases hacts
    | ok acts => exact iff_of_true ⟨_, rfl⟩ ⟨_, rfl⟩

/-- Only the answer to a wrong password uses a deleted socket. -/
lemma Room.respond_useAfterFree (h : R.respond L w i r req = .ok q) :
    q.useAfterFree = true ↔ req = .wrongPassword := by
  have hrelayed : ∀ {text q}, R.relayed w i r text = .ok q → q.useAfterFree = false := by
    intro text q hq
    rw [Room.relayed, strcpy] at hq
    split_ifs at hq
    cases hq
    rfl
  cases req with
  | leave | idle | spam | garbledLogin | wrongPassword | unreadable | illegal =>
    cases h
    simp [Reply.drop, Reply.keep]
  | login u | register u p | rename u =>
    rw [Room.respond] at h
    split_ifs at h <;> cases h <;> simp [Reply.drop, Reply.keep]
  | key n =>
    rw [Room.respond] at h
    cases hct : ((R.insertKey r.sock n).keys r.sock).bind fun n => L.rsaEncrypt n serverKey with
    | none | some ciphertext =>
      rw [hct] at h
      cases h
      simp [Reply.drop, Reply.keep]
  | chat text =>
    rw [Room.respond] at h
    split_ifs at h
    · cases h
      simp [Reply.drop]
    · cases h
      simp [Reply.drop]
    · simp [hrelayed h]
  | console =>
    rw [Room.respond] at h
    simp [hrelayed h]
  | command text =>
    rw [Room.respond] at h
    cases hacts : R.commandActs r text with
    | error e => rw [hacts] at h; cases h
    | ok acts =>
      rw [hacts] at h
      cases h
      simp [Reply.keep]

lemma Room.relayed_error {text : Bytes} {e : Fault} (h : R.relayed w i r text = .error e) :
    e = .overrun := by
  rw [Room.relayed, strcpy] at h
  split_ifs at h
  cases h
  rfl

lemma Room.commandActs_error {text : Bytes} {e : Fault} (h : R.commandActs r text = .error e) :
    e = .outOfBounds := by
  rw [Room.commandActs, Executor.lex_slots] at h
  split_ifs at h with hfits
  · rw [ok_bind] at h
    split_ifs at h <;> cases h
  · cases h
    rfl

/-- Answering fails for want of room in the buffer of a chat packet or in the slots of a command. -/
lemma Room.respond_error {e : Fault} (h : R.respond L w i r req = .error e) :
    (e = .overrun ∧ ∃ text, req = .chat text) ∨
      (e = .outOfBounds ∧ ∃ text, req = .command text) := by
  have hreq : (∃ text, req = .chat text) ∨ (∃ text, req = .command text) ∨
      (∀ text, req ≠ .chat text) ∧ req.HasRoom r.clientid := by
    cases req with
    | chat text => exact .inl ⟨text, rfl⟩
    | command text => exact .inr (.inl ⟨text, rfl⟩)
    | _ => exact .inr (.inr ⟨by simp, trivial⟩)
  rcases hreq with ⟨text, rfl⟩ | ⟨text, rfl⟩ | ⟨hchat, hroom⟩
  · rw [Room.respond] at h
    split_ifs at h
    exact .inl ⟨Room.relayed_error h, text, rfl⟩
  · rw [Room.respond] at h
    rcases bind_eq_error h with hacts | ⟨acts, -, h⟩
    · exact .inr ⟨Room.commandActs_error hacts, text, rfl⟩
    · cases h
  · obtain ⟨q, hq⟩ := (Room.respond_isOk (R := R) (L := L) (w := w) (i := i)
      fun text h => absurd h (hchat text)).mpr hroom
    cases h.symm.trans hq

/-! ### Reading a request -/

lemma Node.subscript_error {node : Node} {key : Bytes} {e : Fault}
    (h : node.subscript key = .error e) : e = .exception := by
  cases node <;> cases h
  rfl

lemma Node.asString_error {node : Node} {e : Fault} (h : node.asString = .error e) :
    e = .exception := by
  cases node <;> cases h <;> rfl

lemma requestOfLogin_error {text data : Bytes} {e : Fault}
    (h : requestOfLogin L text data = .error e) : e = .exception := by
  rw [requestOfLogin] at h
  cases hdec : L.rsaDecrypt data with
  | none => rw [hdec] at h; cases h
  | some decstr =>
    rw [hdec] at h
    dsimp only at h
    split_ifs at h
    rw [requestOfCredentials] at h
    cases hload : L.yamlLoad text with
    | none =>
      rw [hload] at h
      cases h
      rfl
    | some config =>
      rw [hload] at h
      rcases bind_eq_error h with h | ⟨user, -, h⟩
      · exact Node.subscript_error h
      split_ifs at h
      · rcases bind_eq_error h with h | ⟨password, -, h⟩
        · exact Node.subscript_error h
        split_ifs at h
        · rcases bind_eq_error h with h | ⟨stored, -, h⟩
          · exact Node.asString_error h
          split_ifs at h <;> cases h
        · cases h
      · cases h

/-- Reading a key fails at the end of the buffer, or throws. -/
lemma requestOfKey_error {data : Bytes} {e : Fault} (h : requestOfKey L data = .error e) :
    (e = .overrun ∧ ofBuffer maxRawData data = none) ∨ e = .exception := by
  rw [requestOfKey] at h
  cases htext : ofBuffer maxRawData data with
  | none =>
    rw [htext] at h
    cases h
    exact .inl ⟨rfl, rfl⟩
  | some text =>
    rw [htext] at h
    cases hn : L.bigInt text with
    | none =>
      simp only [hn] at h
      cases h
      exact .inr rfl
    | some n =>
      simp only [hn] at h
      split_ifs at h
      cases h
      exact .inr rfl

/-- Reading a packet fails where it has no room for a nonce. -/
lemma requestOfPacket_error {data : Bytes} {e : Fault} (h : requestOfPacket L data = .error e) :
    e = .outOfBounds ∧ data.length < Cryptography.nonceLength := by
  rw [requestOfPacket, Cryptography.decrypt_eq] at h
  split_ifs at h with hlen
  · cases h
    exact ⟨rfl, hlen⟩
  · cases hdec : L.aesDecrypt ((L.hexDecode serverKey).getD [])
      (data.take Cryptography.nonceLength) (data.drop Cryptography.nonceLength) with
    | none => rw [hdec] at h; cases h
    | some d => rw [hdec] at h; cases h

/-! ### Polling -/

lemma Reply.result_eq_error {o : Except Fault Reply} {e : Fault} :
    Reply.result o = .error e ↔ o = .error e := by
  cases o with
  | error e' => simp [Reply.result, Except.map]
  | ok q => simp [Reply.result, Except.map]

lemma Room.serve_error {e : Fault} (h : R.serve L w i r = .error e) :
    R.request L w r = .error e ∨ ∃ req, R.request L w r = .ok req ∧
      (R.polled w i r).respond L w i (r.polled w) req = .error e :=
  bind_eq_error h

lemma Room.serve_isOk (hnamed : r.Named) :
    (∃ q, R.serve L w i r = .ok q) ↔
      ∃ req, R.request L w r = .ok req ∧ req.HasRoom r.clientid := by
  rw [Room.serve]
  cases hreq : R.request L w r with
  | error e =>
    apply iff_of_false
    · rintro ⟨q, hq⟩
      cases hq
    · rintro ⟨req, h, -⟩
      cases h
  | ok req =>
    have hfits := Room.request_fits hreq
    have hid : ∀ text, req = .chat text → (r.polled w).clientid ≠ sentinel := by
      rintro text rfl hs
      rw [Row.polled_clientid] at hs
      exact hfits.1 (hnamed.undone_iff.mpr hs)
    rw [ok_bind, Room.respond_isOk hid, Row.polled_clientid]
    simp

lemma Room.serve_useAfterFree (h : R.serve L w i r = .ok q) :
    q.useAfterFree = true ↔ R.request L w r = .ok .wrongPassword := by
  rw [Room.serve] at h
  cases hreq : R.request L w r with
  | error e => rw [hreq] at h; cases h
  | ok req =>
    rw [hreq, ok_bind] at h
    rw [Room.respond_useAfterFree h, Except.ok.injEq]

/-! ### The state at a fault -/

/-- Nothing was sent and no deleted socket was used. -/
def Machine.Untouched (m : Machine) : Prop := m.useAfterFree = false ∧ m.acts = []

lemma Room.untouched_during (R : Room) : (R.during []).Untouched := ⟨rfl, rfl⟩

/-- What the room answers, returns. -/
lemma faultsIn_of_result {P : Machine → Prop} {x : M Unit} {m : Machine} {o : Except Fault Reply}
    (h : x.run m = Reply.result o) (hok : ∃ q, o = .ok q) : x.FaultsIn P m := by
  obtain ⟨q, rfl⟩ := hok
  exact faultsIn_of_run h

lemma authenticate_faultsIn (hr : R.rows[i]? = some r) (L : Library) (w : World) (u p : Bytes) :
    (authenticate L w u p r.sock i >>= proceed w r.sock i).FaultsIn Machine.Untouched
      (R.during []) := by
  have hrefuse := faultsIn_of_result (P := Machine.Untouched)
    (refusePassword_proceed_run hr L w) ⟨_, rfl⟩
  have hlogin : ∃ q, R.respond L w i r (.login u) = .ok q :=
    (Room.respond_isOk (by simp)).mpr trivial
  have hregister : ∃ q, R.respond L w i r (.register u p) = .ok q :=
    (Room.respond_isOk (by simp)).mpr trivial
  rw [authenticate, loadUserdata, bind_assoc, bind_assoc]
  refine faultsIn_bind (readUserdata_run R []) (faultsIn_ofOption R.untouched_during ?_)
  intro config _
  rw [bind_assoc]
  refine faultsIn_ofExcept R.untouched_during fun user _ => ?_
  by_cases hdef : user.isDefined = true
  · rw [if_pos hdef, bind_assoc]
    refine faultsIn_ofExcept R.untouched_during fun password _ => ?_
    by_cases hpdef : password.isDefined = true
    · rw [if_pos hpdef, bind_assoc]
      refine faultsIn_ofExcept R.untouched_during fun stored _ => ?_
      by_cases hp : stored = p
      · rw [if_pos hp]
        exact faultsIn_of_result (nick_proceed_run hr L w u) hlogin
      · rw [if_neg hp]
        exact hrefuse
    · rw [if_neg hpdef]
      exact hrefuse
  · rw [if_neg hdef]
    exact faultsIn_of_result (register_proceed_run hr L w u p) hregister

lemma receiveCredentials_faultsIn (hr : R.rows[i]? = some r) (L : Library) (w : World) :
    (receiveCredentials L w r.sock i).FaultsIn Machine.Untouched (R.during []) := by
  rw [receiveCredentials]
  cases L.rsaDecrypt w.data with
  | none => exact faultsIn_of_run (disconnectClient_run hr w _ [])
  | some decstr =>
    dsimp only
    split_ifs
    · exact faultsIn_of_run (disconnectClient_run hr w _ [])
    · exact authenticate_faultsIn hr L w _ _

lemma pushNewClientKey_faultsIn (L : Library) (R : Room) (p : Sock) (n : ℤ) :
    (pushNewClientKey L p n).FaultsIn Machine.Untouched (R.during []) := by
  intro e m hexec
  simp only [pushNewClientKey, Prog.exec] at hexec
  split_ifs at hexec
  cases hexec
  exact R.untouched_during

lemma receiveKey_faultsIn (hr : R.rows[i]? = some r) (L : Library) (w : World) :
    (receiveKey L w r.sock i).FaultsIn Machine.Untouched (R.during []) := by
  by_cases hok : ∃ q, (requestOfKey L w.data >>= R.respond L w i r) = .ok q
  · exact faultsIn_of_result (receiveKey_run hr L w) hok
  rw [receiveKey]
  refine faultsIn_ofOption R.untouched_during fun text htext => ?_
  refine faultsIn_ofOption R.untouched_during fun n hn => ?_
  -- all that is left to fail is the key's constructor
  have hkey : ¬ L.rsaPublicKey n = true := by
    intro hkey
    have hreq : requestOfKey L w.data = .ok (.key n) := by
      rw [requestOfKey, htext]
      simp only [hn, hkey, if_true]
    rw [hreq, ok_bind] at hok
    exact hok ((Room.respond_isOk (by simp)).mpr trivial)
  have hpush := pushNewClientKey_run L R r.sock n []
  rw [if_neg hkey] at hpush
  exact faultsIn_bind_error hpush (pushNewClientKey_faultsIn L R r.sock n)

lemma relay_faultsIn (hr : R.rows[i]? = some r) (w : World) (text : Bytes) :
    (relay w text r.sock i).FaultsIn Machine.Untouched (R.during []) := by
  by_cases hok : ∃ q, R.relayed w i r text = .ok q
  · exact faultsIn_of_result (relay_run hr w text) hok
  rw [relay]
  refine faultsIn_ofOption R.untouched_during fun data hdata => ?_
  rw [Room.relayed, hdata] at hok
  exact absurd ⟨_, rfl⟩ hok

lemma handleSend_faultsIn (hr : R.rows[i]? = some r) (L : Library) (w : World) (d : Bytes) :
    (do
      let sendingString ← handleSend w d r.sock i
      match sendingString with
      | some s => relay w s r.sock i
      | none => pure () : M Unit).FaultsIn Machine.Untouched (R.during []) := by
  by_cases hok : ∃ q, R.respond L w i r (.chat (d.drop 1)) = .ok q
  · exact faultsIn_of_result (handleSend_relay_run hr L w d) hok
  rw [Room.respond] at hok
  split_ifs at hok with hblank hs
  · exact absurd ⟨_, rfl⟩ hok
  · exact absurd ⟨_, rfl⟩ hok
  · rw [handleSend, if_neg hblank, bind_assoc]
    refine faultsIn_bind (clientidArray_run hr []) ?_
    rw [if_pos hs, bind_assoc]
    refine faultsIn_bind (clientidArray_run hr []) ?_
    rw [pure_bind]
    exact relay_faultsIn hr w _

lemma handleCommand_faultsIn (hr : R.rows[i]? = some r) (L : Library) (w : World) (d : Bytes) :
    (handleCommand w d r.sock i).FaultsIn Machine.Untouched (R.during []) := by
  by_cases hok : ∃ q, R.respond L w i r (.command (d.drop 1)) = .ok q
  · exact faultsIn_of_result (handleCommand_run hr L w d) hok
  rw [handleCommand]
  refine faultsIn_bind (clientidArray_run hr []) ?_
  rw [Executor.iterate]
  refine faultsIn_ofExcept R.untouched_during fun command hcommand => ?_
  have hfits : (Request.command (d.drop 1)).HasRoom r.clientid := by
    rw [Request.HasRoom, ← Room.commandActs_isOk (R := R) (r := r), Room.commandActs, hcommand,
      ok_bind]
    split_ifs <;> exact ⟨_, rfl⟩
  exact absurd ((Room.respond_isOk (by simp)).mpr hfits) hok

lemma dispatch_faultsIn (hr : R.rows[i]? = some r) (L : Library) (w : World) {d : Bytes}
    (hcheck : check d = true) (hlen : ¬ d.length ≥ 4096) :
    (dispatch w d r.sock i).FaultsIn Machine.Untouched (R.during []) := by
  have hrun := dispatch_run hr L w hcheck hlen
  rw [dispatch] at hrun ⊢
  rw [requestOfPlaintext, if_neg (not_not.mpr hcheck), if_neg hlen] at hrun
  split_ifs at hrun ⊢
  · exact handleSend_faultsIn hr L w d
  · exact faultsIn_of_result hrun ((Room.respond_isOk (by simp)).mpr trivial)
  · exact relay_faultsIn hr w []
  · exact handleCommand_faultsIn hr L w d
  · exact faultsIn_of_result hrun ⟨_, rfl⟩

lemma receivePacket_faultsIn (hr : R.rows[i]? = some r) (L : Library) (w : World) :
    (receivePacket L w r.sock i).FaultsIn Machine.Untouched (R.during []) := by
  have hrun := receivePacket_run hr L w
  have hthrow : ∀ fault, (throw fault : M Unit).FaultsIn Machine.Untouched (R.during []) := by
    rintro fault e m ⟨⟩
    exact R.untouched_during
  rw [receivePacket] at hrun ⊢
  rw [requestOfPacket] at hrun
  rcases hdec : Cryptography.decrypt L w.data serverKey with fault | ⟨iv, d⟩
  · rw [hdec] at hrun
    cases fault with
    | exception => exact faultsIn_of_result hrun ⟨_, rfl⟩
    | outOfBounds | overrun | assertion => exact hthrow _
  · rw [hdec] at hrun
    dsimp only at hrun ⊢
    by_cases hcheck : check d = true
    · by_cases hlen : d.length ≥ 4096
      · rw [ok_bind, requestOfPlaintext] at hrun
        simp only [if_neg (not_not.mpr hcheck), if_pos hlen] at hrun ⊢
        exact faultsIn_of_result hrun ⟨_, rfl⟩
      · rw [if_neg (not_not.mpr hcheck), if_neg hlen]
        exact dispatch_faultsIn hr L w hcheck hlen
    · rw [ok_bind, requestOfPlaintext] at hrun
      simp only [if_pos hcheck] at hrun ⊢
      exact faultsIn_of_result hrun ⟨_, rfl⟩

lemma receiveData_faultsIn (hr : R.rows[i]? = some r) (L : Library) (w : World) :
    (receiveData L w r.sock i).FaultsIn Machine.Untouched (R.during []) := by
  rw [receiveData]
  refine faultsIn_bind (clientAuthenticatedArray_run hr []) ?_
  split_ifs
  · exact receiveCredentials_faultsIn hr L w
  · refine faultsIn_bind (clientAuthenticatedArray_run hr []) ?_
    split_ifs
    · exact receiveKey_faultsIn hr L w
    · exact receivePacket_faultsIn hr L w

lemma receive_faultsIn (hr : R.rows[i]? = some r) (L : Library) (w : World) :
    (receive L w r.sock i).FaultsIn Machine.Untouched (R.during []) := by
  rw [receive]
  refine faultsIn_bind (deref_run (R.live_during hr [])) ?_
  split_ifs
  · exact faultsIn_of_run (disconnectClient_run hr w _ [])
  · refine faultsIn_bind (clientAuthenticatedArray_run hr []) ?_
    split_ifs
    · have hr' := R.getElem?_restarted hr w.now
      refine faultsIn_bind (restart_run hr w.now []) ?_
      split_ifs
      · exact faultsIn_of_run (disconnectClient_run hr' w _ [])
      · exact receiveData_faultsIn hr' L w
    · exact receiveData_faultsIn hr L w
  · exact faultsIn_of_run (run_pure _ _)

/-- Polling row `i` ends as the room answers, or fails before it has done anything. -/
theorem Room.code_receive_final (hr : R.rows[i]? = some r) (L : Library) (w : World) :
    (∃ q, R.serve L w i r = .ok q ∧
        (Event.code L (.receive i w)).final R.config.machine = q.machine) ∨
      (∃ e, R.serve L w i r = .error e) ∧
        ((Event.code L (.receive i w)).final R.config.machine).Untouched := by
  have hrun := Room.code_receive_run hr L w
  cases hserve : R.serve L w i r with
  | ok q =>
    rw [hserve] at hrun
    exact .inl ⟨q, rfl, final_of_run hrun⟩
  | error e =>
    rw [hserve] at hrun
    refine .inr ⟨⟨e, rfl⟩, final_of_error hrun ?_⟩
    rw [Event.code, Room.config_machine]
    exact faultsIn_bind (clientArray_run hr []) (receive_faultsIn hr L w)

end OpenSimp
