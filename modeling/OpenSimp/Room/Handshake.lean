import OpenSimp.Room.Requests

/-!
# Logging in and exchanging keys, on a room

Run on the layout of a room, the parts of `receive` for `Undone` and `KeyReceived` clients do what
the room's answer to the request says, and fail exactly when reading the request does.
-/

namespace OpenSimp

open Bytes FaultState ServerNetwork

variable {R : Room} {i : ℕ} {r : Row}

/-! ### Changing a row -/

lemma Room.server_modify (hr : R.rows[i]? = some r) (f : Profile → Profile) :
    (R.modify i f).server = { R.server with
      clientidArray := R.server.clientidArray.set i (f r.toProfile).clientid
      clientOpArray := R.server.clientOpArray.set i (f r.toProfile).op
      clientAuthenticatedArray := R.server.clientAuthenticatedArray.set i (f r.toProfile).status
      clientMessageInterval := R.server.clientMessageInterval.set i (f r.toProfile).interval } := by
  simp only [Room.server, Room.modify, Row.map_sock_modify]
  rw [List.map_modify_eq_set hr, List.map_modify_eq_set hr, List.map_modify_eq_set hr,
    List.map_modify_eq_set hr]
  rfl

lemma Room.during_modify (f : Profile → Profile) (acts : List Act) :
    (R.modify i f).during acts = { R.during acts with server := (R.modify i f).server } := by
  simp only [Room.during, Room.live_modify, Room.owners_modify]
  rfl

lemma clientidArray_assign_run (hr : R.rows[i]? = some r) (a : Bytes) (acts : List Act) :
    (clientidArray.assign i a).run (R.during acts) = .ok ((), (R.rename i a).during acts) := by
  have hlt : i < (clientidArray.get (R.during acts).server).length := by
    simpa [clientidArray, Room.during, Room.server] using (List.getElem?_eq_some_iff.mp hr).1
  rw [Column.assign_run rfl hlt, Room.rename, Room.during_modify, Room.server_modify hr,
    List.set_of_getElem? (i := i) (a := r.op) (by simp [Room.server, hr]),
    List.set_of_getElem? (i := i) (a := r.status) (by simp [Room.server, hr]),
    List.set_of_getElem? (i := i) (a := r.interval) (by simp [Room.server, hr])]
  rfl

lemma clientAuthenticatedArray_assign_run (hr : R.rows[i]? = some r) (status : AuthStatus)
    (acts : List Act) :
    (clientAuthenticatedArray.assign i status).run (R.during acts) =
      .ok ((), (R.setStatus i status).during acts) := by
  have hlt : i < (clientAuthenticatedArray.get (R.during acts).server).length := by
    simpa [clientAuthenticatedArray, Room.during, Room.server] using
      (List.getElem?_eq_some_iff.mp hr).1
  rw [Column.assign_run rfl hlt, Room.setStatus, Room.during_modify, Room.server_modify hr,
    List.set_of_getElem? (i := i) (a := r.clientid) (by simp [Room.server, hr]),
    List.set_of_getElem? (i := i) (a := r.op) (by simp [Room.server, hr]),
    List.set_of_getElem? (i := i) (a := r.interval) (by simp [Room.server, hr])]
  rfl

lemma clientMessageInterval_assign_run (hr : R.rows[i]? = some r) (now : ℕ) (acts : List Act) :
    (clientMessageInterval.assign i now).run (R.during acts) =
      .ok ((), (R.restarted i now).during acts) := by
  have hlt : i < (clientMessageInterval.get (R.during acts).server).length := by
    simpa [clientMessageInterval, Room.during, Room.server] using
      (List.getElem?_eq_some_iff.mp hr).1
  rw [Column.assign_run rfl hlt, Room.restarted, Room.during_modify, Room.server_modify hr,
    List.set_of_getElem? (i := i) (a := r.clientid) (by simp [Room.server, hr]),
    List.set_of_getElem? (i := i) (a := r.op) (by simp [Room.server, hr]),
    List.set_of_getElem? (i := i) (a := r.status) (by simp [Room.server, hr])]
  rfl

lemma restart_run (hr : R.rows[i]? = some r) (now : ℕ) (acts : List Act) :
    (restart i now).run (R.during acts) =
      .ok (asMilliseconds (now - r.interval), (R.restarted i now).during acts) := by
  rw [restart, run_bind_ok (clientMessageInterval_run hr acts),
    run_bind_ok (clientMessageInterval_assign_run hr now acts), run_pure]

lemma Room.getElem?_rename (hr : R.rows[i]? = some r) (a : Bytes) :
    (R.rename i a).rows[i]? = some { r with clientid := a } := by
  simp [Room.rename, R.getElem?_modify_self hr, Row.update]

lemma Room.getElem?_restarted (hr : R.rows[i]? = some r) (now : ℕ) :
    (R.restarted i now).rows[i]? = some { r with interval := now } := by
  simp [Room.restarted, R.getElem?_modify_self hr, Row.update]

/-! ### Aliases -/

/-- `nick` renames row `i` or erases it. -/
lemma nick_run (hr : R.rows[i]? = some r) (w : World) (a : Bytes) (acts : List Act) :
    (nick w a r.sock i).run (R.during acts) =
      if R.Admits a then .ok (true, (R.rename i a).during (acts ++ R.joinActs w i r a))
      else .ok (false, (R.disconnect i r).after i false
        (acts ++ R.disconnectActs w i r .disconnectKick)) := by
  have hkick : (do disconnectClient w r.sock i .disconnectKick; pure false : M Bool).run
      (R.during acts) = .ok (false, (R.disconnect i r).after i false
        (acts ++ R.disconnectActs w i r .disconnectKick)) := by
    rw [run_bind_ok (disconnectClient_run hr w _ acts), run_pure]
  rw [nick, run_bind_ok (clientidArray_elements_run R acts)]
  by_cases hmem : a ∈ R.rows.map (·.clientid)
  · rw [if_pos hmem, if_neg fun h => h.1 hmem, hkick]
  rw [if_neg hmem]
  by_cases hshort : a.length < 3
  · rw [if_pos hshort, if_neg fun h => absurd h.2.1 (by omega), hkick]
  rw [if_neg hshort]
  by_cases hlong : a.length > 16
  · rw [if_pos hlong, if_neg fun h => absurd h.2.2.1 (by omega), hkick]
  rw [if_neg hlong]
  by_cases hchars : a.all isAliasChar = true
  · have ha : ValidAlias a := ⟨by omega, by omega, hchars⟩
    have hr' := R.getElem?_rename hr a
    have hlive : ∀ as, ((R.rename i a).during as).live r.sock = true := fun as =>
      (R.rename i a).live_during hr' as
    obtain ⟨b, hb⟩ := broadcast_run w
      (joinMessage a ((R.rename i a).rows.map (·.clientid))) (w.peer r.sock)
      ((R.rename i a).shows_during acts)
    rw [if_neg (not_not.mpr hchars), if_pos ⟨hmem, ha⟩, ha.strcpy,
      run_bind_ok (run_ofOption_some _ _ _), if_neg (by simp [ha.not_blank]),
      run_bind_ok (clientidArray_assign_run hr a acts),
      run_bind_ok (clientidArray_elements_run _ acts), run_bind_ok (remote_run (hlive acts)),
      run_bind_ok hb, Room.emit_during, run_bind_ok (deref_run (hlive _)), run_pure]
    rfl
  · rw [if_pos hchars, if_neg fun h => hchars h.2.2.2, hkick]

/-! ### Accounts -/

lemma registerUser_run (L : Library) (R : Room) (u p : Bytes) (acts : List Act) :
    (registerUser L u p).run (R.during acts) = .ok ((),
      (R.withUserdata (registeredText L R.userdata u p)).during (acts ++ [.registered u p])) := by
  rfl

/-- The rest of `receive` after `authenticate`. -/
def proceed (w : World) (client : Sock) (iterator : ℕ) (accepted : Bool) : M Unit :=
  if accepted then requestKey w client iterator else pure ()

lemma requestKey_run (hr : R.rows[i]? = some r) (w : World) (acts : List Act) :
    (requestKey w r.sock i).run (R.during acts) = .ok ((),
      (R.setStatus i .keyReceived).during (acts ++ [.sent r.sock (.clear (ascii "spb"))])) := by
  have hlive : ((R.setStatus i .keyReceived).during acts).live r.sock = true := by
    rw [Room.during, Room.setStatus, Room.live_modify]
    exact R.live_during hr acts
  rw [requestKey, run_bind_ok (clientAuthenticatedArray_assign_run hr _ acts),
    run_bind_ok (sendUnencrypted_run hlive), run_pure, Room.emit_during]

/-- A successful or refused `nick`, and what follows it. -/
lemma nick_proceed_run (hr : R.rows[i]? = some r) (L : Library) (w : World) (a : Bytes) :
    (nick w a r.sock i >>= proceed w r.sock i).run (R.during []) =
      Reply.result (R.respond L w i r (.login a)) := by
  rw [Room.respond]
  by_cases ha : R.Admits a
  · rw [run_bind_ok ((nick_run hr w a []).trans (if_pos ha)), if_pos ha]
    exact requestKey_run (R.getElem?_rename hr a) w _
  · rw [run_bind_ok ((nick_run hr w a []).trans (if_neg ha)), if_neg ha]
    rfl

lemma refusePassword_proceed_run (hr : R.rows[i]? = some r) (L : Library) (w : World) :
    (refusePassword w r.sock i >>= proceed w r.sock i).run (R.during []) =
      Reply.result (R.respond L w i r .wrongPassword) := by
  have hdead : (R.disconnect i r).live r.sock = false := by
    simp [Room.live_disconnect hr]
  have hderef : ∀ acts, (deref r.sock).run ((R.disconnect i r).after i false acts) =
      .ok ((), (R.disconnect i r).after i true acts) := by
    intro acts
    simp [deref, Prog.run, Prog.exec, Except.mapError, Room.after, hdead]
  rw [refusePassword, bind_assoc, run_bind_ok (disconnectClient_run hr w _ [])]
  simp only [bind_assoc, pure_bind]
  rw [run_bind_ok (hderef _)]
  rfl

lemma broadcastString_run (R : Room) (w : World) (str : Bytes) (exclude : Endpoint)
    (acts : List Act) :
    (broadcastString w str exclude).run (R.during acts) = .ok ((), R.during
      (acts ++ broadcastActs w R.rows (ascii "6" ++ [separator] ++ str) exclude)) := by
  obtain ⟨b, hb⟩ := broadcast_run w (ascii "6" ++ [separator] ++ str) exclude (R.shows_during acts)
  rw [broadcastString, run_bind_ok hb, run_pure, Room.emit_during]

lemma welcomeUser_run (hr : R.rows[i]? = some r) (L : Library) (w : World) (u p : Bytes)
    (acts : List Act) :
    (welcomeUser L w u p r.sock).run (R.during acts) = .ok (true,
      (R.withUserdata (registeredText L R.userdata u p)).during (acts ++ [.registered u p] ++
        broadcastActs w R.rows (ascii "6" ++ [separator] ++
          (ascii "Everybody welcome the new user " ++ u)) (w.peer r.sock))) := by
  have hlive := (R.withUserdata (registeredText L R.userdata u p)).live_during (i := i) (r := r) hr
    (acts ++ [.registered u p])
  rw [welcomeUser, run_bind_ok (registerUser_run L R u p acts), run_bind_ok (remote_run hlive),
    run_bind_ok (broadcastString_run _ w _ _ _), run_pure]
  rfl

/-- A user that is not in the file is named and then registered. -/
lemma register_proceed_run (hr : R.rows[i]? = some r) (L : Library) (w : World) (u p : Bytes) :
    ((do
      let named ← nick w u r.sock i
      if named then welcomeUser L w u p r.sock else pure false) >>=
        proceed w r.sock i).run (R.during []) =
      Reply.result (R.respond L w i r (.register u p)) := by
  rw [Room.respond, bind_assoc]
  by_cases ha : R.Admits u
  · have hr' := R.getElem?_rename hr u
    rw [run_bind_ok ((nick_run hr w u []).trans (if_pos ha)), if_pos ha, if_pos rfl,
      run_bind_ok (welcomeUser_run hr' L w u p _)]
    exact requestKey_run
      (R := (R.rename i u).withUserdata (registeredText L (R.rename i u).userdata u p)) hr' w _
  · rw [run_bind_ok ((nick_run hr w u []).trans (if_neg ha)), if_neg ha]
    rfl

lemma readUserdata_run (R : Room) (acts : List Act) :
    readUserdata.run (R.during acts) = .ok (R.userdata, R.during acts) := rfl

/-- The lookup in `userdata.yml` and what follows it. -/
lemma authenticate_proceed_run (hr : R.rows[i]? = some r) (L : Library) (w : World)
    (u p : Bytes) :
    (authenticate L w u p r.sock i >>= proceed w r.sock i).run (R.during []) =
      Reply.result (requestOfCredentials L R.userdata u p >>= R.respond L w i r) := by
  rw [authenticate, requestOfCredentials, loadUserdata, bind_assoc, bind_assoc,
    run_bind_ok (readUserdata_run R [])]
  cases hload : L.yamlLoad R.userdata with
  | none => rfl
  | some config =>
    rw [run_bind_ok (run_ofOption_some _ _ _)]
    dsimp only
    cases huser : config.subscript u with
    | error e => rfl
    | ok user =>
      rw [bind_assoc, run_bind_ok (run_ofExcept_ok _ _), ok_bind]
      by_cases hdef : user.isDefined = true
      · rw [if_pos hdef, if_pos hdef]
        cases hpass : user.subscript (ascii "password") with
        | error e => rfl
        | ok password =>
          rw [bind_assoc, run_bind_ok (run_ofExcept_ok _ _), ok_bind]
          by_cases hpdef : password.isDefined = true
          · rw [if_pos hpdef, if_pos hpdef]
            cases hstr : password.asString with
            | error e => rfl
            | ok stored =>
              rw [bind_assoc, run_bind_ok (run_ofExcept_ok _ _), ok_bind]
              by_cases hp : stored = p
              · rw [if_pos hp, if_pos hp]
                exact nick_proceed_run hr L w u
              · rw [if_neg hp, if_neg hp]
                exact refusePassword_proceed_run hr L w
          · rw [if_neg hpdef, if_neg hpdef]
            exact refusePassword_proceed_run hr L w
      · rw [if_neg hdef, if_neg hdef]
        exact register_proceed_run hr L w u p

/-- Credentials are answered as the room does. -/
lemma receiveCredentials_run (hr : R.rows[i]? = some r) (L : Library) (w : World) :
    (receiveCredentials L w r.sock i).run (R.during []) =
      Reply.result (requestOfLogin L R.userdata w.data >>= R.respond L w i r) := by
  rw [receiveCredentials, requestOfLogin]
  cases L.rsaDecrypt w.data with
  | none => exact disconnectClient_run hr w _ []
  | some decstr =>
    dsimp only
    split_ifs
    · exact disconnectClient_run hr w _ []
    · exact authenticate_proceed_run hr L w _ _

/-! ### Public keys -/

lemma pushNewClientKey_run (L : Library) (R : Room) (p : Sock) (n : ℤ) (acts : List Act) :
    (pushNewClientKey L p n).run (R.during acts) =
      if L.rsaPublicKey n then .ok ((), (R.insertKey p n).during acts) else .error .exception := by
  simp only [pushNewClientKey, Prog.run, Prog.exec]
  split_ifs <;> rfl

lemma rsaEncrypt_run (L : Library) (w : World) (R : Room) (p : Sock) (text : Bytes)
    (acts : List Act) :
    (rsaEncrypt L w p text).run (R.during acts) =
      .ok (((R.keys p).bind fun n => L.rsaEncrypt n text).map (· w.seed), R.during acts) := rfl

/-- A key message is answered as the room does. -/
lemma receiveKey_run (hr : R.rows[i]? = some r) (L : Library) (w : World) :
    (receiveKey L w r.sock i).run (R.during []) =
      Reply.result (requestOfKey L w.data >>= R.respond L w i r) := by
  rw [receiveKey, requestOfKey]
  cases ofBuffer maxRawData w.data with
  | none => rfl
  | some text =>
    rw [run_bind_ok (run_ofOption_some _ _ _)]
    dsimp only
    cases L.bigInt text with
    | none => rfl
    | some n =>
      rw [run_bind_ok (run_ofOption_some _ _ _)]
      have hpush := pushNewClientKey_run L R r.sock n []
      by_cases hn : L.rsaPublicKey n = true
      · rw [if_pos hn] at hpush
        dsimp only
        rw [run_bind_ok hpush, run_bind_ok (rsaEncrypt_run L w _ _ _ _), if_pos hn, ok_bind,
          Room.respond]
        cases ((R.insertKey r.sock n).keys r.sock).bind fun n => L.rsaEncrypt n serverKey with
        | none => exact disconnectClient_run (R := R.insertKey r.sock n) hr w _ []
        | some ciphertext =>
          have hlive := (R.insertKey r.sock n).live_during (i := i) (r := r) hr []
          exact (run_bind_ok (sendUnencrypted_run hlive)).trans
            (clientAuthenticatedArray_assign_run (R := R.insertKey r.sock n) hr _ _)
      · rw [if_neg hn] at hpush
        rw [run_bind_error hpush]
        dsimp only
        rw [if_neg hn]
        rfl

end OpenSimp
