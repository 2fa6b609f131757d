import OpenSimp.Room.Handshake

/-!
# `receive` computes `Room.serve`

The packets of clients past the handshake, and with them all of `receive`: run on the layout of a
room it does what the room's answer to the request says, and fails exactly when that answer does
(`receive_run`). No later module unfolds the server's code.
-/

namespace OpenSimp

open Bytes FaultState ServerNetwork

variable {R : Room} {i : ℕ} {r : Row}

/-! ### Commands -/

lemma sendStringAt_run (hr : R.rows[i]? = some r) (w : World) (str : Bytes) (acts : List Act) :
    (sendStringAt w str i).run (R.during acts) =
      .ok ((), R.during (acts ++ [.sent r.sock (directPacket str)])) := by
  rw [sendStringAt, run_bind_ok (clientArray_run hr acts),
    run_bind_ok (send_run (R.live_during hr acts)), run_pure]
  rfl

lemma sendString_during_run (hr : R.rows[i]? = some r) (w : World) (str : Bytes)
    (acts : List Act) :
    (sendString w str r.sock).run (R.during acts) =
      .ok ((), R.during (acts ++ [.sent r.sock (directPacket str)])) :=
  sendString_run (R.live_during hr acts)

lemma help_run (hr : R.rows[i]? = some r) (w : World) (args : List Bytes) (acts : List Act) :
    ∃ status, (help w r.sock i args).run (R.during acts) =
      .ok (status, R.during (acts ++ [.sent r.sock (directPacket (helpReply args))])) := by
  rw [help, run_ite, helpReply]
  split_ifs
  · refine ⟨.ok, ?_⟩
    rw [run_bind_ok (sendString_during_run hr w _ acts), run_pure]
    rfl
  · exact ⟨.error, by rw [run_bind_ok (sendString_during_run hr w _ acts), run_pure]⟩

lemma plugins_run (hr : R.rows[i]? = some r) (w : World) (args : List Bytes) (acts : List Act) :
    (plugins w r.sock i args).run (R.during acts) =
      .ok (.ok, R.during (acts ++ [.sent r.sock (directPacket (ascii "Plugins (0): "))])) := by
  rw [plugins, run_bind_ok (sendString_during_run hr w _ acts), run_pure]

/-- One copy for each of the aliases `xs` that is the addressed one. -/
lemma forM_msgTo_run (hr : R.rows[i]? = some r) (w : World) (args : List Bytes) (target : Row)
    (hfind : ∀ x ∈ R.rows.map (·.clientid), args.getD 1 [] = x →
      ∃ k, (R.rows.map (·.clientid)).idxOf? x = some k ∧ R.rows[k]? = some target)
    (xs : List Bytes) (hxs : xs ⊆ R.rows.map (·.clientid)) (acts : List Act) :
    (xs.forM (msgTo w i args)).run (R.during acts) = .ok ((), R.during (acts ++
      List.replicate (xs.count (args.getD 1 []))
        (.sent target.sock (directPacket (directText (args.getD 1 []) r.clientid args))))) := by
  induction xs generalizing acts with
  | nil =>
    rw [List.count_nil, List.replicate_zero, List.append_nil]
    rfl
  | cons x xs ih =>
    have hsub := fun as => ih (fun y hy => hxs (List.mem_cons_of_mem x hy)) as
    rw [List.forM_eq_forM, List.forM_cons]
    by_cases hx : args.getD 1 [] = x
    · obtain ⟨k, hk, htarget⟩ := hfind x (hxs (by simp)) hx
      have hstep : (msgTo w i args x).run (R.during acts) = .ok ((), R.during (acts ++
          [.sent target.sock (directPacket (directText x r.clientid args))])) := by
        rw [msgTo, if_pos hx, run_bind_ok (clientidArray_run hr acts),
          run_bind_ok (clientidArray_elements_run R acts), getIndex, hk,
          run_bind_ok (run_ofOption_some _ _ _)]
        exact sendStringAt_run htarget w _ acts
      rw [run_bind_ok hstep]
      apply (hsub _).trans
      rw [hx, List.count_cons_self, List.append_assoc, List.replicate_succ]
      rfl
    · have hstep : (msgTo w i args x).run (R.during acts) = .ok ((), R.during acts) := by
        rw [msgTo, if_neg hx, run_pure]
      rw [run_bind_ok hstep]
      apply (hsub _).trans
      rw [List.count_cons_of_ne (Ne.symm hx)]

lemma msg_run (hr : R.rows[i]? = some r) (w : World) (args : List Bytes) (acts : List Act) :
    ∃ status, (msg w r.sock i args).run (R.during acts) =
      .ok (status, R.during (acts ++ R.msgActs r args)) := by
  rw [msg, run_ite, Room.msgActs]
  split_ifs with hs hown
  · exact ⟨.error, by rw [run_pure, List.append_nil]⟩
  · refine ⟨.ok, ?_⟩
    rw [run_bind_ok (clientidArray_run hr acts), if_pos hown,
      run_bind_ok (sendStringAt_run hr w _ acts), run_pure]
  · refine ⟨.ok, ?_⟩
    rw [run_bind_ok (clientidArray_run hr acts), if_neg hown,
      run_bind_ok (clientidArray_elements_run R acts)]
    by_cases hmem : args.getD 1 [] ∈ R.rows.map (·.clientid)
    · obtain ⟨k, target, hk, htarget, hfind⟩ := List.exists_idxOf?_map hmem
      rw [run_bind_ok (forM_msgTo_run hr w args target
        (by rintro x - rfl; exact ⟨k, hk, htarget⟩) _ (List.Subset.refl _) acts), run_pure, hfind]
    · have hnone : R.rows.find? (·.clientid = args.getD 1 []) = none := by
        rw [List.find?_eq_none]
        intro x hx hx'
        exact hmem (List.mem_map.mpr ⟨x, hx, by simpa using hx'⟩)
      rw [run_bind_ok (forM_msgTo_run hr w args r
        (by rintro x hx rfl; exact absurd hx hmem) _ (List.Subset.refl _) acts), run_pure, hnone,
        List.count_eq_zero_of_not_mem hmem]
      rfl

lemma tryCommand_run_of_ne {command : List Bytes} {x : ExecutableCommand}
    (hne : command.getD 0 [] ≠ x.cmd) (sock : Sock) (iter : ℕ) (executed : Bool) (m : Machine) :
    (Executor.tryCommand command sock iter executed x).run m = .ok (executed, m) := by
  rw [Executor.tryCommand, if_neg hne, run_pure]

lemma tryCommand_run_of_eq {command : List Bytes} {x : ExecutableCommand} {sock : Sock}
    {iter : ℕ} {m m' : Machine} (heq : command.getD 0 [] = x.cmd)
    (hfn : ∃ status, (x.fn sock iter command).run m = .ok (status, m')) :
    (Executor.tryCommand command sock iter false x).run m = .ok (true, m') := by
  obtain ⟨status, hstatus⟩ := hfn
  rw [Executor.tryCommand, if_pos heq, if_neg (by simp)]
  exact (run_bind_ok hstatus).trans (run_pure _ _)

/-- The loop of `iterate` runs the command with the given name, if there is one. -/
lemma foldlM_tryCommand_run (hr : R.rows[i]? = some r) (w : World) (command : List Bytes)
    (acts : List Act) :
    ((commands w).foldlM (Executor.tryCommand command r.sock i) false).run (R.during acts) =
      .ok (decide (command.getD 0 [] ∈ commandNames), R.during (acts ++
        if command.getD 0 [] = ascii "help" then [.sent r.sock (directPacket (helpReply command))]
        else if command.getD 0 [] = ascii "plugins" then
          [.sent r.sock (directPacket (ascii "Plugins (0): "))]
        else if command.getD 0 [] = ascii "msg" then R.msgActs r command
        else [])) := by
  have hskip := fun (x : ExecutableCommand) (hne : command.getD 0 [] ≠ x.cmd) executed acts =>
    tryCommand_run_of_ne hne r.sock i executed (R.during acts)
  have hhelpPlugins : ascii "help" ≠ ascii "plugins" := by decide
  have hhelpMsg : ascii "help" ≠ ascii "msg" := by decide
  have hpluginsMsg : ascii "plugins" ≠ ascii "msg" := by decide
  rw [commands, List.foldlM_cons, commandNames]
  by_cases hhelp : command.getD 0 [] = ascii "help"
  · rw [if_pos hhelp, run_bind_ok (tryCommand_run_of_eq hhelp (help_run hr w command acts)),
      List.foldlM_cons, run_bind_ok (hskip _ (hhelp ▸ hhelpPlugins) _ _), List.foldlM_cons,
      run_bind_ok (hskip _ (hhelp ▸ hhelpMsg) _ _), List.foldlM_nil, run_pure, hhelp]
    rfl
  rw [if_neg hhelp, run_bind_ok (hskip _ hhelp _ _), List.foldlM_cons]
  by_cases hplugins : command.getD 0 [] = ascii "plugins"
  · rw [if_pos hplugins,
      run_bind_ok (tryCommand_run_of_eq hplugins ⟨_, plugins_run hr w command acts⟩),
      List.foldlM_cons, run_bind_ok (hskip _ (hplugins ▸ hpluginsMsg) _ _), List.foldlM_nil,
      run_pure, hplugins]
    rfl
  rw [if_neg hplugins, run_bind_ok (hskip _ hplugins _ _), List.foldlM_cons]
  by_cases hmsg : command.getD 0 [] = ascii "msg"
  · rw [if_pos hmsg, run_bind_ok (tryCommand_run_of_eq hmsg (msg_run hr w command acts)),
      List.foldlM_nil, run_pure, hmsg]
    rfl
  rw [if_neg hmsg, run_bind_ok (hskip _ hmsg _ _), List.foldlM_nil, run_pure, List.append_nil]
  simp only [List.mem_cons, hhelp, hplugins, hmsg, List.not_mem_nil, or_self, decide_false]

lemma iterate_run (hr : R.rows[i]? = some r) (w : World) (e : Bytes) (acts : List Act) :
    (Executor.iterate w (commands w) e r.sock i).run (R.during acts) =
      (R.commandActs r e).map fun as => ((), R.during (acts ++ as)) := by
  rw [Executor.iterate, Room.commandActs]
  cases Lexer.lex e (List.replicate Executor.slots []) space with
  | error fault => rfl
  | ok command =>
    rw [run_bind_ok (run_ofExcept_ok _ _), run_bind_ok (foldlM_tryCommand_run hr w command acts),
      ok_bind]
    by_cases hmem : command.getD 0 [] ∈ commandNames
    · rw [if_pos (by simpa using hmem), run_pure]
      split_ifs with hhelp hplugins hmsg
      · rfl
      · rfl
      · rfl
      · simp only [commandNames, List.mem_cons, hhelp, hplugins, hmsg, List.not_mem_nil,
          or_self] at hmem
    · have hne := hmem
      simp only [commandNames, List.mem_cons, List.not_mem_nil, or_false, not_or] at hne
      obtain ⟨hhelp, hplugins, hmsg⟩ := hne
      rw [if_neg (by simpa using hmem), if_neg hhelp, if_neg hplugins, if_neg hmsg, if_neg hhelp,
        if_neg hplugins, if_neg hmsg, List.append_nil]
      exact sendString_during_run hr w _ acts

/-! ### Packets -/

lemma disconnectClient_run_eq_drop (hr : R.rows[i]? = some r) (w : World)
    (reason : DisconnectReason) (acts : List Act) :
    (disconnectClient w r.sock i reason).run (R.during acts) =
      Reply.result (.ok (.drop R w i r reason acts)) :=
  disconnectClient_run hr w reason acts

lemma logInvalidSend_run (hr : R.rows[i]? = some r) (acts : List Act) :
    (logInvalidSend r.sock i).run (R.during acts) = .ok ((), R.during acts) := by
  have hderef := deref_run (R.live_during hr acts)
  rw [logInvalidSend, run_bind_ok (clientidArray_run hr acts)]
  split_ifs
  · rw [run_bind_ok (clientidArray_run hr acts)]
    exact hderef
  · rw [run_bind_ok hderef]
    exact hderef

lemma relay_run (hr : R.rows[i]? = some r) (w : World) (text : Bytes) :
    (relay w text r.sock i).run (R.during []) = Reply.result (R.relayed w i r text) := by
  rw [relay, Room.relayed]
  cases strcpy 256 text with
  | none => rfl
  | some data =>
    obtain ⟨b, hb⟩ := broadcast_run w data (w.peer r.sock) (R.shows_during [])
    have hclientid := clientidArray_run hr (broadcastActs w R.rows data (w.peer r.sock))
    have hderef := deref_run (R.live_during hr (broadcastActs w R.rows data (w.peer r.sock)))
    have hrestart := restart_run hr w.later (broadcastActs w R.rows data (w.peer r.sock))
    rw [run_bind_ok (run_ofOption_some _ _ _), run_bind_ok (remote_run (R.live_during hr [])),
      run_bind_ok hb, Room.emit_during, List.nil_append, run_bind_ok hclientid]
    split_ifs
    · rw [run_bind_ok hclientid, run_bind_ok hrestart, run_pure]
      rfl
    · rw [run_bind_ok hderef, run_bind_ok hrestart, run_pure]
      rfl

/-- A chat packet is relayed unless its sender is kicked. -/
lemma handleSend_relay_run (hr : R.rows[i]? = some r) (L : Library) (w : World) (d : Bytes) :
    (do
      let sendingString ← handleSend w d r.sock i
      match sendingString with
      | some s => relay w s r.sock i
      | none => pure () : M Unit).run (R.during []) =
      Reply.result (R.respond L w i r (.chat (d.drop 1))) := by
  rw [handleSend, Room.respond]
  by_cases hblank : isBlank (cstr (d.drop 1)) = true
  · rw [if_pos hblank, if_pos hblank, bind_assoc, run_bind_ok (send_run (R.live_during hr [])),
      Room.emit_during, bind_assoc, run_bind_ok (disconnectClient_run hr w _ _)]
    rfl
  · rw [if_neg hblank, if_neg hblank, bind_assoc, run_bind_ok (clientidArray_run hr [])]
    by_cases hs : r.clientid = sentinel
    · rw [if_neg (not_not.mpr hs), if_pos hs, bind_assoc,
        run_bind_ok (disconnectClient_run hr w _ _)]
      rfl
    · rw [if_pos hs, if_neg hs, bind_assoc, run_bind_ok (clientidArray_run hr []), pure_bind]
      exact relay_run hr w _

/-- A renaming packet renames its sender or kicks it. -/
lemma handleNick_run (hr : R.rows[i]? = some r) (L : Library) (w : World) (d : Bytes) :
    (do
      let _ ← handleNick w d r.sock i
      pure () : M Unit).run (R.during []) =
      Reply.result (R.respond L w i r (.rename (d.drop 2))) := by
  rw [handleNick, Room.respond]
  by_cases ha : R.Admits (d.drop 2)
  · rw [run_bind_ok ((nick_run hr w _ []).trans (if_pos ha)), if_pos ha]
    rfl
  · rw [run_bind_ok ((nick_run hr w _ []).trans (if_neg ha)), if_neg ha]
    rfl

lemma handleCommand_run (hr : R.rows[i]? = some r) (L : Library) (w : World) (d : Bytes) :
    (handleCommand w d r.sock i).run (R.during []) =
      Reply.result (R.respond L w i r (.command (d.drop 1))) := by
  rw [handleCommand, run_bind_ok (clientidArray_run hr []), iterate_run hr w _ [], Room.respond]
  cases R.commandActs r (d.drop 1) <;> rfl

lemma dispatch_run (hr : R.rows[i]? = some r) (L : Library) (w : World) {d : Bytes}
    (hcheck : check d = true) (hlen : ¬ d.length ≥ 4096) :
    (dispatch w d r.sock i).run (R.during []) =
      Reply.result (R.respond L w i r (requestOfPlaintext d)) := by
  rw [dispatch, requestOfPlaintext, if_neg (not_not.mpr hcheck), if_neg hlen]
  split_ifs
  · exact handleSend_relay_run hr L w d
  · exact handleNick_run hr L w d
  · exact relay_run hr w []
  · exact handleCommand_run hr L w d
  · exact disconnectClient_run_eq_drop hr w _ []

/-- Encrypted packets are answered as the room does. -/
lemma receivePacket_run (hr : R.rows[i]? = some r) (L : Library) (w : World) :
    (receivePacket L w r.sock i).run (R.during []) =
      Reply.result (requestOfPacket L w.data >>= R.respond L w i r) := by
  rw [receivePacket, requestOfPacket]
  rcases Cryptography.decrypt L w.data serverKey with fault | ⟨iv, d⟩
  · cases fault with
    | exception => exact sendString_during_run hr w _ []
    | outOfBounds => rfl
    | overrun => rfl
    | assertion => rfl
  · dsimp only
    rw [ok_bind]
    by_cases hcheck : check d = true
    · rw [if_neg (not_not.mpr hcheck)]
      by_cases hlen : d.length ≥ 4096
      · rw [if_pos hlen, run_bind_ok (logInvalidSend_run hr []), requestOfPlaintext,
          if_neg (not_not.mpr hcheck), if_pos hlen]
        exact disconnectClient_run_eq_drop hr w _ []
      · rw [if_neg hlen]
        exact dispatch_run hr L w hcheck hlen
    · rw [if_pos hcheck, run_bind_ok (logInvalidSend_run hr []), requestOfPlaintext,
        if_pos hcheck]
      exact disconnectClient_run_eq_drop hr w _ []

/-! ### `receive` -/

lemma receiveData_run (hr : R.rows[i]? = some r) (L : Library) (w : World) :
    (receiveData L w r.sock i).run (R.during []) =
      Reply.result (R.requestOfData L w.data r >>= R.respond L w i r) := by
  rw [receiveData, run_bind_ok (clientAuthenticatedArray_run hr []), Room.requestOfData]
  by_cases hundone : r.status = .undone
  · rw [if_pos hundone, if_pos hundone]
    exact receiveCredentials_run hr L w
  rw [if_neg hundone, if_neg hundone, run_bind_ok (clientAuthenticatedArray_run hr [])]
  by_cases hkey : r.status = .keyReceived
  · rw [if_pos hkey, if_pos hkey]
    exact receiveKey_run hr L w
  · rw [if_neg hkey, if_neg hkey]
    exact receivePacket_run hr L w

/-- Polling row `i` does what the room's answer says. -/
theorem receive_run (hr : R.rows[i]? = some r) (L : Library) (w : World) :
    (receive L w r.sock i).run (R.during []) = Reply.result (R.serve L w i r) := by
  rw [receive, run_bind_ok (deref_run (R.live_during hr [])), Room.serve, Room.request]
  by_cases hclosed : w.status = .disconnected
  · rw [if_pos hclosed, if_pos hclosed, ok_bind, Room.polled, if_neg (by simp [hclosed]),
      Row.polled, if_neg (by simp [hclosed])]
    exact disconnectClient_run_eq_drop hr w _ []
  rw [if_neg hclosed, if_neg hclosed]
  by_cases hdata : w.data = []
  · rw [if_neg (not_not.mpr hdata), if_pos hdata, ok_bind, Room.polled, if_neg (by simp [hdata]),
      Row.polled, if_neg (by simp [hdata])]
    rfl
  rw [if_pos hdata, if_neg hdata, run_bind_ok (clientAuthenticatedArray_run hr [])]
  by_cases hdone : r.status = .done
  · have hpolled : w.status ≠ .disconnected ∧ w.data ≠ [] ∧ r.status = .done :=
      ⟨hclosed, hdata, hdone⟩
    have hr' := R.getElem?_restarted hr w.now
    rw [if_pos hdone, run_bind_ok (restart_run hr w.now []), Room.polled, if_pos hpolled,
      Row.polled, if_pos hpolled]
    by_cases hspam : asMilliseconds (w.now - r.interval) ≤ 20
    · rw [if_pos hspam, if_pos ⟨hdone, hspam⟩]
      exact disconnectClient_run_eq_drop hr' w _ []
    · rw [if_neg hspam, if_neg fun h => hspam h.2]
      exact receiveData_run hr' L w
  · rw [if_neg hdone, if_neg fun h => hdone h.1, Room.polled, if_neg fun h => hdone h.2.2,
      Row.polled, if_neg fun h => hdone h.2.2]
    exact receiveData_run hr L w

end OpenSimp
