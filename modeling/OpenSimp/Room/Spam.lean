import OpenSimp.Room.Outcome

/-!
# Spam and the clocks of clients

A `Done` client is disconnected for spam exactly if `asMilliseconds` of the time since its clock was
restarted is at most 20. The clock is restarted when the client is polled, and when the server has
relayed its packet.
-/

namespace OpenSimp

open Bytes FaultState ServerNetwork

variable {R : Room} {L : Library} {w : World} {i : ℕ} {r : Row} {req : Request} {q : Reply}

/-! ### Who is disconnected for spam -/

lemma Room.requestOfData_ne_spam {data : Bytes} : R.requestOfData L data r ≠ .ok .spam := by
  intro h
  rw [Room.requestOfData] at h
  split_ifs at h with hundone hkey
  · cases requestOfLogin_fits h
  · obtain ⟨_, _, -, -, -, hreq⟩ := requestOfKey_eq_ok h
    cases hreq
  · have hfits : Request.Fits .failed .spam := requestOfPacket_fits (by simp) (by simp) h
    cases hfits

lemma Room.request_spam_iff :
    R.request L w r = .ok .spam ↔ w.status ≠ .disconnected ∧ w.data ≠ [] ∧ r.status = .done ∧
      asMilliseconds (w.now - r.interval) ≤ 20 := by
  rw [Room.request]
  split_ifs with hclosed hdata hspam
  · simp [hclosed]
  · simp [hdata]
  · simp [hclosed, hdata, hspam]
  · simp only [Room.requestOfData_ne_spam, false_iff]
    rintro ⟨-, -, h⟩
    exact hspam h

/-! ### What it shows -/

lemma disconnected_not_mem_broadcastActs {rows : List Row} {data : Bytes} {exclude : Endpoint}
    {k : ℕ} {reason : DisconnectReason} :
    .disconnected k reason ∉ broadcastActs w rows data exclude := by
  simp [broadcastActs]

lemma Room.disconnected_mem_disconnectActs {k : ℕ} {reason reason' : DisconnectReason} :
    .disconnected k reason' ∈ R.disconnectActs w i r reason ↔ k = i ∧ reason' = reason := by
  simp [Room.disconnectActs, disconnected_not_mem_broadcastActs]

lemma Room.disconnected_not_mem_commandActs {text : Bytes} {acts : List Act} {k : ℕ}
    {reason : DisconnectReason} (h : R.commandActs r text = .ok acts) :
    .disconnected k reason ∉ acts := by
  rw [Room.commandActs] at h
  cases hargs : Lexer.lex text (List.replicate Executor.slots []) space with
  | error fault => rw [hargs] at h; cases h
  | ok args =>
    rw [hargs, ok_bind] at h
    split_ifs at h
    · cases h
      simp
    · cases h
      simp
    · cases h
      rw [Room.msgActs]
      split_ifs
      · simp
      · simp
      · cases R.rows.find? (·.clientid = args.getD 1 []) with
        | none => simp
        | some target => simp
    · cases h
      simp

/-! ### Responses -/

/-- What a response to a request of row `i` does to the row's clock, and whom it disconnects. -/
inductive Room.Paces (R : Room) (w : World) (i : ℕ) : Request → Reply → Prop where
  | keeps {req : Request} {q : Reply} {f : Profile → Profile}
      (hrows : q.room.rows = R.rows.modify i (Row.update f))
      (hf : ∀ p, (f p).interval = p.interval ∨ (f p).interval = w.later)
      (hacts : ∀ k reason, .disconnected k reason ∉ q.acts) : Paces R w i req q
  | drops {req : Request} {q : Reply} {reason : DisconnectReason}
      (hrows : q.room.rows = R.rows.eraseIdx i) (hspam : reason = .disconnectSpam → req = .spam)
      (hacts : ∀ k reason', .disconnected k reason' ∈ q.acts → k = i ∧ reason' = reason) :
      Paces R w i req q

lemma Room.paces_keep {acts : List Act} (hacts : ∀ k reason, .disconnected k reason ∉ acts) :
    R.Paces w i req (.keep R acts) := by
  refine .keeps (f := id) ?_ (fun _ => .inl rfl) hacts
  have hid : Row.update id = id := rfl
  rw [hid, List.modify_id]
  rfl

lemma Room.paces_drop {acts : List Act} {reason : DisconnectReason} {useAfterFree : Bool}
    (hspam : reason = .disconnectSpam → req = .spam)
    (hacts : ∀ k reason, .disconnected k reason ∉ acts) :
    R.Paces w i req { Reply.drop R w i r reason acts with useAfterFree := useAfterFree } := by
  refine .drops rfl hspam fun k reason' ha => ?_
  rcases List.mem_append.mp ha with ha | ha
  · exact absurd ha (hacts k reason')
  · exact Room.disconnected_mem_disconnectActs.mp ha

lemma Room.relayed_paces {text : Bytes} (h : R.relayed w i r text = .ok q) :
    R.Paces w i req q := by
  rw [Room.relayed] at h
  cases hcpy : strcpy 256 text with
  | none => rw [hcpy] at h; cases h
  | some data =>
    rw [hcpy] at h
    cases h
    exact .keeps rfl (fun _ => .inr rfl) fun _ _ => disconnected_not_mem_broadcastActs

lemma Room.respond_paces (h : R.respond L w i r req = .ok q) : R.Paces w i req q := by
  have hjoin : ∀ {a k reason}, .disconnected k reason ∉ R.joinActs w i r a :=
    disconnected_not_mem_broadcastActs
  cases req with
  | spam =>
    cases h
    exact Room.paces_drop (fun _ => rfl) (by simp)
  | leave | garbledLogin | wrongPassword | illegal =>
    cases h
    exact Room.paces_drop (by simp) (by simp)
  | idle | unreadable =>
    cases h
    exact Room.paces_keep (by simp)
  | login u =>
    rw [Room.respond] at h
    split_ifs at h
    · cases h
      refine .keeps (f := fun p => { p with clientid := u, status := .keyReceived })
        (List.modify_modify_eq _ _ _ _) (fun _ => .inl rfl) ?_
      simp [Reply.keep, hjoin]
    · cases h
      exact Room.paces_drop (by simp) (by simp)
  | register u p =>
    rw [Room.respond] at h
    split_ifs at h
    · cases h
      refine .keeps (f := fun p => { p with clientid := u, status := .keyReceived })
        (List.modify_modify_eq _ _ _ _) (fun _ => .inl rfl) ?_
      simp [Reply.keep, hjoin, disconnected_not_mem_broadcastActs]
    · cases h
      exact Room.paces_drop (by simp) (by simp)
  | key n =>
    rw [Room.respond] at h
    cases hct : ((R.insertKey r.sock n).keys r.sock).bind fun n => L.rsaEncrypt n serverKey with
    | none =>
      rw [hct] at h
      cases h
      exact .drops rfl (by simp) fun _ _ => Room.disconnected_mem_disconnectActs.mp
    | some ciphertext =>
      rw [hct] at h
      cases h
      exact .keeps rfl (fun _ => .inl rfl) (by simp [Reply.keep])
  | chat text =>
    rw [Room.respond] at h
    split_ifs at h
    · cases h
      exact Room.paces_drop (by simp) (by simp)
    · cases h
      exact Room.paces_drop (by simp) (by simp)
    · exact Room.relayed_paces h
  | rename a =>
    rw [Room.respond] at h
    split_ifs at h
    · cases h
      exact .keeps rfl (fun _ => .inl rfl) fun _ _ => hjoin
    · cases h
      exact Room.paces_drop (by simp) (by simp)
  | console =>
    rw [Room.respond] at h
    exact Room.relayed_paces h
  | command text =>
    rw [Room.respond] at h
    cases hacts : R.commandActs r text with
    | error e => rw [hacts] at h; cases h
    | ok acts =>
      rw [hacts] at h
      cases h
      exact Room.paces_keep fun _ _ => Room.disconnected_not_mem_commandActs hacts

/-- A poll disconnects a client for spam if and only if it reads spam. -/
lemma Room.disconnected_spam_iff {k : ℕ} (hreq : R.request L w r = .ok req)
    (h : R.serve L w i r = .ok q) :
    .disconnected k .disconnectSpam ∈ q.acts ↔ k = i ∧ req = .spam := by
  rw [Room.serve, hreq, ok_bind] at h
  constructor
  · intro ha
    cases Room.respond_paces h with
    | keeps _ _ hacts => exact absurd ha (hacts _ _)
    | drops _ hspam hacts =>
      obtain ⟨hk, hreason⟩ := hacts _ _ ha
      exact ⟨hk, hspam hreason.symm⟩
  · rintro ⟨rfl, rfl⟩
    cases h
    exact List.mem_append_right _ (Room.disconnected_mem_disconnectActs.mpr ⟨rfl, rfl⟩)

/-- Spam is not relayed. -/
lemma Room.not_broadcast_of_spam {data : Bytes} (hreq : R.request L w r = .ok .spam)
    (h : R.serve L w i r = .ok q) : .broadcast (48 :: data) ∉ q.acts := by
  rw [Room.serve, hreq, ok_bind] at h
  cases h
  have hleave : cstr ((R.polled w i r).leaveMessage i (r.polled w)) =
      50 :: cstr ([separator] ++ (r.polled w).clientid ++
        rosterText (((R.polled w i r).rows.map (·.clientid)).eraseIdx i)) := by
    rw [Room.leaveMessage, List.append_assoc, List.append_assoc, cstr_append (by decide),
      List.append_assoc]
    rfl
  simp [Reply.drop, Room.disconnectActs, broadcastActs, hleave]

/-! ### Clocks -/

/-- All clocks were restarted by the time `t`. -/
def Room.RestartedBy (R : Room) (t : ℕ) : Prop := ∀ r ∈ R.rows, r.interval ≤ t

lemma Room.RestartedBy.mono {t t' : ℕ} (hR : R.RestartedBy t) (h : t ≤ t') : R.RestartedBy t' :=
  fun r hr => (hR r hr).trans h

lemma Room.RestartedBy.modify {t : ℕ} {R' : Room} (hR : R.RestartedBy t) {f : Profile → Profile}
    (hrows : R'.rows = R.rows.modify i (Row.update f))
    (hf : ∀ p : Profile, (f p).interval = p.interval ∨ (f p).interval ≤ t) :
    R'.RestartedBy t := by
  intro r hr
  obtain ⟨k, hk⟩ := List.mem_iff_getElem?.mp hr
  rw [hrows, List.getElem?_modify] at hk
  obtain ⟨r', hr', rfl⟩ := Option.map_eq_some_iff.mp hk
  have hle := hR r' (List.mem_of_getElem? hr')
  by_cases hki : i = k
  · rw [if_pos hki]
    rcases hf r'.toProfile with heq | hft
    · exact heq.le.trans hle
    · exact hft
  · rw [if_neg hki]
    exact hle

lemma Room.RestartedBy.respond (hR : R.RestartedBy w.later) (h : R.respond L w i r req = .ok q) :
    q.room.RestartedBy w.later := by
  cases Room.respond_paces h with
  | keeps hrows hf => exact hR.modify hrows fun p => (hf p).imp_right Eq.le
  | drops hrows =>
    intro r hr
    rw [hrows] at hr
    exact hR r (List.mem_of_mem_eraseIdx hr)

/-- A poll restarts no clock later than it ends. -/
lemma Room.RestartedBy.serve (hR : R.RestartedBy w.later) (hlater : w.now ≤ w.later)
    (h : R.serve L w i r = .ok q) : q.room.RestartedBy w.later := by
  rw [Room.serve] at h
  cases hreq : R.request L w r with
  | error e => rw [hreq] at h; cases h
  | ok req =>
    rw [hreq, ok_bind] at h
    have hpolled : (R.polled w i r).RestartedBy w.later := by
      rw [Room.polled]
      split_ifs
      · exact hR.modify rfl fun _ => .inr hlater
      · exact hR
    exact hpolled.respond h

end OpenSimp
