import OpenSimp.Room.Outcome

/-!
# What a request does to the row of its client

A client is disconnected exactly when the room expels it for its request. Otherwise its row stays,
with the alias and the status that the request gives it.
-/

namespace OpenSimp

open Bytes FaultState ServerNetwork

namespace Request

/-- The alias of a client that is kept after a request. -/
def named (clientid : Bytes) : Request → Bytes
  | .login u | .register u _ | .rename u => u
  | _ => clientid

/-- The status of a client that is kept after a request. -/
def stage (status : AuthStatus) : Request → AuthStatus
  | .login _ | .register _ _ => .keyReceived
  | .key _ => .done
  | _ => status

end Request

/-- The request was read from bytes of its client. -/
def Request.Read : Request → Prop
  | .leave | .idle => False
  | _ => True

/-- The client of the row `r` is disconnected for its request. -/
def Room.Expels (R : Room) (L : Library) (r : Row) : Request → Prop
  | .leave | .spam | .garbledLogin | .wrongPassword | .illegal => True
  | .login u | .register u _ | .rename u => ¬ R.Admits u
  | .key n => (((R.insertKey r.sock n).keys r.sock).bind fun n => L.rsaEncrypt n serverKey) = none
  | .chat text => isBlank (cstr text) = true ∨ r.clientid = sentinel
  | .idle | .unreadable | .console | .command _ => False

/-- What is left of row `i` after a request. -/
structure Reply.Keeps (q : Reply) (R : Room) (i : ℕ) (req : Request) (f : Profile → Profile) :
    Prop where
  changes : q.Changes R i f
  clientid : ∀ p, (f p).clientid = req.named p.clientid
  status : ∀ p, (f p).status = req.stage p.status

variable {R : Room} {L : Library} {w : World} {i : ℕ} {r : Row} {req : Request} {q : Reply}

lemma Reply.keeps_keep {acts : List Act} (hnamed : ∀ a, req.named a = a)
    (hstage : ∀ s, req.stage s = s) : (Reply.keep R acts).Keeps R i req id where
  changes := by
    have hid : Row.update id = id := rfl
    refine ⟨rfl, ?_, rfl⟩
    rw [hid, List.modify_id]
    rfl
  clientid := fun p => (hnamed p.clientid).symm
  status := fun p => (hstage p.status).symm

lemma Room.keeps_relayed {text : Bytes} (h : R.relayed w i r text = .ok q)
    (hnamed : ∀ a, req.named a = a) (hstage : ∀ s, req.stage s = s) :
    ∃ f, q.Keeps R i req f := by
  rw [Room.relayed] at h
  cases hcpy : strcpy 256 text with
  | none => rw [hcpy] at h; cases h
  | some data =>
    rw [hcpy] at h
    cases h
    exact ⟨fun p => { p with interval := w.later }, ⟨rfl, rfl, rfl⟩,
      fun p => (hnamed p.clientid).symm, fun p => (hstage p.status).symm⟩

/-- A request either gets its client expelled or leaves its row. -/
lemma Room.respond_row (h : R.respond L w i r req = .ok q) :
    R.Expels L r req ∧ q.Erases R i ∨ ¬ R.Expels L r req ∧ ∃ f, q.Keeps R i req f := by
  have hdrop : ∀ {acts reason useAfterFree},
      Reply.Erases { Reply.drop R w i r reason acts with useAfterFree := useAfterFree } R i :=
    fun {_ _ _} => Reply.erases_drop _ _ _
  cases req with
  | leave | spam | garbledLogin | wrongPassword | illegal =>
    cases h
    exact .inl ⟨trivial, hdrop⟩
  | idle | unreadable =>
    cases h
    exact .inr ⟨not_false, _, Reply.keeps_keep (fun _ => rfl) fun _ => rfl⟩
  | login u =>
    rw [Room.respond] at h
    split_ifs at h with ha
    · cases h
      exact .inr ⟨not_not.mpr ha, fun p => { p with clientid := u, status := .keyReceived },
        ⟨rfl, List.modify_modify_eq _ _ _ _, rfl⟩, fun _ => rfl, fun _ => rfl⟩
    · cases h
      exact .inl ⟨ha, hdrop⟩
  | register u p =>
    rw [Room.respond] at h
    split_ifs at h with ha
    · cases h
      exact .inr ⟨not_not.mpr ha, fun p => { p with clientid := u, status := .keyReceived },
        ⟨rfl, List.modify_modify_eq _ _ _ _, rfl⟩, fun _ => rfl, fun _ => rfl⟩
    · cases h
      exact .inl ⟨ha, hdrop⟩
  | rename u =>
    rw [Room.respond] at h
    split_ifs at h with ha
    · cases h
      exact .inr ⟨not_not.mpr ha, fun p => { p with clientid := u }, ⟨rfl, rfl, rfl⟩,
        fun _ => rfl, fun _ => rfl⟩
    · cases h
      exact .inl ⟨ha, hdrop⟩
  | key n =>
    rw [Room.respond] at h
    cases hct : ((R.insertKey r.sock n).keys r.sock).bind fun n => L.rsaEncrypt n serverKey with
    | none =>
      rw [hct] at h
      cases h
      exact .inl ⟨hct, ⟨rfl, rfl, rfl, rfl⟩⟩
    | some ciphertext =>
      rw [hct] at h
      cases h
      refine .inr ⟨fun hexpels => ?_, fun p => { p with status := .done }, ⟨rfl, rfl, rfl⟩,
        fun _ => rfl, fun _ => rfl⟩
      cases hct.symm.trans hexpels
  | chat text =>
    rw [Room.respond] at h
    split_ifs at h with hblank hsentinel
    · cases h
      exact .inl ⟨.inl hblank, hdrop⟩
    · cases h
      exact .inl ⟨.inr hsentinel, hdrop⟩
    · exact .inr ⟨not_or.mpr ⟨hblank, hsentinel⟩,
        Room.keeps_relayed h (fun _ => rfl) fun _ => rfl⟩
  | console =>
    rw [Room.respond] at h
    exact .inr ⟨not_false, Room.keeps_relayed h (fun _ => rfl) fun _ => rfl⟩
  | command text =>
    rw [Room.respond] at h
    cases hacts : R.commandActs r text with
    | error e => rw [hacts] at h; cases h
    | ok acts =>
      rw [hacts] at h
      cases h
      exact .inr ⟨not_false, _, Reply.keeps_keep (fun _ => rfl) fun _ => rfl⟩

/-- Restarting the client's clock first changes nothing about it. -/
lemma Room.expels_polled : (R.polled w i r).Expels L (r.polled w) req ↔ R.Expels L r req := by
  cases req with
  | leave | spam | garbledLogin | wrongPassword | illegal | idle | unreadable | console | command =>
    exact Iff.rfl
  | login u | register u | rename u => exact not_congr (Room.polled_admits u)
  | key n =>
    rw [Room.Expels, Room.Expels, Room.insertKey, Room.insertKey, Room.polled_keys,
      Row.polled_sock]
  | chat text => rw [Room.Expels, Room.Expels, Row.polled_clientid]

/-- A poll of row `i`, which is `r`, erases the row or keeps it. -/
theorem Room.serve_row (hreq : R.request L w r = .ok req) (h : R.serve L w i r = .ok q) :
    R.Expels L r req ∧ q.Erases R i ∨ ¬ R.Expels L r req ∧ ∃ f, q.Keeps R i req f := by
  rw [Room.serve, hreq, ok_bind] at h
  rcases Room.respond_row h with ⟨hexpels, herases⟩ | ⟨hexpels, f, hkeeps⟩
  · exact .inl ⟨Room.expels_polled.mp hexpels, herases.of_polled⟩
  · obtain ⟨g, hg, hchanges⟩ := hkeeps.changes.of_polled
    refine .inr ⟨fun hexpels' => hexpels (Room.expels_polled.mpr hexpels'), f ∘ g, hchanges,
      fun p => ?_, fun p => ?_⟩
    · exact (hkeeps.clientid _).trans (congrArg (req.named ·) (hg p).1)
    · exact (hkeeps.status _).trans (congrArg (req.stage ·) (hg p).2)

/-! ### Requests and reads -/

lemma requestOfPlaintext_read (d : Bytes) : (requestOfPlaintext d).Read := by
  rw [requestOfPlaintext]
  split_ifs <;> trivial

lemma Room.requestOfData_read {data : Bytes} (h : R.requestOfData L data r = .ok req) :
    req.Read := by
  rw [Room.requestOfData] at h
  split_ifs at h
  · rcases requestOfLogin_outcome h with rfl | ⟨u, p, -, hout⟩
    · trivial
    · cases hout <;> trivial
  · obtain ⟨_, n, -, -, -, rfl⟩ := requestOfKey_eq_ok h
    trivial
  · rw [requestOfPacket] at h
    rcases hdec : Cryptography.decrypt L data serverKey with fault | ⟨iv, d⟩
    · rw [hdec] at h
      cases fault <;> cases h
      trivial
    · rw [hdec] at h
      cases h
      exact requestOfPlaintext_read d

/-- A request is read from the bytes of a poll if there are any. -/
lemma Room.request_read_iff (h : R.request L w r = .ok req) :
    req.Read ↔ w.status ≠ .disconnected ∧ w.data ≠ [] := by
  rw [Room.request] at h
  split_ifs at h with hclosed hdata hspam
  · cases h
    exact iff_of_false not_false fun hread => hread.1 hclosed
  · cases h
    exact iff_of_false not_false fun hread => hread.2 hdata
  · cases h
    exact iff_of_true trivial ⟨hclosed, hdata⟩
  · exact iff_of_true (Room.requestOfData_read h) ⟨hclosed, hdata⟩

end OpenSimp
