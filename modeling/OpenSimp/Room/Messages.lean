import OpenSimp.Room.Emission
import OpenSimp.Room.Names

/-!
# What a poll sends to one socket

`sentTo` picks the packets to one socket out of the effects of an event. A broadcast about a client
never reaches the client itself, and the effects of the polls that relay a text or run a command
are computed exactly.
-/

namespace OpenSimp

open Bytes FaultState ServerNetwork

variable {R : Room} {L : Library} {w : World} {i : ℕ} {r : Row} {req : Request} {q : Reply}

/-- The packets that were sent to the socket `p`. -/
def sentTo (p : Sock) (acts : List Act) : List Packet :=
  acts.filterMap fun
    | .sent p' packet => if p' = p then some packet else none
    | _ => none

lemma mem_sentTo {p : Sock} {acts : List Act} {packet : Packet} :
    packet ∈ sentTo p acts ↔ .sent p packet ∈ acts := by
  rw [sentTo, List.mem_filterMap]
  constructor
  · rintro ⟨a, ha, hpacket⟩
    cases a with
    | sent p' packet' =>
      simp only [Option.ite_none_right_eq_some, Option.some.injEq] at hpacket
      obtain ⟨rfl, rfl⟩ := hpacket
      exact ha
    | broadcast | registered | disconnected => cases hpacket
  · intro ha
    exact ⟨_, ha, by simp⟩

lemma sentTo_sent (p : Sock) (packet : Packet) : sentTo p [.sent p packet] = [packet] := by
  simp [sentTo]

lemma sentTo_append (p : Sock) (as bs : List Act) :
    sentTo p (as ++ bs) = sentTo p as ++ sentTo p bs := List.filterMap_append

lemma sentTo_broadcastActs (p : Sock) (rows : List Row) (data : Bytes) (exclude : Endpoint) :
    sentTo p (broadcastActs w rows data exclude) =
      ((recipients w rows exclude).filter fun r => r.sock = p).map
        fun _ => .sealed (cstr data) := by
  rw [sentTo, broadcastActs, List.filterMap_cons_none rfl, List.filterMap_map]
  induction recipients w rows exclude with
  | nil => rfl
  | cons r rows ih =>
    by_cases hp : r.sock = p
    · rw [List.filterMap_cons_some (b := .sealed (cstr data)) (by simp [hp]),
        List.filter_cons_of_pos (by simpa using hp), List.map_cons, ih]
    · rw [List.filterMap_cons_none (by simp [hp]), List.filter_cons_of_neg (by simpa using hp), ih]

lemma mem_recipients {rows : List Row} {exclude : Endpoint} {r' : Row} :
    r' ∈ recipients w rows exclude ↔
      r' ∈ rows ∧ r'.status = .done ∧ w.peer r'.sock ≠ exclude := by
  rw [recipients, List.mem_filter, decide_eq_true_eq]

/-- A client hears nothing of what is broadcast about it. -/
lemma sentTo_self (rows : List Row) (data : Bytes) :
    sentTo r.sock (broadcastActs w rows data (w.peer r.sock)) = [] := by
  rw [sentTo_broadcastActs, List.map_eq_nil_iff, List.filter_eq_nil_iff]
  intro t ht hsock
  have hsock : t.sock = r.sock := by simpa using hsock
  exact (mem_recipients.mp ht).2.2 (congrArg w.peer hsock)

lemma sentTo_joinActs_self (a : Bytes) : sentTo r.sock (R.joinActs w i r a) = [] :=
  sentTo_self _ _

lemma sentTo_disconnectActs_self (reason : DisconnectReason) :
    sentTo r.sock (R.disconnectActs w i r reason) = [] := by
  rw [Room.disconnectActs, sentTo_append, sentTo_self]
  rfl

/-! ### The words of a message -/

lemma flatMap_replicate_nil (k : ℕ) :
    (List.replicate k ([] : Bytes)).flatMap (· ++ [space]) = List.replicate k space := by
  induction k with
  | zero => rfl
  | succ k ih => simp [List.replicate_succ, ih]

/-- A `msg` command is its first two words and a rest, and the message is that rest with a blank
for every free slot. -/
lemma directText_of_lex {text x : Bytes} {args : List Bytes}
    (hargs : Lexer.lex text (List.replicate Executor.slots []) space = .ok args)
    (hcmd : args.getD 0 [] = ascii "msg") (hx : args.getD 1 [] = x) (hne : x ≠ [])
    (sender : Bytes) :
    ∃ rest, text ++ [space] = ascii "msg" ++ [space] ++ (x ++ [space]) ++ rest ∧
      directText x sender args = ascii "[" ++ x ++ ascii " -> " ++ sender ++ ascii "]: " ++
        (rest ++ List.replicate (511 - text.count space) space) := by
  rw [Executor.lex_slots] at hargs
  split_ifs at hargs
  cases hargs
  generalize 511 - text.count space = k at hcmd hx ⊢
  -- the command has at least the two words that were read of it
  obtain ⟨rest, hwords⟩ : ∃ rest, text.splitOn space = ascii "msg" :: x :: rest := by
    rcases hsplit : text.splitOn space with _ | ⟨a, _ | ⟨b, rest⟩⟩
    · exact absurd hsplit (List.splitOn_ne_nil space text)
    · rw [hsplit] at hx
      have hnil : x = [] := by
        rw [← hx]
        cases k <;> simp [List.replicate_succ]
      exact absurd hnil hne
    · rw [hsplit] at hcmd hx
      simp only [List.cons_append, List.getD_cons_zero, List.getD_cons_succ] at hcmd hx
      exact ⟨rest, by rw [hcmd, hx]⟩
  refine ⟨rest.flatMap (· ++ [space]), ?_, ?_⟩
  · rw [← flatMap_splitOn, hwords, List.flatMap_cons, List.flatMap_cons]
    simp only [List.append_assoc]
  · rw [directText_eq, hwords, List.cons_append, List.cons_append, List.drop_succ_cons,
      List.drop_succ_cons, List.drop_zero, List.flatMap_append, flatMap_replicate_nil]

/-! ### Relayed texts and commands -/

lemma broadcastActs_cstr (rows : List Row) (data : Bytes) (exclude : Endpoint) :
    broadcastActs w rows (cstr data) exclude = broadcastActs w rows data exclude := by
  rw [broadcastActs, broadcastActs, cstr_cstr]

lemma Room.acts_of_relayed {text : Bytes} (h : R.relayed w i r text = .ok q) :
    q.acts = broadcastActs w R.rows text (w.peer r.sock) := by
  rw [Room.relayed, strcpy] at h
  split_ifs at h
  cases h
  exact broadcastActs_cstr _ _ _

lemma Room.acts_of_chat {text : Bytes} (hN : R.Named) (hr : R.rows[i]? = some r)
    (hreq : R.request L w r = .ok (.chat text)) (hblank : isBlank (cstr text) = false)
    (hserve : R.serve L w i r = .ok q) :
    q.acts = broadcastActs w (R.polled w i r).rows (chatPacket text r.clientid)
      (w.peer r.sock) := by
  have hid : (r.polled w).clientid ≠ sentinel := by
    rw [Row.polled_clientid]
    intro hs
    exact (Room.request_fits hreq).1 ((hN.named r (List.mem_of_getElem? hr)).undone_iff.mpr hs)
  rw [Room.serve, hreq, ok_bind, Room.respond, if_neg (by simp [hblank]), if_neg hid] at hserve
  rw [Room.acts_of_relayed hserve, Row.polled_sock, Row.polled_clientid, chatPacket]

lemma Room.acts_of_command {text : Bytes} (hreq : R.request L w r = .ok (.command text))
    (hserve : R.serve L w i r = .ok q) :
    (R.polled w i r).commandActs (r.polled w) text = .ok q.acts := by
  rw [Room.serve, hreq, ok_bind, Room.respond] at hserve
  cases hacts : (R.polled w i r).commandActs (r.polled w) text with
  | error e => rw [hacts] at hserve; cases hserve
  | ok acts =>
    rw [hacts] at hserve
    cases hserve
    rfl

lemma Room.acts_of_unknown {text : Bytes} {args : List Bytes} {acts : List Act}
    (hargs : Lexer.lex text (List.replicate Executor.slots []) space = .ok args)
    (hcmd : args.getD 0 [] ∉ commandNames) (h : R.commandActs r text = .ok acts) :
    acts = [.sent r.sock (directPacket
      (ascii "Command " ++ text ++ ascii " was not found. Type /help to get help."))] := by
  simp only [commandNames, List.mem_cons, List.not_mem_nil, or_false, not_or] at hcmd
  rw [Room.commandActs, hargs, ok_bind, if_neg hcmd.1, if_neg hcmd.2.1, if_neg hcmd.2.2] at h
  exact (Except.ok.inj h).symm

/-- A message to a client sends it the text. -/
lemma Room.sent_of_direct {text : Bytes} {args : List Bytes} {acts : List Act} {target : Row}
    (hargs : Lexer.lex text (List.replicate Executor.slots []) space = .ok args)
    (hcmd : args.getD 0 [] = ascii "msg") (h : R.commandActs r text = .ok acts)
    (hmem : target ∈ R.rows) (hid : target.clientid = args.getD 1 [])
    (hs : target.clientid ≠ sentinel) (hother : target.clientid ≠ r.clientid) :
    ∃ target' ∈ R.rows, target'.clientid = target.clientid ∧
      .sent target'.sock (directPacket (directText target.clientid r.clientid args)) ∈ acts := by
  have hhelp : ascii "msg" ≠ ascii "help" := by decide
  have hplugins : ascii "msg" ≠ ascii "plugins" := by decide
  rw [Room.commandActs, hargs, ok_bind, hcmd, if_neg hhelp, if_neg hplugins, if_pos rfl] at h
  rw [← Except.ok.inj h, Room.msgActs, ← hid, if_neg hs, if_neg hother]
  cases hfind : R.rows.find? (·.clientid = target.clientid) with
  | none =>
    rw [List.find?_eq_none] at hfind
    exact absurd (by simp) (hfind target hmem)
  | some target' =>
    refine ⟨target', List.mem_of_find?_eq_some hfind, by simpa using List.find?_some hfind, ?_⟩
    have hcount : 0 < (R.rows.map (·.clientid)).count target.clientid :=
      List.count_pos_iff.mpr (List.mem_map_of_mem hmem)
    exact List.mem_replicate.mpr ⟨hcount.ne', rfl⟩

/-- A `msg` command to another client that has logged in reaches that client. -/
lemma Room.sent_of_msg (hN : R.Named) {text : Bytes} {args : List Bytes} {target : Row}
    (hreq : R.request L w r = .ok (.command text))
    (hserve : R.serve L w i r = .ok q)
    (hargs : Lexer.lex text (List.replicate Executor.slots []) space = .ok args)
    (hcmd : args.getD 0 [] = ascii "msg") (hmem : target ∈ R.rows)
    (hid : target.clientid = args.getD 1 []) (hundone : target.status ≠ .undone)
    (hother : target.clientid ≠ r.clientid) :
    .sent target.sock (directPacket (directText target.clientid r.clientid args)) ∈ q.acts := by
  have hs : target.clientid ≠ sentinel :=
    fun hs => hundone ((hN.named target hmem).undone_iff.mpr hs)
  obtain ⟨t, ht, -, htid, -⟩ := Room.exists_mem_polled w i r hmem
  obtain ⟨t', ht', hid', hact⟩ := Room.sent_of_direct hargs hcmd
    (Room.acts_of_command hreq hserve) ht (htid.trans hid) (htid ▸ hs)
    (by rwa [htid, Row.polled_clientid])
  -- the first client with the alias is the only one
  obtain ⟨t'', ht'', hsock, hid'', -⟩ := Room.mem_polled ht'
  have heq : t'' = target :=
    hN.unique t'' ht'' target hmem (hid''.trans (hid'.trans htid)) (by rwa [hid'', hid', htid])
  rwa [htid, Row.polled_clientid, ← hsock, heq] at hact

/-! ### Broadcasts and who hears them -/

/-- A broadcast that excludes an address reaches the socket `p`. -/
def Hears (w : World) (rows : List Row) (exclude : Endpoint) (p : Sock) : Prop :=
  (p, AuthStatus.done) ∈ rows.map (fun r => (r.sock, r.status)) ∧ w.peer p ≠ exclude

lemma hears_of_mem {rows : List Row} {exclude : Endpoint} {r' : Row} (hmem : r' ∈ rows)
    (hdone : r'.status = .done) (hpeer : w.peer r'.sock ≠ exclude) :
    Hears w rows exclude r'.sock :=
  ⟨List.mem_map.mpr ⟨r', hmem, by rw [hdone]⟩, hpeer⟩

lemma Hears.exists {rows : List Row} {exclude : Endpoint} {p : Sock}
    (h : Hears w rows exclude p) :
    ∃ r' ∈ rows, r'.sock = p ∧ r'.status = .done ∧ w.peer r'.sock ≠ exclude := by
  obtain ⟨r', hmem, heq⟩ := List.mem_map.mp h.1
  obtain ⟨rfl, hdone⟩ := Prod.mk.inj heq
  exact ⟨r', hmem, rfl, hdone, h.2⟩

/-- All who hear a broadcast get its packet, and every other packet is a direct one. -/
structure Relays (w : World) (rows : List Row) (exclude : Endpoint) (acts : List Act) : Prop where
  heard : ∀ data, .broadcast data ∈ acts → ∀ p, Hears w rows exclude p →
    .sent p (.sealed data) ∈ acts
  said : ∀ p d, .sent p (.sealed d) ∈ acts →
    Hears w rows exclude p ∧ .broadcast d ∈ acts ∨ ∃ str, .sealed d = directPacket str

section Relays

variable {rows : List Row} {exclude : Endpoint} {acts : List Act}

/-- Effects without broadcasts, of which every encrypted packet is a direct one. -/
lemma relays_of_direct (hbroadcast : ∀ data, .broadcast data ∉ acts)
    (hdirect : ∀ p d, .sent p (.sealed d) ∈ acts → ∃ str, .sealed d = directPacket str) :
    Relays w rows exclude acts :=
  ⟨fun data h => absurd h (hbroadcast data), fun p d h => .inr (hdirect p d h)⟩

lemma relays_told (p : Sock) (str : Bytes) :
    Relays w rows exclude [.sent p (directPacket str)] := by
  apply relays_of_direct
  · simp
  · intro p' d h
    simp only [List.mem_singleton, Act.sent.injEq] at h
    exact ⟨str, h.2⟩

lemma relays_clear (p : Sock) (bytes : Bytes) :
    Relays w rows exclude [.sent p (.clear bytes)] :=
  relays_of_direct (by simp) (by simp)

lemma relays_registered (u p : Bytes) : Relays w rows exclude [.registered u p] :=
  relays_of_direct (by simp) (by simp)

lemma relays_disconnected (i : ℕ) (reason : DisconnectReason) :
    Relays w rows exclude [.disconnected i reason] :=
  relays_of_direct (by simp) (by simp)

lemma Relays.append {as bs : List Act} (has : Relays w rows exclude as)
    (hbs : Relays w rows exclude bs) : Relays w rows exclude (as ++ bs) where
  heard := by
    intro data h p hp
    rw [List.mem_append] at h ⊢
    exact h.imp (fun h => has.heard data h p hp) fun h => hbs.heard data h p hp
  said := by
    intro p d h
    rw [List.mem_append] at h ⊢
    rcases h with h | h
    · exact (has.said p d h).imp_left fun h => ⟨h.1, .inl h.2⟩
    · exact (hbs.said p d h).imp_left fun h => ⟨h.1, .inr h.2⟩

/-- A broadcast goes by the sockets and statuses of the rows only. -/
lemma relays_broadcastActs {rows' : List Row} (hrows :
      rows'.map (fun r => (r.sock, r.status)) = rows.map fun r => (r.sock, r.status))
    (data : Bytes) : Relays w rows exclude (broadcastActs w rows' data exclude) where
  heard := by
    intro data' h p hp
    have hp' : Hears w rows' exclude p := by rwa [Hears, hrows]
    obtain ⟨r', hmem, rfl, hdone, hpeer⟩ := hp'.exists
    rcases mem_broadcastActs h with heq | ⟨_, _, _, _, heq⟩
    · cases heq
      refine List.mem_cons_of_mem _ (List.mem_map_of_mem (f := fun r : Row =>
        Act.sent r.sock (.sealed (cstr data))) (mem_recipients.mpr ⟨hmem, hdone, hpeer⟩))
    · cases heq
  said := by
    intro p d h
    rcases mem_broadcastActs h with heq | ⟨r', hmem, hdone, hpeer, heq⟩
    · cases heq
    · cases heq
      refine .inl ⟨?_, List.mem_cons_self⟩
      rw [Hears, ← hrows]
      exact hears_of_mem hmem hdone hpeer

end Relays

lemma Room.relays_joinActs (a : Bytes) :
    Relays w R.rows (w.peer r.sock) (R.joinActs w i r a) :=
  relays_broadcastActs (Room.rename_same a) _

lemma Room.relays_disconnectActs (reason : DisconnectReason) :
    Relays w R.rows (w.peer r.sock) (R.disconnectActs w i r reason) :=
  (relays_broadcastActs rfl _).append (relays_disconnected i reason)

lemma Room.relays_relayed {text : Bytes} (h : R.relayed w i r text = .ok q) :
    Relays w R.rows (w.peer r.sock) q.acts := by
  rw [Room.acts_of_relayed h]
  exact relays_broadcastActs rfl _

lemma Room.relays_commandActs {text : Bytes} {acts : List Act} {exclude : Endpoint}
    (h : R.commandActs r text = .ok acts) : Relays w R.rows exclude acts := by
  have hmsg : ∀ args, Relays w R.rows exclude (R.msgActs r args) := by
    intro args
    rw [Room.msgActs]
    split_ifs
    · exact relays_of_direct (by simp) (by simp)
    · exact relays_told _ _
    · cases R.rows.find? (·.clientid = args.getD 1 []) with
      | none => exact relays_of_direct (by simp) (by simp)
      | some target =>
        apply relays_of_direct
        · intro data hmem
          cases List.eq_of_mem_replicate hmem
        · intro p d hmem
          have heq := List.eq_of_mem_replicate hmem
          rw [Act.sent.injEq] at heq
          exact ⟨_, heq.2⟩
  rw [Room.commandActs] at h
  obtain ⟨args, -, h⟩ := bind_eq_ok h
  split_ifs at h <;> cases h
  · exact relays_told _ _
  · exact relays_told _ _
  · exact hmsg args
  · exact relays_told _ _

lemma Room.respond_relays (h : R.respond L w i r req = .ok q) :
    Relays w R.rows (w.peer r.sock) q.acts := by
  have hnone : Relays w R.rows (w.peer r.sock) [] := relays_of_direct (by simp) (by simp)
  have hdrop : ∀ reason, Relays w R.rows (w.peer r.sock) ([] ++ R.disconnectActs w i r reason) :=
    fun reason => hnone.append (R.relays_disconnectActs reason)
  cases req with
  | leave | spam | garbledLogin | wrongPassword | illegal =>
    cases h
    exact hdrop _
  | idle =>
    cases h
    exact hnone
  | unreadable =>
    cases h
    exact relays_told _ _
  | login u =>
    rw [Room.respond] at h
    split_ifs at h
    · cases h
      exact (R.relays_joinActs u).append (relays_clear _ _)
    · cases h
      exact hdrop _
  | register u p =>
    rw [Room.respond] at h
    split_ifs at h
    · cases h
      exact (((R.relays_joinActs u).append (relays_registered u p)).append
        (relays_broadcastActs (Room.rename_same u) _)).append (relays_clear _ _)
    · cases h
      exact hdrop _
  | key n =>
    rw [Room.respond] at h
    cases hct : ((R.insertKey r.sock n).keys r.sock).bind fun n => L.rsaEncrypt n serverKey with
    | none =>
      rw [hct] at h
      cases h
      exact hdrop _
    | some ciphertext =>
      rw [hct] at h
      cases h
      exact relays_clear _ _
  | chat text =>
    rw [Room.respond] at h
    split_ifs at h
    · cases h
      exact (relays_told _ _).append (R.relays_disconnectActs _)
    · cases h
      exact hdrop _
    · exact Room.relays_relayed h
  | rename a =>
    rw [Room.respond] at h
    split_ifs at h
    · cases h
      exact R.relays_joinActs a
    · cases h
      exact hdrop _
  | console =>
    rw [Room.respond] at h
    exact Room.relays_relayed h
  | command text =>
    rw [Room.respond] at h
    obtain ⟨acts, hacts, h⟩ := bind_eq_ok h
    cases h
    exact Room.relays_commandActs hacts

/-- What a poll broadcasts is sent to all who hear it, and all else it encrypts is direct. -/
theorem Room.serve_relays (h : R.serve L w i r = .ok q) :
    Relays w R.rows (w.peer r.sock) q.acts := by
  obtain ⟨req, -, h⟩ := bind_eq_ok h
  have hpolled := Room.respond_relays h
  have hsame : ((R.polled w i r).rows.map fun r => (r.sock, r.status)) =
      R.rows.map fun r => (r.sock, r.status) := by
    have hmap := congrArg (List.map fun x : Sock × Bytes × AuthStatus => (x.1, x.2.2))
      (Room.polled_same (R := R) (w := w) (i := i) (r := r))
    simpa [List.map_map, Function.comp_def] using hmap
  rw [Row.polled_sock] at hpolled
  have hhears : ∀ p, Hears w (R.polled w i r).rows (w.peer r.sock) p ↔
      Hears w R.rows (w.peer r.sock) p := fun p => by rw [Hears, hsame, Hears]
  constructor
  · exact fun data hdata p hp => hpolled.heard data hdata p ((hhears p).mpr hp)
  · exact fun p d hd => (hpolled.said p d hd).imp_left fun hp => ⟨(hhears p).mp hp.1, hp.2⟩

end OpenSimp
