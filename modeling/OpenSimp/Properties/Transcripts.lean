import Mathlib.Data.List.Flatten
import OpenSimp.Properties.Conduct
import OpenSimp.Properties.Views

/-!
# What users see of each other

The window of a user of the Rust client shows what this user typed, and the others are shown a part
of it: the messages that the server read, in their order, none of them twice and none that was not
typed. As long as both stay, the others are shown all of these messages.
-/

namespace OpenSimp

open Bytes FaultState System ServerNetwork Utf8
open scoped List

variable {R : Room} {L : Library} {w : World} {i n m : ℕ} {r : Row} {req : Request} {q : Reply}
  {uname passwd text d : Bytes}

/-- The user that a packet is shown with. -/
def Rust.Packet.sender : Rust.Packet → Option Bytes
  | .messagePacket username _ => some username
  | _ => none

/-- The line for the plaintext `d` if it is a message of the user `uname`. -/
def lineFrom (uname d : Bytes) : Option Bytes :=
  ((Rust.parsePacket d).filter fun packet => packet.sender = some uname).map Rust.Packet.line

/-- The lines of the user `uname` that a step sends to the connection `m`. -/
def linesFrom (uname : Bytes) (m : ℕ) (st : Step Config Event Obs) : List Bytes :=
  (sealedOn m st).filterMap (lineFrom uname)

/-- The line for a message that the user `uname` sends as the plaintext. -/
def lineOf (uname : Bytes) : Bytes → Option Bytes
  | 48 :: text => some (Rust.messageLine uname text)
  | _ => none

/-- The line for a message that is read from the user `uname`. -/
def lineRead (L : Library) (uname data : Bytes) : Option Bytes :=
  match Cryptography.decrypt L data serverKey with
  | .error _ => none
  | .ok (_, d) => lineOf uname d

/-- In the step the client on the connection `n` stays, while that on the connection `m` is
there. -/
def together (n m : ℕ) (st : Step Config Event Obs) : Bool :=
  st.pre.isDone n && st.post.isDone n && st.pre.isDone m

/-! ### What is typed -/

/-- The lines of what is sent are among those that are inserted. -/
lemma Rust.lineOf_of_sends {line l : Bytes} (h : Rust.Sends uname line d)
    (hl : lineOf uname d = some l) : l = line := by
  cases h with
  | console => cases hl
  | command command => cases hl
  | chat text hline =>
    rw [hline]
    exact (Option.some.inj hl).symm

lemma filterMap_sublist_of_entries {entries : List (Bytes × Option Bytes)}
    {f : Bytes → Option Bytes}
    (h : ∀ line d l, (line, some d) ∈ entries → f d = some l → l = line) :
    (entries.filterMap Prod.snd).filterMap f <+ entries.map Prod.fst := by
  induction entries with
  | nil => exact List.Sublist.refl []
  | cons entry entries ih =>
    have ih := ih fun line d l hmem => h line d l (List.mem_cons_of_mem _ hmem)
    obtain ⟨line, sent⟩ := entry
    rw [List.map_cons]
    cases sent with
    | none => exact ih.cons line
    | some d =>
      have hsnd : ((line, some d) :: entries).filterMap Prod.snd =
          d :: entries.filterMap Prod.snd := rfl
      rw [hsnd]
      cases hf : f d with
      | none =>
        rw [List.filterMap_cons_none hf]
        exact ih.cons line
      | some l =>
        rw [List.filterMap_cons_some hf, h line d l List.mem_cons_self hf]
        exact ih.cons_cons line

lemma filterMap_singleton {α β : Type*} (f : α → Option β) (x : α) :
    [x].filterMap f = (f x).toList := by
  cases h : f x with
  | none => rw [List.filterMap_cons_none h]; rfl
  | some y => rw [List.filterMap_cons_some h]; rfl

lemma lineRead_of_opens {data : Bytes} (h : Opens L d data) :
    lineRead L uname data = lineOf uname d := by
  obtain ⟨iv, hdec⟩ := h
  rw [lineRead, hdec]

lemma lineRead_eq_some {data l : Bytes} (h : lineRead L uname data = some l) :
    ∃ text, Opens L (48 :: text) data ∧ l = Rust.messageLine uname text := by
  rw [lineRead] at h
  split at h
  · cases h
  · next iv d hdec =>
    rw [lineOf.eq_def] at h
    split at h
    · next text =>
      exact ⟨text, ⟨iv, hdec⟩, (Option.some.inj h).symm⟩
    · cases h

lemma filterMap_of_opens {plaintexts packets : List Bytes}
    (h : List.Forall₂ (Opens L) plaintexts packets) :
    packets.filterMap (lineRead L uname) = plaintexts.filterMap (lineOf uname) := by
  induction h with
  | nil => rfl
  | cons hopens _ ih => rw [List.filterMap_cons, List.filterMap_cons, lineRead_of_opens hopens, ih]

lemma filterMap_flatMap_readOn (steps : List (Step Config Event Obs)) :
    steps.flatMap (fun st => (readOn n st).filterMap (lineRead L uname)) =
      (readsOn n steps).filterMap (lineRead L uname) := List.filterMap_flatMap.symm

/-- The messages that are read are among those that were typed. -/
lemma Follows.lines {uwuify : Bool} {messages : List (List Char)} {reads : List Bytes}
    (h : Follows L uname passwd ((Rust.typing uname uwuify messages).filterMap Prod.snd) reads) :
    (reads.drop 2).filterMap (lineRead L uname) <+
      (Rust.typing uname uwuify messages).map Prod.fst := by
  obtain ⟨packets, hopens, hinit⟩ := h.packets
  refine (hinit.sublist.filterMap _).trans ?_
  rw [filterMap_of_opens hopens]
  refine filterMap_sublist_of_entries fun line d l hmem hl => ?_
  obtain ⟨uwuify, message, -, hsent, rfl⟩ := Rust.exists_sendMessage_of_typing hmem
  exact Rust.lineOf_of_sends (Rust.sends_of_sendMessage hsent) hl

lemma typed_of_typing {uwuify : Bool} {messages : List (List Char)}
    (h : d ∈ (Rust.typing uname uwuify messages).filterMap Prod.snd) : Typed d := by
  obtain ⟨⟨line, sent⟩, hmem, rfl⟩ := List.mem_filterMap.mp h
  obtain ⟨uwuify, message, -, hsent, -⟩ := Rust.exists_sendMessage_of_typing hmem
  exact .inl ⟨uwuify, message, hsent⟩

/-- What is typed without a NUL can be read. -/
lemma readable_of_typing {c : Byte} (hc : c < 0x80) {uwuify : Bool} {messages : List (List Char)}
    (hnul : ∀ message ∈ messages, Char.ofNat 0 ∉ message)
    (h : c :: text ∈ (Rust.typing uname uwuify messages).filterMap Prod.snd) :
    (0 : Byte) ∉ text ∧ Valid text := by
  obtain ⟨⟨line, sent⟩, hmem, rfl⟩ := List.mem_filterMap.mp h
  obtain ⟨uwuify, message, hmessage, hsent, -⟩ := Rust.exists_sendMessage_of_typing hmem
  obtain ⟨s, hs, hfree⟩ := Rust.exists_intoBytes_of_sendMessage hsent
  constructor
  · have hbytes := Rust.nul_not_mem_intoBytes (hfree (hnul message hmessage))
    rw [← hs] at hbytes
    exact fun hmem => hbytes (List.mem_cons_of_mem _ hmem)
  · have hvalid : Valid (c :: text) := hs ▸ valid_flatMap_utf8EncodeChar s
    have hascii : IsAscii [c] := fun c' hc' => List.mem_singleton.mp hc' ▸ hc
    exact (valid_append_of_isAscii_left hascii text).mp hvalid

/-! ### What is shown -/

lemma lineFrom_field {starter : Bytes}
    (hstarter : starter ∈ [ascii "1", ascii "2", ascii "5", ascii "6"]) (field : Bytes) :
    lineFrom uname (cstr (starter ++ [separator] ++ field)) = none := by
  have h0 : (0 : Byte) ∉ starter ++ [separator] := by
    revert starter
    decide
  rw [lineFrom, cstr_append h0, List.append_assoc, List.singleton_append,
    Rust.parsePacket_field hstarter]
  split_ifs
  · simp only [List.mem_cons, List.not_mem_nil, or_false] at hstarter
    rcases hstarter with rfl | rfl | rfl | rfl <;> rfl
  · rfl

lemma lineFrom_chatPacket {clientid : Bytes} (htext : separator ∉ cstr text)
    (hid : ValidAlias clientid) :
    lineFrom uname (cstr (chatPacket text clientid)) =
      if ((0 : Byte) ∉ text ∧ Valid text) ∧ clientid = uname then
        some (Rust.messageLine uname text) else none := by
  rw [lineFrom, parsePacket_chat htext hid]
  by_cases hread : (0 : Byte) ∉ text ∧ Valid text
  · by_cases hname : clientid = uname
    · rw [if_pos hread, if_pos ⟨hread, hname⟩, hname]
      simp [Rust.Packet.sender, Rust.Packet.line]
    · rw [if_pos hread, if_neg fun h => hname h.2]
      simp [Rust.Packet.sender, hname]
  · rw [if_neg hread, if_neg fun h => hread h.1]
    rfl

/-- Nothing but a message that is let through has a sender. -/
lemma Room.Emission.lineFrom {p : Sock} (h : R.Emission L w i r req (.sent p (.sealed d)))
    (hchat : ∀ text, req = .chat text → isBlank (cstr text) = true) : lineFrom uname d = none := by
  cases h with
  | announced hannounces =>
    cases hannounces with
    | leave =>
      rw [List.append_assoc]
      exact lineFrom_field (by simp) _
    | join ha =>
      rw [joinMessage, List.append_assoc]
      exact lineFrom_field (by simp) _
    | welcome hu => exact lineFrom_field (by simp) _
    | chat hblank => cases hblank.symm.trans (hchat _ rfl)
    | console => rfl
  | told => exact lineFrom_field (by simp) _

/-! ### Polls -/

/-- What a poll encrypts for a connection goes to the socket of its row. -/
lemma Room.sealedOn_serve (hr : R.rows[i]? = some r) (hserve : R.serve L w i r = .ok q) {e : Event}
    {a b : Bool} :
    sealedOn m ⟨R.config, e, ⟨q.acts, a, b⟩, q.room.config⟩ = [] ∨
      ∃ r' ∈ R.rows, r'.conn = m ∧
        sealedOn m ⟨R.config, e, ⟨q.acts, a, b⟩, q.room.config⟩ =
          plaintexts (sentTo r'.sock q.acts) := by
  by_cases hm : ∃ r' ∈ R.rows, r'.conn = m
  · obtain ⟨r', hr', rfl⟩ := hm
    refine .inr ⟨r', hr', rfl, ?_⟩
    rw [sealedOn, sentOn_of_mem hr']
  · refine .inl ?_
    have hnot : ∀ r' ∈ R.rows, r'.conn ≠ m := fun r' hr' hconn => hm ⟨r', hr', hconn⟩
    rw [sealedOn, sentOn_of_not_mem hnot]
    · rfl
    · intro r' hr' hconn
      obtain ⟨r'', hr'', hconn'⟩ := Room.exists_conn_of_serve hr hserve hr'
      exact hnot r'' hr'' (hconn'.trans hconn)

/-- Nobody is sent a broadcast twice. -/
lemma plaintexts_broadcastActs_sublist (p : Sock) (data : Bytes) (exclude : Endpoint) :
    plaintexts (sentTo p (broadcastActs w (R.polled w i r).rows data exclude)) <+
      [cstr data] := by
  have hlength : ((recipients w (R.polled w i r).rows exclude).filter fun r => r.sock = p).length
      ≤ 1 := by
    have hnodup := nodup_recipients (R := R.polled w i r) (w := w) exclude
    rw [← List.countP_eq_length_filter]
    have hcount := List.nodup_iff_count_le_one.mp hnodup p
    rw [List.count, List.countP_map] at hcount
    refine le_of_eq_of_le (List.countP_congr fun r _ => ?_) hcount
    simp
  rw [sentTo_broadcastActs, plaintexts, List.filterMap_map]
  generalize ((recipients w (R.polled w i r).rows exclude).filter fun r => r.sock = p) = rows
    at hlength
  rcases rows with _ | ⟨row, _ | ⟨row', rows⟩⟩
  · exact List.nil_sublist _
  · exact List.Sublist.refl _
  · simp at hlength

/-- A poll shows nothing under a name but a message that was read from the client with this
alias. -/
lemma Room.linesFrom_serve_or (hN : R.Named) (hr : R.rows[i]? = some r)
    (hserve : R.serve L w i r = .ok q) {st : System.Step Config Event Obs}
    (hst : st = ⟨R.config, .receive i w, ⟨q.acts, q.useAfterFree, false⟩, q.room.config⟩)
    (uname : Bytes) (m : ℕ) :
    linesFrom uname m st = [] ∨ (r.status = .done ∧ r.clientid = uname) ∧
      linesFrom uname m st <+ (readOn r.conn st).filterMap (lineRead L uname) := by
  obtain ⟨req, hreq, -⟩ := Room.serve_outcome hserve
  have hmem := List.mem_of_getElem? hr
  have hsealed := Room.sealedOn_serve (m := m) hr hserve (e := .receive i w)
    (a := q.useAfterFree) (b := false)
  rw [← hst] at hsealed
  rcases hsealed with hnil | ⟨r', hr', -, hsealed⟩
  · rw [linesFrom, hnil]
    exact .inl rfl
  · by_cases hchat : ∃ text, req = .chat text ∧ isBlank (cstr text) = false
    · obtain ⟨text, rfl, hblank⟩ := hchat
      have hrdone : r.status = .done :=
        (hN.named r hmem).eq_done (Room.request_fits hreq).1 (Room.request_fits hreq).2
      have hvalid : ValidAlias r.clientid :=
        (hN.named r hmem).valid fun hs => by cases hs.symm.trans hrdone
      have hone : linesFrom uname m st <+
          [cstr (chatPacket text r.clientid)].filterMap (lineFrom uname) := by
        rw [linesFrom, hsealed, Room.acts_of_chat hN hr hreq hblank hserve]
        exact (plaintexts_broadcastActs_sublist _ _ _).filterMap _
      rw [filterMap_singleton, lineFrom_chatPacket (Room.request_chat hreq) hvalid] at hone
      split_ifs at hone with hshown
      · refine .inr ⟨⟨hrdone, hshown.2⟩, hone.trans ?_⟩
        obtain ⟨d, hsends, hd⟩ := Room.request_sends hrdone hreq (by simp [Request.Unpacked])
        obtain ⟨rfl, -⟩ := requestOfPlaintext_chat hd
        obtain ⟨iv, hdec⟩ := hsends.decrypted
        have hread : readOn r.conn st = [w.data] := by
          rw [hst, Room.readOn_self hr, World.poll, if_neg hsends.still_open,
            if_neg (ne_nil_of_decrypt hdec)]
          rfl
        rw [hread, filterMap_singleton, lineRead_of_opens ⟨iv, hdec⟩]
        exact List.Sublist.refl _
      · exact .inl (List.sublist_nil.mp hone)
    · refine .inl (List.filterMap_eq_nil_iff.mpr fun d hd => ?_)
      rw [hsealed, mem_plaintexts] at hd
      refine (Room.serve_emission hr hreq hserve hd).lineFrom fun text htext => ?_
      by_contra hblank
      exact hchat ⟨text, htext, Bool.eq_false_iff.mpr hblank⟩

/-- What a poll shows of a user that is there was read from this user. -/
lemma Room.linesFrom_serve (hN : R.Named) (hr : R.rows[i]? = some r)
    (hserve : R.serve L w i r = .ok q) {t : Row} (ht : t ∈ R.rows) (hdone : t.status = .done)
    {st : System.Step Config Event Obs}
    (hst : st = ⟨R.config, .receive i w, ⟨q.acts, q.useAfterFree, false⟩, q.room.config⟩) :
    linesFrom t.clientid m st <+ (readOn t.conn st).filterMap (lineRead L t.clientid) := by
  rcases Room.linesFrom_serve_or hN hr hserve hst t.clientid m with hnone | ⟨⟨-, hid⟩, hlines⟩
  · rw [hnone]
    exact List.nil_sublist _
  · -- the alias is that of `t` alone
    have hmem := List.mem_of_getElem? hr
    have hne : t.clientid ≠ sentinel := fun hs => by
      cases hdone.symm.trans ((hN.named t ht).undone_iff.mpr hs)
    cases hN.unique t ht r hmem hid.symm hne
    exact hlines

/-- A message that is read from a client that stays is a chat request that is not blank. -/
lemma Room.request_of_lineRead (hr : R.rows[i]? = some r) (hdone : r.status = .done)
    (hserve : R.serve L w i r = .ok q) (hstays : q.room.config.isDone r.conn = true)
    (hopen : w.status ≠ .disconnected) {iv : Bytes}
    (hdec : Cryptography.decrypt L w.data serverKey = .ok (iv, 48 :: text)) :
    R.request L w r = .ok (.chat text) ∧ isBlank (cstr text) = false := by
  obtain ⟨req, hreq, -⟩ := Room.serve_outcome hserve
  have hkept := (Room.isDone_serve_self hr hdone hreq hserve).mp hstays
  have hspam : ¬ asMilliseconds (w.now - r.interval) ≤ 20 := by
    intro hspam
    rw [Room.request, if_neg hopen, if_neg (ne_nil_of_decrypt hdec),
      if_pos ⟨hdone, hspam⟩] at hreq
    cases hreq
    exact hkept trivial
  have hreq' := Room.request_of_sends (R := R) ⟨hdone, hopen, hspam, iv, hdec⟩
  cases hreq.symm.trans hreq'
  by_cases hadm : Admissible (48 :: text)
  · rw [requestOfPlaintext_of_chat hadm] at hkept hreq
    exact ⟨hreq, Bool.eq_false_iff.mpr fun hblank => hkept (.inl hblank)⟩
  · rw [requestOfPlaintext_of_not_admissible hadm] at hkept
    exact absurd trivial hkept

/-- As long as both clients stay, the other is shown what is read from one if it can be read. -/
lemma Room.linesFrom_serve_eq (hN : R.Named) (hr : R.rows[i]? = some r)
    (hserve : R.serve L w i r = .ok q) {t : Row} (ht : t ∈ R.rows) (hdone : t.status = .done)
    {st : System.Step Config Event Obs}
    (hst : st = ⟨R.config, .receive i w, ⟨q.acts, q.useAfterFree, false⟩, q.room.config⟩)
    (hpeers : R.config.DistinctPeers w) (hne : t.conn ≠ m) (hboth : together t.conn m st = true)
    (hreads : ∀ data ∈ readOn t.conn st, ∀ text, Opens L (48 :: text) data →
      (0 : Byte) ∉ text ∧ Valid text) :
    linesFrom t.clientid m st = (readOn t.conn st).filterMap (lineRead L t.clientid) := by
  have hsub := Room.linesFrom_serve (m := m) hN hr hserve ht hdone hst
  cases hlines : (readOn t.conn st).filterMap (lineRead L t.clientid) with
  | nil =>
    rw [hlines] at hsub
    exact List.sublist_nil.mp hsub
  | cons l ls =>
    have hmem : l ∈ (readOn t.conn st).filterMap (lineRead L t.clientid) :=
      hlines ▸ List.mem_cons_self
    obtain ⟨data, hdata, hl⟩ := List.mem_filterMap.mp hmem
    -- only a poll of its own row reads something from the client
    have hconn : r.conn = t.conn := by
      by_contra hconn
      rw [hst, Room.readOn_other hr hconn] at hdata
      cases hdata
    have heq := List.eq_of_map_nodup R.nodup_conn (List.mem_of_getElem? hr) ht hconn
    subst heq
    have hopen : readOn r.conn st = [w.data] ∧ w.status ≠ .disconnected := by
      obtain ⟨req, hreq, -⟩ := Room.serve_outcome hserve
      rw [hst, Room.readOn_self hr] at hdata ⊢
      rcases Room.data_poll hreq with ⟨hpoll, hread⟩ | ⟨hpoll, -⟩
      · exact ⟨hpoll, ((Room.request_read_iff hreq).mp hread).1⟩
      · rw [hpoll] at hdata
        cases hdata
    obtain ⟨hread, hopen⟩ := hopen
    rw [hread] at hdata hlines
    cases List.mem_singleton.mp hdata
    obtain ⟨text, hopens, rfl⟩ := lineRead_eq_some hl
    have hreadable := hreads w.data (hread ▸ List.mem_singleton_self _) text hopens
    obtain ⟨iv, hdec⟩ := hopens
    simp only [together, hst, Bool.and_eq_true] at hboth
    obtain ⟨⟨-, hstays⟩, hother⟩ := hboth
    obtain ⟨hreq, hblank⟩ := Room.request_of_lineRead hr hdone hserve hstays hopen hdec
    obtain ⟨r', hr', rfl, hdone'⟩ := Room.isDone_iff.mp hother
    obtain ⟨k, hk⟩ := List.mem_iff_getElem?.mp hr'
    have hki : k ≠ i := by
      rintro rfl
      cases hr.symm.trans hk
      exact hne rfl
    have hvalid : ValidAlias r.clientid :=
      (hN.named r ht).valid fun hs => by cases hs.symm.trans hdone
    have hsealed : sealedOn r'.conn st = [cstr (chatPacket text r.clientid)] := by
      rw [hst, sealedOn, sentOn_of_mem hr', Room.acts_of_chat hN hr hreq hblank hserve,
        sentTo_other hr hpeers hk hki hdone']
      rfl
    rw [linesFrom, hsealed, filterMap_singleton,
      lineFrom_chatPacket (Room.request_chat hreq) hvalid, if_pos ⟨hreadable, rfl⟩, ← hlines,
      filterMap_singleton, hl]

/-! ### Runs -/

lemma Follows.of_prefix {plaintexts reads reads' : List Bytes}
    (h : Follows L uname passwd plaintexts reads) (hinit : reads' <+: reads) :
    Follows L uname passwd plaintexts reads' where
  head := by
    intro login hlogin
    obtain ⟨rest, rfl⟩ := hinit
    apply h.head
    rw [List.head?_append, hlogin]
    rfl
  packets := by
    obtain ⟨packets, hopens, hreads⟩ := h.packets
    exact ⟨packets, hopens, (hinit.drop 2).trans hreads⟩

/-- In every step the client that follows has its own alias. -/
lemma Room.clientid_of_mem {userdata : Bytes} {rsteps : List (System.Step Room Event Obs)}
    (h : (room L).Run (Room.init userdata) rsteps R) {plaintexts : List Bytes}
    (hu : separator ∉ uname) (hfollows : Follows L uname passwd plaintexts
      (readsOn n (rsteps.map (Step.map Room.config))))
    (htyped : ∀ d ∈ plaintexts, Typed d) {rst : System.Step Room Event Obs} (hrst : rst ∈ rsteps)
    {t : Row} (ht : t ∈ rst.pre.rows) (hconn : t.conn = n) (hdone : t.status = .done) :
    t.clientid = uname := by
  obtain ⟨before, after, rfl⟩ := List.append_of_mem hrst
  obtain ⟨hbefore, -⟩ := h.split rfl
  subst hconn
  rw [List.map_append, readsOn_append] at hfollows
  exact ((Room.heard_of_run hbefore).clientid_eq ht (by rw [hdone]; simp) hu
    (hfollows.of_prefix (List.prefix_append _ _)) htyped).1

/-- A step that is no poll shows and reads nothing. -/
lemma Room.silent_or_serve {rst : System.Step Room Event Obs}
    (h : (room L).step rst.pre rst.event rst.obs rst.post) :
    (∀ uname m n, linesFrom uname m (Step.map Room.config rst) = [] ∧
        readOn n (Step.map Room.config rst) = []) ∨
      ∃ i w r q, rst.pre.rows[i]? = some r ∧ rst.pre.serve L w i r = .ok q ∧
        Step.map Room.config rst = ⟨rst.pre.config, .receive i w, ⟨q.acts, q.useAfterFree, false⟩,
          q.room.config⟩ := by
  obtain ⟨S, e, o, S'⟩ := rst
  have hstep : Room.Step L S e o S' := h
  cases hstep with
  | accepted hp hstatus =>
    refine .inl fun uname m n => ⟨?_, rfl⟩
    rw [linesFrom, Step.map, sealedOn_accept (.inl rfl)]
    rfl
  | @declined p _ _ _ =>
    refine .inl fun uname m n => ⟨?_, rfl⟩
    rw [linesFrom, Step.map, sealedOn_accept (L := L) (p := p) (.inr rfl)]
    rfl
  | served hr hserve => exact .inr ⟨_, _, _, _, hr, hserve, rfl⟩

/-- Whatever the other clients send, another user is shown a part of what the user of the Rust
client has typed. -/
lemma Follows.linesFrom_sublist {userdata : Bytes} {steps : List (Step Config Event Obs)}
    {c : Config} (h : (server L).Run (Config.init userdata) steps c) {messages : List (List Char)}
    (hu : separator ∉ uname)
    (hfollows : Follows L uname passwd ((Rust.typing uname false messages).filterMap Prod.snd)
      (readsOn n steps)) (m : ℕ) :
    (steps.filter fun st => st.pre.isDone n).flatMap (linesFrom uname m) <+
      (Rust.typing uname false messages).map Prod.fst := by
  obtain ⟨rsteps, R, hrun, rfl, rfl⟩ := run_lift h
  have hlines := hfollows.lines
  rw [(Room.heard_of_run hrun).packets, packetsOn, ← filterMap_flatMap_readOn] at hlines
  refine (List.Sublist.flatMap_right _ fun st hst => ?_).trans hlines
  obtain ⟨hmem, hpre⟩ := List.mem_filter.mp hst
  obtain ⟨rst, hrst, rfl⟩ := List.mem_map.mp hmem
  obtain ⟨t, ht, hconn, hdone⟩ := Room.isDone_iff.mp hpre
  have hid := Room.clientid_of_mem hrun hu hfollows (fun d => typed_of_typing) hrst ht hconn hdone
  obtain ⟨hreach, hstep⟩ := hrun.of_mem hrst
  rcases Room.silent_or_serve hstep with hsilent | ⟨i, w, r, q, hr, hserve, heq⟩
  · rw [(hsilent uname m n).1]
    exact List.nil_sublist _
  · subst hconn hid
    exact Room.linesFrom_serve (Room.named_of_reachable hreach) hr hserve ht hdone heq

/-- In a step in which both clients stay, another user is shown what the server reads from the user
of the Rust client. -/
lemma Follows.linesFrom_eq {userdata : Bytes} {steps : List (System.Step Config Event Obs)}
    {c : Config} (h : (server L).Run (Config.init userdata) steps c)
    (hpeers : ∀ st ∈ steps, st.event.DistinctPeers st.pre) {messages : List (List Char)}
    (hnul : ∀ message ∈ messages, Char.ofNat 0 ∉ message) (hu : separator ∉ uname)
    (hfollows : Follows L uname passwd ((Rust.typing uname false messages).filterMap Prod.snd)
      (readsOn n steps)) (hne : n ≠ m) {st : System.Step Config Event Obs} (hst : st ∈ steps)
    (hboth : together n m st = true) :
    linesFrom uname m st = (readOn n st).filterMap (lineRead L uname) := by
  obtain ⟨rsteps, R, hrun, rfl, rfl⟩ := run_lift h
  have hpre : st.pre.isDone n = true := by
    rw [together, Bool.and_eq_true, Bool.and_eq_true] at hboth
    exact hboth.1.1
  have hreads : ∀ data ∈ readOn n st, ∀ text, Opens L (48 :: text) data →
      (0 : Byte) ∉ text ∧ Valid text := by
    intro data hdata text hopens
    have hin : data ∈ packetsOn n (rsteps.map (Step.map Room.config)) :=
      List.mem_flatMap.mpr ⟨st, List.mem_filter.mpr ⟨hst, hpre⟩, hdata⟩
    rw [← (Room.heard_of_run hrun).packets] at hin
    obtain ⟨d, hd, hopens'⟩ := hfollows.exists_opens hin
    rw [hopens'.eq hopens] at hd
    exact readable_of_typing (by decide) hnul hd
  have hpeer := hpeers st hst
  obtain ⟨rst, hrst, rfl⟩ := List.mem_map.mp hst
  obtain ⟨t, ht, hconn, hdone⟩ := Room.isDone_iff.mp hpre
  have hid := Room.clientid_of_mem hrun hu hfollows (fun d => typed_of_typing) hrst ht hconn hdone
  obtain ⟨hreach, hstep⟩ := hrun.of_mem hrst
  rcases Room.silent_or_serve hstep with hsilent | ⟨i, w, r, q, hr, hserve, heq⟩
  · rw [(hsilent uname m n).1, (hsilent uname m n).2]
    rfl
  · rw [heq] at hpeer
    subst hconn hid
    exact Room.linesFrom_serve_eq (Room.named_of_reachable hreach) hr hserve ht hdone heq hpeer hne
      hboth hreads

/-- While its user is not there, nothing is shown under an alias that nobody else has. -/
lemma linesFrom_of_not_isDone {userdata : Bytes} {steps : List (System.Step Config Event Obs)}
    {c : Config} (h : (server L).Run (Config.init userdata) steps c)
    {st : System.Step Config Event Obs} (hst : st ∈ steps)
    (hown : ∀ k r, st.pre.row? k = some r → r.status = .done → r.clientid = uname → r.conn = n)
    (haway : st.pre.isDone n = false) (m : ℕ) : linesFrom uname m st = [] := by
  obtain ⟨rsteps, R, hrun, rfl, rfl⟩ := run_lift h
  obtain ⟨rst, hrst, rfl⟩ := List.mem_map.mp hst
  obtain ⟨hreach, hstep⟩ := hrun.of_mem hrst
  rcases Room.silent_or_serve hstep with hsilent | ⟨i, w, r, q, hr, hserve, heq⟩
  · exact (hsilent uname m n).1
  · have hN := Room.named_of_reachable hreach
    rcases Room.linesFrom_serve_or hN hr hserve heq uname m with hnone | ⟨⟨hdone, hid⟩, -⟩
    · exact hnone
    · have hconn := hown _ _ ((Room.config_row? _ _).trans hr) hdone hid
      subst hconn
      have hhere : rst.pre.config.isDone r.conn = true :=
        (Room.isDone_of_mem (List.mem_of_getElem? hr)).mpr hdone
      cases hhere.symm.trans haway

/-- What Carol types: a message, and that she leaves. -/
def Toy.typesHi : List (List Char) := ["hi".toList, ".leave".toList]

lemma Toy.follows_typesHi {steps : List (System.Step Config Event Obs)}
    (hreads : readsOn 2 steps =
      [logsIn (ascii "carol") (ascii "pw"), modulus, seals (ascii "0hi")]) :
    Follows toy (ascii "carol") (ascii "pw")
      ((Rust.typing (ascii "carol") false typesHi).filterMap Prod.snd) (readsOn 2 steps) := by
  have hsent : (Rust.typing (ascii "carol") false typesHi).filterMap Prod.snd = [ascii "0hi"] := by
    decide +kernel
  rw [hsent, hreads]
  exact follows_carolChats

/-- If no two clients have the same address, another user is shown all messages that the server
reads from the user of the Rust client in the steps before which both are there and through which
this user stays. -/
theorem transcripts_complete (L : Library) (userdata : Bytes)
    {steps : List (System.Step Config Event Obs)} {c : Config}
    (h : (server L).Run (Config.init userdata) steps c)
    (hpeers : ∀ st ∈ steps, st.event.DistinctPeers st.pre) {messages : List (List Char)}
    (hnul : ∀ message ∈ messages, Char.ofNat 0 ∉ message) (hu : separator ∉ uname)
    (hfollows : Follows L uname passwd ((Rust.typing uname false messages).filterMap Prod.snd)
      (readsOn n steps)) (hne : n ≠ m) :
    (steps.filter (together n m)).flatMap (linesFrom uname m) =
      (readsOn n (steps.filter (together n m))).filterMap (lineRead L uname) := by
  rw [← filterMap_flatMap_readOn]
  refine List.flatMap_congr fun st hst => ?_
  obtain ⟨hmem, hboth⟩ := List.mem_filter.mp hst
  exact hfollows.linesFrom_eq h hpeers hnul hu hne hmem hboth

/-- Bob is shown the message that the server reads from Carol. -/
theorem transcripts_complete_toy :
    ∃ steps c, play toy (Config.init []) Toy.carolChats = some (steps, c) ∧
      (readsOn 2 (steps.filter (together 2 1))).filterMap (lineRead toy (ascii "carol")) =
        [ascii "<carol>: 'hi'\n"] ∧
      (steps.filter (together 2 1)).flatMap (linesFrom (ascii "carol") 1) =
        (readsOn 2 (steps.filter (together 2 1))).filterMap (lineRead toy (ascii "carol")) := by
  have hsome : (play toy (Config.init []) Toy.carolChats).map (fun x => (readsOn 2 x.1,
      (readsOn 2 (x.1.filter (together 2 1))).filterMap (lineRead toy (ascii "carol")))) =
      some ([Toy.logsIn (ascii "carol") (ascii "pw"), Toy.modulus, Toy.seals (ascii "0hi")],
        [ascii "<carol>: 'hi'\n"]) := by decide +kernel
  obtain ⟨⟨steps, c⟩, hplay, heq⟩ := Option.map_eq_some_iff.mp hsome
  obtain ⟨hreads, hlines⟩ := Prod.mk.inj heq
  refine ⟨steps, c, hplay, hlines, ?_⟩
  exact transcripts_complete toy [] (run_of_play hplay)
    (Toy.distinctPeers_of_play hplay Toy.peers_carolChats) (by decide +kernel) (by decide)
    (Toy.follows_typesHi hreads) (by decide)

end OpenSimp
