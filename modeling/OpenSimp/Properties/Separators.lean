import OpenSimp.Clients.Cpp
import OpenSimp.Properties.Decoding
import OpenSimp.Properties.Memory

/-!
# Separators in the server's packets

`check` reads a payload up to its first NUL, so one with a separator after a NUL is accepted. What
the server sends because of it is a C string again, and ends at that NUL: the separators in it are
those that the server wrote between its own fields.
-/

namespace OpenSimp

open Bytes FaultState System ServerNetwork

variable {R : Room} {L : Library} {w : World} {i : ℕ} {r : Row} {req : Request} {q : Reply}
  {a d x : Bytes}

/-- What the outside sees of an effect. -/
def Act.plaintext? : Act → Option Bytes
  | .broadcast data => some data
  | .sent _ (.sealed plaintext) => some plaintext
  | .sent _ (.clear bytes) => some bytes
  | .registered _ _ | .disconnected _ _ => none

/-- The packets that a payload of row `i`, which has the alias `a`, can cause. What comes from the
payload is plain: the text of a chat packet, which may have lost the sender, a new alias, and the
text of a reply. -/
inductive Config.Answers (c : Config) (i : ℕ) (a : Bytes) : Bytes → Prop where
  | signed {text : Bytes} (htext : Plain text) :
      Answers c i a (ascii "0" ++ separator :: (text ++ separator :: a))
  | cut {text : Bytes} (htext : Plain text) : Answers c i a (ascii "0" ++ separator :: text)
  | joined {b : Bytes} (hb : Plain b) :
      Answers c i a (rosterPacket (c.server.clientidArray.set i b) (.joined b))
  | left : Answers c i a (rosterPacket (c.server.clientidArray.eraseIdx i) (.left a))
  | reply {text : Bytes} (htext : Plain text) : Answers c i a (ascii "6" ++ separator :: text)
  | empty : Answers c i a []

/-- No client shows the packet `x` as a message of anybody but `a`. -/
structure AttributedTo (a x : Bytes) : Prop where
  rust : ∀ u text, Rust.parsePacket x = some (.messagePacket u text) → u = a
  cpp : ∀ u text, Cpp.message x = .ok (some (u, text)) → u = a ∨ u = []

/-! ### Plain texts -/

lemma Plain.append {s t : Bytes} (hs : Plain s) (ht : Plain t) : Plain (s ++ t) := by
  simp only [Plain, List.mem_append, not_or]
  exact ⟨⟨hs.1, ht.1⟩, hs.2, ht.2⟩

instance (s : Bytes) : Decidable (Plain s) := by unfold Plain; infer_instance

lemma plain_cstr {s : Bytes} (h : separator ∉ cstr s) : Plain (cstr s) := ⟨h, nul_not_mem_cstr s⟩

/-- A plain end makes a C string no less plain. -/
lemma plain_cstr_append {s t : Bytes} (hs : Plain (cstr s)) (ht : Plain t) :
    Plain (cstr (s ++ t)) := by
  by_cases h0 : (0 : Byte) ∈ s
  · rwa [cstr_append_of_nul_mem h0]
  · rw [cstr_of_nul_not_mem h0] at hs
    rw [cstr_append h0, cstr_of_nul_not_mem ht.2]
    exact hs.append ht

lemma Plain.cstr_append_iff {s t : Bytes} (hs : Plain s) :
    Plain (cstr (s ++ t)) ↔ Plain (cstr t) := by
  rw [cstr_append hs.2]
  refine ⟨fun h => ⟨fun hsep => h.1 (List.mem_append_right s hsep), nul_not_mem_cstr t⟩, ?_⟩
  exact hs.append

/-- The text of a direct message is as plain as the command. -/
lemma plain_directText {text y sender : Bytes} {args : List Bytes}
    (hargs : Lexer.lex text (List.replicate Executor.slots []) space = .ok args)
    (hcmd : args.getD 0 [] = ascii "msg") (hy : args.getD 1 [] = y) (hvalid : ValidAlias y)
    (hsender : Plain sender) (htext : Plain (cstr text)) :
    Plain (cstr (directText y sender args)) := by
  obtain ⟨rest, hwords, hdirect⟩ := directText_of_lex hargs hcmd hy hvalid.ne_nil sender
  have hblank : Plain [space] := by decide
  have hblanks : Plain (List.replicate (511 - text.count space) space) := by
    constructor
    · exact fun h => absurd (List.eq_of_mem_replicate h) (by decide)
    · exact fun h => absurd (List.eq_of_mem_replicate h) (by decide)
  have hmsg : Plain (ascii "msg" ++ [space] ++ (y ++ [space])) := by
    have hword : Plain (ascii "msg" ++ [space]) := by decide
    exact hword.append (hvalid.plain.append hblank)
  have hrest : Plain (cstr rest) := by
    rw [← hmsg.cstr_append_iff, ← hwords]
    exact plain_cstr_append htext hblank
  have hhead : Plain (ascii "[" ++ y ++ ascii " -> " ++ sender ++ ascii "]: ") := by
    have hopen : Plain (ascii "[") := by decide
    have harrow : Plain (ascii " -> ") := by decide
    have hclose : Plain (ascii "]: ") := by decide
    exact (((hopen.append hvalid.plain).append harrow).append hsender).append hclose
  rw [hdirect, hhead.cstr_append_iff]
  exact plain_cstr_append hrest hblanks

/-! ### Senders -/

lemma Cpp.message_ne_some {text : Bytes} (htag : (text.splitOn separator).getD 0 [] ≠ ascii "0")
    (shown : Bytes × Bytes) : Cpp.message text ≠ .ok (some shown) := by
  rw [Cpp.message_of_fields, if_neg htag]
  split_ifs <;> simp

/-- A packet of one field with another tag than a chat packet's has no sender. -/
lemma attributedTo_of_field {tag : Bytes} (htag : tag ∈ [ascii "1", ascii "2", ascii "6"])
    (field : Bytes) : AttributedTo a (tag ++ separator :: field) := by
  obtain ⟨hsep, hmem, hchat⟩ : separator ∉ tag ∧
      tag ∈ [ascii "1", ascii "2", ascii "5", ascii "6"] ∧ tag ≠ ascii "0" := by
    revert tag
    decide
  constructor
  · intro u text h
    rw [Rust.parsePacket_field hmem] at h
    split_ifs at h
    simp only [List.mem_cons, List.not_mem_nil, or_false] at htag
    rcases htag with rfl | rfl | rfl <;> cases h
  · intro u text h
    refine absurd h (Cpp.message_ne_some ?_ _)
    rwa [List.splitOn_append_cons_self_of_not_mem hsep, List.getD_cons_zero]

/-- Whoever sends the payload is the only one its packets are attributed to. -/
lemma Config.Answers.attributedTo {c : Config} (h : c.Answers i a x) (ha : Plain a) :
    AttributedTo a x := by
  cases h with
  | signed htext =>
    constructor
    · intro u text' h
      rw [Rust.parsePacket_message htext.1] at h
      split_ifs at h
      cases h
      rfl
    · intro u text' h
      rw [Cpp.message_eq htext.1 ha.1] at h
      cases h
      exact .inl rfl
  | cut htext =>
    constructor
    · intro u text' h
      rw [Rust.parsePacket_cut htext.1] at h
      cases h
    · intro u text' h
      rw [Cpp.message_cut htext.1] at h
      cases h
      exact .inr rfl
  | joined | left =>
    rw [rosterPacket_eq]
    exact attributedTo_of_field (by simp [rosterTag]) _
  | reply => exact attributedTo_of_field (by simp) _
  | empty =>
    constructor
    · intro u text h
      cases h
    · intro u text h
      exact absurd h (Cpp.message_ne_some (by decide) _)

/-! ### What a payload causes -/

lemma Config.Answers.of_reply {c : Config} {str : Bytes} (h : Plain (cstr str)) :
    c.Answers i a (cstr (ascii "6" ++ [separator] ++ str)) := by
  have h0 : (0 : Byte) ∉ ascii "6" ++ [separator] := by decide
  rw [cstr_append h0, List.append_assoc, List.singleton_append]
  exact .reply h

lemma Room.answers_of_announces (hN : R.Named) (hr : R.rows[i]? = some r)
    (hdone : r.status = .done) (hreq : R.request L w r = .ok req) {data : Bytes}
    (h : R.Announces i r req data) : R.config.Answers i r.clientid (cstr data) := by
  have hvalid : ValidAlias r.clientid :=
    (hN.named r (List.mem_of_getElem? hr)).valid (by simp [hdone])
  cases h with
  | leave =>
    have hpacket := cstr_rosterPacket (x := .left r.clientid) hvalid.plain (hN.aliases.eraseIdx i)
    exact hpacket.symm ▸ Config.Answers.left
  | @join _ b hb =>
    have hpacket := cstr_rosterPacket (x := .joined b) hb.2.plain (hN.aliases.set i hb.2)
    exact hpacket.symm ▸ Config.Answers.joined hb.2.plain
  | welcome =>
    cases hdone.symm.trans (Room.request_fits hreq)
  | @chat text =>
    have htext := plain_cstr (Room.request_chat hreq)
    have hstarter : (0 : Byte) ∉ ascii "0" ++ [separator] := by decide
    by_cases h0 : (0 : Byte) ∈ text
    · rw [List.append_assoc, List.append_assoc, cstr_append hstarter, cstr_append_of_nul_mem h0,
        List.append_assoc, List.singleton_append]
      exact .cut htext
    · rw [cstr_of_nul_not_mem h0] at htext
      have hpacket := cstr_chatPacket h0 hvalid
      rw [chatPacket] at hpacket
      rw [hpacket]
      exact .signed htext
  | console => exact .empty

/-- The text of a reply to a client is plain as far as it is read. -/
lemma Room.plain_of_tells (hN : R.Named) (hr : R.rows[i]? = some r)
    (hreq : R.request L w r = .ok req) {p : Sock} {str : Bytes} (h : R.Tells r req p str) :
    Plain (cstr str) := by
  have hsender : Plain r.clientid :=
    hN.aliases.plain (List.mem_map_of_mem (List.mem_of_getElem? hr))
  cases h with
  | unreadable | blank | plugins | self => decide
  | help args =>
    rw [helpReply]
    split_ifs <;> decide
  | direct hargs hcmd hmem hid hs =>
    exact plain_directText hargs hcmd hid.symm (hN.validAlias hmem hs) hsender
      (plain_cstr (Room.request_command hreq))
  | unknown =>
    have hword : Plain (ascii "Command ") := by decide
    rw [List.append_assoc, hword.cstr_append_iff]
    exact plain_cstr_append (plain_cstr (Room.request_command hreq)) (by decide)

lemma Room.answers_of_emission (hN : R.Named) (hr : R.rows[i]? = some r)
    (hdone : r.status = .done) (hreq : R.request L w r = .ok req) {act : Act}
    (h : R.Emission L w i r req act) (hx : act.plaintext? = some x) :
    R.config.Answers i r.clientid x := by
  have hfits := Room.request_fits hreq
  cases h with
  | broadcast h | announced h =>
    cases hx
    exact Room.answers_of_announces hN hr hdone hreq h
  | told h =>
    cases hx
    exact .of_reply (Room.plain_of_tells hN hr hreq h)
  | @spb req hlogin =>
    cases req with
    | login | register => cases hdone.symm.trans hfits
    | _ => exact hlogin.elim
  | serverKey => cases hdone.symm.trans hfits
  | registered | disconnected => cases hx

/-- In every state the server reaches, no alias holds a separator, and whatever payload a `Done`
client sends, the packets it causes hold no separator of the payload and are attributed to nobody
else. -/
theorem separators_not_injected (L : Library) {userdata : Bytes} {c : Config}
    (h : (server L).Reachable (Config.init userdata) c) (hr : c.row? i = some r)
    (hsends : SendsPlaintext L w r d) :
    (∀ y ∈ c.server.clientidArray, separator ∉ y) ∧
      ∀ act ∈ ((Event.code L (.receive i w)).final c.machine).acts, ∀ x,
        act.plaintext? = some x →
          c.Answers i r.clientid x ∧ AttributedTo r.clientid x := by
  obtain ⟨R, hR, rfl⟩ := reachable_lift h
  rw [Room.config_row?] at hr
  have hN := Room.named_of_reachable hR
  have hplain : Plain r.clientid :=
    hN.aliases.plain (List.mem_map_of_mem (List.mem_of_getElem? hr))
  refine ⟨fun y hy => (hN.aliases.plain hy).1, ?_⟩
  intro act hact x hx
  rcases Room.code_receive_final hr L w with ⟨q, hserve, hfinal⟩ | ⟨-, huntouched⟩
  · rw [hfinal] at hact
    have hreq := Room.request_of_sends (R := R) hsends
    have hem := Room.serve_emission hr hreq hserve hact
    have hanswers := Room.answers_of_emission hN hr hsends.done hreq hem hx
    exact ⟨hanswers, hanswers.attributedTo hplain⟩
  · rw [huntouched.2] at hact
    cases hact

/-- Alice puts a sender behind a NUL. -/
def Toy.forgery : Bytes := ascii "0hi" ++ [0, separator] ++ ascii "bobby"

theorem separators_not_injected_toy :
    ∃ steps c, play toy (Config.init []) Toy.ready = some (steps, c) ∧
      c.Answers 0 (ascii "alice") (ascii "0" ++ separator :: ascii "hi") := by
  obtain ⟨steps, c, r, hplay, hr, hdone, hinterval, hid⟩ := Toy.exists_ready
  have hacts : (play toy (Config.init []) Toy.ready).map (fun x =>
      ((Event.code toy (.receive 0 (Toy.world .done (Toy.seals Toy.forgery) 1000))).final
        x.2.machine).acts) =
      some [.broadcast (ascii "0" ++ separator :: ascii "hi")] := by decide +kernel
  rw [hplay, Option.map_some, Option.some.injEq] at hacts
  have hsends := Toy.sendsPlaintext (d := Toy.forgery) hdone hinterval (by decide)
  obtain ⟨-, hall⟩ := separators_not_injected toy (run_of_play hplay).reachable hr hsends
  have hanswers := (hall _ (hacts ▸ List.mem_singleton_self _) _ rfl).1
  rw [hid] at hanswers
  exact ⟨steps, c, hplay, hanswers⟩

end OpenSimp
