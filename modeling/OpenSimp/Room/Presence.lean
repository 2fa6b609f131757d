import OpenSimp.Lib.Presence
import OpenSimp.Room.Messages

/-!
# Join and leave packets

`Config.announcement` is what a request makes the server announce. The join and leave packets of a
poll are exactly the packet of that announcement, and it lists the aliases as they are after it.
`Room.serve_encrypts` lists this packet with all else that a poll encrypts.
-/

namespace OpenSimp

open Bytes FaultState ServerNetwork

variable {R : Room} {L : Library} {w : World} {i : ℕ} {r : Row} {req : Request} {q : Reply}

/-- The aliases of clients that are named or not, each as `nick` left it. -/
def Aliases (ids : List Bytes) : Prop := ∀ a ∈ ids, a ≠ sentinel → ValidAlias a

lemma Room.Named.aliases (h : R.Named) : Aliases R.clientids := by
  intro a ha hs
  obtain ⟨r', hr', rfl⟩ := List.mem_map.mp ha
  exact h.validAlias hr' hs

lemma Aliases.eraseIdx {ids : List Bytes} (h : Aliases ids) (i : ℕ) : Aliases (ids.eraseIdx i) :=
  fun a ha => h a (List.mem_of_mem_eraseIdx ha)

lemma Aliases.set {ids : List Bytes} (h : Aliases ids) (i : ℕ) {a : Bytes} (ha : ValidAlias a) :
    Aliases (ids.set i a) := by
  intro b hb hs
  rcases List.mem_or_eq_of_mem_set hb with hb | rfl
  · exact h b hb hs
  · exact ha

/-! ### Packets and announcements -/

/-- The packet of an announcement when `clientids` are the aliases after it. -/
def rosterPacket (clientids : List Bytes) : Announcement Bytes → Bytes
  | .joined a => joinMessage a clientids
  | .left a => ascii "2" ++ [separator] ++ a ++ rosterText clientids

/-- The announcement in a packet, told by its first two fields. -/
def announcementOf (data : Bytes) : Option (Announcement Bytes) :=
  match data.splitOn separator with
  | tag :: a :: _ =>
    if tag = ascii "1" then some (.joined a)
    else if tag = ascii "2" then some (.left a)
    else none
  | _ => none

/-- The join and leave packets that are broadcast. -/
def rosterPackets (acts : List Act) : List Bytes :=
  acts.filterMap fun
    | .broadcast data => if (announcementOf data).isSome then some data else none
    | _ => none

/-- The announcements that are broadcast. -/
def announcements (acts : List Act) : List (Announcement Bytes) :=
  (rosterPackets acts).filterMap announcementOf

lemma mem_rosterPackets {data : Bytes} {acts : List Act} :
    data ∈ rosterPackets acts ↔
      .broadcast data ∈ acts ∧ (announcementOf data).isSome = true := by
  rw [rosterPackets, List.mem_filterMap]
  constructor
  · rintro ⟨a, ha, hdata⟩
    cases a with
    | broadcast data' =>
      simp only [Option.ite_none_right_eq_some, Option.some.injEq] at hdata
      obtain ⟨hsome, rfl⟩ := hdata
      exact ⟨ha, hsome⟩
    | sent | registered | disconnected => cases hdata
  · rintro ⟨ha, hsome⟩
    exact ⟨_, ha, if_pos hsome⟩

@[simp] lemma rosterPackets_nil : rosterPackets [] = [] := rfl

@[simp] lemma rosterPackets_append (as bs : List Act) :
    rosterPackets (as ++ bs) = rosterPackets as ++ rosterPackets bs := List.filterMap_append

@[simp] lemma rosterPackets_sent (p : Sock) (packet : Packet) (acts : List Act) :
    rosterPackets (.sent p packet :: acts) = rosterPackets acts := rfl

@[simp] lemma rosterPackets_registered (u p : Bytes) (acts : List Act) :
    rosterPackets (.registered u p :: acts) = rosterPackets acts := rfl

@[simp] lemma rosterPackets_disconnected (i : ℕ) (reason : DisconnectReason) (acts : List Act) :
    rosterPackets (.disconnected i reason :: acts) = rosterPackets acts := rfl

lemma rosterPackets_broadcastActs (rows : List Row) (data : Bytes) (exclude : Endpoint) :
    rosterPackets (broadcastActs w rows data exclude) =
      if (announcementOf (cstr data)).isSome then [cstr data] else [] := by
  have hsent : ∀ rows : List Row,
      rosterPackets (rows.map fun r => .sent r.sock (.sealed (cstr data))) = [] := by
    intro rows
    induction rows with
    | nil => rfl
    | cons r rows ih => exact ih
  rw [broadcastActs, ← List.singleton_append, rosterPackets_append, hsent, List.append_nil]
  split_ifs with h
  · simp [rosterPackets, h]
  · simp [rosterPackets, h]

/-! ### The fields of a packet -/

/-- The first field of a packet tells what it is. -/
lemma isSome_announcementOf {tag : Bytes} (hsep : separator ∉ tag) (h0 : (0 : Byte) ∉ tag)
    (field : Bytes) :
    (announcementOf (cstr (tag ++ [separator] ++ field))).isSome =
      decide (tag = ascii "1" ∨ tag = ascii "2") := by
  have h0' : (0 : Byte) ∉ tag ++ [separator] := by
    simpa [separator] using h0
  rw [cstr_append h0', List.append_assoc, List.singleton_append, announcementOf,
    List.splitOn_append_cons_self_of_not_mem hsep]
  obtain ⟨a, rest, hsplit⟩ := List.exists_cons_of_ne_nil
    (List.splitOn_ne_nil separator (cstr field))
  rw [hsplit]
  dsimp only
  split_ifs with h₁ h₂
  · simp [h₁]
  · simp [h₂]
  · simp [h₁, h₂]

lemma isSome_announcementOf_rosterPacket (ids : List Bytes) (x : Announcement Bytes) :
    (announcementOf (cstr (rosterPacket ids x))).isSome = true := by
  cases x with
  | joined a =>
    rw [rosterPacket, joinMessage, List.append_assoc, isSome_announcementOf (by decide) (by decide)]
    rfl
  | left a =>
    rw [rosterPacket, List.append_assoc, isSome_announcementOf (by decide) (by decide)]
    rfl

lemma rosterPackets_rosterPacket (rows : List Row) (exclude : Endpoint) (ids : List Bytes)
    (x : Announcement Bytes) :
    rosterPackets (broadcastActs w rows (rosterPacket ids x) exclude) =
      [cstr (rosterPacket ids x)] := by
  rw [rosterPackets_broadcastActs, if_pos (isSome_announcementOf_rosterPacket ids x)]

/-- Packets of other kinds announce nothing. -/
lemma rosterPackets_of_tag {tag : Bytes} (htag : tag ∈ [ascii "0", ascii "6"]) (rows : List Row)
    (exclude : Endpoint) (field : Bytes) :
    rosterPackets (broadcastActs w rows (tag ++ [separator] ++ field) exclude) = [] := by
  obtain ⟨hsep, h0, h₁, h₂⟩ : separator ∉ tag ∧ (0 : Byte) ∉ tag ∧ tag ≠ ascii "1" ∧
      tag ≠ ascii "2" := by
    revert tag
    decide
  rw [rosterPackets_broadcastActs, isSome_announcementOf hsep h0]
  simp [h₁, h₂]

/-! ### The announcement of a request -/

/-- `nick` accepts the alias `a`, on the server's layout. -/
def Config.Admits (c : Config) (a : Bytes) : Prop := a ∉ c.server.clientidArray ∧ ValidAlias a

instance (c : Config) (a : Bytes) : Decidable (c.Admits a) := by
  unfold Config.Admits; infer_instance

lemma Room.config_admits {a : Bytes} : R.config.Admits a ↔ R.Admits a := Iff.rfl

/-- What a request of the row `r` makes the server announce. -/
def Config.announcement (c : Config) (L : Library) (r : Row) :
    Request → Option (Announcement Bytes)
  | .leave | .spam | .garbledLogin | .wrongPassword | .illegal => some (.left r.clientid)
  | .login a | .register a _ | .rename a =>
    some (if c.Admits a then .joined a else .left r.clientid)
  | .key n =>
    -- a key that is there already is kept
    if (((c.server.keys r.sock).or (some n)).bind fun n => L.rsaEncrypt n serverKey).isNone then
      some (.left r.clientid)
    else none
  | .chat text =>
    if isBlank (cstr text) = true ∨ r.clientid = sentinel then some (.left r.clientid) else none
  | .idle | .unreadable | .console | .command _ => none

/-- The aliases after an announcement about row `i`. -/
def announced (i : ℕ) (ids : List Bytes) : Option (Announcement Bytes) → List Bytes
  | none => ids
  | some (.joined a) => ids.set i a
  | some (.left _) => ids.eraseIdx i

/-- The event announces `x` about row `i`, and nothing else. -/
structure Reply.Announced (q : Reply) (R : Room) (i : ℕ) (x : Option (Announcement Bytes)) :
    Prop where
  clientids : q.room.clientids = OpenSimp.announced i R.clientids x
  packets : rosterPackets q.acts = x.toList.map fun x => cstr (rosterPacket q.room.clientids x)

lemma Reply.announced_none {R' : Room} {acts : List Act} (hids : R'.clientids = R.clientids)
    (hacts : rosterPackets acts = []) : (Reply.keep R' acts).Announced R i none :=
  ⟨hids, hacts⟩

lemma Reply.announced_left {reason : DisconnectReason} {acts : List Act}
    {useAfterFree : Bool} (hacts : rosterPackets acts = []) :
    Reply.Announced { Reply.drop R w i r reason acts with useAfterFree := useAfterFree } R i
      (some (.left r.clientid)) where
  clientids := by
    simp [Reply.drop, Room.disconnect, Room.clientids, OpenSimp.announced, List.eraseIdx_map]
  packets := by
    have hleave : R.leaveMessage i r =
        rosterPacket (R.disconnect i r).clientids (.left r.clientid) := by
      simp [Room.leaveMessage, rosterPacket, Room.disconnect, Room.clientids, List.eraseIdx_map]
    simp only [Reply.drop, Room.disconnectActs, rosterPackets_append, hacts, List.nil_append,
      hleave, rosterPackets_rosterPacket, rosterPackets_disconnected, rosterPackets_nil,
      List.append_nil]
    rfl

lemma Room.announced_join (hr : R.rows[i]? = some r) {R' : Room} {a : Bytes} {acts : List Act}
    (hids : R'.clientids = (R.rename i a).clientids) (hacts : rosterPackets acts = []) :
    (Reply.keep R' (R.joinActs w i r a ++ acts)).Announced R i (some (.joined a)) where
  clientids := by
    rw [Reply.keep, hids, Room.clientids, Room.clientids_rename hr]
    rfl
  packets := by
    have hjoin : joinMessage a ((R.rename i a).rows.map (·.clientid)) =
        rosterPacket R'.clientids (.joined a) := by
      rw [hids]
      rfl
    simp only [Reply.keep, Room.joinActs, rosterPackets_append, hacts, hjoin,
      rosterPackets_rosterPacket, List.append_nil]
    rfl

lemma Room.relayed_announced {tag field : Bytes} (htag : tag ∈ [ascii "0", ascii "6"])
    (h : R.relayed w i r (tag ++ [separator] ++ field) = .ok q) : q.Announced R i none := by
  have hacts := Room.acts_of_relayed h
  rw [Room.relayed, strcpy] at h
  split_ifs at h
  cases h
  refine Reply.announced_none (Room.map_clientid_modify fun _ => rfl) ?_
  exact (congrArg rosterPackets hacts).trans (rosterPackets_of_tag htag _ _ _)

lemma rosterPackets_msgActs (args : List Bytes) : rosterPackets (R.msgActs r args) = [] := by
  have hreplicate : ∀ n p packet, rosterPackets (List.replicate n (.sent p packet)) = [] := by
    intro n p packet
    induction n with
    | zero => rfl
    | succ n ih => rwa [List.replicate_succ, rosterPackets_sent]
  rw [Room.msgActs]
  split_ifs
  · rfl
  · rfl
  · cases R.rows.find? (·.clientid = args.getD 1 []) with
    | none => rfl
    | some target => exact hreplicate _ _ _

/-- Commands are answered with direct replies only. -/
lemma rosterPackets_commandActs {text : Bytes} {acts : List Act}
    (h : R.commandActs r text = .ok acts) : rosterPackets acts = [] := by
  rw [Room.commandActs] at h
  cases hargs : Lexer.lex text (List.replicate Executor.slots []) space with
  | error fault => rw [hargs] at h; cases h
  | ok args =>
    rw [hargs, ok_bind] at h
    split_ifs at h <;> cases h
    · rfl
    · rfl
    · exact rosterPackets_msgActs args
    · rfl

lemma Room.insertKey_keys (n : ℤ) :
    (R.insertKey r.sock n).keys r.sock = (R.config.server.keys r.sock).or (some n) := if_pos rfl

/-- A request is answered with its announcement. -/
lemma Room.respond_announced (hr : R.rows[i]? = some r) (h : R.respond L w i r req = .ok q) :
    q.Announced R i (R.config.announcement L r req) := by
  cases req with
  | leave | spam | garbledLogin | wrongPassword | illegal =>
    cases h
    exact Reply.announced_left rfl
  | idle | unreadable =>
    cases h
    exact Reply.announced_none rfl rfl
  | login u =>
    rw [Room.respond] at h
    rw [Config.announcement]
    by_cases ha : R.Admits u
    · rw [if_pos ha] at h
      rw [if_pos (Room.config_admits.mpr ha)]
      cases h
      exact Room.announced_join hr (Room.map_clientid_modify fun _ => rfl) rfl
    · rw [if_neg ha] at h
      rw [if_neg (Room.config_admits.not.mpr ha)]
      cases h
      exact Reply.announced_left rfl
  | register u p =>
    rw [Room.respond] at h
    rw [Config.announcement]
    by_cases ha : R.Admits u
    · rw [if_pos ha] at h
      rw [if_pos (Room.config_admits.mpr ha)]
      cases h
      simp only [List.append_assoc (R.joinActs w i r u)]
      refine Room.announced_join hr (Room.map_clientid_modify fun _ => rfl) ?_
      rw [rosterPackets_append, rosterPackets_append, rosterPackets_of_tag (by simp)]
      rfl
    · rw [if_neg ha] at h
      rw [if_neg (Room.config_admits.not.mpr ha)]
      cases h
      exact Reply.announced_left rfl
  | rename a =>
    rw [Room.respond] at h
    rw [Config.announcement]
    by_cases ha : R.Admits a
    · rw [if_pos ha] at h
      rw [if_pos (Room.config_admits.mpr ha)]
      cases h
      rw [← List.append_nil (R.joinActs w i r a)]
      exact Room.announced_join hr rfl rfl
    · rw [if_neg ha] at h
      rw [if_neg (Room.config_admits.not.mpr ha)]
      cases h
      exact Reply.announced_left rfl
  | key n =>
    rw [Room.respond] at h
    rw [Config.announcement]
    rw [← Room.insertKey_keys]
    cases hct : ((R.insertKey r.sock n).keys r.sock).bind fun n => L.rsaEncrypt n serverKey with
    | none =>
      rw [hct] at h
      cases h
      have hleft : (Reply.drop (R.insertKey r.sock n) w i r .disconnectKick []).Announced
          (R.insertKey r.sock n) i (some (.left r.clientid)) := Reply.announced_left rfl
      exact ⟨hleft.clientids, hleft.packets⟩
    | some ciphertext =>
      rw [hct] at h
      cases h
      exact Reply.announced_none (Room.map_clientid_modify fun _ => rfl) rfl
  | chat text =>
    rw [Room.respond] at h
    rw [Config.announcement]
    split_ifs at h with hblank hs
    · cases h
      rw [if_pos (.inl hblank)]
      exact Reply.announced_left (rosterPackets_sent _ _ _)
    · cases h
      rw [if_pos (.inr hs)]
      exact Reply.announced_left rfl
    · rw [if_neg (not_or.mpr ⟨hblank, hs⟩)]
      rw [List.append_assoc, List.append_assoc (ascii "0" ++ [separator])] at h
      have htag : ascii "0" ∈ [ascii "0", ascii "6"] := by simp
      exact Room.relayed_announced htag h
  | console =>
    rw [Room.respond] at h
    have hacts := Room.acts_of_relayed h
    rw [Room.relayed, strcpy] at h
    split_ifs at h
    cases h
    refine Reply.announced_none (Room.map_clientid_modify fun _ => rfl) ?_
    exact (congrArg rosterPackets hacts).trans (rosterPackets_broadcastActs _ _ _)
  | command text =>
    rw [Room.respond] at h
    cases hacts : R.commandActs r text with
    | error e => rw [hacts] at h; cases h
    | ok acts =>
      rw [hacts] at h
      cases h
      exact Reply.announced_none rfl (rosterPackets_commandActs hacts)

/-! ### Polls -/

lemma Room.polled_config_admits (a : Bytes) :
    (R.polled w i r).config.Admits a ↔ R.config.Admits a := Room.polled_admits a

lemma Room.polled_announcement :
    (R.polled w i r).config.announcement L (r.polled w) req = R.config.announcement L r req := by
  have hid := Row.polled_clientid (w := w) (r := r)
  cases req with
  | leave | spam | garbledLogin | wrongPassword | illegal =>
    rw [Config.announcement, Config.announcement, hid]
  | login a | register a p | rename a =>
    rw [Config.announcement, Config.announcement, hid,
      if_congr (Room.polled_config_admits a) rfl rfl]
  | key n =>
    have hkeys : (R.polled w i r).config.server.keys = R.config.server.keys := Room.polled_keys
    rw [Config.announcement, Config.announcement, hid, Row.polled_sock, hkeys]
  | chat text => rw [Config.announcement, Config.announcement, hid]
  | idle | unreadable | console | command text => rfl

/-- A poll announces what its request does. -/
theorem Room.serve_announced (hr : R.rows[i]? = some r) (hreq : R.request L w r = .ok req)
    (h : R.serve L w i r = .ok q) : q.Announced R i (R.config.announcement L r req) := by
  rw [Room.serve, hreq, ok_bind] at h
  have hann := Room.respond_announced (Room.getElem?_polled hr) h
  rw [Room.polled_announcement] at hann
  exact ⟨hann.clientids.trans (by rw [Room.polled_clientids]), hann.packets⟩

/-! ### Named rooms -/

/-- The alias a request asks for. -/
def Request.alias : Request → Option Bytes
  | .login a | .register a _ | .rename a => some a
  | _ => none

lemma Room.announcement_eq_joined {a : Bytes} :
    R.config.announcement L r req = some (.joined a) ↔ req.alias = some a ∧ R.Admits a := by
  cases req with
  | login b | register b p | rename b =>
    rw [Config.announcement, Request.alias]
    split_ifs with hb
    · simp only [Option.some.injEq, Announcement.joined.injEq]
      exact ⟨fun h => ⟨h, h ▸ hb⟩, fun h => h.1⟩
    · simp only [Option.some.injEq, reduceCtorEq, false_iff, not_and]
      rintro rfl
      exact hb
  | leave | spam | garbledLogin | wrongPassword | illegal | idle | unreadable | console
  | command text => simp [Config.announcement, Request.alias]
  | key n | chat text =>
    rw [Config.announcement]
    split_ifs <;> simp [Request.alias]

lemma Room.announcement_eq_left {a : Bytes} (h : R.config.announcement L r req = some (.left a)) :
    a = r.clientid := by
  cases req with
  | login b | register b p | rename b | key n | chat text =>
    rw [Config.announcement] at h
    split_ifs at h <;> cases h
    rfl
  | leave | spam | garbledLogin | wrongPassword | illegal =>
    cases h
    rfl
  | idle | unreadable | console | command text => cases h

/-- A text without the bytes that end a field or a packet. -/
def Plain (a : Bytes) : Prop := separator ∉ a ∧ (0 : Byte) ∉ a

lemma ValidAlias.plain {a : Bytes} (ha : ValidAlias a) : Plain a :=
  ⟨ha.separator_not_mem, ha.nul_not_mem⟩

lemma plain_sentinel : Plain sentinel := by
  constructor <;> decide

lemma Aliases.plain {ids : List Bytes} (h : Aliases ids) {a : Bytes} (ha : a ∈ ids) : Plain a := by
  by_cases hs : a = sentinel
  · rw [hs]
    exact plain_sentinel
  · exact (h a ha hs).plain

/-- The alias an announcement is about ends no field. -/
lemma Room.Named.plain_who (h : R.Named) (hr : R.rows[i]? = some r) {x : Announcement Bytes}
    (hx : R.config.announcement L r req = some x) : Plain x.who := by
  cases x with
  | joined a => exact (Room.announcement_eq_joined.mp hx).2.2.plain
  | left a =>
    rw [Announcement.who_left, Room.announcement_eq_left hx]
    exact h.aliases.plain (List.mem_map_of_mem (List.mem_of_getElem? hr))

lemma Room.Named.aliases_announced (h : R.Named) :
    Aliases (announced i R.clientids (R.config.announcement L r req)) := by
  cases hx : R.config.announcement L r req with
  | none => exact h.aliases
  | some x =>
    cases x with
    | joined a => exact h.aliases.set i (Room.announcement_eq_joined.mp hx).2.2
    | left a => exact h.aliases.eraseIdx i

/-- The alias an announcement is about is a client's, or the client has none. -/
lemma Room.Named.validAlias_who (h : R.Named) (hr : R.rows[i]? = some r) {x : Announcement Bytes}
    (hx : R.config.announcement L r req = some x) (hs : x.who ≠ sentinel) : ValidAlias x.who := by
  cases x with
  | joined a => exact (Room.announcement_eq_joined.mp hx).2.2
  | left a =>
    cases Room.announcement_eq_left hx
    exact h.validAlias (List.mem_of_getElem? hr) hs

/-- The fields of a roster are the aliases in it. -/
lemma splitOn_rosterText {a : Bytes} {ids : List Bytes} (ha : Plain a) (hids : Aliases ids) :
    (a ++ rosterText ids).splitOn separator = a :: ids.filter (· ≠ sentinel) := by
  induction ids generalizing a with
  | nil => simpa [rosterText] using List.splitOn_eq_singleton ha.1
  | cons b ids ih =>
    have htail : Aliases ids := fun c hc => hids c (List.mem_cons_of_mem b hc)
    have hb := hids.plain (List.mem_cons_self (a := b) (l := ids))
    by_cases hs : b = sentinel
    · have hskip : rosterText (b :: ids) = rosterText ids := by simp [rosterText, hs]
      rw [hskip, ih ha htail, List.filter_cons_of_neg (by simpa using hs)]
    · have hkeep : rosterText (b :: ids) = separator :: (b ++ rosterText ids) := by
        simp [rosterText, hs]
      rw [hkeep, List.splitOn_append_cons_self_of_not_mem ha.1, ih hb htail,
        List.filter_cons_of_pos (by simpa using hs)]

/-- The first field of an announcement's packet. -/
def rosterTag : Announcement Bytes → Bytes
  | .joined _ => ascii "1"
  | .left _ => ascii "2"

lemma plain_rosterTag (x : Announcement Bytes) : Plain (rosterTag x) := by
  have htags : Plain (ascii "1") ∧ Plain (ascii "2") := by
    simp [Plain, ascii, separator]
  cases x with
  | joined a => exact htags.1
  | left a => exact htags.2

lemma rosterPacket_eq (ids : List Bytes) (x : Announcement Bytes) :
    rosterPacket ids x = rosterTag x ++ separator :: (x.who ++ rosterText ids) := by
  cases x <;> simp [rosterPacket, joinMessage, rosterTag]

/-- The packet of an announcement is its tag, the alias it is about, and the roster. -/
lemma splitOn_rosterPacket {ids : List Bytes} {x : Announcement Bytes} (hx : Plain x.who)
    (hids : Aliases ids) :
    (rosterPacket ids x).splitOn separator =
      rosterTag x :: x.who :: ids.filter (· ≠ sentinel) := by
  rw [rosterPacket_eq, List.splitOn_append_cons_self_of_not_mem (plain_rosterTag x).1,
    splitOn_rosterText hx hids]

lemma announcementOf_rosterPacket {ids : List Bytes} {x : Announcement Bytes} (hx : Plain x.who)
    (hids : Aliases ids) : announcementOf (rosterPacket ids x) = some x := by
  rw [announcementOf, splitOn_rosterPacket hx hids]
  cases x <;> rfl

lemma cstr_rosterPacket {ids : List Bytes} {x : Announcement Bytes} (hx : Plain x.who)
    (hids : Aliases ids) : cstr (rosterPacket ids x) = rosterPacket ids x := by
  apply cstr_of_nul_not_mem
  have hroster : (0 : Byte) ∉ rosterText ids := by
    intro hmem
    obtain ⟨a, ha, hc⟩ := List.mem_flatMap.mp hmem
    rcases List.mem_cons.mp hc with hc | hc
    · cases hc
    · exact (hids.plain (List.mem_filter.mp ha).1).2 hc
  rw [rosterPacket_eq]
  simp [(plain_rosterTag x).2, hx.2, hroster, separator]

/-- The join and leave packets of a poll. -/
theorem Room.rosterPackets_serve (hN : R.Named) (hr : R.rows[i]? = some r)
    (hreq : R.request L w r = .ok req) (h : R.serve L w i r = .ok q) :
    rosterPackets q.acts =
      (R.config.announcement L r req).toList.map (rosterPacket q.room.clientids) := by
  have hann := Room.serve_announced hr hreq h
  rw [hann.packets]
  apply List.map_congr_left
  intro x hx
  have hx := Option.mem_toList.mp hx
  refine cstr_rosterPacket (hN.plain_who hr hx) ?_
  rw [hann.clientids]
  exact hN.aliases_announced

/-- The packet of an announcement is sent to all who hear it. -/
lemma Room.sent_rosterPacket (hN : R.Named) (hr : R.rows[i]? = some r)
    (hreq : R.request L w r = .ok req) (h : R.serve L w i r = .ok q) {x : Announcement Bytes}
    (hx : R.config.announcement L r req = some x) {p : Sock}
    (hp : Hears w R.rows (w.peer r.sock) p) :
    .sent p (.sealed (rosterPacket (announced i R.clientids (some x)) x)) ∈ q.acts := by
  have hpackets := Room.rosterPackets_serve hN hr hreq h
  rw [(Room.serve_announced hr hreq h).clientids, hx] at hpackets
  have hroster : rosterPacket (announced i R.clientids (some x)) x ∈ rosterPackets q.acts := by
    rw [hpackets]
    exact List.mem_singleton_self _
  exact (Room.serve_relays h).heard _ (mem_rosterPackets.mp hroster).1 p hp

/-- What a poll of row `i`, which is `r`, encrypts for the socket `p`. -/
inductive Room.Encrypts (R : Room) (L : Library) (w : World) (i : ℕ) (r : Row) :
    Request → Sock → Bytes → Prop where
  | roster {req : Request} {p : Sock} {x : Announcement Bytes}
      (hx : R.config.announcement L r req = some x) (hp : Hears w R.rows (w.peer r.sock) p) :
      Encrypts R L w i r req p (rosterPacket (announced i R.clientids (some x)) x)
  | welcome {u passwd : Bytes} {p : Sock} (hu : R.Admits u)
      (hp : Hears w R.rows (w.peer r.sock) p) :
      Encrypts R L w i r (.register u passwd) p
        (cstr (ascii "6" ++ [separator] ++ (ascii "Everybody welcome the new user " ++ u)))
  | chat {text : Bytes} {p : Sock} (hblank : isBlank (cstr text) = false)
      (hp : Hears w R.rows (w.peer r.sock) p) :
      Encrypts R L w i r (.chat text) p (cstr (chatPacket text r.clientid))
  | console {p : Sock} (hp : Hears w R.rows (w.peer r.sock) p) : Encrypts R L w i r .console p []
  | told {req : Request} {p : Sock} {str : Bytes} (h : R.Tells r req p str) :
      Encrypts R L w i r req p (cstr (ascii "6" ++ [separator] ++ str))

/-- What a poll encrypts: the packet of its announcement, a relayed text or a direct reply. -/
theorem Room.serve_encrypts (hN : R.Named) (hr : R.rows[i]? = some r)
    (hreq : R.request L w r = .ok req) (h : R.serve L w i r = .ok q) {p : Sock} {d : Bytes}
    (hact : .sent p (.sealed d) ∈ q.acts) : R.Encrypts L w i r req p d := by
  have hroster : (announcementOf d).isSome = true → R.Encrypts L w i r req p d := by
    intro hsome
    rcases (Room.serve_relays h).said p d hact with ⟨hp, hbroadcast⟩ | ⟨str, hd⟩
    · have hmem := mem_rosterPackets.mpr ⟨hbroadcast, hsome⟩
      rw [Room.rosterPackets_serve hN hr hreq h, (Room.serve_announced hr hreq h).clientids] at hmem
      obtain ⟨x, hx, rfl⟩ := List.mem_map.mp hmem
      have hx := Option.mem_toList.mp hx
      rw [hx]
      exact .roster hx hp
    · rw [directPacket, Packet.sealed.injEq] at hd
      rw [hd, isSome_announcementOf (by decide) (by decide)] at hsome
      exact absurd hsome (by decide)
  generalize ha : Act.sent p (.sealed d) = a at hact
  cases Room.serve_emission hr hreq h hact with
  | broadcast | spb | serverKey | registered | disconnected => cases ha
  | told htell =>
    cases ha
    exact .told htell
  | announced hann hmem hdone hpeer =>
    cases ha
    have hp := hears_of_mem hmem hdone hpeer
    cases hann with
    | leave => exact hroster (isSome_announcementOf_rosterPacket _ (.left _))
    | join ha => exact hroster (isSome_announcementOf_rosterPacket _ (.joined _))
    | welcome hu => exact .welcome hu hp
    | chat hblank => exact .chat hblank hp
    | console => exact .console hp

/-- The announcements of a poll. -/
theorem Room.announcements_serve (hN : R.Named) (hr : R.rows[i]? = some r)
    (hreq : R.request L w r = .ok req) (h : R.serve L w i r = .ok q) :
    announcements q.acts = (R.config.announcement L r req).toList := by
  have hann := Room.serve_announced hr hreq h
  rw [announcements, Room.rosterPackets_serve hN hr hreq h, List.filterMap_map]
  cases hx : R.config.announcement L r req with
  | none => rfl
  | some x =>
    have hids : Aliases q.room.clientids := by
      rw [hann.clientids]
      exact hN.aliases_announced
    have hparse := announcementOf_rosterPacket (hN.plain_who hr hx) hids
    simp [hparse]

end OpenSimp
