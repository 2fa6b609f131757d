import OpenSimp.Lib.Hub
import OpenSimp.Room.Messages

/-!
# What a poll says

The effects of a poll as the turn of an author in a hub: a broadcast is a post to the other `Done`
clients, and a direct reply is a whisper. `Says` relates the packets on every connection to what is
heard of the turn there.
-/

namespace OpenSimp

open Bytes FaultState ServerNetwork Hub

/-- What the packets to a row go by. -/
structure Seat where
  conn : ℕ
  sock : Sock
  status : AuthStatus

def Row.seat (r : Row) : Seat := ⟨r.conn, r.sock, r.status⟩

def Room.seats (R : Room) : List Seat := R.rows.map Row.seat

/-- The connections whose clients are `Done`. -/
def members (seats : List Seat) : Set ℕ := {n | ∃ x ∈ seats, x.conn = n ∧ x.status = .done}

/-- The plaintexts of the encrypted packets. -/
def plaintexts (packets : List Packet) : List Bytes :=
  packets.filterMap fun
    | .clear _ => none
    | .sealed d => some d

/-- What is passed to `broadcast`. -/
def broadcasts (acts : List Act) : List Bytes :=
  acts.filterMap fun
    | .broadcast d => some d
    | _ => none

/-- The connections, sockets and addresses of the seats are different. -/
structure Seated (w : World) (seats : List Seat) : Prop where
  nodup_conn : (seats.map Seat.conn).Nodup
  nodup_sock : (seats.map Seat.sock).Nodup
  peers : ∀ x ∈ seats, ∀ y ∈ seats, w.peer x.sock = w.peer y.sock → x = y

/-- The effects `acts` of a poll of the connection `author` say `casts`. -/
structure Says (seats : List Seat) (author : ℕ) (acts : List Act) (casts : List (Cast ℕ Bytes)) :
    Prop where
  posts : broadcasts acts = casts.filterMap Cast.posted
  heard : ∀ x ∈ seats, plaintexts (sentTo x.sock acts) =
    heard x.conn (Turn.entries ⟨author, casts⟩ (members seats))
  inside : ∀ n d, .whisper n d ∈ casts → ∃ x ∈ seats, x.conn = n

variable {w : World} {seats : List Seat} {author : ℕ} {acts as bs : List Act}
  {casts cs ds : List (Cast ℕ Bytes)}

lemma plaintexts_append (ps qs : List Packet) :
    plaintexts (ps ++ qs) = plaintexts ps ++ plaintexts qs := List.filterMap_append

lemma broadcasts_append (as bs : List Act) :
    broadcasts (as ++ bs) = broadcasts as ++ broadcasts bs := List.filterMap_append

lemma broadcasts_broadcastActs (rows : List Row) (data : Bytes) (exclude : Endpoint) :
    broadcasts (broadcastActs w rows data exclude) = [cstr data] := by
  have htail : ∀ rs : List Row, (rs.map fun r => Act.sent r.sock (.sealed (cstr data))).filterMap
      (fun | .broadcast d => some d | _ => none) = ([] : List Bytes) := by
    intro rs
    simp [List.filterMap_map]
  exact congrArg (cstr data :: ·) (htail _)

lemma Room.mem_seats {R : Room} {x : Seat} : x ∈ R.seats ↔ ∃ r ∈ R.rows, r.seat = x :=
  List.mem_map

/-! ### Composing effects -/

lemma Says.nil : Says seats author [] [] :=
  ⟨rfl, fun _ _ => rfl, fun _ _ h => absurd h List.not_mem_nil⟩

lemma Says.append (has : Says seats author as cs) (hbs : Says seats author bs ds) :
    Says seats author (as ++ bs) (cs ++ ds) where
  posts := by rw [broadcasts_append, has.posts, hbs.posts, List.filterMap_append]
  heard := by
    intro x hx
    rw [sentTo_append, plaintexts_append, has.heard x hx, hbs.heard x hx, entries_append,
      heard_append]
  inside := by
    intro n d h
    rcases List.mem_append.mp h with h | h
    · exact has.inside n d h
    · exact hbs.inside n d h

lemma says_clear (p : Sock) (bytes : Bytes) : Says seats author [.sent p (.clear bytes)] [] where
  posts := rfl
  heard := by
    intro x hx
    by_cases hp : p = x.sock
    · simp [sentTo, plaintexts, hp]
    · simp [sentTo, plaintexts, hp]
  inside := fun _ _ h => absurd h List.not_mem_nil

lemma says_registered (u p : Bytes) : Says seats author [.registered u p] [] :=
  ⟨rfl, fun _ _ => rfl, fun _ _ h => absurd h List.not_mem_nil⟩

lemma says_disconnected (i : ℕ) (reason : DisconnectReason) :
    Says seats author [.disconnected i reason] [] :=
  ⟨rfl, fun _ _ => rfl, fun _ _ h => absurd h List.not_mem_nil⟩

section Seated

variable (h : Seated w seats) {x y : Seat} (hx : x ∈ seats) (hy : y ∈ seats)
include h hx hy

lemma Seated.eq_of_conn (hxy : x.conn = y.conn) : x = y :=
  List.eq_of_map_nodup h.nodup_conn hx hy hxy

lemma Seated.eq_of_sock (hxy : x.sock = y.sock) : x = y :=
  List.eq_of_map_nodup h.nodup_sock hx hy hxy

end Seated

lemma Seated.mem_members_iff (h : Seated w seats) {x : Seat} (hx : x ∈ seats) :
    x.conn ∈ members seats ↔ x.status = .done := by
  constructor
  · rintro ⟨y, hy, hconn, hdone⟩
    rwa [← h.eq_of_conn hy hx hconn]
  · exact fun hdone => ⟨x, hx, rfl, hdone⟩

/-- A direct reply is a whisper. -/
lemma says_told (h : Seated w seats) {y : Seat} (hy : y ∈ seats) (d : Bytes) :
    Says seats author [.sent y.sock (.sealed d)] [.whisper y.conn d] where
  posts := rfl
  heard := by
    intro x hx
    by_cases hxy : x = y
    · subst hxy
      rw [sentTo_sent, heard_whisper_self]
      rfl
    · have hsock : y.sock ≠ x.sock := fun heq => hxy (h.eq_of_sock hy hx heq).symm
      have hconn : x.conn ≠ y.conn := fun heq => hxy (h.eq_of_conn hx hy heq)
      rw [heard_whisper_of_ne hconn]
      simp [sentTo, hsock, plaintexts]
  inside := by
    intro n d' hcast
    rw [List.mem_singleton, Cast.whisper.injEq] at hcast
    exact ⟨y, hy, hcast.1.symm⟩

lemma says_replicate (h : Seated w seats) {y : Seat} (hy : y ∈ seats) (d : Bytes) (k : ℕ) :
    Says seats author (List.replicate k (.sent y.sock (.sealed d)))
      (List.replicate k (.whisper y.conn d)) := by
  induction k with
  | zero => exact .nil
  | succ k ih => exact (says_told h hy d).append ih

/-! ### Broadcasts -/

section Broadcasts

variable {rows : List Row}
  (hrows : rows.map (fun r => (r.sock, r.status)) = seats.map fun x => (x.sock, x.status))
include hrows

lemma exists_row_of_seat {x : Seat} (hx : x ∈ seats) :
    ∃ r ∈ rows, r.sock = x.sock ∧ r.status = x.status := by
  have hmem : (x.sock, x.status) ∈ rows.map fun r => (r.sock, r.status) :=
    hrows ▸ List.mem_map_of_mem (f := fun x : Seat => (x.sock, x.status)) hx
  obtain ⟨r, hr, heq⟩ := List.mem_map.mp hmem
  exact ⟨r, hr, (Prod.mk.inj heq).1, (Prod.mk.inj heq).2⟩

lemma exists_seat_of_row {r : Row} (hr : r ∈ rows) :
    ∃ x ∈ seats, x.sock = r.sock ∧ x.status = r.status := by
  have hmem : (r.sock, r.status) ∈ seats.map fun x => (x.sock, x.status) :=
    hrows ▸ List.mem_map_of_mem (f := fun r : Row => (r.sock, r.status)) hr
  obtain ⟨x, hx, heq⟩ := List.mem_map.mp hmem
  exact ⟨x, hx, (Prod.mk.inj heq).1, (Prod.mk.inj heq).2⟩

variable (h : Seated w seats)
include h

lemma nodup_sock_of_seats : (rows.map Row.sock).Nodup := by
  have hsocks := congrArg (List.map Prod.fst) hrows
  rw [List.map_map, List.map_map] at hsocks
  have hnodup := h.nodup_sock
  rw [show seats.map Seat.sock = rows.map Row.sock from hsocks.symm] at hnodup
  exact hnodup

/-- Another `Done` client gets the packet of a broadcast once. -/
lemma sentTo_broadcastActs_of_done {x y : Seat} (hx : x ∈ seats) (hy : y ∈ seats) (hne : x ≠ y)
    (hdone : x.status = .done) (data : Bytes) :
    sentTo x.sock (broadcastActs w rows data (w.peer y.sock)) = [.sealed (cstr data)] := by
  obtain ⟨r, hr, hsock, hstatus⟩ := exists_row_of_seat hrows hx
  have hpeer : w.peer r.sock ≠ w.peer y.sock := fun heq => hne (h.peers x hx y hy (hsock ▸ heq))
  have hnodup : ((recipients w rows (w.peer y.sock)).map Row.sock).Nodup :=
    (List.Sublist.map _ List.filter_sublist).nodup (nodup_sock_of_seats hrows h)
  have hmem := mem_recipients.mpr ⟨hr, hstatus.trans hdone, hpeer⟩
  rw [sentTo_broadcastActs, ← hsock, List.filter_eq_singleton_of_map_nodup hnodup hmem,
    List.map_singleton]

/-- Nobody else gets it. -/
lemma sentTo_broadcastActs_of_not {x y : Seat} (hx : x ∈ seats)
    (hnot : x.status = .done → x = y) (data : Bytes) :
    sentTo x.sock (broadcastActs w rows data (w.peer y.sock)) = [] := by
  rw [sentTo_broadcastActs, List.map_eq_nil_iff, List.filter_eq_nil_iff]
  intro r hr hsock
  have hsock : r.sock = x.sock := of_decide_eq_true hsock
  obtain ⟨hmem, hdone, hpeer⟩ := mem_recipients.mp hr
  obtain ⟨z, hz, hsock', hstatus⟩ := exists_seat_of_row hrows hmem
  have hzx := h.eq_of_sock hz hx (hsock'.trans hsock)
  have hxy : x = y := hnot (by rw [← hzx, hstatus, hdone])
  exact hpeer (by rw [hsock, hxy])

/-- A broadcast about the client `y` is a post of `y`. -/
lemma says_broadcastActs {y : Seat} (hy : y ∈ seats) (data : Bytes) :
    Says seats y.conn (broadcastActs w rows data (w.peer y.sock)) [.post (cstr data)] where
  posts := broadcasts_broadcastActs rows data _
  heard := by
    intro x hx
    by_cases hmeant : x.status = .done ∧ x ≠ y
    · obtain ⟨hdone, hne⟩ := hmeant
      have hconn : x.conn ≠ y.conn := fun heq => hne (h.eq_of_conn hx hy heq)
      rw [sentTo_broadcastActs_of_done hrows h hx hy hne hdone,
        heard_post_of_mem ((h.mem_members_iff hx).mpr hdone) hconn]
      rfl
    · have hnot : x.status = .done → x = y := fun hdone => by_contra fun hne => hmeant ⟨hdone, hne⟩
      rw [sentTo_broadcastActs_of_not hrows h hx hnot, heard_post_of_not_mem fun hmem =>
        congrArg Seat.conn (hnot ((h.mem_members_iff hx).mp hmem))]
      rfl
  inside := by simp

end Broadcasts

/-! ### Answers -/

variable {R : Room} {L : Library} {i : ℕ} {r : Row} {req : Request} {q : Reply}

lemma Room.map_seats : R.rows.map (fun r => (r.sock, r.status)) =
    R.seats.map fun x => (x.sock, x.status) := by
  rw [Room.seats, List.map_map]
  rfl

lemma Room.map_seats_rename (a : Bytes) : (R.rename i a).rows.map (fun r => (r.sock, r.status)) =
    R.seats.map fun x => (x.sock, x.status) := (Room.rename_same a).trans Room.map_seats

/-- Nothing is whispered to anybody but the author. -/
def Discreet (author : ℕ) (casts : List (Cast ℕ Bytes)) : Prop :=
  ∀ n d, .whisper n d ∈ casts → n = author

section Answers

lemma Room.seat_mem (hr : r ∈ R.rows) : r.seat ∈ R.seats := List.mem_map_of_mem hr

variable (h : Seated w R.seats) (hr : r ∈ R.rows)
include h hr

lemma Room.says_joinActs (a : Bytes) :
    Says R.seats r.conn (R.joinActs w i r a)
      [.post (cstr (joinMessage a ((R.rename i a).rows.map (·.clientid))))] :=
  says_broadcastActs (Room.map_seats_rename a) h (Room.seat_mem hr) _

lemma Room.says_disconnectActs (reason : DisconnectReason) :
    Says R.seats r.conn (R.disconnectActs w i r reason) [.post (cstr (R.leaveMessage i r))] :=
  (says_broadcastActs Room.map_seats h (Room.seat_mem hr) _).append
    (says_disconnected i reason)

lemma Room.says_relayed {text : Bytes} (hq : R.relayed w i r text = .ok q) :
    Says R.seats r.conn q.acts [.post (cstr text)] := by
  rw [Room.acts_of_relayed hq]
  exact says_broadcastActs Room.map_seats h (Room.seat_mem hr) text

lemma Room.says_reply (str : Bytes) : ∃ d,
    Says R.seats r.conn [.sent r.sock (directPacket str)] [.whisper r.conn d] :=
  ⟨_, says_told h (Room.seat_mem hr) _⟩

/-- A command whispers and posts nothing. -/
lemma Room.says_commandActs {text : Bytes} (hacts : R.commandActs r text = .ok acts) :
    ∃ casts, Says R.seats r.conn acts casts ∧ broadcasts acts = [] := by
  have hreply : ∀ str, ∃ casts, Says R.seats r.conn [.sent r.sock (directPacket str)] casts ∧
      broadcasts [.sent r.sock (directPacket str)] = [] := by
    intro str
    obtain ⟨d, hd⟩ := Room.says_reply h hr str
    exact ⟨_, hd, rfl⟩
  have hmsg : ∀ args, ∃ casts, Says R.seats r.conn (R.msgActs r args) casts ∧
      broadcasts (R.msgActs r args) = [] := by
    intro args
    rw [Room.msgActs]
    split_ifs
    · exact ⟨_, .nil, rfl⟩
    · exact hreply _
    · cases hfind : R.rows.find? (·.clientid = args.getD 1 []) with
      | none => exact ⟨_, .nil, rfl⟩
      | some target =>
        have htarget : target.seat ∈ R.seats :=
          List.mem_map_of_mem (List.mem_of_find?_eq_some hfind)
        refine ⟨_, says_replicate h htarget _ _, ?_⟩
        rw [broadcasts, List.filterMap_replicate_of_none rfl]
  rw [Room.commandActs] at hacts
  obtain ⟨args, -, hacts⟩ := bind_eq_ok hacts
  split_ifs at hacts <;> cases hacts
  · exact hreply _
  · exact hreply _
  · exact hmsg args
  · exact hreply _

/-- The answer to a request says something, and whispers to others only if it posts nothing. -/
lemma Room.respond_says (hq : R.respond L w i r req = .ok q) :
    ∃ casts, Says R.seats r.conn q.acts casts ∧
      (broadcasts q.acts = [] ∨ Discreet r.conn casts) := by
  have hdrop : ∀ reason acts casts, Says R.seats r.conn acts casts → Discreet r.conn casts →
      ∃ casts, Says R.seats r.conn (acts ++ R.disconnectActs w i r reason) casts ∧
        (broadcasts (acts ++ R.disconnectActs w i r reason) = [] ∨ Discreet r.conn casts) := by
    intro reason acts casts hacts hdiscreet
    refine ⟨_, hacts.append (Room.says_disconnectActs h hr reason), .inr ?_⟩
    intro n d hmem
    rcases List.mem_append.mp hmem with hmem | hmem
    · exact hdiscreet n d hmem
    · simp at hmem
  have hnone : Discreet r.conn [] := by simp [Discreet]
  have hposts : ∀ data : List Bytes, Discreet r.conn (data.map Cast.post) := by
    intro data n d hmem
    simp at hmem
  cases req with
  | leave | spam | garbledLogin | wrongPassword | illegal =>
    cases hq
    exact hdrop _ [] [] .nil hnone
  | idle =>
    cases hq
    exact ⟨[], .nil, .inr hnone⟩
  | unreadable =>
    cases hq
    obtain ⟨d, hd⟩ := Room.says_reply h hr (ascii "Your previous message was not sent")
    exact ⟨_, hd, .inl rfl⟩
  | login u =>
    rw [Room.respond] at hq
    split_ifs at hq
    · cases hq
      exact ⟨_, (Room.says_joinActs h hr u).append (says_clear _ _), .inr (hposts [_])⟩
    · cases hq
      exact hdrop _ [] [] .nil hnone
  | register u p =>
    rw [Room.respond] at hq
    split_ifs at hq
    · cases hq
      exact ⟨_, (((Room.says_joinActs h hr u).append (says_registered u p)).append
        (says_broadcastActs (Room.map_seats_rename u) h (Room.seat_mem hr) _)).append
          (says_clear _ _), .inr (hposts [_, _])⟩
    · cases hq
      exact hdrop _ [] [] .nil hnone
  | key n =>
    rw [Room.respond] at hq
    cases hct : ((R.insertKey r.sock n).keys r.sock).bind fun n => L.rsaEncrypt n serverKey with
    | none =>
      rw [hct] at hq
      cases hq
      exact hdrop _ [] [] .nil hnone
    | some ciphertext =>
      rw [hct] at hq
      cases hq
      exact ⟨_, says_clear _ _, .inr hnone⟩
  | chat text =>
    rw [Room.respond] at hq
    split_ifs at hq
    · cases hq
      obtain ⟨d, hd⟩ := Room.says_reply h hr (ascii "Stop sending empty shit.")
      refine hdrop _ _ _ hd ?_
      intro n d' hmem
      rw [List.mem_singleton, Cast.whisper.injEq] at hmem
      exact hmem.1
    · cases hq
      exact hdrop _ [] [] .nil hnone
    · exact ⟨_, Room.says_relayed h hr hq, .inr (hposts [_])⟩
  | rename a =>
    rw [Room.respond] at hq
    split_ifs at hq
    · cases hq
      exact ⟨_, Room.says_joinActs h hr a, .inr (hposts [_])⟩
    · cases hq
      exact hdrop _ [] [] .nil hnone
  | console =>
    rw [Room.respond] at hq
    exact ⟨_, Room.says_relayed h hr hq, .inr (hposts [_])⟩
  | command text =>
    rw [Room.respond] at hq
    obtain ⟨acts, hacts, hq⟩ := bind_eq_ok hq
    cases hq
    obtain ⟨casts, hcasts, hnone⟩ := Room.says_commandActs h hr hacts
    exact ⟨casts, hcasts, .inl hnone⟩

end Answers

/-! ### Polls -/

lemma Room.polled_seats : (R.polled w i r).seats = R.seats := by
  obtain ⟨f, hf, hrows, -⟩ := Room.polled_rows R w i r
  rw [Room.seats, hrows]
  exact List.map_modify_of_eq fun a => by simp [Row.seat, Row.update, hf]

/-- What a poll says. -/
theorem Room.serve_says (h : Seated w R.seats) (hr : R.rows[i]? = some r)
    (hserve : R.serve L w i r = .ok q) :
    ∃ casts, Says R.seats r.conn q.acts casts ∧
      (broadcasts q.acts = [] ∨ Discreet r.conn casts) := by
  obtain ⟨req, -, hq⟩ := bind_eq_ok hserve
  have hmem := List.mem_of_getElem? (Room.getElem?_polled (w := w) hr)
  have hpolled : Seated w (R.polled w i r).seats := by rwa [Room.polled_seats]
  have hsays := Room.respond_says hpolled hmem hq
  rwa [Room.polled_seats, Row.polled_conn] at hsays

end OpenSimp
