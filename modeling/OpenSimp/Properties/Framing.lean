import Mathlib.Data.List.ReduceOption
import OpenSimp.Clients.Cpp
import OpenSimp.Clients.Rust
import OpenSimp.Lib.Framing
import OpenSimp.Properties.Robustness

/-!
# Packets on a TCP connection

Neither side marks where a packet ends: every receiver takes the bytes of one read for one packet.
Since authenticated decryption only succeeds on whole packets, the plaintexts are recovered exactly
when the network returns one whole packet for every read.
-/

namespace OpenSimp

open Bytes FaultState ServerNetwork Cryptography

variable {L : Library} {iv pt data : Bytes} {reads packets : List Bytes} {pts : List Bytes}

/-- The key of the packets. -/
def packetKey (L : Library) : Bytes := (L.hexDecode serverKey).getD []

/-- What AES-256/GCM under the key of the packets and the hexadecimal codec promise. Decryption
succeeds only on what encryption produced with the same nonce. -/
structure AeadLaws (L : Library) : Prop where
  length : ∀ iv pt, iv.length = nonceLength →
    (L.aesEncrypt (packetKey L) iv pt).length = pt.length + 16
  correct : ∀ iv pt, iv.length = nonceLength →
    L.aesDecrypt (packetKey L) iv (L.aesEncrypt (packetKey L) iv pt) = some pt
  whole : ∀ iv ct pt, iv.length = nonceLength → L.aesDecrypt (packetKey L) iv ct = some pt →
    ct = L.aesEncrypt (packetKey L) iv pt
  hex : ∀ s t, L.hexDecode (L.hexEncode s ++ L.hexEncode t) = some (s ++ t)

/-- The bytes that a client or the server sends for the plaintext `pt`. -/
def IsPacket (L : Library) (packet pt : Bytes) : Prop :=
  ∃ iv, iv.length = nonceLength ∧ (Cryptography.encrypt L iv pt serverKey = some packet ∨
    Rust.aesEncrypt L (packetKey L) iv pt = packet)

/-- The network may return the stream in these reads. -/
structure Cut (stream : Bytes) (reads : List Bytes) : Prop where
  flatten : reads.flatten = stream
  ne_nil : ∀ read ∈ reads, read ≠ []
  length_le : ∀ read ∈ reads, read.length ≤ maxRawData

/-! ### The server's side -/

namespace ServerNetwork

/-- The plaintext that `receive` gets from the bytes of a read; `none` where decryption throws and
`receive` apologises. -/
def plaintext (L : Library) (data : Bytes) : Except Fault (Option Bytes) :=
  match Cryptography.decrypt L data serverKey with
  | .error .exception => .ok none
  | .error fault => .error fault
  | .ok (_, d) => .ok (some d)

/-- The plaintexts that polling a `Done` client gets from its reads. -/
def receiveLoop (L : Library) (reads : List Bytes) : Except Fault (List Bytes) := do
  let pts ← reads.mapM (plaintext L)
  pure pts.reduceOption

end ServerNetwork

/-- The request of a poll that is not spam is the one of its plaintext. -/
lemma Room.request_eq_plaintext {R : Room} {w : World} {r : Row} (hdone : r.status = .done)
    (hopen : w.status ≠ .disconnected) (hdata : w.data ≠ [])
    (hspam : ¬ asMilliseconds (w.now - r.interval) ≤ 20) :
    R.request L w r = (ServerNetwork.plaintext L w.data).map fun
      | none => .unreadable
      | some d => requestOfPlaintext d := by
  rw [Room.request_of_data hopen hdata, if_neg fun h => hspam h.2, Room.requestOfData,
    if_neg (by simp [hdone]), if_neg (by simp [hdone]), requestOfPacket, ServerNetwork.plaintext]
  rcases Cryptography.decrypt L w.data serverKey with fault | ⟨iv, d⟩
  · cases fault <;> rfl
  · rfl

/-! ### One packet -/

lemma encrypt_eq (hL : AeadLaws L) (iv pt : Bytes) :
    Cryptography.encrypt L iv pt serverKey = some (Rust.aesEncrypt L (packetKey L) iv pt) := by
  rw [Cryptography.encrypt, Rust.aesEncrypt, hL.hex]
  rfl

lemma isPacket_iff (hL : AeadLaws L) : IsPacket L data pt ↔
    ∃ iv, iv.length = nonceLength ∧ data = iv ++ L.aesEncrypt (packetKey L) iv pt := by
  simp only [IsPacket, encrypt_eq hL, Option.some.injEq, or_self]
  constructor
  · rintro ⟨iv, hiv, rfl⟩
    exact ⟨iv, hiv, rfl⟩
  · rintro ⟨iv, hiv, rfl⟩
    exact ⟨iv, hiv, rfl⟩

lemma IsPacket.length_eq (hL : AeadLaws L) (h : IsPacket L data pt) :
    data.length = pt.length + 28 := by
  obtain ⟨iv, hiv, rfl⟩ := (isPacket_iff hL).mp h
  rw [List.length_append, hiv, hL.length iv pt hiv, nonceLength]
  omega

/-- Bytes with room for a nonce decrypt to `pt` exactly if they are a packet of `pt`. -/
lemma aesDecrypt_eq_some_iff (hL : AeadLaws L) (hlen : nonceLength ≤ data.length) :
    L.aesDecrypt (packetKey L) (data.take nonceLength) (data.drop nonceLength) = some pt ↔
      IsPacket L data pt := by
  have hiv : (data.take nonceLength).length = nonceLength := by
    rw [List.length_take, min_eq_left hlen]
  rw [isPacket_iff hL]
  constructor
  · intro h
    refine ⟨data.take nonceLength, hiv, ?_⟩
    rw [← hL.whole _ _ _ hiv h, List.take_append_drop]
  · rintro ⟨iv, hiv', rfl⟩
    rw [← hiv', List.take_left, List.drop_left]
    exact hL.correct iv pt hiv'

lemma IsPacket.nonceLength_lt (hL : AeadLaws L) (h : IsPacket L data pt) :
    nonceLength < data.length := by
  rw [h.length_eq hL, nonceLength]
  omega

lemma Rust.aesDecrypt_eq_some_iff (hL : AeadLaws L) :
    Rust.aesDecrypt L (packetKey L) data = some pt ↔ IsPacket L data pt := by
  have hlength : Rust.nonceLength = Cryptography.nonceLength := rfl
  rw [Rust.aesDecrypt, hlength]
  split_ifs with h
  · apply iff_of_false (by simp)
    intro hp
    exact absurd (hp.nonceLength_lt hL) (by omega)
  · exact OpenSimp.aesDecrypt_eq_some_iff hL (by omega)

lemma ServerNetwork.plaintext_eq_some_iff (hL : AeadLaws L) :
    ServerNetwork.plaintext L data = .ok (some pt) ↔ IsPacket L data pt := by
  rw [ServerNetwork.plaintext, Cryptography.decrypt_eq, ← packetKey]
  split_ifs with h
  · apply iff_of_false (by simp)
    intro hp
    exact absurd (hp.nonceLength_lt hL) (by omega)
  · rw [← OpenSimp.aesDecrypt_eq_some_iff hL (by omega)]
    cases L.aesDecrypt (packetKey L) (data.take nonceLength) (data.drop nonceLength) <;> simp

lemma Cpp.plaintext_eq_ok_iff (hL : AeadLaws L) :
    Cpp.plaintext L serverKey data = .ok pt ↔ IsPacket L data pt := by
  rw [Cpp.plaintext, Cryptography.decrypt_eq, ← packetKey]
  split_ifs with h
  · apply iff_of_false (by rw [error_bind]; simp)
    intro hp
    exact absurd (hp.nonceLength_lt hL) (by omega)
  · rw [← OpenSimp.aesDecrypt_eq_some_iff hL (by omega)]
    cases L.aesDecrypt (packetKey L) (data.take nonceLength) (data.drop nonceLength) with
    | none => simp
    | some msg => simp [pure, Except.pure]

/-! ### The receive loops -/

/-- Decrypting the reads, those aside that are no packets, gives the plaintexts exactly if the
reads are the packets that were sent. -/
lemma filterMap_aesDecrypt_iff (hL : AeadLaws L)
    (hpackets : List.Forall₂ (IsPacket L) packets pts) (hcut : Cut packets.flatten reads) :
    reads.filterMap (Rust.aesDecrypt L (packetKey L)) = pts ↔ reads = packets := by
  have hsize : ∀ data pt, Rust.aesDecrypt L (packetKey L) data = some pt →
      data.length = pt.length + 28 :=
    fun data pt h => ((Rust.aesDecrypt_eq_some_iff hL).mp h).length_eq hL
  exact Framing.filterMap_eq_iff hsize
    (hpackets.imp fun _ _ => (Rust.aesDecrypt_eq_some_iff hL).mpr) hcut.flatten hcut.ne_nil

lemma forall₂_isPacket_iff (hL : AeadLaws L) (hpackets : List.Forall₂ (IsPacket L) packets pts)
    (hcut : Cut packets.flatten reads) : List.Forall₂ (IsPacket L) reads pts ↔ reads = packets := by
  constructor
  · intro h
    rw [← filterMap_aesDecrypt_iff hL hpackets hcut]
    exact Framing.filterMap_of_forall₂
      (h.imp fun _ _ => (Rust.aesDecrypt_eq_some_iff hL).mpr)
  · rintro rfl
    exact hpackets

lemma Cpp.receiveLoop_eq_ok_iff (hL : AeadLaws L) :
    Cpp.receiveLoop L serverKey reads = .ok pts ↔ List.Forall₂ (IsPacket L) reads pts := by
  simp only [Cpp.receiveLoop, Framing.mapM_eq_ok_iff, Cpp.plaintext_eq_ok_iff hL]

lemma Rust.receive_eq_some_iff (hL : AeadLaws L) :
    Rust.receive L (packetKey L) data = some pt ↔
      IsPacket L data pt ∧ (Rust.parsePacket pt).isSome := by
  rw [Rust.receive, ← Rust.aesDecrypt_eq_some_iff hL]
  cases Rust.aesDecrypt L (packetKey L) data with
  | none => simp
  | some d =>
    rw [Option.bind_eq_bind, Option.bind_some]
    cases hparse : Rust.parsePacket d with
    | none =>
      apply iff_of_false (by simp)
      rintro ⟨heq, hsome⟩
      cases heq
      rw [hparse] at hsome
      cases hsome
    | some packet =>
      constructor
      · intro h
        cases h
        exact ⟨rfl, by rw [hparse]; rfl⟩
      · rintro ⟨heq, -⟩
        exact heq

lemma Rust.receiveLoop_eq_some_iff (hL : AeadLaws L) :
    Rust.receiveLoop L (packetKey L) reads = some pts ↔
      List.Forall₂ (IsPacket L) reads pts ∧ ∀ pt ∈ pts, (Rust.parsePacket pt).isSome := by
  simp only [Rust.receiveLoop, Framing.mapM_eq_some_iff, Rust.receive_eq_some_iff hL]
  constructor
  · intro h
    refine ⟨h.imp fun _ _ h => h.1, ?_⟩
    induction h with
    | nil => simp
    | cons hread _ ih =>
      intro pt hpt
      rcases List.mem_cons.mp hpt with rfl | hpt
      · exact hread.2
      · exact ih pt hpt
  · rintro ⟨h, hparse⟩
    induction h with
    | nil => exact .nil
    | cons hread _ ih =>
      refine .cons ⟨hread, hparse _ (by simp)⟩ ?_
      exact ih fun pt hpt => hparse pt (List.mem_cons_of_mem _ hpt)

/-- What the server collects from its reads are the plaintexts of those that are packets. -/
lemma ServerNetwork.reduceOption_of_forall₂ (hL : AeadLaws L) {opts : List (Option Bytes)}
    (h : List.Forall₂ (fun data pt => ServerNetwork.plaintext L data = .ok pt) reads opts) :
    opts.reduceOption = reads.filterMap (Rust.aesDecrypt L (packetKey L)) := by
  induction h with
  | nil => rfl
  | @cons data pt reads opts hread _ ih =>
    cases pt with
    | none =>
      have hnone : Rust.aesDecrypt L (packetKey L) data = none := by
        rw [Option.eq_none_iff_forall_ne_some]
        intro pt hpt
        have hsome := (ServerNetwork.plaintext_eq_some_iff hL).mpr
          ((Rust.aesDecrypt_eq_some_iff hL).mp hpt)
        cases hread.symm.trans hsome
      rw [List.reduceOption_cons_of_none, List.filterMap_cons_none hnone, ih]
    | some d =>
      have hsome := (Rust.aesDecrypt_eq_some_iff hL).mpr
        ((ServerNetwork.plaintext_eq_some_iff hL).mp hread)
      rw [List.reduceOption_cons_of_some, List.filterMap_cons_some hsome, ih]

lemma ServerNetwork.receiveLoop_of_forall₂ (hL : AeadLaws L)
    (h : List.Forall₂ (IsPacket L) reads pts) :
    ServerNetwork.receiveLoop L reads = .ok pts := by
  have hopts : reads.mapM (ServerNetwork.plaintext L) = .ok (pts.map some) := by
    rw [Framing.mapM_eq_ok_iff, List.forall₂_map_right_iff]
    exact h.imp fun _ _ => (ServerNetwork.plaintext_eq_some_iff hL).mpr
  have hpts : (pts.map some).reduceOption = pts := by simp [List.reduceOption]
  rw [ServerNetwork.receiveLoop, hopts, ok_bind, hpts]
  rfl

/-- Every receiver recovers the plaintexts of a connection exactly when each read returned one
whole packet; the Rust client must also be able to parse them. -/
theorem recovered_iff_whole (L : Library) (hL : AeadLaws L)
    (hpackets : List.Forall₂ (IsPacket L) packets pts) (hcut : Cut packets.flatten reads) :
    (Cpp.receiveLoop L serverKey reads = .ok pts ↔ reads = packets) ∧
      (Rust.receiveLoop L (packetKey L) reads = some pts ↔
        reads = packets ∧ ∀ pt ∈ pts, (Rust.parsePacket pt).isSome) ∧
      (ServerNetwork.receiveLoop L reads = .ok pts ↔ reads = packets) := by
  have hreads := forall₂_isPacket_iff hL hpackets hcut
  refine ⟨?_, ?_, ?_⟩
  · rw [Cpp.receiveLoop_eq_ok_iff hL, hreads]
  · rw [Rust.receiveLoop_eq_some_iff hL, hreads]
  · constructor
    · intro h
      rw [ServerNetwork.receiveLoop] at h
      cases hopts : reads.mapM (ServerNetwork.plaintext L) with
      | error e => rw [hopts] at h; cases h
      | ok opts =>
        rw [hopts] at h
        have hpts : opts.reduceOption = pts := Except.ok.inj h
        rw [ServerNetwork.reduceOption_of_forall₂ hL (Framing.mapM_eq_ok_iff.mp hopts)] at hpts
        exact (filterMap_aesDecrypt_iff hL hpackets hcut).mp hpts
    · intro h
      exact ServerNetwork.receiveLoop_of_forall₂ hL (hreads.mpr h)

lemma toy_aeadLaws : AeadLaws toy where
  length := fun iv pt _ => Toy.length_aesEncrypt _ iv pt
  correct := fun iv pt _ => Toy.aesDecrypt_aesEncrypt _ iv pt
  whole := fun _ _ _ _ h => Toy.aesDecrypt_eq_some h
  hex := by
    intro s t
    exact (congrArg Toy.hexDecode (Toy.hexEncode_append s t)).symm.trans
      (Toy.hexDecode_hexEncode (s ++ t))

lemma Toy.isPacket_seals (pt : Bytes) : IsPacket toy (seals pt) pt :=
  ⟨List.replicate 12 0, rfl, .inr rfl⟩

/-- Two messages of the server. -/
def Toy.greetings : List Bytes := [ascii "6" ++ [separator] ++ ascii "hi", ascii "6" ++ [separator]]

lemma Toy.forall₂_greetings :
    List.Forall₂ (IsPacket toy) (greetings.map seals) greetings :=
  .cons (isPacket_seals _) (.cons (isPacket_seals _) .nil)

theorem recovered_iff_whole_toy :
    Cpp.receiveLoop toy serverKey (Toy.greetings.map Toy.seals) = .ok Toy.greetings ∧
      Rust.receiveLoop toy (packetKey toy) (Toy.greetings.map Toy.seals) = some Toy.greetings ∧
      ServerNetwork.receiveLoop toy (Toy.greetings.map Toy.seals) = .ok Toy.greetings := by
  have hcut : Cut (Toy.greetings.map Toy.seals).flatten (Toy.greetings.map Toy.seals) :=
    ⟨rfl, by decide +kernel, by decide +kernel⟩
  obtain ⟨hcpp, hrust, hserver⟩ :=
    recovered_iff_whole toy toy_aeadLaws Toy.forall₂_greetings hcut
  exact ⟨hcpp.mpr rfl, hrust.mpr ⟨rfl, by decide +kernel⟩, hserver.mpr rfl⟩

/-- A read that returns both packets is not decrypted. -/
theorem not_recovered_toy :
    ¬ ∀ packets pts reads, List.Forall₂ (IsPacket toy) packets pts → Cut packets.flatten reads →
      Cpp.receiveLoop toy serverKey reads = .ok pts := by
  intro hall
  have hcut : Cut (Toy.greetings.map Toy.seals).flatten [(Toy.greetings.map Toy.seals).flatten] :=
    ⟨by simp, by decide +kernel, by decide +kernel⟩
  have hrecovered := hall _ _ _ Toy.forall₂_greetings hcut
  have hnone : (Cpp.receiveLoop toy serverKey
      [(Toy.greetings.map Toy.seals).flatten]).toOption = none := by decide +kernel
  rw [hrecovered] at hnone
  cases hnone

end OpenSimp
