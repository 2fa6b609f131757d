import OpenSimp.Clients.Rust
import OpenSimp.Toy.Library

/-!
# Encrypted packets

A packet is a nonce and a ciphertext with its tag. The server and the C++ client read the nonce
without looking at the length of what they got; the Rust client looks. On packets that have a nonce
the two agree, and each reads what the other has written.
-/

namespace OpenSimp

open Bytes FaultState Cryptography

variable {L : Library} {ct keyhex key nonce : Bytes}

/-! ### Bounds -/

/-- A text that has no room for a tag is not decrypted. -/
def NeedsTag (L : Library) : Prop :=
  ∀ key nonce text, text.length < 16 → L.aesDecrypt key nonce text = none

/-- Decryption of `ct` stays inside it, returns the authenticated plaintext or throws, and throws
when the Rust client refuses `ct`. -/
structure DecryptsSafely (L : Library) (ct keyhex key : Bytes) : Prop where
  in_bounds : decrypt L ct keyhex ≠ .error .outOfBounds
  authentic : decrypt L ct keyhex = .error .exception ∨ ∃ msg,
    decrypt L ct keyhex = .ok (ct.take Cryptography.nonceLength, msg) ∧
    L.aesDecrypt key (ct.take Cryptography.nonceLength) (ct.drop Cryptography.nonceLength) =
      some msg
  agree : decrypt L ct keyhex = .error .exception ↔ Rust.aesDecrypt L key ct = none

/-- Both sides decrypt what comes after the nonce. -/
lemma decrypt_of_nonce (hkey : L.hexDecode keyhex = some key)
    (hct : Cryptography.nonceLength ≤ ct.length) :
    decrypt L ct keyhex =
      match L.aesDecrypt key (ct.take Cryptography.nonceLength)
          (ct.drop Cryptography.nonceLength) with
        | some msg => .ok (ct.take Cryptography.nonceLength, msg)
        | none => .error .exception := by
  rw [decrypt_eq, if_neg (Nat.not_lt.mpr hct), hkey]
  rfl

lemma aesDecrypt_of_nonce (hL : NeedsTag L) (hct : Cryptography.nonceLength ≤ ct.length) :
    Rust.aesDecrypt L key ct = L.aesDecrypt key (ct.take Cryptography.nonceLength)
      (ct.drop Cryptography.nonceLength) := by
  rw [Rust.aesDecrypt]
  split_ifs with hlen
  · have hshort : (ct.drop Cryptography.nonceLength).length < 16 := by
      rw [List.length_drop]
      rw [Rust.nonceLength] at hlen
      omega
    exact (hL _ _ _ hshort).symm
  · rfl

/-- Decryption is safe exactly on the texts that have a nonce. -/
theorem decrypt_safe_iff (hL : NeedsTag L) (hkey : L.hexDecode keyhex = some key) (ct : Bytes) :
    DecryptsSafely L ct keyhex key ↔ 12 ≤ ct.length := by
  constructor
  · intro h
    by_contra hshort
    have hlt : ct.length < Cryptography.nonceLength := Nat.not_le.mp hshort
    apply h.in_bounds
    rw [decrypt_eq, if_pos hlt]
  · intro hct
    have hdec := decrypt_of_nonce hkey hct
    have hrust : Rust.aesDecrypt L key ct = _ := aesDecrypt_of_nonce hL hct
    cases hmsg : L.aesDecrypt key (ct.take Cryptography.nonceLength)
        (ct.drop Cryptography.nonceLength) with
    | none =>
      rw [hmsg] at hdec hrust
      exact ⟨by simp [hdec], .inl hdec, by simp [hdec, hrust]⟩
    | some msg =>
      rw [hmsg] at hdec hrust
      exact ⟨by simp [hdec], .inr ⟨msg, hdec, hmsg⟩, by simp [hdec, hrust]⟩

lemma toy_needsTag : NeedsTag toy := by
  intro key nonce text hshort
  change Toy.aesDecrypt key nonce text = none
  by_contra hsome
  obtain ⟨plaintext, hdec⟩ := Option.ne_none_iff_exists'.mp hsome
  have hlen := Toy.length_aesEncrypt key nonce plaintext
  rw [← Toy.aesDecrypt_eq_some hdec] at hlen
  omega

/-- A sealed packet is decrypted safely. -/
theorem decrypt_safe_iff_toy :
    DecryptsSafely toy (Toy.seals (ascii "0hi")) serverKey
      ((Toy.hexDecode serverKey).getD []) ↔ 12 ≤ (Toy.seals (ascii "0hi")).length :=
  decrypt_safe_iff toy_needsTag (by decide) _

/-- A single byte has no nonce. -/
theorem not_decrypt_safe :
    ¬ ∀ ct keyhex key : Bytes, toy.hexDecode keyhex = some key →
      DecryptsSafely toy ct keyhex key := by
  intro h
  have hkey : toy.hexDecode serverKey = some ((Toy.hexDecode serverKey).getD []) := by decide
  refine (h [65] serverKey _ hkey).in_bounds ?_
  rw [decrypt_eq, if_pos (by decide)]

/-! ### Interoperation -/

/-- The digits of a key, of either case. -/
def hexDigits : Bytes := ascii "0123456789ABCDEFabcdef"

/-- What both sides' AES-256/GCM and hexadecimal codecs promise. -/
structure CipherLaws (L : Library) (hexDecode : Bytes → Option Bytes) : Prop where
  length : ∀ key nonce pt, key.length = 32 → nonce.length = 12 →
    (L.aesEncrypt key nonce pt).length = pt.length + 16
  correct : ∀ key nonce pt, key.length = 32 → nonce.length = 12 →
    L.aesDecrypt key nonce (L.aesEncrypt key nonce pt) = some pt
  hex : ∀ s t, L.hexDecode (L.hexEncode s ++ L.hexEncode t) = some (s ++ t)
  key : ∀ K : Bytes, K.length = 64 → (∀ c ∈ K, c ∈ hexDigits) →
    ∃ key, key.length = 32 ∧ L.hexDecode K = some key ∧ hexDecode K = some key

/-- The nonce and the ciphertext of a frame. -/
lemma split_aesEncrypt (L : Library) (key : Bytes) (hlen : nonce.length = 12) (s : Bytes) :
    (Rust.aesEncrypt L key nonce s).take Cryptography.nonceLength = nonce ∧
      (Rust.aesEncrypt L key nonce s).drop Cryptography.nonceLength = L.aesEncrypt key nonce s := by
  have hnonce : Cryptography.nonceLength = nonce.length := hlen.symm
  rw [Rust.aesEncrypt, hnonce, List.take_left, List.drop_left]
  exact ⟨rfl, rfl⟩

section Framed

variable {hexDecode : Bytes → Option Bytes} (hL : CipherLaws L hexDecode)
include hL

/-- The server sends the frame that the Rust client builds. -/
lemma encrypt_eq_aesEncrypt (hkey : L.hexDecode keyhex = some key) (s : Bytes) :
    encrypt L nonce s keyhex = some (Rust.aesEncrypt L key nonce s) := by
  rw [encrypt, hL.hex, hkey, Rust.aesEncrypt]
  rfl

lemma length_aesEncrypt_frame (hkey : key.length = 32) (hlen : nonce.length = 12) (s : Bytes) :
    (Rust.aesEncrypt L key nonce s).length = s.length + 28 := by
  rw [Rust.aesEncrypt, List.length_append, hL.length key nonce s hkey hlen, hlen]
  omega

lemma decrypt_aesEncrypt (hkey : key.length = 32) (hdec : L.hexDecode keyhex = some key)
    (hlen : nonce.length = 12) (s : Bytes) :
    decrypt L (Rust.aesEncrypt L key nonce s) keyhex = .ok (nonce, s) := by
  have hframe : Cryptography.nonceLength ≤ (Rust.aesEncrypt L key nonce s).length := by
    rw [length_aesEncrypt_frame hL hkey hlen, Cryptography.nonceLength]
    omega
  obtain ⟨htake, hdrop⟩ := split_aesEncrypt L key hlen s
  rw [decrypt_of_nonce hdec hframe, htake, hdrop, hL.correct key nonce s hkey hlen]

lemma aesDecrypt_aesEncrypt (hkey : key.length = 32) (hlen : nonce.length = 12) (s : Bytes) :
    Rust.aesDecrypt L key (Rust.aesEncrypt L key nonce s) = some s := by
  have hframe : ¬ (Rust.aesEncrypt L key nonce s).length ≤ Rust.nonceLength := by
    rw [length_aesEncrypt_frame hL hkey hlen, Rust.nonceLength]
    omega
  obtain ⟨htake, hdrop⟩ := split_aesEncrypt L key hlen s
  rw [Rust.aesDecrypt, if_neg hframe]
  exact (congrArg₂ (L.aesDecrypt key) htake hdrop).trans (hL.correct key nonce s hkey hlen)

end Framed

/-- Under every key, what one side encrypts the other side decrypts, and the server gets its own
nonce and text back. -/
theorem ciphers_interoperate {hexDecode : Bytes → Option Bytes} (hL : CipherLaws L hexDecode)
    {K nonce : Bytes} (hlength : K.length = 64) (hdigits : ∀ c ∈ K, c ∈ hexDigits)
    (hnonce : nonce.length = 12) (s : Bytes) :
    ∃ key ct, Rust.dehex hexDecode K = some key ∧ encrypt L nonce s K = some ct ∧
      decrypt L ct K = .ok (nonce, s) ∧
      Rust.aesDecrypt L key ct = some s ∧
      decrypt L (Rust.aesEncrypt L key nonce s) K = .ok (nonce, s) := by
  obtain ⟨key, hkey, hdec, hrust⟩ := hL.key K hlength hdigits
  have hserver := decrypt_aesEncrypt hL hkey hdec hnonce s
  exact ⟨key, _, hrust, encrypt_eq_aesEncrypt hL hdec s, hserver,
    aesDecrypt_aesEncrypt hL hkey hnonce s, hserver⟩

/-! ### A codec that reads both cases -/

namespace Toy

def upper (c : Byte) : Byte := if 97 ≤ c ∧ c ≤ 102 then c - 32 else c

def hexDecodeAny (s : Bytes) : Option Bytes := hexDecode (s.map upper)

lemma upper_of_mem {c : Byte} (hc : c ∈ ascii "0123456789ABCDEF") : upper c = c := by
  have hall : (ascii "0123456789ABCDEF").all (fun c => upper c = c) := by decide
  exact of_decide_eq_true (List.all_eq_true.mp hall c hc)

lemma upper_mem {c : Byte} (hc : c ∈ hexDigits) : upper c ∈ ascii "0123456789ABCDEF" := by
  have hall : hexDigits.all (fun c => upper c ∈ ascii "0123456789ABCDEF") := by decide
  exact of_decide_eq_true (List.all_eq_true.mp hall c hc)

lemma exists_hexValue {c : Byte} (hc : c ∈ ascii "0123456789ABCDEF") :
    ∃ v, hexValue c = some v := by
  have hall : (ascii "0123456789ABCDEF").all (fun c => (hexValue c).isSome) := by decide
  exact Option.isSome_iff_exists.mp (List.all_eq_true.mp hall c hc)

lemma serverKey_digits : ∀ c ∈ serverKey, c ∈ hexDigits := by
  have hall : serverKey.all (fun c => c ∈ hexDigits) := by decide
  exact fun c hc => of_decide_eq_true (List.all_eq_true.mp hall c hc)

lemma hexDecodeAny_hexEncode (s : Bytes) : hexDecodeAny (hexEncode s) = some s := by
  have hupper : (hexEncode s).map upper = (hexEncode s).map id :=
    List.map_congr_left fun c hc => upper_of_mem (mem_hexEncode hc)
  rw [hexDecodeAny, hupper, List.map_id, hexDecode_hexEncode]

lemma exists_hexDecode {n : ℕ} {s : Bytes} (hlen : s.length = 2 * n)
    (hdigits : ∀ c ∈ s, c ∈ ascii "0123456789ABCDEF") :
    ∃ t, t.length = n ∧ hexDecode s = some t := by
  induction n generalizing s with
  | zero => exact ⟨[], rfl, by rw [List.length_eq_zero_iff.mp hlen]; rfl⟩
  | succ n ih =>
    match s, hlen with
    | a :: b :: s, hlen =>
      obtain ⟨t, ht, hdec⟩ := ih (s := s) (by simp at hlen; omega)
        fun c hc => hdigits c (by simp [hc])
      obtain ⟨v, hv⟩ := exists_hexValue (hdigits a (by simp))
      obtain ⟨v', hv'⟩ := exists_hexValue (hdigits b (by simp))
      exact ⟨UInt8.ofNat (16 * v + v') :: t, by simp [ht], by rw [hexDecode, hv, hv', hdec]; rfl⟩

/-- The toy library with a codec that reads both cases. -/
def anyCase : Library := { toy with hexDecode := hexDecodeAny }

lemma anyCase_cipherLaws : CipherLaws anyCase hexDecodeAny where
  length key nonce pt _ _ := length_aesEncrypt key nonce pt
  correct key nonce pt _ _ := Toy.aesDecrypt_aesEncrypt key nonce pt
  hex s t := by
    change hexDecodeAny (hexEncode s ++ hexEncode t) = some (s ++ t)
    rw [← hexEncode_append, hexDecodeAny_hexEncode]
  key K hlength hdigits := by
    obtain ⟨key, hkey, hdec⟩ := exists_hexDecode (n := 32) (s := K.map upper) (by simpa)
      fun c hc => by
        obtain ⟨d, hd, rfl⟩ := List.mem_map.mp hc
        exact upper_mem (hdigits d hd)
    exact ⟨key, hkey, hdec, hdec⟩

end Toy

/-- A chat line of alice under the server's key. -/
theorem ciphers_interoperate_chat : ∃ key ct,
    Rust.dehex Toy.hexDecodeAny serverKey = some key ∧
    encrypt Toy.anyCase (List.replicate 12 7) (chatPacket (ascii "hello") (ascii "alice"))
      serverKey = some ct ∧
    decrypt Toy.anyCase ct serverKey =
      .ok (List.replicate 12 7, chatPacket (ascii "hello") (ascii "alice")) ∧
    Rust.aesDecrypt Toy.anyCase key ct = some (chatPacket (ascii "hello") (ascii "alice")) ∧
    decrypt Toy.anyCase (Rust.aesEncrypt Toy.anyCase key (List.replicate 12 7)
        (chatPacket (ascii "hello") (ascii "alice"))) serverKey =
      .ok (List.replicate 12 7, chatPacket (ascii "hello") (ascii "alice")) :=
  ciphers_interoperate Toy.anyCase_cipherLaws rfl Toy.serverKey_digits rfl _

end OpenSimp
