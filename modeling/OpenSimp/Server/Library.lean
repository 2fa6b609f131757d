import OpenSimp.Server.State

/-!
# The libraries the server calls

SFML's sockets are in `World`. This module has what the server uses of Botan and yaml-cpp: a
`Library` is one function for each call, with `none` where the call throws. `Node` is the part of
`YAML::Node` that looks users up.
-/

namespace OpenSimp

open Bytes FaultState

/-- `YAML::Node`. -/
inductive Node where
  | undefined
  | null
  | scalar (text : Bytes)
  | sequence
  | map (entries : List (Bytes × Node))

namespace Node

/-- `node[key]`: only a scalar has no subscript. -/
def subscript (key : Bytes) : Node → Except Fault Node
  | .map entries => .ok ((entries.lookup key).getD .undefined)
  | .scalar _ => .error .exception
  | _ => .ok .undefined

/-- `if (node)`. -/
def isDefined : Node → Bool
  | .undefined => false
  | _ => true

/-- `node.as<std::string>()`. -/
def asString : Node → Except Fault Bytes
  | .scalar text => .ok text
  | .null => .ok (ascii "null")
  | _ => .error .exception

end Node

structure Library where
  /-- The modulus of the server's key pair in decimal. -/
  publicKey : Bytes
  /-- `PK_Decryptor_EME::decrypt` with the server's private key. -/
  rsaDecrypt : Bytes → Option Bytes
  /-- `BigInt(std::string)`. -/
  bigInt : Bytes → Option ℤ
  /-- Whether `RSA_PublicKey(n, EXPONENT_MAX)` constructs. -/
  rsaPublicKey : ℤ → Bool
  /-- `PK_Encryptor_EME::encrypt` under the modulus `n`: it throws when the key is too small for
  the plaintext, and otherwise draws the padding. -/
  rsaEncrypt : ℤ → Bytes → Option (Bytes → Bytes)
  hexEncode : Bytes → Bytes
  hexDecode : Bytes → Option Bytes
  /-- AES-256/GCM with a key and a nonce; the tag is the end of the ciphertext. -/
  aesEncrypt : Bytes → Bytes → Bytes → Bytes
  aesDecrypt : Bytes → Bytes → Bytes → Option Bytes
  /-- `YAML::Emitter` on one user with a password. -/
  yamlEmit : Bytes → Bytes → Bytes
  /-- `YAML::LoadFile` on a file with the given text. -/
  yamlLoad : Bytes → Option Node

namespace Cryptography

variable (L : Library)

def nonceLength : ℕ := 12

/-- `v[i]` on a vector of bytes. -/
def byteAt (v : Bytes) (i : ℕ) : Except Fault Byte :=
  match v[i]? with
  | some c => .ok c
  | none => .error .outOfBounds

/-- `Cryptography::encrypt` with the nonce `iv` drawn by the generator. -/
def encrypt (iv str keyhex : Bytes) : Option Bytes :=
  let key := (L.hexDecode keyhex).getD []
  L.hexDecode (L.hexEncode iv ++ L.hexEncode (L.aesEncrypt key iv str))

/-- `Cryptography::decrypt`: the nonce and the plaintext. -/
def decrypt (ct keyhex : Bytes) : Except Fault (Bytes × Bytes) := do
  let key := (L.hexDecode keyhex).getD []
  let iv ← (List.range nonceLength).mapM (byteAt ct)
  let output ← (List.range' nonceLength (ct.length - nonceLength)).mapM (byteAt ct)
  match L.aesDecrypt key iv output with
  | some msg => pure (iv, msg)
  | none => .error .exception

lemma mapM_byteAt {v : Bytes} {k n : ℕ} (h : k + n ≤ v.length) :
    (List.range' k n).mapM (byteAt v) = .ok ((v.drop k).take n) := by
  induction n generalizing k with
  | zero => simp; rfl
  | succ n ih =>
    have hk : k < v.length := by omega
    rw [List.range'_succ, List.mapM_cons, ih (by omega), byteAt,
      List.getElem?_eq_getElem hk, List.drop_eq_getElem_cons hk]
    rfl

lemma mapM_byteAt_short {v : Bytes} {k n : ℕ} (hk : k ≤ v.length) (h : v.length < k + n) :
    (List.range' k n).mapM (byteAt v) = .error .outOfBounds := by
  induction n generalizing k with
  | zero => omega
  | succ n ih =>
    rw [List.range'_succ, List.mapM_cons, byteAt]
    rcases Nat.lt_or_ge k v.length with hlt | hge
    · rw [List.getElem?_eq_getElem hlt, ih (by omega) (by omega)]
      rfl
    · rw [List.getElem?_eq_none hge]
      rfl

/-- Decryption splits its input after the nonce, and reads past its end when there is no room for
one. -/
lemma decrypt_eq (ct keyhex : Bytes) :
    decrypt L ct keyhex =
      if ct.length < nonceLength then .error .outOfBounds
      else match L.aesDecrypt ((L.hexDecode keyhex).getD []) (ct.take nonceLength)
          (ct.drop nonceLength) with
        | some msg => .ok (ct.take nonceLength, msg)
        | none => .error .exception := by
  simp only [decrypt, List.range_eq_range']
  split_ifs with h
  · rw [mapM_byteAt_short (Nat.zero_le _) (by omega), error_bind]
  · rw [mapM_byteAt (by omega), mapM_byteAt (by omega), ok_bind, ok_bind, List.drop_zero,
      ← List.length_drop, List.take_length]
    rfl

end Cryptography

end OpenSimp
