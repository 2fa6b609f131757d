import OpenSimp.Room.Accounts

/-!
# A toy library

A `Library` that can be run. It keeps what the server and its clients rely on: hexadecimal and
decimal are as usual, a key is a positive odd number of at least five bits and must be eleven bytes
longer than what it encrypts, a sealed text is its plaintext with a sixteen-byte tag, and the YAML
reader reads back what the emitter wrote. It keeps no secrets.
-/

namespace OpenSimp.Toy

open Bytes

/-! ### Numbers -/

def hexDigit (n : ℕ) : Byte := UInt8.ofNat (if n < 10 then 48 + n else 55 + n)

def hexValue (c : Byte) : Option ℕ :=
  if 48 ≤ c ∧ c ≤ 57 then some (c.toNat - 48)
  else if 65 ≤ c ∧ c ≤ 70 then some (c.toNat - 55)
  else none

def hexEncode (s : Bytes) : Bytes :=
  s.flatMap fun c => [hexDigit (c.toNat / 16), hexDigit (c.toNat % 16)]

def hexDecode : Bytes → Option Bytes
  | [] => some []
  | [_] => none
  | a :: b :: s => do
    let a ← hexValue a
    let b ← hexValue b
    let s ← hexDecode s
    pure (UInt8.ofNat (16 * a + b) :: s)

lemma hexDecode_hexByte (c : Byte) (s : Bytes) :
    hexDecode (hexDigit (c.toNat / 16) :: hexDigit (c.toNat % 16) :: s) =
      (hexDecode s).map (c :: ·) := by
  have hvalue : ∀ n < 16, hexValue (hexDigit n) = some n := by decide
  have hc : c.toNat < 256 := c.toNat_lt
  have hbyte : UInt8.ofNat (16 * (c.toNat / 16) + c.toNat % 16) = c := by
    rw [Nat.div_add_mod]
    exact UInt8.ofNat_toNat
  rw [hexDecode, hvalue _ (by omega), hvalue _ (by omega)]
  cases hexDecode s with
  | none => rfl
  | some s => simpa using hbyte

lemma hexDecode_hexEncode (s : Bytes) : hexDecode (hexEncode s) = some s := by
  induction s with
  | nil => rfl
  | cons c s ih => rw [hexEncode, List.flatMap_cons, List.cons_append, List.cons_append,
      List.nil_append, hexDecode_hexByte, ← hexEncode, ih]; rfl

lemma hexEncode_append (s t : Bytes) : hexEncode (s ++ t) = hexEncode s ++ hexEncode t :=
  List.flatMap_append

def bigInt (text : Bytes) : Option ℤ :=
  if text.all fun c => 48 ≤ c && c ≤ 57 then
    some (text.foldl (fun n c => 10 * n + (c.toNat - 48)) 0)
  else none

/-- A modulus of two hundred digits. -/
def modulus : Bytes := List.replicate 200 57

/-! ### Encryption -/

/-- The padding of a ciphertext ends at its first NUL. -/
def rsaDecrypt : Bytes → Option Bytes
  | [] => none
  | c :: s => if c = 0 then some s else rsaDecrypt s

def rsaPublicKey (n : ℤ) : Bool := decide (17 ≤ n) && decide (n % 2 = 1)

def rsaEncrypt (n : ℤ) (plaintext : Bytes) : Option (Bytes → Bytes) :=
  if 256 ^ (plaintext.length + 10) ≤ n then some fun seed => cstr seed ++ [0] ++ plaintext
  else none

/-- The tag has the length of the plaintext and the sum of the key and the nonce. -/
def tag (key nonce plaintext : Bytes) : Bytes :=
  [UInt8.ofNat plaintext.length, key.foldl (· + ·) 0, nonce.foldl (· + ·) 0] ++
    List.replicate 13 0

def aesEncrypt (key nonce plaintext : Bytes) : Bytes := plaintext ++ tag key nonce plaintext

def aesDecrypt (key nonce text : Bytes) : Option Bytes :=
  let plaintext := text.take (text.length - 16)
  if text = aesEncrypt key nonce plaintext then some plaintext else none

lemma rsaDecrypt_append {s : Bytes} (hs : (0 : Byte) ∉ s) (plaintext : Bytes) :
    rsaDecrypt (s ++ 0 :: plaintext) = some plaintext := by
  induction s with
  | nil => rfl
  | cons c s ih =>
    rw [List.mem_cons, not_or] at hs
    rw [List.cons_append, rsaDecrypt, if_neg (Ne.symm hs.1)]
    exact ih hs.2

/-- Decryption undoes encryption. -/
lemma rsaDecrypt_rsaEncrypt {n : ℤ} {plaintext : Bytes} {ciphertext : Bytes → Bytes}
    (h : rsaEncrypt n plaintext = some ciphertext) (seed : Bytes) :
    rsaDecrypt (ciphertext seed) = some plaintext := by
  rw [rsaEncrypt] at h
  split_ifs at h
  cases h
  exact (congrArg rsaDecrypt (List.append_assoc (cstr seed) [0] plaintext)).trans
    (rsaDecrypt_append (nul_not_mem_cstr seed) plaintext)

lemma aesDecrypt_aesEncrypt (key nonce plaintext : Bytes) :
    aesDecrypt key nonce (aesEncrypt key nonce plaintext) = some plaintext := by
  have htake : (aesEncrypt key nonce plaintext).take
      ((aesEncrypt key nonce plaintext).length - 16) = plaintext := by
    simp [aesEncrypt, tag]
  rw [aesDecrypt]
  simp only [htake, if_true]

lemma aesDecrypt_eq_some {key nonce text plaintext : Bytes}
    (h : aesDecrypt key nonce text = some plaintext) : text = aesEncrypt key nonce plaintext := by
  rw [aesDecrypt] at h
  split_ifs at h with htext
  cases h
  exact htext

lemma length_aesEncrypt (key nonce plaintext : Bytes) :
    (aesEncrypt key nonce plaintext).length = plaintext.length + 16 := by
  simp [aesEncrypt, tag]

/-! ### YAML -/

/-- A password with other characters than aliases have is written in hexadecimal. -/
def scalar (p : Bytes) : Bytes :=
  if p ≠ [] ∧ p.all ServerNetwork.isAliasChar then p else [34] ++ hexEncode p ++ [34]

def readScalar : Bytes → Option Bytes
  | 34 :: s => hexDecode s.dropLast
  | s => some s

def passwordPrefix : Bytes := ascii "  password: "

def userLine (u : Bytes) : Bytes := u ++ [58]

def passwordLine (p : Bytes) : Bytes := passwordPrefix ++ scalar p

def yamlEmit (u p : Bytes) : Bytes := userLine u ++ [newline] ++ passwordLine p

def readLines : List Bytes → Option (List (Bytes × Node))
  | [] => some []
  | [_] => none
  | user :: password :: lines => do
    let p ← readScalar (password.drop passwordPrefix.length)
    let entries ← readLines lines
    pure ((user.dropLast, accountNode p) :: entries)

def yamlLoad (text : Bytes) : Option Node :=
  if text = [] then some .null else (readLines (text.splitOn newline)).map .map

/-! ### What is read back -/

lemma hexDigit_mem {n : ℕ} (hn : n < 16) :
    hexDigit n ∈ (ascii "0123456789ABCDEF" : Bytes) := by
  revert n
  decide

lemma mem_hexEncode {c : Byte} {s : Bytes} (hc : c ∈ hexEncode s) :
    c ∈ (ascii "0123456789ABCDEF" : Bytes) := by
  obtain ⟨d, -, hd⟩ := List.mem_flatMap.mp hc
  have hlt : d.toNat < 256 := d.toNat_lt
  rcases List.mem_cons.mp hd with rfl | hd
  · exact hexDigit_mem (by omega)
  · rw [List.mem_singleton.mp hd]
    exact hexDigit_mem (by omega)

/-- A character that is neither NUL nor a newline. -/
def Inline (c : Byte) : Prop := c ≠ 0 ∧ c ≠ newline

lemma inline_of_isAliasChar {c : Byte} (hc : ServerNetwork.isAliasChar c = true) : Inline c := by
  constructor <;> rintro rfl <;> revert hc <;> decide

lemma inline_of_mem_scalar {c : Byte} {p : Bytes} (hc : c ∈ scalar p) : Inline c := by
  rw [scalar] at hc
  split_ifs at hc with hp
  · exact inline_of_isAliasChar (List.all_eq_true.mp hp.2 c hc)
  · simp only [List.mem_append, List.mem_singleton] at hc
    rcases hc with (rfl | hc) | rfl
    · constructor <;> decide
    · have hdigit := mem_hexEncode hc
      constructor <;> rintro rfl <;> revert hdigit <;> decide
    · constructor <;> decide

lemma inline_of_mem_passwordLine {c : Byte} {p : Bytes} (hc : c ∈ passwordLine p) : Inline c := by
  rcases List.mem_append.mp hc with hc | hc
  · constructor <;> rintro rfl <;> revert hc <;> decide
  · exact inline_of_mem_scalar hc

lemma inline_of_mem_userLine {c : Byte} {u : Bytes} (hu : ValidAlias u) (hc : c ∈ userLine u) :
    Inline c := by
  rcases List.mem_append.mp hc with hc | hc
  · exact inline_of_isAliasChar (hu.mem hc)
  · rw [List.mem_singleton.mp hc]
    constructor <;> decide

lemma scalar_ne_nil (p : Bytes) : scalar p ≠ [] := by
  rw [scalar]
  split_ifs with hp
  · exact hp.1
  · simp

lemma readScalar_scalar (p : Bytes) : readScalar (scalar p) = some p := by
  rw [scalar]
  split_ifs with hp
  · cases p with
    | nil => exact absurd rfl hp.1
    | cons c p =>
      have hc : c ≠ 34 := by
        rintro rfl
        have := List.all_eq_true.mp hp.2 34 (by simp)
        revert this
        decide
      rw [readScalar]
      rintro s ⟨⟩
      exact hc rfl
  · rw [List.append_assoc, List.singleton_append, readScalar, List.dropLast_concat,
      hexDecode_hexEncode]

/-- The lines of the file of some accounts. -/
def accountLines (accounts : List (Bytes × Bytes)) : List Bytes :=
  accounts.flatMap fun a => [userLine a.1, passwordLine a.2]

lemma accountLines_cons (a : Bytes × Bytes) (accounts : List (Bytes × Bytes)) :
    accountLines (a :: accounts) = [userLine a.1, passwordLine a.2] ++ accountLines accounts :=
  List.flatMap_cons

lemma readLines_accountLines (accounts : List (Bytes × Bytes)) :
    readLines (accountLines accounts) =
      some (accounts.map fun a => (a.1, accountNode a.2)) := by
  induction accounts with
  | nil => rfl
  | cons a accounts ih =>
    have hdrop : (passwordLine a.2).drop passwordPrefix.length = scalar a.2 := List.drop_left
    have huser : (userLine a.1).dropLast = a.1 := List.dropLast_concat
    rw [accountLines_cons, List.cons_append, List.singleton_append, readLines, hdrop,
      readScalar_scalar, ih, huser]
    rfl

lemma blocks_map_yamlEmit (accounts : List (Bytes × Bytes)) :
    blocks (accounts.map fun a => yamlEmit a.1 a.2) = blocks (accountLines accounts) := by
  induction accounts with
  | nil => rfl
  | cons a accounts ih =>
    have hemit : yamlEmit a.1 a.2 = blocks [userLine a.1, passwordLine a.2] := by
      rw [blocks_cons (by simp), blocks_singleton]
      rfl
    cases accounts with
    | nil => simpa [accountLines] using hemit
    | cons a' accounts =>
      have hlines : accountLines (a' :: accounts) ≠ [] := by simp [accountLines]
      rw [List.map_cons, ← List.singleton_append, blocks_append_blocks (by simp) (by simp), ih,
        accountLines_cons a, blocks_append_blocks (by simp) hlines, ← hemit, blocks_singleton]

lemma newline_not_mem_accountLines {accounts : List (Bytes × Bytes)}
    (hvalid : ∀ a ∈ accounts, ValidAlias a.1) : ∀ l ∈ accountLines accounts, newline ∉ l := by
  intro l hl hmem
  obtain ⟨a, ha, hl⟩ := List.mem_flatMap.mp hl
  rcases List.mem_cons.mp hl with rfl | hl
  · exact (inline_of_mem_userLine (hvalid a ha) hmem).2 rfl
  · rw [List.mem_singleton.mp hl] at hmem
    exact (inline_of_mem_passwordLine hmem).2 rfl

lemma cstr_yamlEmit {u : Bytes} (hu : ValidAlias u) (p : Bytes) :
    cstr (yamlEmit u p) = yamlEmit u p := by
  apply cstr_of_nul_not_mem
  intro hc
  simp only [yamlEmit, List.mem_append, List.mem_singleton] at hc
  rcases hc with (hc | hc) | hc
  · exact (inline_of_mem_userLine hu hc).1 rfl
  · exact absurd hc (by decide)
  · exact (inline_of_mem_passwordLine hc).1 rfl

lemma getLast?_yamlEmit (u p : Bytes) : (yamlEmit u p).getLast? ≠ some newline := by
  have hne : passwordLine p ≠ [] := List.append_ne_nil_of_right_ne_nil _ (scalar_ne_nil p)
  rw [yamlEmit, List.getLast?_append_of_ne_nil _ hne]
  exact fun h => (inline_of_mem_passwordLine (List.mem_of_getLast? h)).2 rfl

end OpenSimp.Toy

namespace OpenSimp

open Bytes Toy

def toy : Library where
  publicKey := modulus
  rsaDecrypt := rsaDecrypt
  bigInt := bigInt
  rsaPublicKey := rsaPublicKey
  rsaEncrypt := rsaEncrypt
  hexEncode := hexEncode
  hexDecode := hexDecode
  aesEncrypt := aesEncrypt
  aesDecrypt := aesDecrypt
  yamlEmit := yamlEmit
  yamlLoad := yamlLoad

lemma toy_accountBlock {a : Bytes × Bytes} (ha : ValidAlias a.1) :
    accountBlock toy a = yamlEmit a.1 a.2 := cstr_yamlEmit ha a.2

lemma toy_yamlLaws : YamlLaws toy where
  isBlock := by
    intro u p hu
    rw [toy_accountBlock hu]
    exact ⟨by simp [yamlEmit], getLast?_yamlEmit u p⟩
  load_nil := rfl
  load_blocks := by
    intro accounts hne _ hvalid
    have hmap : accounts.map (accountBlock toy) = accounts.map fun a => yamlEmit a.1 a.2 :=
      List.map_congr_left fun a ha => toy_accountBlock (hvalid a ha)
    obtain ⟨a, accounts', rfl⟩ := List.exists_cons_of_ne_nil hne
    have hlines : accountLines (a :: accounts') ≠ [] := by simp [accountLines_cons]
    have htext : blocks (accountLines (a :: accounts')) ≠ [] := by
      rw [accountLines_cons, List.cons_append, blocks_cons (by simp)]
      simp
    have hsplit : (blocks (accountLines (a :: accounts'))).splitOn newline =
        accountLines (a :: accounts') :=
      List.splitOn_intercalate newline (newline_not_mem_accountLines hvalid) hlines
    have hload : toy.yamlLoad (blocks (accountLines (a :: accounts'))) =
        (readLines ((blocks (accountLines (a :: accounts'))).splitOn newline)).map .map :=
      if_neg htext
    rw [hmap, blocks_map_yamlEmit, hload, hsplit, readLines_accountLines]
    rfl

/-! ### Toy events -/

namespace Toy

/-- Every socket has an address of its own, and every packet is sent. -/
def world (status : SocketStatus) (data : Bytes) (now : ℕ) : World where
  status := status
  data := data.take maxRawData
  data_length_le := List.length_take_le _ _
  now := now
  later := now
  peer := fun p => ⟨p, 0⟩
  sendStatus := fun _ _ => .done
  seed := []

def joins (p : Sock) : Event := .accept p (world .done [] 0)

/-- Row `i` sends `data` at the time `now`. -/
def polls (i : ℕ) (data : Bytes) (now : ℕ) : Event := .receive i (world .done data now)

def leaves (i : ℕ) : Event := .receive i (world .disconnected [] 0)

/-- What a client sends to log in. -/
def logsIn (u p : Bytes) : Bytes := 0 :: (u ++ [separator] ++ p)

/-- A client's encrypted packet. -/
def seals (d : Bytes) : Bytes :=
  List.replicate 12 0 ++ aesEncrypt ((hexDecode serverKey).getD []) (List.replicate 12 0) d

lemma length_seals (d : Bytes) : (seals d).length = d.length + 28 := by
  rw [seals, List.length_append, List.length_replicate, length_aesEncrypt]
  omega

lemma decrypt_seals (d : Bytes) :
    Cryptography.decrypt toy (seals d) serverKey = .ok (List.replicate 12 0, d) := by
  have hlen : ¬ (seals d).length < Cryptography.nonceLength := by
    rw [length_seals, Cryptography.nonceLength]
    omega
  have hnonce : (List.replicate 12 (0 : Byte)).length = Cryptography.nonceLength := rfl
  have htake : (seals d).take Cryptography.nonceLength = List.replicate 12 0 := by
    rw [seals, ← hnonce, List.take_left]
  have hdrop : (seals d).drop Cryptography.nonceLength =
      aesEncrypt ((hexDecode serverKey).getD []) (List.replicate 12 0) d := by
    rw [seals, ← hnonce, List.drop_left]
  have hdec : toy.aesDecrypt ((toy.hexDecode serverKey).getD []) (List.replicate 12 0)
      (aesEncrypt ((hexDecode serverKey).getD []) (List.replicate 12 0) d) = some d :=
    aesDecrypt_aesEncrypt _ _ _
  rw [Cryptography.decrypt_eq, if_neg hlen, htake, hdrop, hdec]

/-- A packet that is short enough for one read arrives. -/
lemma sendsPlaintext {r : Row} {d : Bytes} (hdone : r.status = .done) (hinterval : r.interval = 0)
    (hlen : d.length ≤ 4068) : SendsPlaintext toy (world .done (seals d) 1000) r d where
  done := hdone
  still_open := by simp [world]
  no_spam := by
    have hlate : ¬ ServerNetwork.asMilliseconds 1000 ≤ 20 := by decide
    rwa [hinterval]
  decrypted := by
    have hdata : (world .done (seals d) 1000).data = seals d := by
      apply List.take_of_length_le
      rw [length_seals, maxRawData]
      omega
    exact ⟨List.replicate 12 0, by rw [hdata, decrypt_seals]⟩

end Toy

end OpenSimp
