import OpenSimp.Lib.Utf8
import OpenSimp.Server.Network

/-!
# The Rust client

`parse_packet` of the Rust client cuts a plaintext at the separators. It panics where a field is
not UTF-8 or the packet has too few of them. The receive loop takes the bytes of every read for
one encrypted packet.
-/

namespace OpenSimp

open Bytes

namespace Rust

/-- `Packet`, with the bytes of its strings. -/
inductive Packet where
  | messagePacket (username message : Bytes)
  | joinPacket (line : Bytes)
  | disconnectPacket (line : Bytes)
  | commandReplyPacket (reply : Bytes)
  | serverDmPacket (text : Bytes)
  deriving DecidableEq

/-- `std::str::from_utf8(buf).unwrap()`: `none` where it panics. -/
def fromUtf8 (buf : Bytes) : Option Bytes := if Utf8.Valid buf then some buf else none

/-- The variables of `parse_packet`'s loop. -/
structure ParseState where
  lastPoint : ℕ
  ifpasses : ℕ
  strvec : List Bytes

/-- The conditions under which all that follows a separator is a field of its own. -/
def RestFollows (starter : Bytes) (ifpasses : ℕ) : Prop :=
  starter = ascii "0" ∧ ifpasses = 2 ∨ starter = ascii "1" ∧ ifpasses = 1 ∨
    starter = ascii "2" ∧ ifpasses = 1 ∨ starter = ascii "5" ∧ ifpasses = 1 ∨
    starter = ascii "6" ∧ ifpasses = 1

instance (starter : Bytes) (ifpasses : ℕ) : Decidable (RestFollows starter ifpasses) := by
  unfold RestFollows; infer_instance

/-- The body of `parse_packet`'s loop at the byte `val` with the index `i`. -/
def parseStep (buf : Bytes) (s : ParseState) : Byte × ℕ → Option ParseState
  | (val, i) =>
    if val = separator then do
      let word ← fromUtf8 ((buf.take i).drop s.lastPoint)
      let strvec := s.strvec ++ [word]
      let starter ← strvec[0]?
      if RestFollows starter (s.ifpasses + 1) then
        let rest ← fromUtf8 (buf.drop (i + 1))
        pure ⟨i + 1, s.ifpasses + 1, strvec ++ [rest]⟩
      else
        pure ⟨i + 1, s.ifpasses + 1, strvec⟩
    else
      pure s

/-- The `match` at the end of `parse_packet`. -/
def packetOf (strvec : List Bytes) : Option Packet := do
  let starter ← strvec[0]?
  if starter = ascii "0" then
    let username ← strvec[2]?
    let message ← strvec[1]?
    pure (.messagePacket username message)
  else if starter = ascii "1" then
    let line ← strvec[1]?
    pure (.joinPacket line)
  else if starter = ascii "2" then
    let line ← strvec[1]?
    pure (.disconnectPacket line)
  else if starter = ascii "5" then
    let reply ← strvec[1]?
    pure (.commandReplyPacket reply)
  else if starter = ascii "6" then
    let text ← strvec[1]?
    pure (.serverDmPacket text)
  else
    pure (.messagePacket (ascii "illegal packet reply starter (" ++ starter ++ ascii ")")
      (ascii "???"))

/-- `parse_packet`: `none` where it panics. -/
def parsePacket (buf : Bytes) : Option Packet := do
  let s ← buf.zipIdx.foldlM (parseStep buf) ⟨0, 0, []⟩
  packetOf s.strvec

/-! ### Lines -/

/-- The `White_Space` of Unicode, which `str::trim` strips. -/
def isWhiteSpace (c : Char) : Bool :=
  (9 ≤ c.toNat && c.toNat ≤ 13) || (0x2000 ≤ c.toNat && c.toNat ≤ 0x200A) ||
    c.toNat ∈ [0x20, 0x85, 0xA0, 0x1680, 0x2028, 0x2029, 0x202F, 0x205F, 0x3000]

def trim (s : List Char) : List Char :=
  ((s.dropWhile isWhiteSpace).reverse.dropWhile isWhiteSpace).reverse

/-- `car_cdr`. -/
def carCdr : List Char → List Char × List Char
  | c :: s => ([c], s)
  | [] => ([], [])

/-- `String::into_bytes`. -/
def intoBytes (s : List Char) : Bytes := s.flatMap String.utf8EncodeChar

/-- `Message::SendMessage` on the text `message` of the input field: whether texts are uwuified
after it, and the plaintext that is sent, if one is. -/
def sendMessage (uwuify : Bool) (message : List Char) : Bool × Option Bytes :=
  if message = [] then (uwuify, none)
  else if trim message = ".help".toList then (uwuify, none)
  else if trim message = ".op".toList then (uwuify, some (intoBytes "4".toList))
  else if trim message = ".uwuify".toList then (!uwuify, none)
  else if trim message = ".leave".toList then (uwuify, none)
  else if message.head? = some '/' then
    let (_, command) := carCdr message
    (uwuify, some (intoBytes ("5".toList ++ command)))
  else
    let string := message.filter (· ≠ '\n')
    let string := if uwuify then string.map fun c => if c ∈ ['r', 'l'] then 'w' else c else string
    (uwuify, some (intoBytes ("0".toList ++ string)))

/-- A text that starts with a slash still does when it is trimmed. -/
lemma head?_trim_slash (s : List Char) : (trim ('/' :: s)).head? = some '/' := by
  have hslash : isWhiteSpace '/' = false := by decide
  rw [trim, List.dropWhile_cons_of_neg (by simp [hslash]), List.reverse_cons, List.head?_reverse,
    List.dropWhile_append]
  split_ifs
  · rw [List.dropWhile_cons_of_neg (by simp [hslash])]
    rfl
  · exact List.getLast?_concat

/-- The text after a slash is sent as it is. -/
lemma sendMessage_slash (uwuify : Bool) (s : List Char) :
    sendMessage uwuify ('/' :: s) = (uwuify, some (ascii "5" ++ intoBytes s)) := by
  have htrim : ∀ word : List Char, word.head? ≠ some '/' → trim ('/' :: s) ≠ word := by
    rintro word hword rfl
    exact hword (head?_trim_slash s)
  rw [sendMessage, if_neg (by simp), if_neg (htrim _ (by decide)), if_neg (htrim _ (by decide)),
    if_neg (htrim _ (by decide)), if_neg (htrim _ (by decide)), if_pos List.head?_cons]
  rfl

/-! ### Encryption -/

section Encryption

variable (L : Library)

def nonceLength : ℕ := 12

/-- `dehex` with `faster_hex::hex_decode`, which fills a buffer of half the length: `none` where it
panics. -/
def dehex (hexDecode : Bytes → Option Bytes) (hex : Bytes) : Option Bytes := hexDecode hex

/-- `aes_encrypt` with the nonce `nonceRnd`. -/
def aesEncrypt (key nonceRnd plaintext : Bytes) : Bytes :=
  nonceRnd ++ L.aesEncrypt key nonceRnd plaintext

/-- `aes_decrypt`: `none` where it panics. -/
def aesDecrypt (key ciphertext : Bytes) : Option Bytes :=
  if ciphertext.length ≤ nonceLength then none
  else L.aesDecrypt key (ciphertext.take nonceLength) (ciphertext.drop nonceLength)

/-- One iteration of the receive loop on the bytes of a read: the plaintext that `parse_packet`
has read. -/
def receive (key buf : Bytes) : Option Bytes := do
  let buf ← aesDecrypt L key buf
  let _ ← parsePacket buf
  pure buf

/-- The receive loop: the plaintexts of the reads, or `none` when the thread panics. -/
def receiveLoop (key : Bytes) (reads : List Bytes) : Option (List Bytes) :=
  reads.mapM (receive L key)

end Encryption

/-! ### The loop of the parser -/

variable {buf xs ys rest starter : Bytes} {s : ParseState}

lemma foldlM_of_not_mem (h : separator ∉ xs) (n : ℕ) :
    (xs.zipIdx n).foldlM (parseStep buf) s = some s := by
  induction xs generalizing n with
  | nil => rfl
  | cons c xs ih =>
    rw [List.mem_cons, not_or] at h
    rw [List.zipIdx_cons, List.foldlM_cons, parseStep, if_neg (Ne.symm h.1)]
    exact ih h.2 _

/-- The loop over a text up to its first separator and the rest of it. -/
lemma foldlM_append_separator (h : separator ∉ xs) (n : ℕ) :
    ((xs ++ separator :: ys).zipIdx n).foldlM (parseStep buf) s =
      (parseStep buf s (separator, n + xs.length)).bind fun s =>
        (ys.zipIdx (n + xs.length + 1)).foldlM (parseStep buf) s := by
  rw [List.zipIdx_append, List.foldlM_append, foldlM_of_not_mem h, List.zipIdx_cons]
  rfl

/-- A starter and the number of separators after which no more rests follow. -/
def Past (starter : Bytes) (ifpasses : ℕ) : Prop :=
  1 ≤ ifpasses ∧ (starter = ascii "0" → 2 ≤ ifpasses)

lemma Past.not_restFollows {k : ℕ} (h : Past starter k) : ¬ RestFollows starter (k + 1) := by
  rintro (⟨h0, hk⟩ | ⟨-, hk⟩ | ⟨-, hk⟩ | ⟨-, hk⟩ | ⟨-, hk⟩)
  · have := h.2 h0
    omega
  all_goals
    have := h.1
    omega

/-- The loop at the separator after the field `xs`. -/
lemma parseStep_separator {pre zs : Bytes} (hbuf : buf = pre ++ (xs ++ separator :: zs)) (k : ℕ)
    (strvec : List Bytes) (hstarter : (strvec ++ [xs])[0]? = some starter) :
    parseStep buf ⟨pre.length, k, strvec⟩ (separator, pre.length + xs.length) =
      if Utf8.Valid xs then
        if RestFollows starter (k + 1) then
          if Utf8.Valid zs then
            some ⟨pre.length + xs.length + 1, k + 1, strvec ++ [xs] ++ [zs]⟩
          else none
        else some ⟨pre.length + xs.length + 1, k + 1, strvec ++ [xs]⟩
      else none := by
  have hword : (buf.take (pre.length + xs.length)).drop pre.length = xs := by
    simp [hbuf, List.take_append]
  have hrest : buf.drop (pre.length + xs.length + 1) = zs := by
    have hlen : pre.length + xs.length + 1 = (pre ++ (xs ++ [separator])).length := by
      simp [Nat.add_assoc]
    have hbuf' : buf = (pre ++ (xs ++ [separator])) ++ zs := by simp [hbuf]
    rw [hlen, hbuf']
    exact List.drop_left
  simp only [parseStep, if_true, hword, fromUtf8, Option.bind_eq_bind]
  by_cases hxs : Utf8.Valid xs
  · simp only [hxs, if_true, Option.bind_some, hstarter, hrest]
    split_ifs <;> rfl
  · simp only [hxs, if_false, Option.bind_none]

/-- Once the rest has been taken as a field, the loop only adds fields. -/
lemma foldlM_of_past {pre : Bytes} (hbuf : buf = pre ++ ys) (hvalid : Utf8.Valid ys) {k : ℕ}
    {strvec : List Bytes} (hstarter : strvec[0]? = some starter) (hpast : Past starter k) :
    ∃ s' more, (ys.zipIdx pre.length).foldlM (parseStep buf) ⟨pre.length, k, strvec⟩ = some s' ∧
      s'.strvec = strvec ++ more := by
  induction hn : ys.length using Nat.strong_induction_on generalizing ys pre k strvec with
  | _ n ih =>
    by_cases hmem : separator ∈ ys
    · obtain ⟨xs, zs, rfl, hxs⟩ := List.eq_append_cons_of_mem hmem
      have hcut := (Utf8.valid_append_ascii (by decide) xs zs).mp hvalid
      have hstarter' : (strvec ++ [xs])[0]? = some starter := by
        rw [List.getElem?_append_left (List.getElem?_eq_some_iff.mp hstarter).1, hstarter]
      have hpre : buf = (pre ++ (xs ++ [separator])) ++ zs := by simp [hbuf]
      have hlen : pre.length + xs.length + 1 = (pre ++ (xs ++ [separator])).length := by
        simp [Nat.add_assoc]
      have hshort : zs.length < n := by
        rw [← hn, List.length_append, List.length_cons]
        omega
      obtain ⟨s', more, hfold, hmore⟩ := ih zs.length hshort hpre hcut.2 hstarter'
        ⟨Nat.le_add_left 1 k, fun h0 => Nat.le_succ_of_le (hpast.2 h0)⟩ rfl
      refine ⟨s', xs :: more, ?_, by simp [hmore]⟩
      rw [foldlM_append_separator hxs, parseStep_separator hbuf k strvec hstarter',
        if_pos hcut.1, if_neg hpast.not_restFollows, Option.bind_some, hlen]
      exact hfold
    · exact ⟨_, [], foldlM_of_not_mem hmem _, by simp⟩

/-! ### Whole packets -/

lemma packetOf_append (hstarter : starter ≠ ascii "0") (field : Bytes) (more : List Bytes) :
    packetOf ([starter, field] ++ more) = packetOf [starter, field] := by
  simp only [packetOf, List.cons_append, List.nil_append, List.getElem?_cons_zero,
    List.getElem?_cons_succ, Option.bind_eq_bind, Option.bind_some, hstarter, if_false]

/-- A packet of one field is read if the field is UTF-8, whatever it holds. -/
lemma parsePacket_field (hstarter : starter ∈ [ascii "1", ascii "2", ascii "5", ascii "6"])
    (field : Bytes) :
    parsePacket (starter ++ separator :: field) =
      if Utf8.Valid field then packetOf [starter, field] else none := by
  obtain ⟨hsep, hvalid, hfollows, hne⟩ : separator ∉ starter ∧ Utf8.Valid starter ∧
      RestFollows starter 1 ∧ starter ≠ ascii "0" := by
    revert starter
    decide
  have hbuf : starter ++ separator :: field = [] ++ (starter ++ separator :: field) := rfl
  have hfirst : ([] ++ [starter])[0]? = some starter := rfl
  have hstep := parseStep_separator hbuf 0 [] hfirst
  rw [List.nil_append, List.length_nil, if_pos hvalid, if_pos hfollows] at hstep
  rw [parsePacket, foldlM_append_separator hsep, hstep]
  split_ifs with hfield
  · have hpast : Past starter 1 := ⟨le_rfl, fun h0 => absurd h0 hne⟩
    have hlen : 0 + starter.length + 1 = (starter ++ [separator]).length := by simp
    have hpre : starter ++ separator :: field = (starter ++ [separator]) ++ field := by simp
    have hstarter' : [starter, field][0]? = some starter := rfl
    obtain ⟨s', more, hfold, hmore⟩ := foldlM_of_past hpre hfield hstarter' hpast
    rw [Option.bind_some, hlen]
    apply (congrArg (Option.bind · _) hfold).trans
    rw [Option.bind_some, hmore, packetOf_append hne]
  · rfl

/-- A chat packet is read if its text and its sender are UTF-8. -/
lemma parsePacket_message {text : Bytes} (htext : separator ∉ text) (sender : Bytes) :
    parsePacket (ascii "0" ++ separator :: (text ++ separator :: sender)) =
      if Utf8.Valid text ∧ Utf8.Valid sender then some (.messagePacket sender text) else none := by
  have hsep : separator ∉ ascii "0" := by decide
  have hbuf : ascii "0" ++ separator :: (text ++ separator :: sender) =
      [] ++ (ascii "0" ++ separator :: (text ++ separator :: sender)) := rfl
  have hfirst : ([] ++ [ascii "0"])[0]? = some (ascii "0") := rfl
  have hstep := parseStep_separator hbuf 0 [] hfirst
  have hlen : 0 + (ascii "0").length + 1 = (ascii "0" ++ [separator]).length := rfl
  have hbuf' : ascii "0" ++ separator :: (text ++ separator :: sender) =
      (ascii "0" ++ [separator]) ++ (text ++ separator :: sender) := rfl
  have hsecond : ([ascii "0"] ++ [text])[0]? = some (ascii "0") := rfl
  have hstep' := parseStep_separator hbuf' 1 [ascii "0"] hsecond
  rw [List.nil_append, List.length_nil, if_pos (by decide), if_neg (by decide)] at hstep
  rw [if_pos (show RestFollows (ascii "0") (1 + 1) by decide)] at hstep'
  rw [parsePacket, foldlM_append_separator hsep, hstep, Option.bind_some, hlen,
    foldlM_append_separator htext, hstep']
  by_cases hvalid : Utf8.Valid text
  · by_cases hsender : Utf8.Valid sender
    · have hlen' : (ascii "0" ++ [separator]).length + text.length + 1 =
          (ascii "0" ++ [separator] ++ (text ++ [separator])).length := by
        simp only [List.length_append, List.length_singleton]
        omega
      have hpre : ascii "0" ++ separator :: (text ++ separator :: sender) =
          (ascii "0" ++ [separator] ++ (text ++ [separator])) ++ sender := by simp
      have hstarter : [ascii "0", text, sender][0]? = some (ascii "0") := rfl
      have hpast : Past (ascii "0") 2 := ⟨by decide, fun _ => le_rfl⟩
      obtain ⟨s', more, hfold, hmore⟩ := foldlM_of_past hpre hsender hstarter hpast
      rw [if_pos hvalid, if_pos hsender, if_pos ⟨hvalid, hsender⟩, Option.bind_some, hlen']
      apply (congrArg (Option.bind · _) hfold).trans
      rw [Option.bind_some, hmore]
      rfl
    · rw [if_pos hvalid, if_neg hsender, if_neg fun h => hsender h.2]
      rfl
  · rw [if_neg hvalid, if_neg fun h => hvalid h.1]
    rfl

/-- A packet with another starter is shown as an illegal one. -/
lemma parsePacket_illegal (hsep : separator ∉ starter)
    (hstarter : starter ∉ [ascii "0", ascii "1", ascii "2", ascii "5", ascii "6"])
    (hvalid : Utf8.Valid starter) (hrest : Utf8.Valid rest) :
    parsePacket (starter ++ separator :: rest) =
      some (.messagePacket (ascii "illegal packet reply starter (" ++ starter ++ ascii ")")
        (ascii "???")) := by
  simp only [List.mem_cons, List.not_mem_nil, or_false, not_or] at hstarter
  obtain ⟨h0, h1, h2, h5, h6⟩ := hstarter
  have hbuf : starter ++ separator :: rest = [] ++ (starter ++ separator :: rest) := rfl
  have hfirst : ([] ++ [starter])[0]? = some starter := rfl
  have hstep := parseStep_separator hbuf 0 [] hfirst
  have hfollows : ¬ RestFollows starter (0 + 1) := by
    simp [RestFollows, h0, h1, h2, h5, h6]
  rw [List.nil_append, List.length_nil, if_pos hvalid, if_neg hfollows] at hstep
  have hpast : Past starter 1 := ⟨le_rfl, fun h => absurd h h0⟩
  have hlen : 0 + starter.length + 1 = (starter ++ [separator]).length := by simp
  have hpre : starter ++ separator :: rest = (starter ++ [separator]) ++ rest := by simp
  obtain ⟨s', more, hfold, hmore⟩ := foldlM_of_past hpre hrest hfirst hpast
  rw [parsePacket, foldlM_append_separator hsep, hstep, Option.bind_some, hlen]
  apply (congrArg (Option.bind · _) hfold).trans
  rw [Option.bind_some, hmore]
  simp [packetOf, h0, h1, h2, h5, h6]

/-- A text without a separator is not read. -/
lemma parsePacket_of_not_mem (h : separator ∉ buf) : parsePacket buf = none := by
  rw [parsePacket, foldlM_of_not_mem h]
  rfl

/-- A chat packet that lost its sender is not read. -/
lemma parsePacket_cut {text : Bytes} (htext : separator ∉ text) :
    parsePacket (ascii "0" ++ separator :: text) = none := by
  have hsep : separator ∉ ascii "0" := by decide
  have hbuf : ascii "0" ++ separator :: text = [] ++ (ascii "0" ++ separator :: text) := rfl
  have hfirst : ([] ++ [ascii "0"])[0]? = some (ascii "0") := rfl
  have hstep := parseStep_separator hbuf 0 [] hfirst
  rw [List.nil_append, List.length_nil, if_pos (by decide), if_neg (by decide)] at hstep
  rw [parsePacket, foldlM_append_separator hsep, hstep, Option.bind_some,
    foldlM_of_not_mem htext]
  rfl

end Rust

end OpenSimp
