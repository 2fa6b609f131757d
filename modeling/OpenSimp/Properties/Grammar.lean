import OpenSimp.Clients.Rust
import OpenSimp.Lib.Lines

/-!
# The packets that `parse_packet` reads

A text that is UTF-8 is read when it has a starter, and a sender if the starter is that of a chat
message. Whatever stands in the last field of a packet is part of the field.
-/

namespace OpenSimp

namespace Rust

open Bytes

variable {tag rest : Bytes}

/-- `packet` is what a packet with the starter `tag` and the text `rest` after it is read as. -/
structure Reads (tag rest : Bytes) (packet : Option Packet) : Prop where
  message : tag = ascii "0" → ∀ text username, separator ∉ text →
    rest = text ++ separator :: username → packet = some (.messagePacket username text)
  join : tag = ascii "1" → packet = some (.joinPacket rest)
  disconnect : tag = ascii "2" → packet = some (.disconnectPacket rest)
  commandReply : tag = ascii "5" → packet = some (.commandReplyPacket rest)
  serverDm : tag = ascii "6" → packet = some (.serverDmPacket rest)
  illegal : tag ∉ [ascii "0", ascii "1", ascii "2", ascii "5", ascii "6"] →
    packet = some (.messagePacket (ascii "illegal packet reply starter (" ++ tag ++ ascii ")")
      (ascii "???"))

lemma isSome_chat (hvalid : Utf8.Valid (ascii "0" ++ separator :: rest)) :
    (parsePacket (ascii "0" ++ separator :: rest)).isSome ↔ separator ∈ rest := by
  obtain ⟨-, hrest⟩ := (Utf8.valid_append_ascii (by decide) _ _).mp hvalid
  constructor
  · intro h
    by_contra hmem
    rw [parsePacket_cut hmem] at h
    cases h
  · intro hmem
    obtain ⟨text, username, rfl, htext⟩ := List.eq_append_cons_of_mem hmem
    rw [parsePacket_message htext,
      if_pos ((Utf8.valid_append_ascii (by decide) _ _).mp hrest)]
    rfl

lemma reads_packet (hsep : separator ∉ tag) (hvalid : Utf8.Valid (tag ++ separator :: rest)) :
    Reads tag rest (parsePacket (tag ++ separator :: rest)) := by
  obtain ⟨htag, hrest⟩ := (Utf8.valid_append_ascii (by decide) _ _).mp hvalid
  have hfield : tag ∈ [ascii "1", ascii "2", ascii "5", ascii "6"] →
      parsePacket (tag ++ separator :: rest) = packetOf [tag, rest] := fun hstarter => by
    rw [parsePacket_field hstarter, if_pos hrest]
  refine ⟨?_, ?_, ?_, ?_, ?_, fun hother => parsePacket_illegal hsep hother htag hrest⟩
  · rintro rfl text username htext rfl
    rw [parsePacket_message htext,
      if_pos ((Utf8.valid_append_ascii (by decide) _ _).mp hrest)]
  all_goals
    rintro rfl
    exact hfield (by decide)

lemma isSome_of_ne (hsep : separator ∉ tag) (hvalid : Utf8.Valid (tag ++ separator :: rest))
    (h0 : tag ≠ ascii "0") : (parsePacket (tag ++ separator :: rest)).isSome := by
  have hreads := reads_packet hsep hvalid
  by_cases hfield : tag ∈ [ascii "0", ascii "1", ascii "2", ascii "5", ascii "6"]
  · simp only [List.mem_cons, List.not_mem_nil, or_false] at hfield
    rcases hfield with hfield | hfield | hfield | hfield | hfield
    · exact absurd hfield h0
    · rw [hreads.join hfield]
      rfl
    · rw [hreads.disconnect hfield]
      rfl
    · rw [hreads.commandReply hfield]
      rfl
    · rw [hreads.serverDm hfield]
      rfl
  · rw [hreads.illegal hfield]
    rfl

/-- A UTF-8 text is read exactly if it has a separator, and two if its starter is that of a chat
message; and then each field is read whole. -/
theorem parsePacket_grammar (b : Bytes) (hvalid : Utf8.Valid b) :
    ((parsePacket b).isSome ↔
      1 ≤ b.count separator ∧
      (b.takeWhile (· ≠ separator) = ascii "0" → 2 ≤ b.count separator)) ∧
    ∀ tag rest, separator ∉ tag → b = tag ++ separator :: rest →
      Reads tag rest (parsePacket b) := by
  refine ⟨?_, fun tag rest hsep hb => ?_⟩
  · by_cases hmem : separator ∈ b
    · obtain ⟨tag, rest, rfl, hsep⟩ := List.eq_append_cons_of_mem hmem
      have hcount : (tag ++ separator :: rest).count separator = rest.count separator + 1 := by
        rw [List.count_append, List.count_eq_zero_of_not_mem hsep, List.count_cons_self,
          Nat.zero_add]
      rw [takeWhile_append_separator hsep, hcount]
      by_cases h0 : tag = ascii "0"
      · subst h0
        rw [isSome_chat hvalid, ← List.count_pos_iff]
        constructor
        · exact fun h => ⟨by omega, fun _ => by omega⟩
        · intro h
          have := h.2 rfl
          omega
      · exact iff_of_true (isSome_of_ne hsep hvalid h0) ⟨by omega, fun h => absurd h h0⟩
    · rw [parsePacket_of_not_mem hmem, List.count_eq_zero_of_not_mem hmem]
      simp
  · subst hb
    exact reads_packet hsep hvalid

/-- A separator in a chat packet's sender is part of the sender. -/
theorem parsePacket_grammar_chat :
    parsePacket
        (ascii "0" ++ separator :: (ascii "hi" ++ separator :: (ascii "a" ++ [separator]))) =
      some (.messagePacket (ascii "a" ++ [separator]) (ascii "hi")) :=
  ((parsePacket_grammar _ (by decide)).2 (ascii "0") _ (by decide) rfl).message rfl (ascii "hi") _
    (by decide) rfl

end Rust

end OpenSimp
