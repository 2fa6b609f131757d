import OpenSimp.Lib.CString

/-!
# UTF-8

A byte string is UTF-8 when every lead byte is followed by bytes in the ranges it asks for, and
nothing is owed at the end. An ASCII byte is always a character of its own, so a text can be cut
at any of them.
-/

namespace Utf8

/-- The range of an ordinary continuation byte. -/
def tail : Byte × Byte := (0x80, 0xBF)

/-- The ranges of the bytes that a lead byte asks for. -/
def trailing (c : Byte) : Option (List (Byte × Byte)) :=
  if c < 0x80 then some []
  else if 0xC2 ≤ c ∧ c ≤ 0xDF then some [tail]
  else if c = 0xE0 then some [(0xA0, 0xBF), tail]
  else if c = 0xED then some [(0x80, 0x9F), tail]
  else if 0xE1 ≤ c ∧ c ≤ 0xEF then some [tail, tail]
  else if c = 0xF0 then some [(0x90, 0xBF), tail, tail]
  else if 0xF1 ≤ c ∧ c ≤ 0xF3 then some [tail, tail, tail]
  else if c = 0xF4 then some [(0x80, 0x8F), tail, tail]
  else none

/-- One byte; the state is the list of ranges that are still owed. -/
def step : List (Byte × Byte) → Byte → Option (List (Byte × Byte))
  | [], c => trailing c
  | range :: owed, c => if range.1 ≤ c ∧ c ≤ range.2 then some owed else none

def Valid (s : Bytes) : Prop := s.foldlM step [] = some []

instance (s : Bytes) : Decidable (Valid s) := by unfold Valid; infer_instance

def IsAscii (s : Bytes) : Prop := ∀ c ∈ s, c < 0x80

instance (s : Bytes) : Decidable (IsAscii s) := List.decidableBAll _ s

/-- No range that is owed has an ASCII byte. -/
def Foreign (owed : List (Byte × Byte)) : Prop := ∀ range ∈ owed, 0x80 ≤ range.1

instance (owed : List (Byte × Byte)) : Decidable (Foreign owed) := List.decidableBAll _ owed

lemma foreign_of_trailing {c : Byte} {owed : List (Byte × Byte)} (h : trailing c = some owed) :
    Foreign owed := by
  rw [trailing] at h
  split_ifs at h <;> cases h <;> decide

lemma Foreign.step {owed owed' : List (Byte × Byte)} {c : Byte} (hf : Foreign owed)
    (h : step owed c = some owed') : Foreign owed' := by
  cases owed with
  | nil => exact foreign_of_trailing h
  | cons range owed =>
    rw [Utf8.step] at h
    split_ifs at h
    cases h
    exact fun range hrange => hf range (List.mem_cons_of_mem _ hrange)

lemma Foreign.foldlM {owed owed' : List (Byte × Byte)} {s : Bytes} (hf : Foreign owed)
    (h : s.foldlM Utf8.step owed = some owed') : Foreign owed' := by
  induction s generalizing owed with
  | nil =>
    cases h
    exact hf
  | cons c s ih =>
    rw [List.foldlM_cons] at h
    obtain ⟨owed₁, hstep, hfold⟩ := Option.bind_eq_some_iff.mp h
    exact ih (hf.step hstep) hfold

lemma step_ascii {c : Byte} (hc : c < 0x80) : step [] c = some [] := if_pos hc

/-- An ASCII byte is refused where a continuation byte is owed. -/
lemma step_ascii_of_owed {owed : List (Byte × Byte)} {c : Byte} (hc : c < 0x80)
    (hf : Foreign owed) (hne : owed ≠ []) : step owed c = none := by
  cases owed with
  | nil => exact absurd rfl hne
  | cons range owed =>
    have hrange : ¬ range.1 ≤ c :=
      UInt8.not_le.mpr (UInt8.lt_of_lt_of_le hc (hf range (by simp)))
    rw [step, if_neg fun h => hrange h.1]

lemma valid_nil : Valid [] := rfl

lemma valid_cons_ascii {c : Byte} (hc : c < 0x80) (s : Bytes) : Valid (c :: s) ↔ Valid s := by
  rw [Valid, List.foldlM_cons, step_ascii hc]
  rfl

/-- A text can be cut at an ASCII byte. -/
lemma valid_append_ascii {c : Byte} (hc : c < 0x80) (s t : Bytes) :
    Valid (s ++ c :: t) ↔ Valid s ∧ Valid t := by
  rw [Valid, Valid, Valid, List.foldlM_append]
  cases hs : s.foldlM step [] with
  | none => simp
  | some owed =>
    have hf : Foreign owed := Foreign.foldlM (by simp [Foreign]) hs
    by_cases hne : owed = []
    · subst hne
      simp [List.foldlM_cons, step_ascii hc]
    · simp [List.foldlM_cons, step_ascii_of_owed hc hf hne, hne]

lemma valid_append_of_isAscii_left {s : Bytes} (hs : IsAscii s) (t : Bytes) :
    Valid (s ++ t) ↔ Valid t := by
  induction s with
  | nil => rfl
  | cons c s ih =>
    rw [List.cons_append, valid_cons_ascii (hs c (by simp)),
      ih fun c hc => hs c (List.mem_cons_of_mem _ hc)]

lemma valid_of_isAscii {s : Bytes} (hs : IsAscii s) : Valid s := by
  rw [← List.append_nil s, valid_append_of_isAscii_left hs]
  exact valid_nil

lemma valid_append_of_isAscii_right {t : Bytes} (ht : IsAscii t) (s : Bytes) :
    Valid (s ++ t) ↔ Valid s := by
  cases t with
  | nil => rw [List.append_nil]
  | cons c t =>
    have htail : Valid t := valid_of_isAscii fun c hc => ht c (List.mem_cons_of_mem _ hc)
    rw [valid_append_ascii (ht c (by simp))]
    exact and_iff_left htail

lemma IsAscii.append {s t : Bytes} (hs : IsAscii s) (ht : IsAscii t) : IsAscii (s ++ t) := by
  intro c hc
  rcases List.mem_append.mp hc with hc | hc
  · exact hs c hc
  · exact ht c hc

/-! ### Characters -/

lemma Valid.append {s t : Bytes} (hs : Valid s) (ht : Valid t) : Valid (s ++ t) := by
  rw [Valid, List.foldlM_append, hs]
  exact ht

/-- A continuation byte where one is owed. -/
lemma step_of_mem {lo hi : Byte} {n : ℕ} (hn : n < 256) (hlo : lo.toNat ≤ n) (hhi : n ≤ hi.toNat)
    (owed : List (Byte × Byte)) : step ((lo, hi) :: owed) (UInt8.ofNat n) = some owed := by
  apply if_pos
  rw [UInt8.le_iff_toNat_le, UInt8.le_iff_toNat_le, UInt8.toNat_ofNat_of_lt' hn]
  exact ⟨hlo, hhi⟩

lemma step_tail (n : ℕ) (owed : List (Byte × Byte)) :
    step (tail :: owed) (UInt8.ofNat (n % 64 + 128)) = some owed := by
  have hlo : (0x80 : Byte).toNat = 128 := rfl
  have hhi : (0xBF : Byte).toNat = 191 := rfl
  exact step_of_mem (by omega) (by omega) (by omega) owed

/-- The ranges that a lead byte asks for, by its number. -/
lemma step_ofNat {n : ℕ} (hn : n < 256) :
    step [] (UInt8.ofNat n) =
      if n < 0x80 then some []
      else if 0xC2 ≤ n ∧ n ≤ 0xDF then some [tail]
      else if n = 0xE0 then some [(0xA0, 0xBF), tail]
      else if n = 0xED then some [(0x80, 0x9F), tail]
      else if 0xE1 ≤ n ∧ n ≤ 0xEF then some [tail, tail]
      else if n = 0xF0 then some [(0x90, 0xBF), tail, tail]
      else if 0xF1 ≤ n ∧ n ≤ 0xF3 then some [tail, tail, tail]
      else if n = 0xF4 then some [(0x80, 0x8F), tail, tail]
      else none := by
  simp only [step, trailing, UInt8.lt_iff_toNat_lt, UInt8.le_iff_toNat_le, ← UInt8.toNat_inj,
    UInt8.toNat_ofNat_of_lt' hn]
  rfl

/-- The second byte of three is in the range that the first asks for. -/
lemma step_lead_three {v : ℕ} (hlo : 0x7FF < v) (hhi : v ≤ 0xFFFF)
    (hsurrogate : v < 0xD800 ∨ 0xDFFF < v) :
    ∃ lo hi, step [] (UInt8.ofNat (v / 4096 % 16 + 224)) = some [(lo, hi), tail] ∧
      lo.toNat ≤ v / 64 % 64 + 128 ∧ v / 64 % 64 + 128 ≤ hi.toNat := by
  have htail : (0x80 : Byte).toNat = 128 ∧ (0xBF : Byte).toNat = 191 := ⟨rfl, rfl⟩
  rw [step_ofNat (by omega), if_neg (by omega), if_neg (by omega)]
  by_cases hE0 : v / 4096 % 16 + 224 = 0xE0
  · have hrange : (0xA0 : Byte).toNat = 160 := rfl
    exact ⟨0xA0, 0xBF, if_pos hE0, by omega, by omega⟩
  · rw [if_neg hE0]
    by_cases hED : v / 4096 % 16 + 224 = 0xED
    · have hrange : (0x9F : Byte).toNat = 159 := rfl
      exact ⟨0x80, 0x9F, if_pos hED, by omega, by omega⟩
    · rw [if_neg hED, if_pos (by omega)]
      exact ⟨0x80, 0xBF, rfl, by omega, by omega⟩

/-- The second byte of four is in the range that the first asks for. -/
lemma step_lead_four {v : ℕ} (hlo : 0xFFFF < v) (hhi : v < 0x110000) :
    ∃ lo hi, step [] (UInt8.ofNat (v / 262144 % 8 + 240)) = some [(lo, hi), tail, tail] ∧
      lo.toNat ≤ v / 4096 % 64 + 128 ∧ v / 4096 % 64 + 128 ≤ hi.toNat := by
  have htail : (0x80 : Byte).toNat = 128 ∧ (0xBF : Byte).toNat = 191 := ⟨rfl, rfl⟩
  rw [step_ofNat (by omega), if_neg (by omega), if_neg (by omega), if_neg (by omega),
    if_neg (by omega), if_neg (by omega)]
  by_cases hF0 : v / 262144 % 8 + 240 = 0xF0
  · have hrange : (0x90 : Byte).toNat = 144 := rfl
    exact ⟨0x90, 0xBF, if_pos hF0, by omega, by omega⟩
  · rw [if_neg hF0]
    by_cases hF4 : v / 262144 % 8 + 240 = 0xF4
    · have hrange : (0x8F : Byte).toNat = 143 := rfl
      rw [if_neg (by omega), if_pos hF4]
      exact ⟨0x80, 0x8F, rfl, by omega, by omega⟩
    · rw [if_pos (by omega)]
      exact ⟨0x80, 0xBF, rfl, by omega, by omega⟩

/-- The bytes of a character are UTF-8. -/
lemma valid_utf8EncodeChar (c : Char) : Valid (String.utf8EncodeChar c) := by
  have hc : c.val.toNat < 0xD800 ∨ 0xDFFF < c.val.toNat ∧ c.val.toNat < 0x110000 := c.valid
  rw [String.utf8EncodeChar]
  generalize c.val.toNat = v at hc
  by_cases h1 : v ≤ 0x7F
  · rw [if_pos h1, Valid, List.foldlM_cons, step_ofNat (by omega), if_pos (by omega)]
    rfl
  · by_cases h2 : v ≤ 0x7FF
    · rw [if_neg h1, if_pos h2, Valid, List.foldlM_cons, step_ofNat (by omega), if_neg (by omega),
        if_pos (by omega)]
      show (step [tail] _ >>= _) = _
      rw [step_tail]
      rfl
    · by_cases h3 : v ≤ 0xFFFF
      · obtain ⟨lo, hi, hlead, hlo, hhi⟩ := step_lead_three (not_le.mp h2) h3 (by omega)
        rw [if_neg h1, if_neg h2, if_pos h3, Valid, List.foldlM_cons, hlead]
        show (step [(lo, hi), tail] _ >>= _) = _
        rw [step_of_mem (by omega) hlo hhi]
        show (step [tail] _ >>= _) = _
        rw [step_tail]
        rfl
      · obtain ⟨lo, hi, hlead, hlo, hhi⟩ := step_lead_four (not_le.mp h3) (by omega)
        rw [if_neg h1, if_neg h2, if_neg h3, Valid, List.foldlM_cons, hlead]
        show (step [(lo, hi), tail, tail] _ >>= _) = _
        rw [step_of_mem (by omega) hlo hhi]
        show (step [tail, tail] _ >>= _) = _
        rw [step_tail]
        show (step [tail] _ >>= _) = _
        rw [step_tail]
        rfl

/-- An ASCII byte is only in the bytes of its own character. -/
lemma ascii_mem_utf8EncodeChar {b : Byte} (hb : b < 0x80) {c : Char}
    (h : b ∈ String.utf8EncodeChar c) : c.toNat = b.toNat := by
  have hlt : b.toNat < 128 := hb
  show c.val.toNat = b.toNat
  rw [String.utf8EncodeChar] at h
  generalize c.val.toNat = v at h ⊢
  have hne : ∀ n, n < 256 → 128 ≤ n → b ≠ UInt8.ofNat n := by
    intro n hn hge heq
    rw [heq, UInt8.toNat_ofNat_of_lt' hn] at hlt
    omega
  split_ifs at h with h1 h2 h3
  · have hv : v < 256 := by omega
    rw [List.mem_singleton.mp h, UInt8.toNat_ofNat_of_lt' hv]
  · simp only [List.mem_cons, List.not_mem_nil, or_false] at h
    rcases h with h | h
    · exact absurd h (hne _ (by omega) (by omega))
    · exact absurd h (hne _ (by omega) (by omega))
  · simp only [List.mem_cons, List.not_mem_nil, or_false] at h
    rcases h with h | h | h
    · exact absurd h (hne _ (by omega) (by omega))
    · exact absurd h (hne _ (by omega) (by omega))
    · exact absurd h (hne _ (by omega) (by omega))
  · simp only [List.mem_cons, List.not_mem_nil, or_false] at h
    rcases h with h | h | h | h
    · exact absurd h (hne _ (by omega) (by omega))
    · exact absurd h (hne _ (by omega) (by omega))
    · exact absurd h (hne _ (by omega) (by omega))
    · exact absurd h (hne _ (by omega) (by omega))

/-- The bytes of a text are UTF-8. -/
lemma valid_flatMap_utf8EncodeChar (s : List Char) : Valid (s.flatMap String.utf8EncodeChar) := by
  induction s with
  | nil => exact valid_nil
  | cons c s ih =>
    rw [List.flatMap_cons]
    exact (valid_utf8EncodeChar c).append ih

end Utf8
