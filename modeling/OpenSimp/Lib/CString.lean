import Mathlib.Data.List.Basic
import Mathlib.Data.List.TakeWhile
import Mathlib.Tactic.Common

/-!
# Byte strings and C strings

A `std::string` is a list of bytes. Reading one through its `c_str()` stops at the first NUL,
which is what `cstr` computes; `strcpy` and the `std::string(char*)` constructor additionally
need the terminator to lie inside a buffer of a given capacity.
-/

abbrev Byte := UInt8

abbrev Bytes := List Byte

instance (s : Bytes) (l : List Bytes) : Decidable (s ∈ l) := List.instDecidableMemOfLawfulBEq s l

namespace Bytes

/-- The bytes of an ASCII literal. -/
def ascii (s : String) : Bytes := s.toList.map fun c => UInt8.ofNat c.toNat

/-- What a C function reads from a NUL-terminated buffer that starts with `s`. -/
def cstr (s : Bytes) : Bytes := s.takeWhile (· ≠ 0)

@[simp] lemma cstr_nil : cstr [] = [] := rfl

lemma cstr_cons (c : Byte) (s : Bytes) : cstr (c :: s) = if c = 0 then [] else c :: cstr s := by
  by_cases hc : c = 0 <;> simp [cstr, hc]

@[simp] lemma nul_not_mem_cstr (s : Bytes) : (0 : Byte) ∉ cstr s := by
  intro h
  have := List.mem_takeWhile_imp h
  simp at this

lemma length_cstr_le (s : Bytes) : (cstr s).length ≤ s.length :=
  (List.takeWhile_sublist _).length_le

lemma mem_of_mem_cstr {c : Byte} {s : Bytes} (h : c ∈ cstr s) : c ∈ s :=
  (List.takeWhile_sublist _).mem h

lemma cstr_of_nul_not_mem {s : Bytes} (h : (0 : Byte) ∉ s) : cstr s = s := by
  rw [cstr, List.takeWhile_eq_self_iff]
  intro c hc
  simpa using fun h0 : c = 0 => h (h0 ▸ hc)

@[simp] lemma cstr_cstr (s : Bytes) : cstr (cstr s) = cstr s :=
  cstr_of_nul_not_mem (nul_not_mem_cstr s)

/-- Text before the first NUL is read whole. -/
lemma cstr_append {s : Bytes} (h : (0 : Byte) ∉ s) (t : Bytes) : cstr (s ++ t) = s ++ cstr t := by
  rw [cstr, List.takeWhile_append_of_pos]
  · rfl
  · intro c hc
    simpa using fun h0 : c = 0 => h (h0 ▸ hc)

/-- Text after the first NUL is not read. -/
lemma cstr_append_of_nul_mem {s : Bytes} (h : (0 : Byte) ∈ s) (t : Bytes) :
    cstr (s ++ t) = cstr s := by
  induction s with
  | nil => simp at h
  | cons c s ih =>
    rw [List.cons_append, cstr_cons, cstr_cons]
    split_ifs with hc
    · rfl
    · have hs : (0 : Byte) ∈ s := by
        rcases List.mem_cons.mp h with h0 | hs
        · exact absurd h0.symm hc
        · exact hs
      rw [ih hs]

/-- `strcpy` into a buffer of `capacity` bytes: the text and its NUL, or a write past the end. -/
def strcpy (capacity : ℕ) (src : Bytes) : Option Bytes :=
  if (cstr src).length < capacity then some (cstr src) else none

/-- `std::string(char*)` on a buffer of `capacity` bytes that was zeroed and then received `data`:
the text before the first NUL, or a read past the end when the buffer holds none. -/
def ofBuffer (capacity : ℕ) (data : Bytes) : Option Bytes :=
  if (0 : Byte) ∈ data ∨ data.length < capacity then some (cstr data) else none

/-- `memmove` of `n` bytes at `src` to `dst` in one buffer. -/
def memmove (buffer : Bytes) (dst src n : ℕ) : Bytes :=
  buffer.take dst ++ (buffer.drop src).take n ++ buffer.drop (dst + n)

/-- `strncmp` of the first character against a one-character literal. -/
def startsWith (c : Byte) (s : Bytes) : Bool := s.head? == some c

lemma startsWith_iff {c : Byte} {s : Bytes} : startsWith c s = true ↔ ∃ t, s = c :: t := by
  cases s with
  | nil => simp [startsWith]
  | cons d t => simp [startsWith]

end Bytes
