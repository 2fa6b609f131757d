import OpenSimp.Lib.CString

/-!
# Reading a text line by line

`getlines` is the list of lines that repeated `std::getline` calls return. Writing each of them
back with a newline reproduces the text, except that a missing final newline is added
(`flatMap_getlines`); so a text of blocks separated by newlines grows by one block when a block is
appended to what was read (`blocks_append`).
-/

namespace Bytes

def newline : Byte := 10

/-- The lines still to be returned when `buffer` has been read of the current one. -/
def getlinesFrom (buffer : Bytes) : Bytes → List Bytes
  | [] => if buffer = [] then [] else [buffer]
  | c :: s => if c = newline then buffer :: getlinesFrom [] s else getlinesFrom (buffer ++ [c]) s

/-- The lines that `std::getline` returns before it fails. -/
def getlines (s : Bytes) : List Bytes := getlinesFrom [] s

lemma flatMap_getlinesFrom (buffer s : Bytes) (h : (buffer ++ s).getLast? ≠ some newline)
    (hne : buffer ++ s ≠ []) :
    (getlinesFrom buffer s).flatMap (· ++ [newline]) = buffer ++ s ++ [newline] := by
  induction s generalizing buffer with
  | nil =>
    have hb : buffer ≠ [] := by simpa using hne
    simp [getlinesFrom, hb]
  | cons c s ih =>
    rw [getlinesFrom]
    split_ifs with hc
    · subst hc
      have hs : s ≠ [] := by
        rintro rfl
        simp at h
      have hlast : (([] : Bytes) ++ s).getLast? ≠ some newline := by
        rw [List.nil_append]
        rwa [List.getLast?_append_of_ne_nil _ (by simp), List.getLast?_cons_of_ne_nil hs] at h
      rw [List.flatMap_cons, ih [] hlast (by simpa using hs)]
      simp
    · rw [ih (buffer ++ [c]) (by simpa using h) (by simp)]
      simp

/-- Rewriting a text line by line terminates its last line. -/
lemma flatMap_getlines {s : Bytes} (hne : s ≠ []) (h : s.getLast? ≠ some newline) :
    (getlines s).flatMap (· ++ [newline]) = s ++ [newline] :=
  flatMap_getlinesFrom [] s (by simpa using h) (by simpa using hne)

@[simp] lemma getlines_nil : getlines [] = [] := rfl

/-- A text of blocks, each starting on its own line. -/
def blocks (bs : List Bytes) : Bytes := [newline].intercalate bs

@[simp] lemma blocks_nil : blocks [] = [] := rfl

lemma blocks_cons {bs : List Bytes} (hne : bs ≠ []) (b : Bytes) :
    blocks (b :: bs) = b ++ [newline] ++ blocks bs :=
  List.intercalate_cons_of_ne_nil hne

@[simp] lemma blocks_singleton (b : Bytes) : blocks [b] = b := List.intercalate_singleton

lemma blocks_append_blocks {bs cs : List Bytes} (hb : bs ≠ []) (hc : cs ≠ []) :
    blocks (bs ++ cs) = blocks bs ++ [newline] ++ blocks cs := by
  induction bs with
  | nil => exact absurd rfl hb
  | cons b bs ih =>
    cases bs with
    | nil => rw [List.singleton_append, blocks_cons hc, blocks_singleton]
    | cons b' bs =>
      rw [List.cons_append, blocks_cons (by simp), ih (by simp), blocks_cons (by simp) b]
      simp only [List.append_assoc]

lemma blocks_concat {bs : List Bytes} (hne : bs ≠ []) (b : Bytes) :
    blocks (bs ++ [b]) = blocks bs ++ [newline] ++ b := by
  rw [blocks_append_blocks hne (by simp), blocks_singleton]

/-- A block that is not empty and has no newline at its end. -/
def IsBlock (b : Bytes) : Prop := b ≠ [] ∧ b.getLast? ≠ some newline

lemma isBlock_blocks {bs : List Bytes} (hne : bs ≠ []) (h : ∀ b ∈ bs, IsBlock b) :
    IsBlock (blocks bs) := by
  obtain ⟨bs, b, rfl⟩ := (List.eq_nil_or_concat bs).resolve_left hne
  simp only [List.concat_eq_append] at h ⊢
  obtain ⟨hb, hlast⟩ := h b (by simp)
  cases bs with
  | nil => simpa using ⟨hb, hlast⟩
  | cons c bs =>
    rw [blocks_concat (by simp)]
    refine ⟨by simp, ?_⟩
    rwa [List.getLast?_append_of_ne_nil _ hb]

/-- Reading a text of blocks line by line and appending a block is the text of one more block. -/
lemma blocks_append {bs : List Bytes} (h : ∀ b ∈ bs, IsBlock b) (b : Bytes) :
    (getlines (blocks bs)).flatMap (· ++ [newline]) ++ b = blocks (bs ++ [b]) := by
  rcases List.eq_nil_or_concat bs with rfl | ⟨bs', c, rfl⟩
  · simp
  · simp only [List.concat_eq_append] at h ⊢
    have hne : bs' ++ [c] ≠ [] := by simp
    obtain ⟨hb, hlast⟩ := isBlock_blocks hne h
    rw [flatMap_getlines hb hlast, blocks_concat hne]

/-! ### Words -/

lemma intercalate_append {ws : List Bytes} (hne : ws ≠ []) (c : Byte) :
    [c].intercalate ws ++ [c] = ws.flatMap (· ++ [c]) := by
  induction ws with
  | nil => exact absurd rfl hne
  | cons w ws ih =>
    by_cases hws : ws = []
    · subst hws
      simp
    · rw [List.intercalate_cons_of_ne_nil hws, List.append_assoc, ih hws, List.flatMap_cons]

/-- A text with one more separator is its words, each with a separator after it. -/
lemma flatMap_splitOn (s : Bytes) (c : Byte) : (s.splitOn c).flatMap (· ++ [c]) = s ++ [c] := by
  rw [← intercalate_append (List.splitOn_ne_nil c s), List.intercalate_splitOn]

/-- A text has one more word than separators. -/
lemma length_splitOn (s : Bytes) (c : Byte) : (s.splitOn c).length = s.count c + 1 := by
  induction s with
  | nil => simp
  | cons d s ih =>
    by_cases hd : d = c
    · subst hd
      have hsplit : (d :: s).splitOn d = [] :: s.splitOn d := by
        simp [List.splitOn_cons_eq_if_modifyHead]
      rw [hsplit, List.length_cons, ih, List.count_cons_self]
    · have hsplit : (d :: s).splitOn c = (s.splitOn c).modifyHead (d :: ·) := by
        simp [List.splitOn_cons_eq_if_modifyHead, hd]
      rw [hsplit, List.length_modifyHead, ih, List.count_cons_of_ne hd]

/-- The text up to its first separator. -/
lemma takeWhile_append_separator {c : Byte} {word : Bytes} (hword : c ∉ word) (s : Bytes) :
    (word ++ c :: s).takeWhile (· ≠ c) = word := by
  rw [List.takeWhile_append_of_pos]
  · simp
  · intro d hd
    exact decide_eq_true fun h => hword (h ▸ hd)

/-- The first word of a text ends before its first separator. -/
lemma getD_splitOn_zero (s : Bytes) (c : Byte) :
    (s.splitOn c).getD 0 [] = s.takeWhile (· ≠ c) := by
  by_cases hmem : c ∈ s
  · obtain ⟨word, rest, rfl, hword⟩ := List.eq_append_cons_of_mem hmem
    rw [List.splitOn_append_cons_self_of_not_mem hword, takeWhile_append_separator hword]
    rfl
  · have htake : s.takeWhile (· ≠ c) = s := by
      rw [List.takeWhile_eq_self_iff]
      exact fun d hd => decide_eq_true fun h => hmem (h ▸ hd)
    rw [List.splitOn_eq_singleton hmem, htake]
    rfl

end Bytes
