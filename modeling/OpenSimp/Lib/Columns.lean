import Mathlib.Data.List.Forall2
import Mathlib.Data.List.InsertIdx
import Mathlib.Data.List.Nodup
import Mathlib.Tactic.Common

/-!
# Tables and their columns

A table is a list of rows and a column of it is its image under a projection. Changing or erasing
a row of the table changes or erases the same position of every column.
-/

namespace List

variable {α β : Type*} {l : List α} {i : ℕ} {a : α}

lemma map_modify_of_eq {g : α → β} {f : α → α} (h : ∀ a, g (f a) = g a) :
    (l.modify i f).map g = l.map g := by
  apply ext_getElem?
  intro j
  by_cases hij : i = j
  · subst hij
    simp [Function.comp_def, h]
  · simp [getElem?_modify_ne _ _ hij]

lemma map_modify_eq_set {g : α → β} {f : α → α} (ha : l[i]? = some a) :
    (l.modify i f).map g = (l.map g).set i (g (f a)) := by
  obtain ⟨hi, rfl⟩ := getElem?_eq_some_iff.mp ha
  apply ext_getElem?
  intro j
  by_cases hij : i = j
  · subst hij
    simp [hi]
  · simp [getElem?_modify_ne _ _ hij, getElem?_set_ne hij]

lemma set_of_getElem? (h : l[i]? = some a) : l.set i a = l := by
  obtain ⟨hi, rfl⟩ := getElem?_eq_some_iff.mp h
  exact set_getElem_self hi

/-- A changed position holds the new element, and the others are what erasing it leaves. -/
lemma mem_set_iff_eraseIdx (hi : i < l.length) {b : α} :
    b ∈ l.set i a ↔ b = a ∨ b ∈ l.eraseIdx i := by
  rw [mem_eraseIdx_iff_getElem?, mem_iff_getElem?]
  constructor
  · rintro ⟨j, hj⟩
    by_cases hij : i = j
    · subst hij
      rw [getElem?_set_self hi] at hj
      exact .inl (Option.some.inj hj).symm
    · rw [getElem?_set_ne hij] at hj
      exact .inr ⟨j, fun h => hij h.symm, hj⟩
  · rintro (rfl | ⟨j, hji, hj⟩)
    · exact ⟨i, getElem?_set_self hi⟩
    · exact ⟨j, by rw [getElem?_set_ne fun h => hji h.symm, hj]⟩

/-- In a list without duplicates, erasing a position removes exactly its element. -/
lemma mem_eraseIdx_iff_of_nodup (hl : l.Nodup) (ha : l[i]? = some a) {b : α} :
    b ∈ l.eraseIdx i ↔ b ∈ l ∧ b ≠ a := by
  obtain ⟨hi, hia⟩ := getElem?_eq_some_iff.mp ha
  rw [mem_eraseIdx_iff_getElem?, mem_iff_getElem?]
  constructor
  · rintro ⟨j, hji, hj⟩
    refine ⟨⟨j, hj⟩, ?_⟩
    rintro rfl
    exact hji ((getElem?_inj (getElem?_eq_some_iff.mp hj).1 hl).mp (hj.trans ha.symm))
  · rintro ⟨⟨j, hj⟩, hba⟩
    refine ⟨j, ?_, hj⟩
    rintro rfl
    exact hba (Option.some.inj (hj.symm.trans ha))

/-- A changed list has the changed element and the elements with other keys. -/
lemma mem_modify_iff_of_map_nodup {g : α → β} (hl : (l.map g).Nodup) (ha : l[i]? = some a)
    {f : α → α} {b : α} : b ∈ l.modify i f ↔ b = f a ∨ b ∈ l ∧ g b ≠ g a := by
  rw [mem_iff_getElem?]
  constructor
  · rintro ⟨j, hj⟩
    by_cases hij : i = j
    · subst hij
      rw [getElem?_modify_eq, ha] at hj
      exact .inl (Option.some.inj hj).symm
    · rw [getElem?_modify_ne _ _ hij] at hj
      refine .inr ⟨mem_of_getElem? hj, fun hg => hij ?_⟩
      have hlt : i < (l.map g).length := by
        simpa using (getElem?_eq_some_iff.mp ha).1
      apply (getElem?_inj hlt hl).mp
      simp only [getElem?_map, ha, hj, Option.map_some, hg]
  · rintro (rfl | ⟨hb, hg⟩)
    · exact ⟨i, by simp [ha]⟩
    · obtain ⟨j, hj⟩ := mem_iff_getElem?.mp hb
      have hij : i ≠ j := by
        rintro rfl
        exact hg (Option.some.inj (ha.symm.trans hj) ▸ rfl)
      exact ⟨j, by rw [getElem?_modify_ne _ _ hij, hj]⟩

/-- The first position of a value in a column is that of the first row that has it. -/
lemma exists_idxOf?_map [BEq β] [LawfulBEq β] [DecidableEq β] {g : α → β} {b : β}
    (hb : b ∈ l.map g) :
    ∃ k a, (l.map g).idxOf? b = some k ∧ l[k]? = some a ∧ l.find? (g · = b) = some a := by
  induction l with
  | nil => simp at hb
  | cons c l ih =>
    by_cases hc : g c = b
    · exact ⟨0, c, by simp [idxOf?_cons, hc], rfl, by simp [hc]⟩
    · obtain ⟨k, a, hk, ha, hfind⟩ := ih (by simpa [Ne.symm hc] using hb)
      exact ⟨k + 1, a, by simp [idxOf?_cons, hc, hk], ha, by simp [hc, hfind]⟩

/-- The rows with different keys are different. -/
lemma eq_of_map_nodup {g : α → β} (hl : (l.map g).Nodup) {b : α} (ha : a ∈ l) (hb : b ∈ l)
    (hab : g a = g b) : a = b :=
  inj_on_of_nodup_map hl ha hb hab

/-- Rows with the same key are one row of the table. -/
lemma index_eq_of_map_nodup {g : α → β} (hl : (l.map g).Nodup) {j : ℕ} {b : α}
    (ha : l[i]? = some a) (hb : l[j]? = some b) (hab : g a = g b) : i = j := by
  have hget : (l.map g)[i]? = some (g a) := by rw [getElem?_map, ha, Option.map_some]
  have hget' : (l.map g)[j]? = some (g a) := by rw [getElem?_map, hb, Option.map_some, hab]
  exact (getElem?_inj (getElem?_eq_some_iff.mp hget).1 hl).mp (hget.trans hget'.symm)

/-- The one element with a given key. -/
lemma filter_eq_singleton_of_map_nodup {α β : Type*} [DecidableEq β] {f : α → β} {l : List α}
    (h : (l.map f).Nodup) {a : α} (ha : a ∈ l) : l.filter (fun b => f b = f a) = [a] := by
  induction l with
  | nil => cases ha
  | cons b l ih =>
    rw [List.map_cons, List.nodup_cons] at h
    by_cases hb : f b = f a
    · have hnone : l.filter (fun b => f b = f a) = [] := by
        rw [List.filter_eq_nil_iff]
        intro c hc heq
        have heq : f c = f a := by simpa using heq
        exact h.1 (hb ▸ heq ▸ List.mem_map_of_mem hc)
      rcases List.mem_cons.mp ha with rfl | ha
      · rw [List.filter_cons_of_pos (by simp), hnone]
      · exact absurd (hb ▸ List.mem_map_of_mem ha) h.1
    · rcases List.mem_cons.mp ha with rfl | ha
      · exact absurd rfl hb
      · rw [List.filter_cons_of_neg (by simpa using hb), ih h.2 ha]

/-- Every element of a list is related to one of the list it is matched with. -/
lemma exists_mem_of_forall₂ {α β : Type*} {rel : α → β → Prop} {as : List α} {bs : List β}
    (h : Forall₂ rel as bs) {b : β} (hb : b ∈ bs) : ∃ a ∈ as, rel a b := by
  induction h with
  | nil => cases hb
  | cons hab _ ih =>
    rcases mem_cons.mp hb with rfl | hb
    · exact ⟨_, mem_cons_self, hab⟩
    · obtain ⟨a, ha, hrel⟩ := ih hb
      exact ⟨a, mem_cons_of_mem _ ha, hrel⟩

/-- Only the elements that are mapped to something count. -/
lemma flatMap_filter_of_eq_nil {α β : Type*} {p : α → Bool} {f : α → List β} {l : List α}
    (h : ∀ a ∈ l, p a = false → f a = []) : (l.filter p).flatMap f = l.flatMap f := by
  induction l with
  | nil => rfl
  | cons a l ih =>
    have htail := ih fun b hb => h b (mem_cons_of_mem _ hb)
    cases hp : p a with
    | true => rw [filter_cons_of_pos hp, flatMap_cons, flatMap_cons, htail]
    | false =>
      rw [filter_cons_of_neg (by simp [hp]), flatMap_cons, h a mem_cons_self hp, nil_append, htail]

end List
