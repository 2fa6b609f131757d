import Mathlib.Data.List.Nodup
import Mathlib.Data.List.Perm.Subperm
import OpenSimp.Lib.Transition

/-!
# Walking a list while erasing from it

An index visits the elements of a list one after the other, and a visit may erase the element it is
at. The next element then moves to the index, which goes on past it: so the walk visits every
element exactly if nothing but the last element is ever erased.
-/

namespace Sweep

variable {α : Type*}

/-- The list and the index. -/
structure State (α : Type*) where
  list : List α
  index : ℕ

/-- A visit of the element at the index. The event tells whether the element is erased. -/
def walk (α : Type*) : System (State α) Bool α where
  step s erase a s' := s.list[s.index]? = some a ∧
    s' = ⟨if erase then s.list.eraseIdx s.index else s.list, s.index + 1⟩

/-- The visited elements. -/
def visited (steps : List (System.Step (State α) Bool α)) : List α := steps.map (·.obs)

/-- If the step erases an element, it is the last one. -/
def Settled (st : System.Step (State α) Bool α) : Prop :=
  st.event = true → st.pre.index + 1 = st.pre.list.length

variable {l : List α} {steps : List (System.Step (State α) Bool α)} {s : State α} {a : α}

lemma visited_append (st : System.Step (State α) Bool α) :
    visited (steps ++ [st]) = visited steps ++ [st.obs] := by
  simp [visited]

lemma drop_of_visit (ha : s.list[s.index]? = some a) :
    s.list.drop s.index = a :: s.list.drop (s.index + 1) := by
  obtain ⟨hlt, rfl⟩ := List.getElem?_eq_some_iff.mp ha
  exact List.drop_eq_getElem_cons hlt

/-- After an erasure the index is past the element that moved. -/
lemma drop_eraseIdx (l : List α) (i : ℕ) : (l.eraseIdx i).drop (i + 1) = l.drop (i + 2) := by
  apply List.ext_getElem?
  intro k
  rw [List.getElem?_drop, List.getElem?_drop, List.getElem?_eraseIdx, if_neg (by omega)]
  congr 1
  omega

/-- What the walk has passed of the list, and how much of that it has visited. -/
lemma exists_passed (h : (walk α).Run ⟨l, 0⟩ steps s) :
    ∃ passed, l = passed ++ s.list.drop s.index ∧ (visited steps).Sublist passed ∧
      (visited steps = passed ↔ ∀ st ∈ steps, Settled st) := by
  induction h with
  | nil => exact ⟨[], rfl, List.Sublist.refl _, by simp [visited]⟩
  | @snoc steps s s' erase a hrun hstep ih =>
    obtain ⟨passed, hl, hsub, hiff⟩ := ih
    obtain ⟨ha, rfl⟩ := hstep
    have hlt := (List.getElem?_eq_some_iff.mp ha).1
    rw [drop_of_visit ha] at hl
    cases erase with
    | false =>
      refine ⟨passed ++ [a], by simp [hl], ?_, ?_⟩
      · rw [visited_append]
        exact hsub.append_right [a]
      · rw [visited_append, List.append_left_inj, hiff]
        simp [or_imp, forall_and, Settled]
    | true =>
      cases hrest : s.list.drop (s.index + 1) with
      | nil =>
        -- the last element is erased, and nothing moves
        have hlast : s.index + 1 = s.list.length := by
          have := List.drop_eq_nil_iff.mp hrest
          omega
        refine ⟨passed ++ [a], ?_, ?_, ?_⟩
        · have hnil : s.list.drop (s.index + 2) = [] := List.drop_eq_nil_of_le (by omega)
          simp [drop_eraseIdx, hnil, hl, hrest]
        · rw [visited_append]
          exact hsub.append_right [a]
        · rw [visited_append, List.append_left_inj, hiff]
          simp [or_imp, forall_and, Settled, hlast]
      | cons b rest =>
        -- the element after the erased one is passed without a visit
        have hnext : s.list.drop (s.index + 2) = rest := by
          rw [← List.drop_drop (i := 1), hrest]
          rfl
        have hmore : s.index + 1 < s.list.length := by
          have := congrArg List.length hrest
          rw [List.length_drop, List.length_cons] at this
          omega
        refine ⟨passed ++ [a, b], ?_, ?_, iff_of_false ?_ ?_⟩
        · simp [drop_eraseIdx, hnext, hl, hrest]
        · rw [visited_append]
          exact hsub.append (by simp)
        · intro heq
          have hlen := congrArg List.length heq
          rw [visited_append, List.length_append, List.length_append] at hlen
          have := hsub.length_le
          simp at hlen
          omega
        · intro hall
          have hlast : s.index + 1 = s.list.length :=
            hall _ (List.mem_append_right _ (List.mem_singleton_self _)) rfl
          omega

/-! ### Whole walks -/

section Whole

variable (h : (walk α).Run ⟨l, 0⟩ steps s) (hend : s.list.length ≤ s.index)
include h hend

/-- Elements are visited in order, and none at two positions. -/
lemma visited_sublist : (visited steps).Sublist l := by
  obtain ⟨passed, hl, hsub, -⟩ := exists_passed h
  rw [List.drop_eq_nil_of_le hend, List.append_nil] at hl
  exact hl ▸ hsub

/-- The walk visits the whole list exactly if nothing but the last element is ever erased. -/
lemma visited_eq_iff : visited steps = l ↔ ∀ st ∈ steps, Settled st := by
  obtain ⟨passed, hl, -, hiff⟩ := exists_passed h
  rw [List.drop_eq_nil_of_le hend, List.append_nil] at hl
  rw [hl, hiff]

variable [DecidableEq α] (hl : l.Nodup)
include hl

lemma count_visited_le_one (a : α) : (visited steps).count a ≤ 1 :=
  List.nodup_iff_count_le_one.mp ((visited_sublist h hend).nodup hl) a

/-- Every element is visited exactly once exactly if nothing but the last element is ever erased. -/
lemma forall_count_visited_iff :
    (∀ a ∈ l, (visited steps).count a = 1) ↔ ∀ st ∈ steps, Settled st := by
  rw [← visited_eq_iff h hend]
  constructor
  · intro hall
    have hsub : l ⊆ visited steps := by
      intro a ha
      rw [← List.count_pos_iff, hall a ha]
      exact Nat.one_pos
    exact (visited_sublist h hend).eq_of_length_le (hl.subperm hsub).length_le
  · intro heq a ha
    rw [heq]
    exact List.count_eq_one_of_mem hl ha

end Whole

end Sweep
