import OpenSimp.Lib.Columns
import OpenSimp.Lib.Sweep

/-!
# Walking a list again and again

An index walks a list round after round; a visit may erase the element it is at, and elements may be
added at the end at any time. A round passes an element without a visit only after an erasure before
it, so that every round that misses an element moves it one place up. An element that stays is
therefore missed by no more rounds than there were elements before it, and no round visits it twice
(`exists_position_of_run`).
-/

namespace Rounds

open System

variable {α : Type*}

inductive Move (α : Type*) where
  | visit (erase : Bool)
  | append (as : List α)
  /-- The index is past the end, and the next round begins. -/
  | restart

/-- The walk. The observation is the element that is visited. -/
def walk (α : Type*) : System (Sweep.State α) (Move α) (Option α) where
  step s e o s' := match e with
    | .visit erase => ∃ a, o = some a ∧ s.list[s.index]? = some a ∧
        s' = ⟨if erase then s.list.eraseIdx s.index else s.list, s.index + 1⟩
    | .append as => o = none ∧ (s.list ++ as).Nodup ∧ s' = ⟨s.list ++ as, s.index⟩
    | .restart => o = none ∧ s.list.length ≤ s.index ∧ s' = ⟨s.list, 0⟩

def Move.isRestart : Move α → Bool
  | restart => true
  | _ => false

/-- How many rounds begin in some steps. -/
def restarts (steps : List (Step (Sweep.State α) (Move α) (Option α))) : ℕ :=
  steps.countP (·.event.isRestart)

/-- The steps do not add `a`. -/
def Spares (a : α) (steps : List (Step (Sweep.State α) (Move α) (Option α))) : Prop :=
  ∀ st ∈ steps, ∀ as, st.event = .append as → a ∉ as

/-- One if the index is past the position `k`. -/
def past (s : Sweep.State α) (k : ℕ) : ℕ := if k < s.index then 1 else 0

variable {s s' s₀ : Sweep.State α} {a : α} {k p : ℕ} {e : Move α} {o : Option α}
  {steps : List (Step (Sweep.State α) (Move α) (Option α))}

/-! ### Steps -/

lemma nodup_of_step (hl : s.list.Nodup) (hstep : (walk α).step s e o s') : s'.list.Nodup := by
  cases e with
  | append as =>
    obtain ⟨-, hnodup, rfl⟩ := hstep
    exact hnodup
  | restart =>
    obtain ⟨-, -, rfl⟩ := hstep
    exact hl
  | visit erase =>
    obtain ⟨b, -, -, rfl⟩ := hstep
    cases erase with
    | false => exact hl
    | true => exact hl.eraseIdx _

/-- A step that does not add `a` leaves it where it was or takes it away. -/
lemma mem_of_step (hstep : (walk α).step s e o s') (hspares : ∀ as, e = .append as → a ∉ as)
    (hmem : a ∈ s'.list) : a ∈ s.list := by
  cases e with
  | append as =>
    obtain ⟨-, -, rfl⟩ := hstep
    exact (List.mem_append.mp hmem).resolve_right (hspares as rfl)
  | restart =>
    obtain ⟨-, -, rfl⟩ := hstep
    exact hmem
  | visit erase =>
    obtain ⟨b, -, -, rfl⟩ := hstep
    cases erase with
    | false => exact hmem
    | true => exact List.mem_of_mem_eraseIdx hmem

/-- The position of an element after another one was erased. -/
lemma getElem?_eraseIdx_of_ne {l : List α} {i : ℕ} (ha : l[p]? = some a) (hne : p ≠ i) :
    (l.eraseIdx i)[if i < p then p - 1 else p]? = some a := by
  rw [List.getElem?_eraseIdx]
  by_cases hlt : i < p
  · have hp : p - 1 + 1 = p := by omega
    rw [if_pos hlt, if_neg (by omega), hp, ha]
  · rw [if_neg hlt, if_pos (by omega), ha]

variable [DecidableEq α]

/-- How often some steps visit `a`. -/
def visits (a : α) (steps : List (Step (Sweep.State α) (Move α) (Option α))) : ℕ :=
  steps.countP (·.obs = some a)

/-- Where a step leaves `a`: the round that ends was missed only if the index was past `a`, and the
index gets past `a` only in a visit of it or in an erasure that moves it up. A visit finds the index
at `a` and leaves it past `a`. -/
lemma exists_position_of_step (hl : s.list.Nodup) (hstep : (walk α).step s e o s')
    (ha : s.list[p]? = some a) (hmem : a ∈ s'.list) :
    ∃ p', s'.list[p']? = some a ∧
      (if e.isRestart = true then 1 else 0) + p' + past s' p' ≤
        p + past s p + (if o = some a then 1 else 0) ∧
      (if o = some a then 1 else 0) + past s p ≤
        (if e.isRestart = true then 1 else 0) + past s' p' := by
  have hp : p < s.list.length := (List.getElem?_eq_some_iff.mp ha).1
  cases e with
  | append as =>
    obtain ⟨rfl, -, rfl⟩ := hstep
    exact ⟨p, by rw [List.getElem?_append_left hp, ha], by simp [Move.isRestart, past]⟩
  | restart =>
    obtain ⟨rfl, hend, rfl⟩ := hstep
    have hpast : p < s.index := by omega
    refine ⟨p, ha, ?_⟩
    simp only [Move.isRestart, past, hpast, Nat.not_lt_zero]
    constructor <;> split_ifs <;> omega
  | visit erase =>
    obtain ⟨b, rfl, hb, rfl⟩ := hstep
    by_cases hpi : p = s.index
    · subst hpi
      cases Option.some.inj (ha.symm.trans hb)
      cases erase with
      | false => exact ⟨s.index, ha, by simp [Move.isRestart, past]⟩
      | true => exact absurd rfl ((List.mem_eraseIdx_iff_of_nodup hl ha).mp hmem).2
    · have hne : b ≠ a := by
        rintro rfl
        exact hpi ((List.getElem?_inj hp hl).mp (ha.trans hb.symm))
      have hvisit : (if some b = some a then 1 else 0) = 0 := by simp [hne]
      rw [hvisit]
      cases erase with
      | false =>
        refine ⟨p, ha, ?_⟩
        simp only [Move.isRestart, past, Bool.false_eq_true, if_false]
        constructor <;> split_ifs <;> omega
      | true =>
        refine ⟨_, getElem?_eraseIdx_of_ne ha hpi, ?_⟩
        simp only [Move.isRestart, past, Bool.false_eq_true, if_false]
        constructor <;> split_ifs <;> omega

/-! ### Runs -/

/-- Every round in which an element that stays is not visited moves it one place up, but for the
round that is under way at the start, and no round visits it twice. -/
theorem exists_position_of_run (h : (walk α).Run s₀ steps s) (hl : s₀.list.Nodup)
    (hspares : Spares a steps) (ha : s₀.list[k]? = some a) (hmem : a ∈ s.list) :
    ∃ p, s.list[p]? = some a ∧
      restarts steps + p + past s p ≤ k + past s₀ k + visits a steps ∧
      visits a steps + past s₀ k ≤ restarts steps + past s p := by
  induction h with
  | nil => exact ⟨k, ha, by simp [restarts, visits], by simp [restarts, visits]⟩
  | @snoc steps s s' e o hrun hstep ih =>
    have hs : s.list.Nodup := hrun.invariant (·.list.Nodup) hl
      fun _ _ _ _ hl hstep => nodup_of_step hl hstep
    have hlast : ∀ as, e = .append as → a ∉ as :=
      hspares ⟨s, e, o, s'⟩ (List.mem_append_right _ (List.mem_singleton_self _))
    have hold : Spares a steps := fun st hst => hspares st (List.mem_append_left _ hst)
    obtain ⟨p, hp, hle, hge⟩ := ih hold (mem_of_step hstep hlast hmem)
    obtain ⟨p', hp', hle', hge'⟩ := exists_position_of_step hs hstep hp hmem
    have hrestarts : restarts (steps ++ [⟨s, e, o, s'⟩]) =
        restarts steps + if e.isRestart = true then 1 else 0 := by
      simp [restarts, List.countP_append, List.countP_singleton]
    have hvisits : visits a (steps ++ [⟨s, e, o, s'⟩]) =
        visits a steps + if o = some a then 1 else 0 := by
      simp [visits, List.countP_append, List.countP_singleton]
    rw [hrestarts, hvisits]
    refine ⟨p', hp', ?_, ?_⟩
    · omega
    · omega

end Rounds
