import Mathlib.Data.List.Induction
import Mathlib.Data.Set.Insert
import Mathlib.Tactic.Common

/-!
# Logs of who comes and goes

A log is a list of announcements that somebody has joined or has left. `replay` is who is there
after a log, and a log alternates for `a` when the announcements about `a` are a join, a leave, a
join and so on. A log alternates for everybody exactly when each of its announcements fits who was
there before it.
-/

inductive Announcement (α : Type*) where
  | joined (a : α)
  | left (a : α)
  deriving DecidableEq

namespace Announcement

variable {α : Type*}

/-- Who the announcement is about. -/
def who : Announcement α → α
  | joined a => a
  | left a => a

def joins : Announcement α → Bool
  | joined _ => true
  | left _ => false

@[simp] lemma who_joined (a : α) : (joined a).who = a := rfl

@[simp] lemma who_left (a : α) : (left a).who = a := rfl

@[simp] lemma joins_joined (a : α) : (joined a).joins = true := rfl

@[simp] lemma joins_left (a : α) : (left a).joins = false := rfl

/-- Who is there after the announcement. -/
def apply (s : Set α) : Announcement α → Set α
  | joined a => insert a s
  | left a => s \ {a}

/-- Who is there after the announcements of a log. -/
def replay (log : List (Announcement α)) : Set α := log.foldl apply ∅

/-- Nobody joins who is there, and nobody leaves who is not. -/
def Fits (s : Set α) : Announcement α → Prop
  | joined a => a ∉ s
  | left a => a ∈ s

lemma fits_iff {x : Announcement α} {s : Set α} : x.Fits s ↔ (x.joins = true ↔ x.who ∉ s) := by
  cases x <;> simp [Fits]

/-- Joins and leaves in turn, a join first unless `present`. -/
def AlternatesFrom : Bool → List (Announcement α) → Prop
  | _, [] => True
  | present, x :: log => x.joins = !present ∧ AlternatesFrom x.joins log

/-- The announcements about `a` are a join, a leave, a join and so on. -/
def Alternates [DecidableEq α] (log : List (Announcement α)) (a : α) : Prop :=
  AlternatesFrom false (log.filter (·.who = a))

/-- Whether the last announcement of a log is a join. -/
def lastJoins (present : Bool) (log : List (Announcement α)) : Bool :=
  (log.getLast?.map joins).getD present

@[simp] lemma replay_nil : replay ([] : List (Announcement α)) = ∅ := rfl

@[simp] lemma replay_append_singleton (log : List (Announcement α)) (x : Announcement α) :
    replay (log ++ [x]) = x.apply (replay log) := by
  simp [replay]

@[simp] lemma lastJoins_append_singleton (present : Bool) (log : List (Announcement α))
    (x : Announcement α) : lastJoins present (log ++ [x]) = x.joins := by
  simp [lastJoins]

lemma lastJoins_cons (present : Bool) (x : Announcement α) (log : List (Announcement α)) :
    lastJoins present (x :: log) = lastJoins x.joins log := by
  cases log with
  | nil => simp [lastJoins]
  | cons y log => simp [lastJoins, List.getLast?_cons]

lemma alternatesFrom_append_singleton (present : Bool) (log : List (Announcement α))
    (x : Announcement α) :
    AlternatesFrom present (log ++ [x]) ↔
      AlternatesFrom present log ∧ x.joins = !lastJoins present log := by
  induction log generalizing present with
  | nil => simp [AlternatesFrom, lastJoins]
  | cons y log ih =>
    rw [List.cons_append, AlternatesFrom, AlternatesFrom, ih, lastJoins_cons, and_assoc]

section Log

variable [DecidableEq α] {log : List (Announcement α)}

/-- Somebody is there whose last announcement is a join. -/
lemma mem_replay (log : List (Announcement α)) (a : α) :
    a ∈ replay log ↔ lastJoins false (log.filter (·.who = a)) = true := by
  induction log using List.reverseRecOn with
  | nil => simp [lastJoins]
  | append_singleton log x ih =>
    rw [replay_append_singleton, List.filter_append]
    by_cases hx : x.who = a
    · rw [List.filter_cons_of_pos (by simpa using hx), List.filter_nil,
        lastJoins_append_singleton]
      subst hx
      cases x <;> simp [apply]
    · rw [List.filter_cons_of_neg (by simpa using hx), List.filter_nil, List.append_nil, ← ih]
      have ha : a ≠ x.who := fun h => hx h.symm
      cases x <;> simp_all [apply]

lemma alternates_append_singleton_self (x : Announcement α) :
    Alternates (log ++ [x]) x.who ↔ Alternates log x.who ∧ x.Fits (replay log) := by
  have hfits : x.Fits (replay log) ↔
      x.joins = !lastJoins false (log.filter (·.who = x.who)) := by
    rw [fits_iff, mem_replay, Bool.eq_iff_iff (a := x.joins)]
    simp
  rw [Alternates, List.filter_append, List.filter_cons_of_pos (by simp), List.filter_nil,
    alternatesFrom_append_singleton, hfits, Alternates]

lemma alternates_append_singleton_of_ne {x : Announcement α} {a : α} (h : x.who ≠ a) :
    Alternates (log ++ [x]) a ↔ Alternates log a := by
  rw [Alternates, List.filter_append, List.filter_cons_of_neg (by simpa using h), List.filter_nil,
    List.append_nil, Alternates]

/-- A log goes on alternating exactly when what comes next fits who is there. -/
theorem alternates_append_singleton (log : List (Announcement α)) (x : Announcement α) :
    (∀ a, Alternates (log ++ [x]) a) ↔ (∀ a, Alternates log a) ∧ x.Fits (replay log) := by
  constructor
  · intro h
    refine ⟨fun a => ?_, ((alternates_append_singleton_self x).mp (h x.who)).2⟩
    by_cases hx : x.who = a
    · subst hx
      exact ((alternates_append_singleton_self x).mp (h x.who)).1
    · exact (alternates_append_singleton_of_ne hx).mp (h a)
  · rintro ⟨h, hfits⟩ a
    by_cases hx : x.who = a
    · subst hx
      exact (alternates_append_singleton_self x).mpr ⟨h x.who, hfits⟩
    · exact (alternates_append_singleton_of_ne hx).mpr (h a)

end Log

end Announcement
