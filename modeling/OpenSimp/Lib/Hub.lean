import Mathlib.Data.Set.Insert
import OpenSimp.Lib.Transition

/-!
# Hubs

A hub passes on what its members say. In a turn one author posts to all other members, whispers to
anybody, and may join or leave itself; nobody else's membership changes. The log of a run lists what
was said in it, with the members at the time. What anybody hears in a run is the part of the one log
that is meant for him (`heard_log`), so that two who are meant hear the same, in the same order.
-/

namespace Hub

open System

variable {ι α : Type*}

/-- What is said: to all other members, or to one alone. -/
inductive Cast (ι α : Type*) where
  | post (content : α)
  | whisper (listener : ι) (content : α)

/-- What one author says in a row. -/
structure Turn (ι α : Type*) where
  author : ι
  casts : List (Cast ι α)

/-- What was said, by whom and among which members. -/
structure Entry (ι α : Type*) where
  author : ι
  members : Set ι
  cast : Cast ι α

def Cast.content : Cast ι α → α
  | post a => a
  | whisper _ a => a

def Cast.posted : Cast ι α → Option α
  | post a => some a
  | whisper _ _ => none

/-- Whom an entry is meant for. -/
def Entry.audience (x : Entry ι α) : Set ι :=
  match x.cast with
  | .post _ => x.members \ {x.author}
  | .whisper n _ => {n}

/-- The entries of a turn among some members. -/
def Turn.entries (e : Turn ι α) (members : Set ι) : List (Entry ι α) :=
  e.casts.map fun cast => ⟨e.author, members, cast⟩

open Classical in
/-- What `n` hears of a log. -/
noncomputable def heard (n : ι) (log : List (Entry ι α)) : List α :=
  (log.filter fun x => n ∈ x.audience).map (·.cast.content)

/-- What is posted in a log. -/
def posts (log : List (Entry ι α)) : List α := log.filterMap (·.cast.posted)

/-- The hub: its states are its members, and an observation is what everybody hears. -/
def hub (ι α : Type*) : System (Set ι) (Turn ι α) (ι → List α) where
  step s e o s' := (∀ n, n ≠ e.author → (n ∈ s' ↔ n ∈ s)) ∧ ∀ n, o n = heard n (e.entries s)

/-- The log of some steps. -/
def log (steps : List (Step (Set ι) (Turn ι α) (ι → List α))) : List (Entry ι α) :=
  steps.flatMap fun st => st.event.entries st.pre

variable {n m : ι} {s s₀ : Set ι} {e : Turn ι α} {entries : List (Entry ι α)}
  {steps : List (Step (Set ι) (Turn ι α) (ι → List α))}

@[simp] lemma heard_nil (n : ι) : heard n ([] : List (Entry ι α)) = [] := rfl

@[simp] lemma heard_append (n : ι) (xs ys : List (Entry ι α)) :
    heard n (xs ++ ys) = heard n xs ++ heard n ys := by
  rw [heard, List.filter_append, List.map_append, heard, heard]

@[simp] lemma entries_nil (author : ι) (s : Set ι) :
    Turn.entries ⟨author, ([] : List (Cast ι α))⟩ s = [] := rfl

@[simp] lemma entries_append (author : ι) (xs ys : List (Cast ι α)) (s : Set ι) :
    Turn.entries ⟨author, xs ++ ys⟩ s =
      Turn.entries ⟨author, xs⟩ s ++ Turn.entries ⟨author, ys⟩ s :=
  List.map_append

lemma mem_entries {x : Entry ι α} :
    x ∈ e.entries s ↔ x.author = e.author ∧ x.members = s ∧ x.cast ∈ e.casts := by
  rw [Turn.entries, List.mem_map]
  constructor
  · rintro ⟨cast, hcast, rfl⟩
    exact ⟨rfl, rfl, hcast⟩
  · rintro ⟨hauthor, hmembers, hcast⟩
    obtain ⟨author, members, cast⟩ := x
    cases hauthor
    cases hmembers
    exact ⟨cast, hcast, rfl⟩

lemma posts_entries : posts (e.entries s) = e.casts.filterMap Cast.posted := by
  rw [posts, Turn.entries, List.filterMap_map]
  rfl

/-! ### Single entries -/

lemma heard_post_of_mem {author : ι} {a : α} (hn : n ∈ s) (hne : n ≠ author) :
    heard n (Turn.entries ⟨author, [.post a]⟩ s) = [a] := by
  have haudience : n ∈ (⟨author, s, .post a⟩ : Entry ι α).audience := ⟨hn, hne⟩
  simp [heard, Turn.entries, haudience, Cast.content]

lemma heard_post_of_not_mem {author : ι} {a : α} (hn : n ∈ s → n = author) :
    heard n (Turn.entries ⟨author, [.post a]⟩ s) = [] := by
  have haudience : n ∉ (⟨author, s, .post a⟩ : Entry ι α).audience := fun h => h.2 (hn h.1)
  simp [heard, Turn.entries, haudience]

lemma heard_whisper_self {author : ι} {a : α} :
    heard n (Turn.entries ⟨author, [.whisper n a]⟩ s) = [a] := by
  have haudience : n ∈ (⟨author, s, .whisper n a⟩ : Entry ι α).audience := rfl
  simp [heard, Turn.entries, haudience, Cast.content]

lemma heard_whisper_of_ne {author : ι} {a : α} (hne : n ≠ m) :
    heard n (Turn.entries ⟨author, [.whisper m a]⟩ s) = [] := by
  have haudience : n ∉ (⟨author, s, .whisper m a⟩ : Entry ι α).audience := hne
  simp [heard, Turn.entries, haudience]

/-! ### Logs -/

/-- What anybody hears in a run is what the log has for him. -/
theorem heard_log (h : (hub ι α).Run s₀ steps s) (n : ι) :
    steps.flatMap (fun st => st.obs n) = heard n (log steps) := by
  induction h with
  | nil => rfl
  | @snoc steps s s' e o hrun hstep ih =>
    have hlast : o n = heard n (e.entries s) := hstep.2 n
    rw [log, List.flatMap_append, List.flatMap_append, List.flatMap_singleton,
      List.flatMap_singleton, heard_append, ih]
    exact congrArg (heard n (log steps) ++ ·) hlast

/-- Who is meant by no entry hears nothing. -/
lemma heard_eq_nil (h : ∀ x ∈ entries, n ∉ x.audience) : heard n entries = [] := by
  classical
  rw [heard, List.map_eq_nil_iff, List.filter_eq_nil_iff]
  intro x hx hn
  exact h x hx (by simpa using hn)

/-- Whoever the posts of a log are meant for and nothing else hears the posts. -/
lemma heard_eq_posts (h : ∀ x ∈ entries, n ∈ x.audience ↔ ∃ a, x.cast = .post a) :
    heard n entries = posts entries := by
  induction entries with
  | nil => rfl
  | cons x entries ih =>
    have htail := ih fun y hy => h y (List.mem_cons_of_mem _ hy)
    obtain ⟨author, members, cast⟩ := x
    rw [heard, posts] at htail ⊢
    cases cast with
    | post a =>
      have hx : n ∈ (⟨author, members, .post a⟩ : Entry ι α).audience :=
        (h _ List.mem_cons_self).mpr ⟨a, rfl⟩
      rw [List.filter_cons_of_pos (by simpa using hx), List.map_cons, htail]
      rfl
    | whisper l a =>
      have hx : n ∉ (⟨author, members, .whisper l a⟩ : Entry ι α).audience := by
        intro hmem
        obtain ⟨b, hb⟩ := (h _ List.mem_cons_self).mp hmem
        cases hb
      rw [List.filter_cons_of_neg (by simpa using hx), htail]
      rfl

end Hub
