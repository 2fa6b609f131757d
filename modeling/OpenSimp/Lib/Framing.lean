import Mathlib.Data.List.Basic
import Mathlib.Data.List.Forall2
import Mathlib.Algebra.BigOperators.Group.List.Basic
import Mathlib.Algebra.Order.Ring.Nat
import Mathlib.Tactic.Common

/-!
# Messages over a stream

A sender turns each message into one frame, whose length the message determines, and the network
delivers the concatenation of the frames in reads of its own choice. A receiver that takes every
read for one frame recovers the messages exactly when the reads are the frames
(`filterMap_eq_iff`), even if it may skip reads that are no frame.
-/

namespace Framing

variable {α μ : Type*} {Frame : List α → μ → Prop} {size : μ → ℕ} {receive : List α → Option μ}
  {frames reads : List (List α)} {messages : List μ}

/-- The frames of the messages have the lengths that the messages determine. -/
lemma map_length_of_forall₂ (hsize : ∀ frame m, Frame frame m → frame.length = size m)
    (h : List.Forall₂ Frame frames messages) : frames.map List.length = messages.map size := by
  induction h with
  | nil => rfl
  | cons hframe _ ih => rw [List.map_cons, List.map_cons, hsize _ _ hframe, ih]

/-- The reads that were skipped are not among the bytes of what was received. -/
lemma sum_size_add_skipped_le (hsize : ∀ frame m, receive frame = some m → frame.length = size m)
    (hne : ∀ read ∈ reads, read ≠ []) :
    ((reads.filterMap receive).map size).sum + reads.countP (receive · = none) ≤
      reads.flatten.length := by
  induction reads with
  | nil => simp
  | cons read reads ih =>
    have hrest := ih fun read hread => hne read (List.mem_cons_of_mem _ hread)
    cases hreceive : receive read with
    | none =>
      have hpos := List.length_pos_of_ne_nil (hne read (by simp))
      rw [List.filterMap_cons_none hreceive, List.countP_cons_of_pos (by simp [hreceive]),
        List.flatten_cons, List.length_append]
      omega
    | some m =>
      have hlen := hsize _ _ hreceive
      rw [List.filterMap_cons_some hreceive, List.countP_cons_of_neg (by simp [hreceive]),
        List.flatten_cons, List.length_append, List.map_cons, List.sum_cons]
      omega

lemma forall₂_filterMap (h : ∀ read ∈ reads, receive read ≠ none) :
    List.Forall₂ (fun read m => receive read = some m) reads (reads.filterMap receive) := by
  induction reads with
  | nil => exact .nil
  | cons read reads ih =>
    obtain ⟨m, hm⟩ := Option.ne_none_iff_exists'.mp (h read (by simp))
    rw [List.filterMap_cons_some hm]
    exact .cons hm (ih fun read hread => h read (List.mem_cons_of_mem _ hread))

lemma filterMap_of_forall₂
    (h : List.Forall₂ (fun frame m => receive frame = some m) frames messages) :
    frames.filterMap receive = messages := by
  induction h with
  | nil => rfl
  | cons hframe _ ih => rw [List.filterMap_cons_some hframe, ih]

/-- A receiver recovers the messages from a stream exactly when every read is one frame. -/
theorem filterMap_eq_iff (hsize : ∀ frame m, receive frame = some m → frame.length = size m)
    (hframes : List.Forall₂ (fun frame m => receive frame = some m) frames messages)
    (hcut : reads.flatten = frames.flatten) (hne : ∀ read ∈ reads, read ≠ []) :
    reads.filterMap receive = messages ↔ reads = frames := by
  have hlengths := map_length_of_forall₂ hsize hframes
  constructor
  · intro h
    have hskipped := sum_size_add_skipped_le hsize hne
    rw [h, hcut, List.length_flatten, hlengths] at hskipped
    have hnone : ∀ read ∈ reads, receive read ≠ none := by
      have hzero : reads.countP (receive · = none) = 0 := by omega
      simpa using List.countP_eq_zero.mp hzero
    have hreads := forall₂_filterMap hnone
    rw [h] at hreads
    rw [List.eq_iff_flatten_eq]
    exact ⟨hcut, (map_length_of_forall₂ hsize hreads).trans hlengths.symm⟩
  · rintro rfl
    exact filterMap_of_forall₂ hframes

/-! ### Loops over the reads -/

/-- A loop that stops at the first failure succeeds with the results of all its iterations. -/
lemma mapM_eq_ok_iff {ε β γ : Type} {f : β → Except ε γ} {xs : List β} {ys : List γ} :
    xs.mapM f = .ok ys ↔ List.Forall₂ (fun x y => f x = .ok y) xs ys := by
  induction xs generalizing ys with
  | nil =>
    rw [List.mapM_nil, List.forall₂_nil_left_iff]
    exact ⟨fun h => (Except.ok.inj h).symm, fun h => h ▸ rfl⟩
  | cons x xs ih =>
    rw [List.mapM_cons, List.forall₂_cons_left_iff]
    constructor
    · intro h
      cases hx : f x with
      | error e => rw [hx] at h; cases h
      | ok y =>
        cases hxs : xs.mapM f with
        | error e => rw [hx, hxs] at h; cases h
        | ok ys' =>
          rw [hx, hxs] at h
          cases h
          exact ⟨y, ys', rfl, ih.mp hxs, rfl⟩
    · rintro ⟨y, ys', hx, hxs, rfl⟩
      rw [hx, ih.mpr hxs]
      rfl

lemma mapM_eq_some_iff {β γ : Type} {f : β → Option γ} {xs : List β} {ys : List γ} :
    xs.mapM f = some ys ↔ List.Forall₂ (fun x y => f x = some y) xs ys := by
  induction xs generalizing ys with
  | nil =>
    rw [List.mapM_nil, List.forall₂_nil_left_iff]
    exact ⟨fun h => (Option.some.inj h).symm, fun h => h ▸ rfl⟩
  | cons x xs ih =>
    rw [List.mapM_cons, List.forall₂_cons_left_iff]
    constructor
    · intro h
      obtain ⟨y, hx, h⟩ := Option.bind_eq_some_iff.mp h
      obtain ⟨ys', hxs, h⟩ := Option.bind_eq_some_iff.mp h
      exact ⟨y, ys', hx, ih.mp hxs, (Option.some.inj h).symm⟩
    · rintro ⟨y, ys', hx, hxs, rfl⟩
      rw [hx, ih.mpr hxs]
      rfl

end Framing
