/-
# Bursts

A counter whose life is prolonged by every event counts the events of the
current burst: of the longest unbroken row of events up to now, each of which
came within the counter's life after the one before it.  How many events fell
into a window of fixed length is a different number; a burst that fits into the
window is counted by both.
-/

import Mathlib.Data.List.Basic

namespace Nodecore.Lib

/-- The burst that ends now, given the earlier events, newest first. -/
def burst (life : ℕ) : (now : ℕ) → (earlier : List ℕ) → List ℕ
  | now, [] => [now]
  | now, previous :: earlier =>
    if now ≤ previous + life then now :: burst life previous earlier else [now]

/-- The events of the window that ends now. -/
def window (length now : ℕ) (events : List ℕ) : List ℕ :=
  events.filter fun event => now ≤ event + length

theorem burst_latest (life now : ℕ) (earlier : List ℕ) :
    burst life now earlier <+: now :: earlier := by
  induction earlier generalizing now with
  | nil => exact List.prefix_rfl
  | cons previous earlier ih =>
    rw [burst]
    split
    · exact (List.prefix_cons_inj now).mpr (ih previous)
    · exact ⟨previous :: earlier, rfl⟩

theorem length_burst_le_length_window {life length now : ℕ} {earlier : List ℕ}
    (within : ∀ event ∈ burst life now earlier, now ≤ event + length) :
    (burst life now earlier).length ≤ (window length now (now :: earlier)).length := by
  have kept : window length now (burst life now earlier) = burst life now earlier :=
    List.filter_eq_self.mpr fun event mem => decide_eq_true (within event mem)
  calc
    (burst life now earlier).length
        = (window length now (burst life now earlier)).length := by rw [kept]
    _ ≤ (window length now (now :: earlier)).length :=
        ((burst_latest life now earlier).sublist.filter _).length_le

theorem length_window_le_length_burst {life now : ℕ} {earlier : List ℕ}
    (ordered : (now :: earlier).Pairwise (· ≥ ·)) :
    (window life now (now :: earlier)).length ≤ (burst life now earlier).length := by
  induction earlier generalizing now with
  | nil => exact List.length_filter_le _ _
  | cons previous earlier ih =>
    rw [List.pairwise_cons] at ordered
    have before := ordered.1 previous List.mem_cons_self
    rw [burst, window, List.filter_cons_of_pos (by simp), ← window]
    split_ifs with near
    · have shrinks : (window life now (previous :: earlier)).Sublist
          (window life previous (previous :: earlier)) :=
        List.monotone_filter_right _ fun event inside => by
          simp only [decide_eq_true_eq] at inside ⊢
          omega
      exact Nat.succ_le_succ (Nat.le_trans shrinks.length_le (ih ordered.2))
    · have empty : window life now (previous :: earlier) = [] := by
        refine List.filter_eq_nil_iff.mpr (List.forall_mem_cons.mpr ⟨by simpa using near, ?_⟩)
        intro event member
        have older := List.rel_of_pairwise_cons ordered.2 member
        simp only [decide_eq_true_eq]
        omega
      simp [empty]

end Nodecore.Lib
