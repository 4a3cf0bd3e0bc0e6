import Mathlib.Data.List.Basic
import Mathlib.Tactic.Common

/-!
# Interleavings of threads

A thread is the list of its atomic actions. A schedule takes the next action of any thread until none
has one left, so that it is a permutation of all actions.
-/

namespace MultipathQuic

variable {α : Type*} {threads : List (List α)} {schedule : List α}

/-- The schedule takes the threads' actions one at a time, each thread's in their order. -/
inductive Interleaving : List (List α) → List α → Prop
  | done {threads : List (List α)} (h : ∀ thread ∈ threads, thread = []) : Interleaving threads []
  | step {before after : List (List α)} {a : α} {rest schedule : List α}
      (h : Interleaving (before ++ rest :: after) schedule) :
      Interleaving (before ++ (a :: rest) :: after) (a :: schedule)

namespace Interleaving

theorem perm_flatten (h : Interleaving threads schedule) : schedule.Perm threads.flatten := by
  induction h with
  | done h => rw [List.flatten_eq_nil_iff.mpr h]
  | @step before after a rest schedule _ ih =>
    rw [List.flatten_append, List.flatten_cons, List.cons_append]
    rw [List.flatten_append, List.flatten_cons] at ih
    exact (ih.cons a).trans List.perm_middle.symm

theorem single (thread : List α) : Interleaving [thread] thread := by
  induction thread with
  | nil => exact .done (List.forall_mem_singleton.mpr rfl)
  | cons a rest ih => exact @step α [] [] a rest rest ih

end Interleaving

end MultipathQuic
