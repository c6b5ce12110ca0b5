import Mathlib.Data.List.Basic
import Mathlib.Data.Nat.Notation

/-!
# Copying into a vector

Copies go element by element, from the first to the last, and an element that would be read or
written outside the vector ends them with `none`.  `store` writes elements that come from
somewhere else; `copyLoop` moves elements of the vector itself, where a source may have been
overwritten before it is read.

Inside the vector a store is the obvious splice (`store_eq_some`).  A move towards the front is
one too, however much its two ranges overlap (`copyLoop_eq_some`): an element is overwritten
only after it has been read.
-/

namespace Copying

variable {α : Type*}

/-- Writes `data` from index `dst` on. -/
def store : List α → ℕ → List α → Option (List α)
  | v, _, [] => some v
  | v, dst, a :: data => if dst < v.length then store (v.set dst a) (dst + 1) data else none

/-- Copies `n` elements from index `src` on to index `dst` on. -/
def copyLoop : List α → ℕ → ℕ → ℕ → Option (List α)
  | v, _, _, 0 => some v
  | v, src, dst, n + 1 =>
      match v[src]? with
      | some a => if dst < v.length then copyLoop (v.set dst a) (src + 1) (dst + 1) n else none
      | none => none

theorem take_succ_set {v : List α} {dst : ℕ} (hdst : dst < v.length) (a : α) :
    (v.set dst a).take (dst + 1) = v.take dst ++ [a] := by
  rw [List.take_add_one, List.take_set_of_le (Nat.le_refl dst), List.getElem?_set_self hdst]
  rfl

theorem store_eq_some {v : List α} {dst : ℕ} {data : List α} (h : dst + data.length ≤ v.length) :
    store v dst data = some (v.take dst ++ data ++ v.drop (dst + data.length)) := by
  induction data generalizing v dst with
  | nil => simp [store]
  | cons a data ih =>
      rw [List.length_cons] at h
      have hdst : dst < v.length := by omega
      rw [store, if_pos hdst, ih (by rw [List.length_set]; omega), take_succ_set hdst,
        List.drop_set_of_lt (by omega), List.length_cons]
      simp [Nat.add_assoc, Nat.add_comm 1]

/-- A move towards the front keeps what it moves. -/
theorem copyLoop_eq_some {v : List α} {src dst n : ℕ} (hfront : dst ≤ src)
    (h : src + n ≤ v.length) :
    copyLoop v src dst n = some (v.take dst ++ (v.drop src).take n ++ v.drop (dst + n)) := by
  induction n generalizing v src dst with
  | zero => simp [copyLoop]
  | succ n ih =>
      have hsrc : src < v.length := by omega
      have hdst : dst < v.length := by omega
      have hrest : (v.set dst v[src]).drop (src + 1) = v.drop (src + 1) :=
        List.drop_set_of_lt (by omega)
      rw [copyLoop, List.getElem?_eq_getElem hsrc]
      dsimp only
      rw [if_pos hdst, ih (by omega) (by rw [List.length_set]; omega), take_succ_set hdst, hrest,
        List.drop_set_of_lt (by omega), List.drop_eq_getElem_cons hsrc, List.take_succ_cons]
      simp [Nat.add_assoc, Nat.add_comm 1]

end Copying
