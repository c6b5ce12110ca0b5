import Mathlib.Algebra.Order.Ring.Nat
import Mathlib.Data.List.Basic
import Mathlib.Data.Nat.Notation

/-!
# Programs that read a vector

A program walks over a vector with indices it computes itself.  `Reading α β` is such a
program with everything it touches: run on a vector it gives its result and the indices it
has read, in order, and there is no result when it reads outside the vector.

`Returns v first last m b` says that `m` runs on `v` to the end, returns `b` and has read
inside `[first, last)` only.  The rules below follow the program: one for each way to build
one, and one for each of the two loops, the search for an element (`scan`) and the reading
of a whole range (`copy`).
-/

/-- A program over a vector of `α` that returns a `β`. -/
def Reading (α β : Type) := List α → Option (β × List ℕ)

namespace Reading

variable {α β γ : Type}

instance : Monad (Reading α) where
  pure b := fun _ => some (b, [])
  bind m f := fun v => do
    let (a, before) ← m v
    let (b, after) ← f a v
    some (b, before ++ after)

/-- The program that reads outside the vector. -/
def fail : Reading α β := fun _ => none

def read (i : ℕ) : Reading α α := fun v => v[i]?.map fun a => (a, [i])

/-- The first index from `i` on that holds an element with `p`, looking at `n` at most. -/
def scan (p : α → Bool) : ℕ → ℕ → Reading α ℕ
  | 0, i => pure i
  | n + 1, i => do
      let a ← read i
      if p a then pure i else scan p n (i + 1)

/-- The `n` elements from index `i` on. -/
def copy : ℕ → ℕ → Reading α (List α)
  | 0, _ => pure []
  | n + 1, i => do
      let a ← read i
      let rest ← copy n (i + 1)
      pure (a :: rest)

/-- `m` returns `b` on `v` and reads no index outside `[first, last)`. -/
def Returns (v : List α) (first last : ℕ) (m : Reading α β) (b : β) : Prop :=
  ∃ reads, m v = some (b, reads) ∧ ∀ i ∈ reads, first ≤ i ∧ i < last

namespace Returns

variable {v : List α} {first last : ℕ} {m : Reading α β} {b : β}

theorem pure (b : β) : Returns v first last (Pure.pure b) b :=
  ⟨[], rfl, nofun⟩

theorem bind {f : β → Reading α γ} {c : γ} (hm : Returns v first last m b)
    (hf : Returns v first last (f b) c) : Returns v first last (m >>= f) c := by
  obtain ⟨before, hrunm, hbefore⟩ := hm
  obtain ⟨after, hrunf, hafter⟩ := hf
  refine ⟨before ++ after, ?_, ?_⟩
  · show (m v >>= fun x => f x.1 v >>= fun y => some (y.1, x.2 ++ y.2)) = _
    rw [hrunm]
    show (f b v >>= fun y => some (y.1, before ++ y.2)) = _
    rw [hrunf]
    rfl
  · intro i hi
    rcases List.mem_append.mp hi with hi | hi
    · exact hbefore i hi
    · exact hafter i hi

theorem mono {first' last' : ℕ} (h : Returns v first last m b) (hfirst : first' ≤ first)
    (hlast : last ≤ last') : Returns v first' last' m b := by
  obtain ⟨reads, hrun, hreads⟩ := h
  refine ⟨reads, hrun, ?_⟩
  intro i hi
  obtain ⟨hle, hlt⟩ := hreads i hi
  exact ⟨hfirst.trans hle, hlt.trans_le hlast⟩

/-- A test of the program that agrees with a test of its specification. -/
theorem ite {p q : Prop} [Decidable p] [Decidable q] {m' : Reading α β} {b' : β} (hpq : p ↔ q)
    (hpos : q → Returns v first last m b) (hneg : ¬ q → Returns v first last m' b') :
    Returns v first last (if p then m else m') (if q then b else b') := by
  by_cases h : q
  · rw [if_pos h, if_pos (hpq.mpr h)]
    exact hpos h
  · rw [if_neg h, if_neg (mt hpq.mp h)]
    exact hneg h

theorem read {i : ℕ} {a : α} (hfirst : first ≤ i) (hlast : i < last) (ha : v[i]? = some a) :
    Returns v first last (Reading.read i) a := by
  refine ⟨[i], ?_, ?_⟩
  · rw [Reading.read, ha, Option.map_some]
  · intro j hj
    obtain rfl := List.mem_singleton.mp hj
    exact ⟨hfirst, hlast⟩

/-- Both loops read the head of what is left of their range, then go on behind it. -/
theorem read_head {n i : ℕ} (hsize : i + (n + 1) ≤ v.length) :
    ∃ a, (v.drop i).take (n + 1) = a :: (v.drop (i + 1)).take n ∧
      Returns v i (i + (n + 1)) (Reading.read i) a := by
  have hi : i < v.length := by omega
  refine ⟨v[i], ?_, ?_⟩
  · rw [List.drop_eq_getElem_cons hi, List.take_succ_cons]
  · exact read le_rfl (by omega) (List.getElem?_eq_getElem hi)

theorem scan (p : α → Bool) {n i : ℕ} (hsize : i + n ≤ v.length) :
    Returns v i (i + n) (Reading.scan p n i) (i + ((v.drop i).take n).findIdx p) := by
  induction n generalizing i with
  | zero => exact pure i
  | succ n ih =>
      obtain ⟨a, htake, hread⟩ := read_head hsize
      refine bind hread ?_
      rw [htake, List.findIdx_cons]
      cases hp : p a with
      | true => exact pure i
      | false =>
          have hrest := (ih (show i + 1 + n ≤ v.length by omega)).mono (show i ≤ i + 1 by omega)
            (show i + 1 + n ≤ i + (n + 1) by omega)
          rwa [Nat.add_right_comm i 1, Nat.add_assoc i] at hrest

theorem copy {n i : ℕ} (hsize : i + n ≤ v.length) :
    Returns v i (i + n) (Reading.copy n i) ((v.drop i).take n) := by
  induction n generalizing i with
  | zero => exact pure []
  | succ n ih =>
      obtain ⟨a, htake, hread⟩ := read_head hsize
      have hrest := (ih (show i + 1 + n ≤ v.length by omega)).mono (show i ≤ i + 1 by omega)
        (show i + 1 + n ≤ i + (n + 1) by omega)
      rw [htake]
      exact bind hread (bind hrest (pure _))

end Returns

end Reading
