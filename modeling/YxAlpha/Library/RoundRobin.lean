import Mathlib.Data.Int.CardIntervalMod

/-!
# Taking turns

`turns n k m` are `m` turns of `n` participants, beginning with that of `k`.  Whoever takes part
has had its share after any number of them, rounded down or up (`count_turns`), and what one sees
of the turns through a window are turns again (`eq_turns_of_infix`).
-/

namespace RoundRobin

def turns (n k m : ℕ) : List ℕ := (List.range m).map fun i => (k + i) % n

variable {n k m : ℕ}

@[simp] theorem length_turns : (turns n k m).length = m := by
  rw [turns, List.length_map, List.length_range]

theorem turns_succ : turns n k (m + 1) = turns n k m ++ [(k + m) % n] := by
  rw [turns, List.range_succ, List.map_append]
  rfl

theorem turns_add (l : ℕ) : turns n k (m + l) = turns n k m ++ turns n (k + m) l := by
  rw [turns, List.range_add, List.map_append, List.map_map, turns, turns]
  congr 1
  apply List.map_congr_left
  intro i _
  rw [Function.comp_apply, Nat.add_assoc]

theorem eq_turns_of_infix {w : List ℕ} (h : w <:+: turns n k m) : ∃ j, w = turns n j w.length := by
  obtain ⟨s, t, hst⟩ := h
  have hlength : s.length + (w.length + t.length) = m := by
    have := congrArg List.length hst
    rwa [List.length_append, List.length_append, length_turns, Nat.add_assoc] at this
  rw [← hlength, turns_add, turns_add, List.append_assoc] at hst
  obtain ⟨-, hwt⟩ := List.append_inj hst length_turns.symm
  exact ⟨k + s.length, (List.append_inj hwt length_turns.symm).1⟩

/-- The turns of `r` are those congruent to one of them. -/
theorem turn_iff {r : ℕ} (hr : r < n) (i : ℕ) :
    (k + i) % n = r ↔ i ≡ r + (n - 1) * k [MOD n] := by
  have hround : k + i + (n - 1) * k = i + n * k := by
    obtain ⟨l, rfl⟩ := Nat.exists_eq_add_of_lt hr
    rw [Nat.add_sub_cancel]
    ring
  have hmod : i + n * k ≡ i [MOD n] := Nat.add_mul_mod_self_left i n k
  calc (k + i) % n = r ↔ k + i ≡ r [MOD n] := by rw [Nat.ModEq, Nat.mod_eq_of_lt hr]
    _ ↔ k + i + (n - 1) * k ≡ r + (n - 1) * k [MOD n] :=
        ⟨fun h => h.add_right _, fun h => h.add_right_cancel' _⟩
    _ ↔ i ≡ r + (n - 1) * k [MOD n] := by
        rw [hround]
        exact ⟨fun h => hmod.symm.trans h, fun h => hmod.trans h⟩

theorem count_turns_eq {r : ℕ} (hr : r < n) (m : ℕ) :
    (turns n k m).count r = Nat.count (· ≡ r + (n - 1) * k [MOD n]) m := by
  induction m with
  | zero => rfl
  | succ m ih =>
      rw [turns_succ, List.count_append, ih, Nat.count_succ, List.count_singleton]
      simp only [beq_iff_eq, turn_iff hr]

/-- Everyone has its share. -/
theorem count_turns {r : ℕ} (hr : r < n) (k m : ℕ) :
    (turns n k m).count r = m / n ∨ (turns n k m).count r = (m + n - 1) / n := by
  have hn : 0 < n := Nat.zero_lt_of_lt hr
  rw [count_turns_eq hr, Nat.count_modEq_card _ hn]
  split
  · rename_i hextra
    right
    have hup : m + n - 1 = m % n - 1 + n * (m / n + 1) := by
      have := Nat.mod_add_div m n
      rw [Nat.mul_succ]
      omega
    rw [hup, Nat.add_mul_div_left _ _ hn,
      Nat.div_eq_of_lt (Nat.lt_of_le_of_lt (Nat.sub_le _ _) (Nat.mod_lt m hn)), Nat.zero_add]
  · exact Or.inl rfl

end RoundRobin
