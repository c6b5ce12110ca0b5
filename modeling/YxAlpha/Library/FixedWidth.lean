import Mathlib.Data.Int.ConditionallyCompleteOrder
import Mathlib.Data.List.Lex
import Mathlib.Data.Prod.Lex
import Mathlib.Order.ConditionallyCompleteLattice.Basic

/-!
# Texts of fixed width

Values are written so that the texts of all of them have one length and are in the order of the
values: then texts one behind the other are in the order of the pairs, and a text before or
behind all of them changes nothing.  The order of texts is the lexicographic one.
-/

variable {α β γ : Type*}

/-- The texts of the values in `S` have the length `width`, and are in their order. -/
structure FixedWidth [LT α] [LT γ] (S : Set α) (width : ℕ) (text : α → List γ) : Prop where
  length : ∀ a ∈ S, (text a).length = width
  lt : ∀ a ∈ S, ∀ b ∈ S, a < b → text a < text b

/-- The first texts decide if they have one length. -/
theorem FixedWidth.append_lt_append [LT γ] {x y : List γ} (hlength : x.length = y.length)
    (h : x < y) (u v : List γ) : x ++ u < y ++ v := by
  induction x generalizing y with
  | nil =>
      rw [List.length_nil, eq_comm, List.length_eq_zero_iff] at hlength
      rw [hlength] at h
      exact absurd h (List.not_lt_nil _)
  | cons c x ih =>
      cases y with
      | nil => cases hlength
      | cons d y =>
          rw [List.cons_lt_cons_iff] at h
          rw [List.cons_append, List.cons_append, List.cons_lt_cons_iff]
          rcases h with hlt | ⟨rfl, hlt⟩
          · exact Or.inl hlt
          · exact Or.inr ⟨rfl, ih (Nat.succ.inj hlength) hlt⟩

namespace FixedWidth

section

variable [LT α] [LT β] [LT γ] {S : Set α} {T : Set β} {w v : ℕ}
  {text : α → List γ} {next : β → List γ}

/-- Values that are written one behind the other. -/
theorem pair (htext : FixedWidth S w text) (hnext : FixedWidth T v next) :
    FixedWidth {p : α ×ₗ β | (ofLex p).1 ∈ S ∧ (ofLex p).2 ∈ T} (w + v)
      fun p => text (ofLex p).1 ++ next (ofLex p).2 where
  length p hp := by rw [List.length_append, htext.length _ hp.1, hnext.length _ hp.2]
  lt p hp q hq hlt := by
    have hlength := (htext.length _ hp.1).trans (htext.length _ hq.1).symm
    rcases Prod.Lex.lt_iff.mp hlt with hfirst | ⟨hfirst, hsecond⟩
    · exact append_lt_append hlength (htext.lt _ hp.1 _ hq.1 hfirst) _ _
    · rw [hfirst]
      exact List.append_left_lt (hnext.lt _ hp.2 _ hq.2 hsecond)

theorem before (htext : FixedWidth S w text) (front : List γ) :
    FixedWidth S (front.length + w) fun a => front ++ text a where
  length a ha := by rw [List.length_append, htext.length a ha]
  lt a ha b hb hlt := List.append_left_lt (htext.lt a ha b hb hlt)

theorem mono {U : Set α} (htext : FixedWidth S w text) (hsub : U ⊆ S) : FixedWidth U w text where
  length a ha := htext.length a (hsub ha)
  lt a ha b hb := htext.lt a (hsub ha) b (hsub hb)

theorem congr {other : α → List γ} (htext : FixedWidth S w text) (h : ∀ a ∈ S, other a = text a) :
    FixedWidth S w other where
  length a ha := by rw [h a ha, htext.length a ha]
  lt a ha b hb hlt := by
    rw [h a ha, h b hb]
    exact htext.lt a ha b hb hlt

end

section

variable [Preorder α] [Preorder β] [LT γ] {S : Set α} {T : Set β} {w : ℕ} {text : α → List γ}

/-- A value is written by the parts it has. -/
theorem comp (htext : FixedWidth S w text) {parts : β → α} (hparts : StrictMonoOn parts T)
    (hmaps : Set.MapsTo parts T S) : FixedWidth T w fun b => text (parts b) where
  length _ hb := htext.length _ (hmaps hb)
  lt _ hb _ hc hlt := htext.lt _ (hmaps hb) _ (hmaps hc) (hparts hb hc hlt)

end

/-- A number by its quotient and remainder. -/
theorem strictMono_divMod {k : ℤ} (hk : 0 < k) :
    StrictMono fun n : ℤ => toLex (n / k, n % k) := by
  intro m n hlt
  apply Prod.Lex.toLex_lt_toLex.mpr
  have hm := Int.mul_ediv_add_emod m k
  have hn := Int.mul_ediv_add_emod n k
  rcases (Int.ediv_le_ediv hk hlt.le).lt_or_eq with hquotient | hquotient
  · exact Or.inl hquotient
  · refine Or.inr ⟨hquotient, ?_⟩
    dsimp only at hquotient ⊢
    rw [hquotient] at hm
    omega

section

variable [LinearOrder α] [LT γ] [Std.Asymm (fun c d : γ => c < d)] {S : Set α} {w : ℕ}
  {text : α → List γ}

/-- Texts are compared as their values are. -/
theorem lt_iff_lt (htext : FixedWidth S w text) {a b : α} (ha : a ∈ S) (hb : b ∈ S) :
    text a < text b ↔ a < b := by
  refine ⟨fun hlt => ?_, htext.lt a ha b hb⟩
  rcases lt_trichotomy a b with h | rfl | h
  · exact h
  · exact absurd hlt (List.lt_irrefl _)
  · exact absurd hlt (List.lt_asymm (htext.lt b hb a ha h))

theorem injOn (htext : FixedWidth S w text) : Set.InjOn text S := by
  intro a ha b hb heq
  rcases lt_trichotomy a b with h | h | h
  · exact absurd (heq ▸ htext.lt a ha b hb h) (List.lt_irrefl _)
  · exact h
  · exact absurd (heq ▸ htext.lt b hb a ha h) (List.lt_irrefl _)

end

end FixedWidth
