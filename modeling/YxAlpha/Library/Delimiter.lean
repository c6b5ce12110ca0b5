import Mathlib.Data.List.Infix
import Mathlib.Data.List.Basic
import Mathlib.Tactic.Ring
import Mathlib.Tactic.NormNum

/-!
# Delimited streams

A stream is read piece by piece, each piece ended by a fixed delimiter, and may
be seen only up to some point.  This file is about where the delimiter is first
found: `search` is the index of the first occurrence, `cut` splits a stream
there, and `pieces` and `rest` are the complete pieces of a stream and the
incomplete tail behind them.

The delimiter is *unbordered*: no proper suffix of it is a prefix of it.  That is
what makes a search insensitive to how the pieces look: an occurrence cannot
start inside a piece and end inside the delimiter behind it, even if the piece
ends with a part of the delimiter (`search_delimited`).
-/

/-- A nonempty word no proper suffix of which is one of its prefixes. -/
structure Delimiter (α : Type*) where
  word : List α
  ne_nil : word ≠ []
  unbordered : ∀ n < word.length, 0 < n → ¬ word.drop n <+: word

namespace Delimiter

variable {α : Type*} (d : Delimiter α)

/-- The pieces `ls`, each followed by the delimiter. -/
def join (ls : List (List α)) : List α := ls.flatMap (· ++ d.word)

@[simp] theorem join_nil : d.join [] = [] := rfl

@[simp] theorem join_cons (l : List α) (ls : List (List α)) :
    d.join (l :: ls) = l ++ d.word ++ d.join ls := rfl

@[simp] theorem join_append (ls ms : List (List α)) :
    d.join (ls ++ ms) = d.join ls ++ d.join ms :=
  List.flatMap_append

theorem length_word_pos : 0 < d.word.length := List.length_pos_of_ne_nil d.ne_nil

/-- `s` contains no delimiter. -/
def Free (s : List α) : Prop := ¬ d.word <:+: s

variable [DecidableEq α]

/-- The index of the first occurrence of the delimiter. -/
def search : List α → Option ℕ
  | [] => none
  | a :: s => if d.word <+: a :: s then some 0 else (search s).map (· + 1)

/-- The stream before and behind the first delimiter. -/
def cut (s : List α) : Option (List α × List α) :=
  (d.search s).map fun i => (s.take i, s.drop (i + d.word.length))

instance (s : List α) : Decidable (d.Free s) := inferInstanceAs (Decidable (¬ _))

/-! ## The first occurrence -/

theorem search_eq_none_iff (s : List α) : d.search s = none ↔ d.Free s := by
  induction s with
  | nil => simp [search, Free, d.ne_nil]
  | cons a s ih =>
      rw [Free, List.infix_cons_iff, not_or, search]
      by_cases h : d.word <+: a :: s
      · simp [h]
      · simp only [if_neg h, Option.map_eq_none_iff, ih]
        exact ⟨fun hs => ⟨h, hs⟩, fun hs => hs.2⟩

theorem search_spec {s : List α} {i : ℕ} :
    d.search s = some i ↔ d.word <+: s.drop i ∧ ∀ j < i, ¬ d.word <+: s.drop j := by
  induction s generalizing i with
  | nil => simp [search, d.ne_nil]
  | cons a s ih =>
      rw [search]
      by_cases h : d.word <+: a :: s
      · rw [if_pos h]
        constructor
        · rintro ⟨⟩
          exact ⟨h, fun j hj => absurd hj (Nat.not_lt_zero j)⟩
        · rintro ⟨_, hfirst⟩
          rcases Nat.eq_zero_or_pos i with rfl | hi
          · rfl
          · exact absurd h (hfirst 0 hi)
      · rw [if_neg h]
        cases i with
        | zero => simp [h]
        | succ i =>
            simp only [Option.map_eq_some_iff, Nat.add_right_cancel_iff, exists_eq_right, ih,
              List.drop_succ_cons]
            refine and_congr_right fun _ => ⟨?_, ?_⟩
            · intro hfirst j hj
              cases j with
              | zero => exact h
              | succ j => exact hfirst j (by omega)
            · intro hfirst j hj
              exact hfirst (j + 1) (by omega)

theorem search_add_length_le {s : List α} {i : ℕ} (h : d.search s = some i) :
    i + d.word.length ≤ s.length := by
  have hpre := ((d.search_spec).mp h).1.length_le
  have := d.length_word_pos
  rw [List.length_drop] at hpre
  omega

/-- What is found in a stream is found at the same place when more arrives. -/
theorem search_append {s : List α} {i : ℕ} (h : d.search s = some i) (t : List α) :
    d.search (s ++ t) = some i := by
  have hle := d.search_add_length_le h
  obtain ⟨hfound, hfirst⟩ := (d.search_spec).mp h
  refine (d.search_spec).mpr ⟨?_, fun j hj hcontra => hfirst j hj ?_⟩
  · rw [List.drop_append_of_le_length (by omega)]
    exact hfound.trans (List.prefix_append _ _)
  · rw [List.drop_append_of_le_length (by omega)] at hcontra
    apply List.prefix_of_prefix_length_le hcontra (List.prefix_append _ _)
    rw [List.length_drop]
    omega

/-- The first delimiter behind a piece is the one that ends the piece. -/
theorem search_delimited {l : List α} (hl : d.Free l) (r : List α) :
    d.search (l ++ d.word ++ r) = some l.length := by
  refine (d.search_spec).mpr ⟨by simp, ?_⟩
  intro j hj hcontra
  rw [List.append_assoc, List.drop_append_of_le_length hj.le] at hcontra
  rcases Nat.lt_or_ge (l.drop j).length d.word.length with hshort | hlong
  · -- The occurrence would end inside the delimiter: its tail is a border.
    obtain ⟨u, hu⟩ := hcontra
    have htail : d.word.drop (l.drop j).length <+: d.word := by
      have hdrop := congrArg (List.drop (l.drop j).length) hu
      rw [List.drop_left, List.drop_append_of_le_length hshort.le] at hdrop
      have hpre : d.word.drop (l.drop j).length <+: d.word ++ r := ⟨u, hdrop⟩
      apply List.prefix_of_prefix_length_le hpre (List.prefix_append _ _)
      rw [List.length_drop]
      omega
    refine d.unbordered _ hshort ?_ htail
    rw [List.length_drop]
    omega
  · have hpre : d.word <+: l.drop j :=
      List.prefix_of_prefix_length_le hcontra (List.prefix_append _ _) hlong
    exact hl (hpre.isInfix.trans (List.drop_suffix j l).isInfix)

/-- A stream that stops before the delimiter is complete contains none. -/
theorem free_of_prefix {l s : List α} (hl : d.Free l) (hs : s <+: l ++ d.word)
    (hlength : s.length < l.length + d.word.length) : d.Free s := by
  rw [← search_eq_none_iff]
  cases h : d.search s with
  | none => rfl
  | some i =>
      obtain ⟨u, hu⟩ := hs
      have hle := d.search_add_length_le h
      have hfound := d.search_append h u
      have hend := d.search_delimited hl []
      rw [List.append_nil, ← hu, hfound, Option.some.injEq] at hend
      omega

omit [DecidableEq α] in
/-- A letter that is not in the delimiter separates what is free of it. -/
theorem free_append_cons {l r : List α} {a : α} (hl : d.Free l) (hr : d.Free r)
    (ha : a ∉ d.word) : d.Free (l ++ a :: r) := by
  rintro ⟨u, v, huv⟩
  rcases List.append_eq_append_iff.mp huv with ⟨rest, hleft, -⟩ | ⟨rest, hleft, hright⟩
  · exact hl ⟨u, rest, hleft.symm⟩
  · cases rest with
    | nil => exact hl ⟨u, [], by rw [List.append_nil, hleft, List.append_nil]⟩
    | cons b rest =>
        obtain ⟨rfl, hrest⟩ := List.cons.inj hright
        rcases List.append_eq_append_iff.mp hleft with ⟨front, -, hword⟩ | ⟨front, -, hcons⟩
        · exact ha (hword ▸ by simp)
        · cases front with
          | nil =>
              rw [List.nil_append] at hcons
              exact ha (by rw [← hcons]; simp)
          | cons b front =>
              obtain ⟨rfl, hfront⟩ := List.cons.inj hcons
              exact hr ⟨front, v, by rw [hrest, hfront]; rfl⟩

/-! ## Cutting a stream -/

theorem cut_eq_none_iff {s : List α} : d.cut s = none ↔ d.Free s := by
  rw [cut, Option.map_eq_none_iff, search_eq_none_iff]

theorem cut_delimited {l : List α} (hl : d.Free l) (r : List α) :
    d.cut (l ++ d.word ++ r) = some (l, r) := by
  have htake : (l ++ d.word ++ r).take l.length = l := by
    rw [List.append_assoc, List.take_left]
  have hdrop : (l ++ d.word ++ r).drop (l.length + d.word.length) = r := by
    rw [← List.length_append, List.drop_left]
  rw [cut, d.search_delimited hl, Option.map_some, htake, hdrop]

theorem cut_eq_some {s l r : List α} (h : d.cut s = some (l, r)) :
    s = l ++ d.word ++ r ∧ d.Free l := by
  obtain ⟨i, hi, hpair⟩ := Option.map_eq_some_iff.mp h
  obtain ⟨rfl, rfl⟩ := Prod.mk.inj hpair
  obtain ⟨hfound, hfirst⟩ := (d.search_spec).mp hi
  constructor
  · have hword : (s.drop i).take d.word.length = d.word := (List.prefix_iff_eq_take.mp hfound).symm
    calc s = s.take i ++ s.drop i := (List.take_append_drop i s).symm
      _ = s.take i ++ ((s.drop i).take d.word.length ++ (s.drop i).drop d.word.length) := by
        rw [List.take_append_drop d.word.length]
      _ = s.take i ++ d.word ++ s.drop (i + d.word.length) := by
        rw [hword, List.drop_drop, List.append_assoc]
  · rintro ⟨u, v, huv⟩
    have hlength := congrArg List.length huv
    have hpos := d.length_word_pos
    have hmin : (s.take i).length ≤ i := List.length_take_le i s
    simp only [List.length_append] at hlength
    refine hfirst u.length (by omega) ⟨v ++ s.drop i, ?_⟩
    calc d.word ++ (v ++ s.drop i)
        = (u ++ (d.word ++ (v ++ s.drop i))).drop u.length := by rw [List.drop_left]
      _ = (s.take i ++ s.drop i).drop u.length := by rw [← huv]; simp only [List.append_assoc]
      _ = s.drop u.length := by rw [List.take_append_drop]

theorem length_lt_of_cut {s l r : List α} (h : d.cut s = some (l, r)) : r.length < s.length := by
  have hpos := d.length_word_pos
  rw [(d.cut_eq_some h).1]
  simp only [List.length_append]
  omega

/-! ## The pieces of a stream -/

/-- The complete pieces of a stream. -/
def pieces (s : List α) : List (List α) :=
  match _h : d.cut s with
  | none => []
  | some (l, r) => l :: pieces r
termination_by s.length
decreasing_by exact d.length_lt_of_cut _h

theorem pieces_of_free {s : List α} (h : d.Free s) : d.pieces s = [] := by
  have hcut := d.cut_eq_none_iff.mpr h
  rw [pieces]
  split <;> simp_all

theorem pieces_of_cut {s l r : List α} (h : d.cut s = some (l, r)) :
    d.pieces s = l :: d.pieces r := by
  rw [pieces]
  split <;> simp_all

/-- What begins with complete pieces has these first. -/
theorem pieces_join_append {ls : List (List α)} (hls : ∀ l ∈ ls, d.Free l) (s : List α) :
    d.pieces (d.join ls ++ s) = ls ++ d.pieces s := by
  induction ls with
  | nil => rfl
  | cons l ls ih =>
      rw [List.forall_mem_cons] at hls
      rw [join_cons, List.append_assoc, d.pieces_of_cut (d.cut_delimited hls.1 _), ih hls.2]
      rfl

end Delimiter
