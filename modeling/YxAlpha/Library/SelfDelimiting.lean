import YxAlpha.Library.Delimiter

/-!
# Self-delimiting codes

A code is self-delimiting on some values when what it writes for one of them can be split
off the front of a stream in one way only.  No word of such a code is a prefix of another
(`not_isPrefix`), and a sequence of values can be read back from its words written one behind
the other (`flatMap_inj`).

Self-delimiting codes are put together from lines.  A list of lines that are not empty,
followed by an empty line, is one (`paragraph`); what follows may be anything the lines
determine the end of (`dependent`), in particular a block whose length they tell (`sized`).
-/

/-- What `encode` writes for the values meeting `P` can be split off a stream in one way. -/
def SelfDelimiting {α β : Type*} (P : α → Prop) (encode : α → List β) : Prop :=
  ∀ a b, P a → P b → ∀ s t, encode a ++ s = encode b ++ t → a = b ∧ s = t

namespace SelfDelimiting

variable {α β γ : Type*} {P : α → Prop} {encode : α → List β}

theorem not_isPrefix (h : SelfDelimiting P encode) {a b : α} (ha : P a) (hb : P b) (hne : a ≠ b) :
    ¬ encode a <+: encode b := by
  rintro ⟨s, hs⟩
  exact hne (h a b ha hb s [] (by rw [hs, List.append_nil])).1

/-- A sequence is determined by its words, if none of them is empty. -/
theorem flatMap_inj (h : SelfDelimiting P encode) (hne : ∀ a, P a → encode a ≠ [])
    {as bs : List α} (has : ∀ a ∈ as, P a) (hbs : ∀ b ∈ bs, P b)
    (heq : as.flatMap encode = bs.flatMap encode) : as = bs := by
  induction as generalizing bs with
  | nil =>
      cases bs with
      | nil => rfl
      | cons b bs =>
          rw [List.flatMap_nil, List.flatMap_cons, eq_comm, List.append_eq_nil_iff] at heq
          exact absurd heq.1 (hne b (hbs b List.mem_cons_self))
  | cons a as ih =>
      rw [List.forall_mem_cons] at has
      cases bs with
      | nil =>
          rw [List.flatMap_nil, List.flatMap_cons, List.append_eq_nil_iff] at heq
          exact absurd heq.1 (hne a has.1)
      | cons b bs =>
          rw [List.forall_mem_cons] at hbs
          rw [List.flatMap_cons, List.flatMap_cons] at heq
          obtain ⟨rfl, hrest⟩ := h a b has.1 hbs.1 _ _ heq
          rw [ih has.2 hbs.2 hrest]

/-- What comes first may tell how to read what follows. -/
theorem dependent {head : α → γ} {front : γ → List β} {back : α → List β} {Q : γ → Prop}
    (hfront : SelfDelimiting Q front) (hhead : ∀ a, P a → Q (head a))
    (hback : ∀ c, SelfDelimiting (fun a => P a ∧ head a = c) back) :
    SelfDelimiting P fun a => front (head a) ++ back a := by
  intro a b ha hb s t heq
  simp only [List.append_assoc] at heq
  obtain ⟨hab, hrest⟩ := hfront _ _ (hhead a ha) (hhead b hb) _ _ heq
  exact hback (head a) a b ⟨ha, rfl⟩ ⟨hb, hab.symm⟩ s t hrest

/-- Blocks of one size. -/
theorem sized {block : α → List β}
    (hsize : ∀ a b, P a → P b → (block a).length = (block b).length)
    (hblock : ∀ a b, P a → P b → block a = block b → a = b) : SelfDelimiting P block := by
  intro a b ha hb s t heq
  obtain ⟨hab, hst⟩ := List.append_inj heq (hsize a b ha hb)
  exact ⟨hblock a b ha hb hab, hst⟩

end SelfDelimiting

/-! ## Words and lines -/

namespace Delimiter

variable {α : Type*}

/-- The delimiter of one letter. -/
def letter (a : α) : Delimiter α where
  word := [a]
  ne_nil := List.cons_ne_nil _ _
  unbordered n hn hpos := by
    rw [List.length_singleton] at hn
    omega

variable [DecidableEq α] (d : Delimiter α)

/-- A line is read up to its end. -/
theorem selfDelimiting_line : SelfDelimiting d.Free (· ++ d.word) := by
  intro l m hl hm s t heq
  have hcut := d.cut_delimited hl s
  rw [show l ++ d.word ++ s = m ++ d.word ++ t from heq, d.cut_delimited hm t] at hcut
  obtain ⟨hlm, hst⟩ := Prod.mk.inj (Option.some.inj hcut)
  exact ⟨hlm.symm, hst.symm⟩

/-- A word is read up to a letter that it does not contain. -/
theorem selfDelimiting_letter (a : α) : SelfDelimiting (a ∉ ·) (· ++ [a]) := by
  intro l m hl hm
  apply (letter a).selfDelimiting_line
  · exact fun h => hl ((List.singleton_infix_iff a l).mp h)
  · exact fun h => hm ((List.singleton_infix_iff a m).mp h)

/-- Lines that are not empty are read up to the empty line behind them. -/
theorem selfDelimiting_paragraph :
    SelfDelimiting (fun ls => ∀ l ∈ ls, d.Free l ∧ l ≠ []) fun ls => d.join ls ++ d.word := by
  intro ls ms hls hms s t heq
  have hempty : d.Free [] := fun h => d.ne_nil (List.infix_nil.mp h)
  have hnil (u : List α) : d.word ++ u = [] ++ d.word ++ u := rfl
  induction ls generalizing ms with
  | nil =>
      cases ms with
      | nil => exact ⟨rfl, List.append_cancel_left heq⟩
      | cons m ms =>
          obtain ⟨hfree, hne⟩ := hms m List.mem_cons_self
          simp only [join_nil, join_cons, List.nil_append, List.append_assoc (m ++ d.word)] at heq
          rw [hnil] at heq
          exact absurd (d.selfDelimiting_line [] m hempty hfree _ _ heq).1.symm hne
  | cons l ls ih =>
      rw [List.forall_mem_cons] at hls
      cases ms with
      | nil =>
          simp only [join_nil, join_cons, List.nil_append, List.append_assoc (l ++ d.word)] at heq
          rw [hnil t] at heq
          exact absurd (d.selfDelimiting_line l [] hls.1.1 hempty _ _ heq).1 hls.1.2
      | cons m ms =>
          rw [List.forall_mem_cons] at hms
          simp only [join_cons, List.append_assoc (l ++ d.word), List.append_assoc (m ++ d.word)]
            at heq
          obtain ⟨rfl, hrest⟩ := d.selfDelimiting_line l m hls.1.1 hms.1.1 _ _ heq
          obtain ⟨rfl, hst⟩ := ih ms hls.2 hms.2 hrest
          exact ⟨rfl, hst⟩

end Delimiter
