import Mathlib.Logic.Basic
import Mathlib.Data.Nat.Notation
import Mathlib.Data.Option.Basic

/-!
# Machines that take labelled steps

A machine is an initial state and a partial step function.  An action carries
everything the environment decides (which thread moves, what a system call
returns), so a run is just a list of actions and every run can be replayed.

Two predicates on runs are used throughout: `Throughout P s as` says that `P`
holds in every state the run `as` passes through, and `EachStep G s as` says
that every step the run takes is taken from a state and an action related by
`G`; `SomeStep E s as` says that one of them is related by `E`.  A run stops at the first action
that is not enabled, so neither needs the run to be enabled to its end.

The rules below reduce both to one step: `throughout_of_invariant` for a plain
invariant, `throughout_of_guarded` for an invariant that only the guarded steps
preserve, `throughout_iff_eachStep` when the guard is exact.
-/

/-- A machine with states `σ` and actions `α`; `step s a` is `none` when the
action `a` is not enabled in `s`. -/
structure Machine (σ α : Type*) where
  init : σ
  step : σ → α → Option σ

namespace Machine

variable {σ α : Type*} (m : Machine σ α)

/-- The state after the actions `as`, if all of them are enabled in turn. -/
def exec : σ → List α → Option σ
  | s, [] => some s
  | s, a :: as => (m.step s a).bind fun t => exec t as

/-- `P` holds in every state the run `as` from `s` passes through. -/
def Throughout (P : σ → Prop) : σ → List α → Prop
  | s, [] => P s
  | s, a :: as => P s ∧ ∀ t, m.step s a = some t → Throughout P t as

/-- Every step the run `as` from `s` takes meets `G`. -/
def EachStep (G : σ → α → Prop) : σ → List α → Prop
  | _, [] => True
  | s, a :: as => ∀ t, m.step s a = some t → G s a ∧ EachStep G t as

/-- Some step the run `as` from `s` takes meets `E`. -/
def SomeStep (E : σ → α → Prop) : σ → List α → Prop
  | _, [] => False
  | s, a :: as => ∃ t, m.step s a = some t ∧ (E s a ∨ SomeStep E t as)

variable {m}

/-- What is asked of the states an option holds can be decided there. -/
instance decidableForallSome {p : σ → Prop} [DecidablePred p] (o : Option σ) :
    Decidable (∀ t, o = some t → p t) :=
  match o with
  | none => isTrue nofun
  | some t => decidable_of_iff (p t) ⟨fun h _ ht => Option.some.inj ht ▸ h, fun h => h t rfl⟩

instance decidableThroughout {P : σ → Prop} [DecidablePred P] :
    ∀ s as, Decidable (m.Throughout P s as)
  | s, [] => inferInstanceAs (Decidable (P s))
  | s, a :: as =>
      have (t : σ) : Decidable (m.Throughout P t as) := decidableThroughout t as
      inferInstanceAs (Decidable (P s ∧ ∀ t, m.step s a = some t → m.Throughout P t as))

instance decidableEachStep {G : σ → α → Prop} [∀ s a, Decidable (G s a)] :
    ∀ s as, Decidable (m.EachStep G s as)
  | _, [] => isTrue trivial
  | s, a :: as =>
      have (t : σ) : Decidable (m.EachStep G t as) := decidableEachStep t as
      inferInstanceAs (Decidable (∀ t, m.step s a = some t → G s a ∧ m.EachStep G t as))

instance decidableSomeStep {E : σ → α → Prop} [∀ s a, Decidable (E s a)] :
    ∀ s as, Decidable (m.SomeStep E s as)
  | _, [] => isFalse id
  | s, a :: as =>
      match h : m.step s a with
      | none => isFalse fun ⟨_, ht, _⟩ => Option.some_ne_none _ (ht.symm.trans h)
      | some t =>
          have : Decidable (m.SomeStep E t as) := decidableSomeStep t as
          decidable_of_iff (E s a ∨ m.SomeStep E t as)
            ⟨fun hE => ⟨t, h, hE⟩, fun ⟨_, ht, hE⟩ => Option.some.inj (h.symm.trans ht) ▸ hE⟩

/-! ## Invariants -/

/-- An invariant that only the steps meeting `G` preserve holds throughout every
run whose steps all meet `G`. -/
theorem throughout_of_guarded {I : σ → Prop} {G : σ → α → Prop}
    (hstep : ∀ s a t, I s → G s a → m.step s a = some t → I t) {s : σ} {as : List α}
    (hs : I s) (hguard : m.EachStep G s as) : m.Throughout I s as := by
  induction as generalizing s with
  | nil => exact hs
  | cons a as ih =>
      refine ⟨hs, ?_⟩
      intro t ht
      obtain ⟨hG, hrest⟩ := hguard t ht
      exact ih (hstep s a t hs hG ht) hrest

theorem throughout_of_invariant {I : σ → Prop}
    (hstep : ∀ s a t, I s → m.step s a = some t → I t) {s : σ} (hs : I s) (as : List α) :
    m.Throughout I s as := by
  induction as generalizing s with
  | nil => exact hs
  | cons a as ih => exact ⟨hs, fun t ht => ih (hstep s a t hs ht)⟩

/-- An invariant that the actions meeting `G` preserve holds throughout every run of them. -/
theorem throughout_of_actions {I : σ → Prop} {G : α → Prop}
    (hstep : ∀ s a t, I s → G a → m.step s a = some t → I t) {s : σ} {as : List α}
    (hs : I s) (hG : ∀ a ∈ as, G a) : m.Throughout I s as := by
  induction as generalizing s with
  | nil => exact hs
  | cons a as ih =>
      rw [List.forall_mem_cons] at hG
      exact ⟨hs, fun t ht => ih (hstep s a t hs hG.1 ht) hG.2⟩

theorem eachStep_of_forall {G : σ → α → Prop} {s : σ} {as : List α}
    (hG : ∀ a ∈ as, ∀ s, G s a) : m.EachStep G s as := by
  induction as generalizing s with
  | nil => exact trivial
  | cons a as ih =>
      rw [List.forall_mem_cons] at hG
      exact fun t _ => ⟨hG.1 s, ih hG.2⟩

theorem EachStep.and {G H : σ → α → Prop} {s : σ} {as : List α} (hG : m.EachStep G s as)
    (hH : m.EachStep H s as) : m.EachStep (fun s a => G s a ∧ H s a) s as := by
  induction as generalizing s with
  | nil => exact trivial
  | cons a as ih =>
      intro t ht
      exact ⟨⟨(hG t ht).1, (hH t ht).1⟩, ih (hG t ht).2 (hH t ht).2⟩

/-- What holds of every step from the states of an invariant holds of each step of a run. -/
theorem eachStep_of_invariant {I : σ → Prop} {G : σ → α → Prop}
    (hstep : ∀ s a t, I s → m.step s a = some t → I t)
    (hG : ∀ s a t, I s → m.step s a = some t → G s a) {s : σ} (hs : I s) (as : List α) :
    m.EachStep G s as := by
  induction as generalizing s with
  | nil => exact trivial
  | cons a as ih =>
      intro t ht
      exact ⟨hG s a t hs ht, ih (hstep s a t hs ht)⟩

/-- Two properties that agree on every step from the states of an invariant. -/
theorem eachStep_iff_eachStep {I : σ → Prop} {G H : σ → α → Prop}
    (hstep : ∀ s a t, I s → m.step s a = some t → I t)
    (hagree : ∀ s a t, I s → m.step s a = some t → (G s a ↔ H s a)) {s : σ} (hs : I s)
    (as : List α) : m.EachStep G s as ↔ m.EachStep H s as := by
  induction as generalizing s with
  | nil => exact Iff.rfl
  | cons a as ih =>
      refine forall_congr' fun t => forall_congr' fun ht => ?_
      rw [hagree s a t hs ht, ih (hstep s a t hs ht)]

theorem Throughout.mono {P Q : σ → Prop} (hPQ : ∀ s, P s → Q s) {s : σ} {as : List α}
    (h : m.Throughout P s as) : m.Throughout Q s as := by
  induction as generalizing s with
  | nil => exact hPQ s h
  | cons a as ih => exact ⟨hPQ s h.1, fun t ht => ih (h.2 t ht)⟩

theorem Throughout.head {P : σ → Prop} {s : σ} {as : List α} (h : m.Throughout P s as) : P s := by
  cases as with
  | nil => exact h
  | cons a as => exact h.1

/-- What holds throughout a run holds at its end. -/
theorem Throughout.last {P : σ → Prop} {s t : σ} {as : List α} (h : m.Throughout P s as)
    (hrun : m.exec s as = some t) : P t := by
  induction as generalizing s with
  | nil =>
      cases hrun
      exact h
  | cons a as ih =>
      obtain ⟨u, hu, hrest⟩ := Option.bind_eq_some_iff.mp hrun
      exact ih (h.2 u hu) hrest

/-! ## Relations along a run -/

/-- What each step of a run adds to, the whole run has. -/
theorem exec_related {R : σ → σ → Prop} {G : α → Prop}
    (hstep : ∀ s t u a, R s t → G a → m.step t a = some u → R s u) {s t u : σ} {as : List α}
    (hst : R s t) (hG : ∀ a ∈ as, G a) (hrun : m.exec t as = some u) : R s u := by
  induction as generalizing t with
  | nil =>
      cases hrun
      exact hst
  | cons a as ih =>
      obtain ⟨v, hv, hrest⟩ := Option.bind_eq_some_iff.mp hrun
      rw [List.forall_mem_cons] at hG
      exact ih (hstep s t v a hst hG.1 hv) hG.2 hrest

theorem exec_invariant {I : σ → Prop} (hstep : ∀ s a t, I s → m.step s a = some t → I t)
    {s t : σ} {as : List α} (hs : I s) (hrun : m.exec s as = some t) : I t :=
  exec_related (R := fun _ t => I t) (G := fun _ => True)
    (fun _ t u a ht _ hu => hstep t a u ht hu) (s := s) hs (fun _ _ => trivial) hrun

/-! ## Logs -/

/-- What the steps of a run show, one behind the other. -/
def observed {β : Type*} (m : Machine σ α) (shown : σ → α → σ → List β) : σ → List α → List β
  | _, [] => []
  | s, a :: as =>
      match m.step s a with
      | some t => shown s a t ++ observed m shown t as
      | none => []

/-- A log to which every step adds what it shows is what the run has shown. -/
theorem log_eq_observed {β : Type*} {I : σ → Prop} (log : σ → List β)
    {shown : σ → α → σ → List β} (hinv : ∀ s a t, I s → m.step s a = some t → I t)
    (hlog : ∀ s a t, I s → m.step s a = some t → log t = log s ++ shown s a t) {s t : σ}
    {as : List α} (hs : I s) (hrun : m.exec s as = some t) :
    log t = log s ++ m.observed shown s as := by
  induction as generalizing s with
  | nil =>
      cases hrun
      rw [observed, List.append_nil]
  | cons a as ih =>
      obtain ⟨u, hu, hrest⟩ := Option.bind_eq_some_iff.mp hrun
      calc log t = log u ++ m.observed shown u as := ih (hinv s a u hs hu) hrest
        _ = (log s ++ shown s a u) ++ m.observed shown u as := by rw [hlog s a u hs hu]
        _ = log s ++ m.observed shown s (a :: as) := by
            simp only [observed, hu, List.append_assoc]

/-- A log to which every step adds what its action shows is what the actions have shown. -/
theorem log_eq_filterMap {β : Type*} {I : σ → Prop} (log : σ → List β) {shown : α → Option β}
    (hinv : ∀ s a t, I s → m.step s a = some t → I t)
    (hlog : ∀ s a t, I s → m.step s a = some t → log t = log s ++ (shown a).toList) {s t : σ}
    {as : List α} (hs : I s) (hrun : m.exec s as = some t) :
    log t = log s ++ as.filterMap shown := by
  induction as generalizing s with
  | nil =>
      cases hrun
      exact (List.append_nil _).symm
  | cons a as ih =>
      obtain ⟨u, hu, hrest⟩ := Option.bind_eq_some_iff.mp hrun
      rw [ih (hinv s a u hs hu) hrest, hlog s a u hs hu, List.append_assoc, List.filterMap_cons]
      cases shown a <;> rfl

/-- An invariant of the states and of what the run has shown so far. -/
theorem observed_invariant {β : Type*} {I : List β → σ → Prop} {shown : σ → α → σ → List β}
    (hstep : ∀ log s a t, I log s → m.step s a = some t → I (log ++ shown s a t) t)
    {log : List β} {s t : σ} {as : List α} (hs : I log s) (hrun : m.exec s as = some t) :
    I (log ++ m.observed shown s as) t := by
  induction as generalizing log s with
  | nil =>
      cases hrun
      rwa [observed, List.append_nil]
  | cons a as ih =>
      obtain ⟨u, hu, hrest⟩ := Option.bind_eq_some_iff.mp hrun
      have htail := ih (hstep log s a u hs hu) hrest
      rwa [List.append_assoc, show shown s a u ++ m.observed shown u as =
        m.observed shown s (a :: as) by simp only [observed, hu]] at htail

/-! ## Machines that go in step -/

/-- A machine made of operations that return something, with what they have returned. -/
def recording {ρ : Type*} (init : σ) (apply : σ → α → Option (ρ × σ)) :
    Machine (σ × List ρ) α where
  init := (init, [])
  step s a := (apply s.1 a).map fun returned => (returned.2, s.2 ++ [returned.1])

theorem rel_bind {β γ δ : Type*} {R : α → β → Prop} {S : γ → δ → Prop} {x : Option α}
    {y : Option β} {f : α → Option γ} {g : β → Option δ} (h : Option.Rel R x y)
    (hfg : ∀ a b, R a b → Option.Rel S (f a) (g b)) : Option.Rel S (x.bind f) (y.bind g) := by
  cases h with
  | some hab => exact hfg _ _ hab
  | none => exact Option.Rel.none

theorem rel_map {β γ δ : Type*} {R : α → β → Prop} {S : γ → δ → Prop} {x : Option α}
    {y : Option β} {f : α → γ} {g : β → δ} (h : Option.Rel R x y)
    (hfg : ∀ a b, R a b → S (f a) (g b)) : Option.Rel S (x.map f) (y.map g) := by
  cases h with
  | some hab => exact Option.Rel.some (hfg _ _ hab)
  | none => exact Option.Rel.none

/-- Two machines that take the same steps from related states take the same runs. -/
theorem exec_rel {τ : Type*} {n : Machine τ α} {R : σ → τ → Prop}
    (hstep : ∀ s t a, R s t → Option.Rel R (m.step s a) (n.step t a)) {s : σ} {t : τ} (h : R s t)
    (as : List α) : Option.Rel R (m.exec s as) (n.exec t as) := by
  induction as generalizing s t with
  | nil => exact Option.Rel.some h
  | cons a as ih => exact rel_bind (hstep s t a h) fun _ _ hnext => ih hnext

/-! ## Simulation -/

theorem exec_append {s : σ} (as bs : List α) :
    m.exec s (as ++ bs) = (m.exec s as).bind fun t => m.exec t bs := by
  induction as generalizing s with
  | nil => rfl
  | cons a as ih =>
      simp only [List.cons_append, exec, Option.bind_assoc]
      exact congrArg _ (funext fun t => ih)

/-- When every step is one or more steps of another machine, or none, every run is a run of it:
of the steps that the single ones stand for. -/
theorem exec_simulated {τ β : Type*} {n : Machine τ β} {R : σ → τ → Prop}
    {meaning : σ → α → σ → List β}
    (hstep : ∀ s t a u, R s t → m.step s a = some u →
      ∃ v, n.exec t (meaning s a u) = some v ∧ R u v)
    {s u : σ} {t : τ} {as : List α} (h : R s t) (hrun : m.exec s as = some u) :
    ∃ v, n.exec t (m.observed meaning s as) = some v ∧ R u v := by
  induction as generalizing s t with
  | nil =>
      cases hrun
      exact ⟨t, rfl, h⟩
  | cons a as ih =>
      obtain ⟨w, hw, hrest⟩ := Option.bind_eq_some_iff.mp hrun
      obtain ⟨x, hx, hwx⟩ := hstep s t a w h hw
      obtain ⟨v, hv, huv⟩ := ih hwx hrest
      refine ⟨v, ?_, huv⟩
      rw [show m.observed meaning s (a :: as) = meaning s a w ++ m.observed meaning w as by
        simp only [observed, hw], exec_append, hx]
      exact hv

/-! ## Measures -/

/-- A counter that exactly the steps meeting `E` raise has moved in a run exactly if
some step of it meets `E`. -/
theorem lt_iff_someStep {I : σ → Prop} {E : σ → α → Prop} {f : σ → ℕ}
    (hinv : ∀ s a t, I s → m.step s a = some t → I t)
    (hraise : ∀ s a t, I s → m.step s a = some t → E s a → f t = f s + 1)
    (hkeep : ∀ s a t, I s → m.step s a = some t → ¬ E s a → f t = f s)
    {s t : σ} {as : List α} (hs : I s) (hrun : m.exec s as = some t) :
    f s ≤ f t ∧ (f s < f t ↔ m.SomeStep E s as) := by
  induction as generalizing s with
  | nil =>
      cases hrun
      exact ⟨Nat.le_refl _, iff_of_false (Nat.lt_irrefl _) id⟩
  | cons a as ih =>
      obtain ⟨u, hu, hrest⟩ := Option.bind_eq_some_iff.mp hrun
      obtain ⟨hle, hlt⟩ := ih (hinv s a u hs hu) hrest
      have hsome : m.SomeStep E s (a :: as) ↔ E s a ∨ m.SomeStep E u as := by
        constructor
        · rintro ⟨v, hv, h⟩
          rw [hu] at hv
          cases hv
          exact h
        · exact fun h => ⟨u, hu, h⟩
      by_cases hE : E s a
      · have hcount := hraise s a u hs hu hE
        exact ⟨by omega, iff_of_true (by omega) (hsome.mpr (Or.inl hE))⟩
      · have hcount := hkeep s a u hs hu hE
        rw [hsome, or_iff_right hE, ← hlt, hcount]
        exact ⟨hcount ▸ hle, Iff.rfl⟩

/-- When, from the states of an invariant `I`, a step keeps `P` exactly if it
meets `G`, a run keeps `P` throughout exactly if all its steps meet `G`. -/
theorem throughout_iff_eachStep {I P : σ → Prop} {G : σ → α → Prop}
    (hstep : ∀ s a t, I s → m.step s a = some t → I t)
    (hexact : ∀ s a t, I s → P s → m.step s a = some t → (P t ↔ G s a))
    {s : σ} (hs : I s) (hP : P s) (as : List α) :
    m.Throughout P s as ↔ m.EachStep G s as := by
  induction as generalizing s with
  | nil => exact ⟨fun _ => trivial, fun _ => hP⟩
  | cons a as ih =>
      constructor
      · intro h t ht
        have hPt : P t := (h.2 t ht).head
        exact ⟨(hexact s a t hs hP ht).mp hPt, (ih (hstep s a t hs ht) hPt).mp (h.2 t ht)⟩
      · refine fun h => ⟨hP, fun t ht => ?_⟩
        obtain ⟨hG, hrest⟩ := h t ht
        exact (ih (hstep s a t hs ht) ((hexact s a t hs hP ht).mpr hG)).mpr hrest

/-- When the steps that meet `H` keep an invariant and any other dooms the run, a run meets
`H` and keeps the invariant, or misses it and is doomed. -/
theorem eachStep_or_doomed {I D : σ → Prop} {G H : σ → α → Prop}
    (hstep : ∀ s a t, I s → G s a → H s a → m.step s a = some t → I t)
    (hmiss : ∀ s a t, I s → G s a → ¬ H s a → m.step s a = some t → D t)
    (hdoomed : ∀ s a t, D s → m.step s a = some t → D t)
    {s t : σ} {as : List α} (hs : I s) (hG : m.EachStep G s as) (hrun : m.exec s as = some t) :
    m.EachStep H s as ∧ I t ∨ ¬ m.EachStep H s as ∧ D t := by
  induction as generalizing s with
  | nil =>
      cases hrun
      exact Or.inl ⟨trivial, hs⟩
  | cons a as ih =>
      obtain ⟨u, hu, hrest⟩ := Option.bind_eq_some_iff.mp hrun
      obtain ⟨hGa, hGas⟩ := hG u hu
      by_cases hH : H s a
      · rcases ih (hstep s a u hs hGa hH hu) hGas hrest with ⟨hall, ht⟩ | ⟨hnot, ht⟩
        · refine Or.inl ⟨?_, ht⟩
          intro v hv
          rw [hu] at hv
          cases hv
          exact ⟨hH, hall⟩
        · exact Or.inr ⟨fun hall => hnot (hall u hu).2, ht⟩
      · refine Or.inr ⟨fun hall => hH (hall u hu).1, ?_⟩
        exact exec_invariant hdoomed (hmiss s a u hs hGa hH hu) hrest

end Machine
