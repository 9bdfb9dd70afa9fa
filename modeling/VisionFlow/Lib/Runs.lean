-- Runs of a machine: a step function that takes an action, or refuses it. What
-- one step keeps, a whole run keeps.
import Mathlib

namespace runs

variable {σ α ρ : Type}

/-- The state after the actions, in order. `none`: an action was refused. -/
def run (step : σ → α → Option σ) : σ → List α → Option σ
  | s, [] => some s
  | s, a :: rest => (step s a).bind fun s' => run step s' rest

/-- Each action of the run meets `ok` in the state where it happens. -/
def Along (step : σ → α → Option σ) (ok : σ → α → Prop) : σ → List α → Prop
  | _, [] => True
  | s, a :: rest => ok s a ∧ ∀ s', step s a = some s' → Along step ok s' rest

instance decidable_along {step : σ → α → Option σ} {ok : σ → α → Prop}
    [∀ s a, Decidable (ok s a)] : (s : σ) → (l : List α) → Decidable (Along step ok s l)
  | _, [] => isTrue trivial
  | s, a :: rest =>
    match hs : step s a with
    | none => decidable_of_iff (ok s a) (by simp [Along, hs])
    | some s' =>
      have : Decidable (Along step ok s' rest) := decidable_along s' rest
      decidable_of_iff (ok s a ∧ Along step ok s' rest) (by simp [Along, hs])

theorem run_cons {step : σ → α → Option σ} {s t : σ} {a : α} {rest : List α}
    (h : run step s (a :: rest) = some t) :
    ∃ s', step s a = some s' ∧ run step s' rest = some t := by
  simpa [run, Option.bind_eq_some_iff] using h

theorem run_append (step : σ → α → Option σ) (s : σ) (l m : List α) :
    run step s (l ++ m) = (run step s l).bind fun s' => run step s' m := by
  induction l generalizing s with
  | nil => rfl
  | cons a rest ih =>
    simp only [List.cons_append, run]
    cases step s a with
    | none => rfl
    | some s' => exact ih s'

/-- An invariant that each step under `ok` keeps holds at the end of a run under `ok`. -/
theorem run_keeps {step : σ → α → Option σ} {ok : σ → α → Prop} {I : σ → Prop}
    (hstep : ∀ s a s', I s → ok s a → step s a = some s' → I s')
    {s t : σ} {l : List α} (hI : I s) (hok : Along step ok s l) (h : run step s l = some t) :
    I t := by
  induction l generalizing s with
  | nil =>
    cases h
    exact hI
  | cons a rest ih =>
    obtain ⟨s', h1, h2⟩ := run_cons h
    exact ih (hstep s a s' hI hok.1 h1) (hok.2 s' h1) h2

/-- An invariant over the history of a run, which each action under `ok` carries on. -/
theorem run_follows {η : Type} {step : σ → α → Option σ} {ok : α → Prop} {next : η → α → η}
    {I : σ → η → Prop}
    (hstep : ∀ s h a s', I s h → ok a → step s a = some s' → I s' (next h a))
    {s t : σ} {h : η} {l : List α} (hI : I s h) (hok : ∀ a ∈ l, ok a)
    (hrun : run step s l = some t) : I t (l.foldl next h) := by
  induction l generalizing s h with
  | nil =>
    cases hrun
    exact hI
  | cons a rest ih =>
    obtain ⟨s', h1, h2⟩ := run_cons hrun
    have hI' := hstep s h a s' hI (hok a List.mem_cons_self) h1
    exact ih hI' (fun b hb => hok b (List.mem_cons_of_mem _ hb)) h2

/-- What holds of each action in any state. -/
theorem along_of_mem {step : σ → α → Option σ} {ok : σ → α → Prop} {s : σ} {l : List α}
    (h : ∀ s, ∀ a ∈ l, ok s a) : Along step ok s l := by
  induction l generalizing s with
  | nil => trivial
  | cons a rest ih =>
    exact ⟨h s a List.mem_cons_self, fun _ _ => ih fun s b hb => h s b (List.mem_cons_of_mem _ hb)⟩

theorem along_true {step : σ → α → Option σ} {s : σ} (l : List α) :
    Along step (fun _ _ => True) s l :=
  along_of_mem fun _ _ _ => trivial

theorem along_mono {step : σ → α → Option σ} {ok ok' : σ → α → Prop}
    (hok : ∀ s a, ok s a → ok' s a) {s : σ} {l : List α} (h : Along step ok s l) :
    Along step ok' s l := by
  induction l generalizing s with
  | nil => trivial
  | cons a rest ih => exact ⟨hok s a h.1, fun s' hs' => ih (h.2 s' hs')⟩

/-- One more action under `ok`. -/
theorem along_snoc {step : σ → α → Option σ} {ok : σ → α → Prop} {s t : σ} {l : List α} {a : α}
    (h : Along step ok s l) (hrun : run step s l = some t) (ha : ok t a) :
    Along step ok s (l ++ [a]) := by
  induction l generalizing s with
  | nil =>
    cases hrun
    exact ⟨ha, fun _ _ => trivial⟩
  | cons b rest ih =>
    obtain ⟨s', h1, h2⟩ := run_cons hrun
    refine ⟨h.1, fun u hu => ?_⟩
    obtain rfl : s' = u := Option.some.inj (h1.symm.trans hu)
    exact ih (h.2 s' h1) h2

/-- What is left of a run under `ok`. -/
theorem along_append {step : σ → α → Option σ} {ok : σ → α → Prop} {s t : σ} {l m : List α}
    (h : Along step ok s (l ++ m)) (hrun : run step s l = some t) : Along step ok t m := by
  induction l generalizing s with
  | nil =>
    cases hrun
    exact h
  | cons a rest ih =>
    obtain ⟨s', h1, h2⟩ := run_cons hrun
    exact ih (h.2 s' h1) h2

theorem along_and {step : σ → α → Option σ} {ok ok' : σ → α → Prop} {s : σ} {l : List α}
    (h : Along step ok s l) (h' : Along step ok' s l) :
    Along step (fun s a => ok s a ∧ ok' s a) s l := by
  induction l generalizing s with
  | nil => trivial
  | cons a rest ih => exact ⟨⟨h.1, h'.1⟩, fun s' hs' => ih (h.2 s' hs') (h'.2 s' hs')⟩

/-- A condition that follows from another one under an invariant. -/
theorem along_of_inv {step : σ → α → Option σ} {ok ok' : σ → α → Prop} {I : σ → Prop}
    (hok : ∀ s a, I s → ok s a → ok' s a)
    (hstep : ∀ s a s', I s → ok s a → step s a = some s' → I s') {s : σ} {l : List α}
    (hI : I s) (h : Along step ok s l) : Along step ok' s l := by
  induction l generalizing s with
  | nil => trivial
  | cons a rest ih =>
    exact ⟨hok s a hI h.1, fun s' hs' => ih (hstep s a s' hI h.1 hs') (h.2 s' hs')⟩

/-- Two conditions that agree under an invariant, which the first of them keeps, agree along
a run. -/
theorem along_iff {step : σ → α → Option σ} {ok ok' : σ → α → Prop} {I : σ → Prop}
    (hiff : ∀ s a s', I s → step s a = some s' → (ok s a ↔ ok' s a))
    (hstep : ∀ s a s', I s → ok s a → step s a = some s' → I s')
    {s t : σ} {l : List α} (hI : I s) (hrun : run step s l = some t) :
    Along step ok s l ↔ Along step ok' s l := by
  induction l generalizing s with
  | nil => exact Iff.rfl
  | cons a rest ih =>
    obtain ⟨s', h1, h2⟩ := run_cons hrun
    have hhead := hiff s a s' hI h1
    have honly : ∀ u, step s a = some u → u = s' := fun u hu => Option.some.inj (hu.symm.trans h1)
    constructor
    · rintro ⟨hok, hrest⟩
      refine ⟨hhead.mp hok, fun u hu => ?_⟩
      rw [honly u hu]
      exact (ih (hstep s a s' hI hok h1) h2).mp (hrest s' h1)
    · rintro ⟨hok', hrest⟩
      have hok := hhead.mpr hok'
      refine ⟨hok, fun u hu => ?_⟩
      rw [honly u hu]
      exact (ih (hstep s a s' hI hok h1) h2).mpr (hrest s' h1)

end runs
