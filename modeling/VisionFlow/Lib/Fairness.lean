-- Runs without an end, on a machine whose tasks are scheduled fairly: a task that can go on
-- at each moment goes on at some time. What one step of a task brings about, such a run comes
-- to, and what each command of a program comes to, the whole program does.
import VisionFlow.Lib.Programs
import VisionFlow.Lib.Runs

namespace fairness

open programs runs

variable {σ α ι : Type} {step : σ → α → Option σ}

structure Endless (step : σ → α → Option σ) where
  state : Nat → σ
  act : Nat → α
  goes : ∀ i, step (state i) (act i) = some (state (i + 1))

/-- A task that can go on from some moment on, at each moment, goes on at a later one. -/
def Fair (e : Endless step) (task : α → Option ι) (can_run : ι → σ → Prop) : Prop :=
  ∀ p i, (∀ j, i ≤ j → can_run p (e.state j)) → ∃ j, i ≤ j ∧ task (e.act j) = some p

/-- Whenever `P` holds, `Q` holds then or later. -/
def LeadsTo (e : Endless step) (P Q : σ → Prop) : Prop :=
  ∀ i, P (e.state i) → ∃ j, i ≤ j ∧ Q (e.state j)

section
variable {e : Endless step} {P Q R : σ → Prop}

/-! ## The finite runs -/

/-- The first actions. -/
def Endless.first (e : Endless step) (n : Nat) : List α := (List.range n).map e.act

theorem Endless.run_first (e : Endless step) (n : Nat) :
    run step (e.state 0) (e.first n) = some (e.state n) := by
  unfold first
  induction n with
  | zero => rfl
  | succ n ih =>
    rw [List.range_succ, List.map_append, run_append, ih]
    simp [run, e.goes n]

theorem Endless.along_first (ok : σ → α → Prop) (h : ∀ i, ok (e.state i) (e.act i)) (n : Nat) :
    Along step ok (e.state 0) (e.first n) := by
  unfold first
  induction n with
  | zero => trivial
  | succ n ih =>
    rw [List.range_succ, List.map_append]
    exact along_snoc ih (e.run_first n) (h n)

/-! ## What leads to what -/

theorem LeadsTo.of_imp (h : ∀ i, P (e.state i) → Q (e.state i)) : LeadsTo e P Q :=
  fun i hi => ⟨i, le_rfl, h i hi⟩

theorem LeadsTo.trans (h : LeadsTo e P Q) (h' : LeadsTo e Q R) : LeadsTo e P R := by
  intro i hi
  obtain ⟨j, hij, hj⟩ := h i hi
  obtain ⟨k, hjk, hk⟩ := h' j hj
  exact ⟨k, hij.trans hjk, hk⟩

/-- One of several cases. -/
theorem LeadsTo.exists {β : Type} {P : β → σ → Prop} (h : ∀ b, LeadsTo e (P b) Q) :
    LeadsTo e (fun s => ∃ b, P b s) Q := by
  rintro i ⟨b, hi⟩
  exact h b i hi

theorem LeadsTo.or (h : LeadsTo e P R) (h' : LeadsTo e Q R) :
    LeadsTo e (fun s => P s ∨ Q s) R := by
  rintro i (hi | hi)
  · exact h i hi
  · exact h' i hi

/-- What a step keeps, or gives up for `Q`, holds until `Q` does. -/
theorem holds_until (h : ∀ i, P (e.state i) → P (e.state (i + 1)) ∨ Q (e.state (i + 1)))
    {i j : Nat} (hi : P (e.state i)) (hij : i ≤ j) :
    P (e.state j) ∨ ∃ k, i ≤ k ∧ Q (e.state k) := by
  induction j, hij using Nat.le_induction with
  | base => exact .inl hi
  | succ j hij ih =>
    rcases ih with hj | hQ
    · rcases h j hj with hP | hQ
      · exact .inl hP
      · exact .inr ⟨j + 1, by omega, hQ⟩
    · exact .inr hQ

/-- What each step keeps holds from then on. -/
theorem holds_on (h : ∀ i, P (e.state i) → P (e.state (i + 1))) {i j : Nat}
    (hi : P (e.state i)) (hij : i ≤ j) : P (e.state j) := by
  rcases holds_until (Q := fun _ => False) (fun i hi => .inl (h i hi)) hi hij with hj | ⟨k, -, hk⟩
  · exact hj
  · exact hk.elim

/-- `P` holds until `Q` does, so that something else may happen first. -/
theorem LeadsTo.waits (h : ∀ i, P (e.state i) → P (e.state (i + 1)) ∨ Q (e.state (i + 1)))
    (hR : ∀ i, P (e.state i) → ∃ j, i ≤ j ∧ R (e.state j))
    (hboth : LeadsTo e (fun s => P s ∧ R s) Q) : LeadsTo e P Q := by
  intro i hi
  obtain ⟨j, hij, hj⟩ := hR i hi
  rcases holds_until h hi hij with hP | hQ
  · obtain ⟨k, hjk, hk⟩ := hboth j ⟨hP, hj⟩
    exact ⟨k, hij.trans hjk, hk⟩
  · exact hQ

/-- A task that can go on as long as `P` holds, and brings about `Q` when it does. -/
theorem LeadsTo.by_task {task : α → Option ι} {can_run : ι → σ → Prop}
    (hfair : Fair e task can_run) (p : ι) (hcan : ∀ i, P (e.state i) → can_run p (e.state i))
    (hother : ∀ i, P (e.state i) → task (e.act i) ≠ some p →
      P (e.state (i + 1)) ∨ Q (e.state (i + 1)))
    (hown : ∀ i, P (e.state i) → task (e.act i) = some p → Q (e.state (i + 1))) :
    LeadsTo e P Q := by
  have hstep : ∀ i, P (e.state i) → P (e.state (i + 1)) ∨ Q (e.state (i + 1)) := by
    intro i hi
    by_cases htask : task (e.act i) = some p
    · exact .inr (hown i hi htask)
    · exact hother i hi htask
  intro i hi
  by_contra hnever
  have hstays : ∀ j, i ≤ j → P (e.state j) := by
    intro j hij
    rcases holds_until hstep hi hij with hj | hQ
    · exact hj
    · exact absurd hQ hnever
  obtain ⟨j, hij, htask⟩ := hfair p i fun j hij => hcan j (hstays j hij)
  exact hnever ⟨j + 1, by omega, hown j (hstays j hij) htask⟩

section
variable {C : Type} {R : C → Type} {β : Type} (here : Prog C R β → σ → Prop)

/-- If what is left of a program always comes to what is left after its next command, unless
`Q` comes, then the program comes to its end, unless `Q` comes. -/
theorem program_ends_or
    (h : ∀ c k, LeadsTo e (here (.op c k)) fun s => (∃ r, here (k r) s) ∨ Q s)
    (p : Prog C R β) : LeadsTo e (here p) fun s => (∃ b, here (.ret b) s) ∨ Q s := by
  induction p with
  | ret b => exact LeadsTo.of_imp fun i hi => .inl ⟨b, hi⟩
  | op c k ih => exact (h c k).trans ((LeadsTo.exists ih).or (LeadsTo.of_imp fun i hi => .inr hi))

theorem program_ends (h : ∀ c k, LeadsTo e (here (.op c k)) fun s => ∃ r, here (k r) s)
    (p : Prog C R β) : LeadsTo e (here p) fun s => ∃ b, here (.ret b) s := by
  have hends := program_ends_or (e := e) (Q := fun _ => False) here
    (fun c k => (h c k).trans (LeadsTo.of_imp fun i hi => .inl hi)) p
  exact hends.trans (LeadsTo.of_imp fun i hi => hi.resolve_right id)

end

end

/-! ## A run that stays where it ends -/

section
variable {s t : σ} {l : List α} {a : α}

/-- The first `n` actions of a finite run that goes on with one action for ever. -/
def forever (l : List α) (a : α) : Nat → List α
  | 0 => []
  | n + 1 => forever l a n ++ [l[n]?.getD a]

theorem forever_le (a : α) {n : Nat} (h : n ≤ l.length) : forever l a n = l.take n := by
  induction n with
  | zero => rfl
  | succ n ih =>
    have hn : n < l.length := h
    rw [forever, ih (by omega), List.take_add_one, List.getElem?_eq_getElem hn]
    rfl

theorem run_forever (hrun : run step s l = some t) (hstays : step t a = some t) (n : Nat) :
    (run step s (forever l a n)).isSome = true ∧
      (l.length ≤ n → run step s (forever l a n) = some t) := by
  induction n with
  | zero =>
    refine ⟨rfl, fun h => ?_⟩
    rw [List.length_eq_zero_iff.mp (Nat.le_zero.mp h)] at hrun
    exact hrun
  | succ n ih =>
    by_cases hn : n < l.length
    · obtain ⟨u, hu⟩ : ∃ u, run step s (forever l a (n + 1)) = some u := by
        rw [forever_le a hn]
        rw [← List.take_append_drop (n + 1) l, run_append] at hrun
        obtain ⟨u, hu, -⟩ := Option.bind_eq_some_iff.mp hrun
        exact ⟨u, hu⟩
      refine ⟨by rw [hu]; rfl, fun hle => ?_⟩
      rw [forever_le a hn, List.take_of_length_le hle, hrun]
    · have hlast : l[n]? = none := List.getElem?_eq_none (by omega)
      have hrun' : run step s (forever l a (n + 1)) = some t := by
        rw [forever, run_append, ih.2 (by omega), hlast]
        simp [run, hstays]
      exact ⟨by rw [hrun']; rfl, fun _ => hrun'⟩

def Endless.of_run (hrun : run step s l = some t) (hstays : step t a = some t) : Endless step where
  state n := (run step s (forever l a n)).get (run_forever hrun hstays n).1
  act n := l[n]?.getD a
  goes n := by
    obtain ⟨u, hu⟩ := Option.isSome_iff_exists.mp (run_forever hrun hstays n).1
    obtain ⟨u', hu'⟩ := Option.isSome_iff_exists.mp (run_forever hrun hstays (n + 1)).1
    simp only [hu, hu', Option.get_some]
    rw [forever, run_append, hu] at hu'
    simpa [run] using hu'

variable {hrun : run step s l = some t} {hstays : step t a = some t}

theorem of_run_late {n : Nat} (h : l.length ≤ n) : (Endless.of_run hrun hstays).state n = t := by
  simp only [Endless.of_run, (run_forever hrun hstays n).2 h, Option.get_some]

theorem of_run_take {n : Nat} (h : n ≤ l.length) :
    run step s (l.take n) = some ((Endless.of_run hrun hstays).state n) := by
  rw [← forever_le a h]
  simp only [Endless.of_run, Option.some_get]

/-- What holds along the run, and at its end, holds for ever. -/
theorem of_run_ok {ok : σ → α → Prop} (hok : Along step ok s l) (hlast : ok t a) (n : Nat) :
    ok ((Endless.of_run hrun hstays).state n) ((Endless.of_run hrun hstays).act n) := by
  by_cases hn : n < l.length
  · have htake : run step s (l.take n) = some ((Endless.of_run hrun hstays).state n) :=
      of_run_take hn.le
    have hsplit : l = l.take n ++ l[n] :: l.drop (n + 1) := by
      rw [List.getElem_cons_drop, List.take_append_drop]
    rw [hsplit] at hok
    have hone := (along_append hok htake).1
    simpa only [Endless.of_run, List.getElem?_eq_getElem hn, Option.getD_some] using hone
  · rw [of_run_late (by omega)]
    simp only [Endless.of_run, List.getElem?_eq_none (Nat.le_of_not_lt hn), Option.getD_none]
    exact hlast

end

end fairness
