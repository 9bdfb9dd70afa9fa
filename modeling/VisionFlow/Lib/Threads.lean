-- Threads that run programs on one shared state, a command at a time and in any order. If
-- each program comes to its end after so many commands, so does each run, and where each
-- command is answered, a run can always go on to the end of all programs.
import VisionFlow.Lib.Places
import VisionFlow.Lib.Programs
import VisionFlow.Lib.Runs

namespace threads

open places programs runs

variable {ι C σ ω α : Type} {R : C → Type}

/-- `left i` is what is left of the program of the thread `i`. -/
structure St (ι C : Type) (R : C → Type) (α σ : Type) where
  shared : σ
  left : ι → Prog C R α

section
variable [DecidableEq ι]

/-- A thread goes on by one command. `act` says what a command does, where `ω` is what the
environment adds to it. `none`: the thread is at its end, or has to wait. -/
def step (act : ι → ω → (c : C) → σ → Option (R c × σ)) (s : St ι C R α σ) (a : ι × ω) :
    Option (St ι C R α σ) :=
  match s.left a.1 with
  | .ret _ => none
  | .op c k =>
    (act a.1 a.2 c s.shared).map fun r => ⟨r.2, Function.update s.left a.1 (k r.1)⟩

/-- All programs are at their end. -/
def Ended (s : St ι C R α σ) : Prop := ∀ i, ∃ a, s.left i = .ret a

/-- The program ends after at most `n` commands, whatever they answer. -/
def Within : Nat → Prog C R α → Prop
  | _, .ret _ => True
  | 0, .op _ _ => False
  | n + 1, .op _ k => ∀ r, Within n (k r)

variable {act : ι → ω → (c : C) → σ → Option (R c × σ)} {s s' t : St ι C R α σ}

theorem step_cases {i : ι} {o : ω} (h : step act s (i, o) = some s') :
    ∃ c k r shared, s.left i = .op c k ∧ act i o c s.shared = some (r, shared) ∧
      s' = ⟨shared, Function.update s.left i (k r)⟩ := by
  unfold step at h
  rcases hp : s.left i with a | ⟨c, k⟩
  · simp [hp] at h
  · simp only [hp, Option.map_eq_some_iff, Prod.exists] at h
    obtain ⟨r, shared, hact, rfl⟩ := h
    exact ⟨c, k, r, shared, rfl, hact, rfl⟩

theorem within_op {n : Nat} {c : C} {k : R c → Prog C R α} (h : Within n (.op c k)) :
    ∃ m, n = m + 1 ∧ ∀ r, Within m (k r) := by
  cases n with
  | zero => exact h.elim
  | succ m => exact ⟨m, rfl, h⟩

theorem Within.mono {n m : Nat} {p : Prog C R α} (h : Within n p) (hnm : n ≤ m) :
    Within m p := by
  induction p generalizing n m with
  | ret a =>
    cases m <;> trivial
  | op c k ih =>
    obtain ⟨n', rfl, hk⟩ := within_op h
    obtain ⟨m', rfl⟩ : ∃ m', m = m' + 1 := ⟨m - 1, by omega⟩
    exact fun r => ih r (hk r) (by omega)

/-- A step uses up one command. -/
theorem step_within {n : ι → Nat} (hn : ∀ i, Within (n i) (s.left i)) {i : ι} {o : ω}
    (h : step act s (i, o) = some s') :
    0 < n i ∧ ∀ j, Within (Function.update n i (n i - 1) j) (s'.left j) := by
  obtain ⟨c, k, r, shared, hleft, -, rfl⟩ := step_cases h
  have hi := hn i
  rw [hleft] at hi
  obtain ⟨m, hm, hk⟩ := within_op hi
  refine ⟨by omega, fun j => ?_⟩
  by_cases hj : j = i
  · subst hj
    simp only [Function.update_self, hm, Nat.add_sub_cancel]
    exact hk r
  · simp only [Function.update_of_ne hj]
    exact hn j

theorem uses_update {A : C → Prop} (huses : ∀ i, (s.left i).Uses A) {i : ι} {c : C}
    {k : R c → Prog C R α} (hp : s.left i = .op c k) (r : R c) (j : ι) :
    (Function.update s.left i (k r) j).Uses A := by
  by_cases hj : j = i
  · subst hj
    have hi := huses j
    rw [hp] at hi
    rw [Function.update_self]
    exact hi.2 r
  · rw [Function.update_of_ne hj]
    exact huses j

variable [Fintype ι] {A : C → Prop} {n : ι → Nat}

/-- A run uses up one command at each step. -/
theorem run_within (hn : ∀ i, Within (n i) (s.left i)) (huses : ∀ i, (s.left i).Uses A)
    {l : List (ι × ω)} (h : run (step act) s l = some t) :
    ∃ m : ι → Nat, (∀ i, Within (m i) (t.left i)) ∧ (∀ i, (t.left i).Uses A) ∧
      l.length + ∑ i, m i = ∑ i, n i := by
  induction l generalizing s n with
  | nil =>
    cases h
    exact ⟨n, hn, huses, Nat.zero_add _⟩
  | cons a rest ih =>
    obtain ⟨s', h1, h2⟩ := run_cons h
    obtain ⟨hpos, hn'⟩ := step_within hn h1
    obtain ⟨c, k, r, shared, hleft, -, rfl⟩ := step_cases h1
    obtain ⟨m, hm, husest, hlen⟩ := ih hn' (uses_update huses hleft r) h2
    have hsum := sum_update id n a.1 (n a.1 - 1)
    simp only [id] at hsum
    refine ⟨m, hm, husest, ?_⟩
    rw [List.length_cons]
    omega

/-- Where each command is answered, there is a run to the end of all programs. -/
theorem exists_end (o : ω) (hact : ∀ i c s, A c → (act i o c s).isSome = true)
    (hn : ∀ i, Within (n i) (s.left i)) (huses : ∀ i, (s.left i).Uses A) :
    ∃ l t, run (step act) s l = some t ∧ Ended t := by
  -- by the number of commands that are left
  generalize hm : ∑ i, n i = m
  induction m generalizing s n with
  | zero =>
    refine ⟨[], s, rfl, fun i => ?_⟩
    have hzero : n i = 0 := (Finset.sum_eq_zero_iff.mp hm) i (Finset.mem_univ i)
    have hi := hn i
    rw [hzero] at hi
    rcases hp : s.left i with a | ⟨c, k⟩
    · exact ⟨a, rfl⟩
    · rw [hp] at hi
      exact hi.elim
  | succ m ih =>
    by_cases hend : Ended s
    · exact ⟨[], s, rfl, hend⟩
    · unfold Ended at hend
      push Not at hend
      obtain ⟨i, hi⟩ := hend
      rcases hp : s.left i with a | ⟨c, k⟩
      · exact absurd hp (hi a)
      · have hci := huses i
        rw [hp] at hci
        obtain ⟨⟨r, shared⟩, hr⟩ := Option.isSome_iff_exists.mp (hact i c s.shared hci.1)
        have hstep : step act s (i, o) = some ⟨shared, Function.update s.left i (k r)⟩ := by
          unfold step
          simp only [hp, hr, Option.map_some]
        obtain ⟨hpos, hn'⟩ := step_within hn hstep
        have hsum := sum_update id n i (n i - 1)
        simp only [id] at hsum
        obtain ⟨l, t, hrun, hended⟩ := ih hn' (uses_update huses hp r) (by omega)
        refine ⟨(i, o) :: l, t, ?_, hended⟩
        simp only [run, hstep, Option.bind_some, hrun]

/-- A run is no longer than all programs together, and goes on to the end of all. -/
theorem run_ends (o : ω) (hact : ∀ i c s, A c → (act i o c s).isSome = true)
    (hn : ∀ i, Within (n i) (s.left i)) (huses : ∀ i, (s.left i).Uses A) {l : List (ι × ω)}
    (h : run (step act) s l = some t) :
    l.length ≤ ∑ i, n i ∧ ∃ m u, run (step act) t m = some u ∧ Ended u := by
  obtain ⟨m, hm, husest, hlen⟩ := run_within hn huses h
  exact ⟨by omega, exists_end o hact hm husest⟩

end

end threads
