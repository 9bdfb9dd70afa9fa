-- The references of one frame (vf_framebuffer_ref and vf_framebuffer_unref), counted by
-- threads whose atomic operations come in any order. The callback runs once, by the call
-- that saw the last reference, or by the only call where there was none.
import VisionFlow.Units
import VisionFlow.Lib.Threads

namespace vision_flow.frame_references

open places programs runs threads units

/-! ## The threads -/

/-- What a thread did to the counter, with the value that it saw, and its call of the release
callback. -/
inductive Event (ι : Type)
  | fetch_add (i : ι)
  | fetch_sub (i : ι) (prev : Nat)
  | release (i : ι)

/-- The counter of the frame, and what happened to the frame. -/
structure Counter (ι : Type) where
  ref_count : Nat
  log : List (Event ι)

variable {ι : Type}

/-- A command of a thread. `err` is what the callback returns. -/
def act (i : ι) (err : vf_err_t) : (c : UnitCmd) → Counter ι → Option (c.Res × Counter ι)
  | .fetch_add _, s => some (some s.ref_count, ⟨u32 (s.ref_count + 1), s.log ++ [.fetch_add i]⟩)
  | .fetch_sub _, s =>
    some (some s.ref_count, ⟨u32_sub s.ref_count 1, s.log ++ [.fetch_sub i s.ref_count]⟩)
  | .release _ _, s => some (err, ⟨s.ref_count, s.log ++ [.release i]⟩)
  | _, _ => none

/-- `n` calls of `vf_framebuffer_unref`, one after another. -/
def unref_each (p : Field) (pool : PoolId) : Nat → Code Unit
  | 0 => return ()
  | n + 1 => do
    let _ ← vf_framebuffer_unref p (some pool)
    unref_each p pool n

abbrev St (ι : Type) := threads.St ι UnitCmd UnitCmd.Res Unit (Counter ι)

/-- The thread `i` is about to take `refs i` references. -/
def before_refs (p : Field) (refs : ι → Nat) : St ι := ⟨⟨0, []⟩, fun i => ref_each p (refs i)⟩

/-- The thread `i` is about to drop `unrefs i` references. -/
def before_unrefs (p : Field) (pool : PoolId) (ref_count : Nat) (unrefs : ι → Nat) : St ι :=
  ⟨⟨ref_count, []⟩, fun i => unref_each p pool (unrefs i)⟩

def Event.is_sub : Event ι → Bool
  | .fetch_sub _ _ => true
  | _ => false

def Event.is_release : Event ι → Bool
  | .release _ => true
  | _ => false

/-- How many calls have decremented the counter. -/
def subs (log : List (Event ι)) : Nat := log.countP Event.is_sub

def releases (log : List (Event ι)) : Nat := log.countP Event.is_release

/-- The callback ran once, after each of `n` calls had decremented the counter. -/
def ReleasedOnce (n : Nat) (log : List (Event ι)) : Prop :=
  ∃ before i after, log = before ++ .release i :: after ∧ releases before = 0 ∧
    releases after = 0 ∧ subs before = n

section
variable [Fintype ι] [DecidableEq ι]

/-- Each run from here has at most `n` steps, and goes on to the end of all programs. -/
def Finishes (s : St ι) (n : Nat) : Prop :=
  ∀ l t, run (step act) s l = some t →
    l.length ≤ n ∧ ∃ m u, run (step act) t m = some u ∧ Ended u

/-- First the references are taken, in any order, and then they are dropped, in any order. -/
def CountsDown (p : Field) (pool : PoolId) (refs unrefs : ι → Nat) : Prop :=
  Finishes (before_refs p refs) (∑ i, refs i) ∧
  ∀ l s, run (step act) (before_refs p refs) l = some s → Ended s →
    Finishes (before_unrefs p pool s.shared.ref_count unrefs) (∑ i, 3 * unrefs i) ∧
    ∀ m t, run (step act) (before_unrefs p pool s.shared.ref_count unrefs) m = some t → Ended t →
      t.shared.ref_count = 0 ∧ ReleasedOnce (∑ i, unrefs i) t.shared.log

end

/-! ## What is left of a thread -/

/-- The atomic operations of both calls. -/
def Counts : UnitCmd → Prop
  | .fetch_add _ => True
  | .fetch_sub _ => True
  | .release _ _ => True
  | _ => False

theorem act_answers (i : ι) (c : UnitCmd) (s : Counter ι) (hc : Counts c) :
    (act i .VF_SUCCESS c s).isSome = true := by
  cases c <;> first | rfl | exact hc.elim

/-- A thread before one of `k` calls, or in a call, with `k` more behind it: it saw the
counter at 0, or it calls the callback. -/
inductive Phase
  | calls (k : Nat)
  | undoes (k : Nat)
  | releases (k : Nat)

def Phase.code (p : Field) (pool : PoolId) : Phase → Code Unit
  | .calls k => unref_each p pool k
  | .undoes k => .op (.fetch_add p) fun _ => .op (.release pool p) fun _ => unref_each p pool k
  | .releases k => .op (.release pool p) fun _ => unref_each p pool k

/-- The calls that have not decremented the counter. -/
def Phase.waiting : Phase → Nat
  | .calls k => k
  | .undoes k => k
  | .releases k => k

/-- The thread is going to call the callback in this call. -/
def Phase.owes : Phase → Nat
  | .calls _ => 0
  | _ => 1

/-- What a call goes on with, after it saw `prev`. -/
def Phase.next (prev k : Nat) : Phase :=
  if prev = 0 then .undoes k else if prev = 1 then .releases k else .calls k

@[simp] theorem waiting_calls (k : Nat) : (Phase.calls k).waiting = k := rfl
@[simp] theorem waiting_undoes (k : Nat) : (Phase.undoes k).waiting = k := rfl
@[simp] theorem waiting_releases (k : Nat) : (Phase.releases k).waiting = k := rfl
@[simp] theorem owes_calls (k : Nat) : (Phase.calls k).owes = 0 := rfl
@[simp] theorem owes_undoes (k : Nat) : (Phase.undoes k).owes = 1 := rfl
@[simp] theorem owes_releases (k : Nat) : (Phase.releases k).owes = 1 := rfl

theorem next_waiting (prev k : Nat) : (Phase.next prev k).waiting = k := by
  unfold Phase.next
  split
  · rfl
  · split <;> rfl

theorem next_owes (prev k : Nat) : (Phase.next prev k).owes = if prev ≤ 1 then 1 else 0 := by
  unfold Phase.next
  split
  · rw [if_pos (by omega), owes_undoes]
  · split
    · rw [if_pos (by omega), owes_releases]
    · rw [if_neg (by omega), owes_calls]

theorem next_undoes {prev k m : Nat} : Phase.next prev k = .undoes m ↔ prev = 0 ∧ k = m := by
  unfold Phase.next
  split
  · simp_all
  · split <;> simp_all

section
variable (p : Field) (pool : PoolId)

theorem unref_each_succ (k : Nat) : unref_each p pool (k + 1) =
    .op (.fetch_sub p) fun prev => match prev with
      | none => unref_each p pool k
      | some prev => (Phase.next prev k).code p pool := by
  refine congrArg (Prog.op (UnitCmd.fetch_sub p)) (funext fun prev => ?_)
  rcases prev with _ | prev
  · rfl
  · change Prog.bind (if prev = 0 then _ else if prev = 1 then _ else _) _ =
      Phase.code p pool (if prev = 0 then _ else if prev = 1 then _ else _)
    by_cases h0 : prev = 0
    · rw [if_pos h0, if_pos h0]
      rfl
    · rw [if_neg h0, if_neg h0]
      by_cases h1 : prev = 1
      · rw [if_pos h1, if_pos h1]
        rfl
      · rw [if_neg h1, if_neg h1]
        rfl

theorem code_ended {ph : Phase} {u : Unit} (h : ph.code p pool = .ret u) : ph = .calls 0 := by
  cases ph with
  | calls k =>
    cases k with
    | zero => rfl
    | succ k => cases h
  | undoes k => cases h
  | releases k => cases h

theorem next_within {k : Nat} (h : Within (3 * k) (unref_each p pool k)) (prev : Nat) :
    Within (3 * k + 2) ((Phase.next prev k).code p pool) := by
  unfold Phase.next
  split
  · exact fun _ _ => h
  · split
    · exact fun _ => h.mono (by omega)
    · exact h.mono (by omega)

theorem unref_each_within (k : Nat) : Within (3 * k) (unref_each p pool k) := by
  induction k with
  | zero => trivial
  | succ k ih =>
    rw [unref_each_succ]
    intro prev
    rcases prev with _ | prev
    · exact ih.mono (Nat.le_add_right _ 2)
    · exact next_within p pool ih prev

theorem next_uses {k : Nat} (h : (unref_each p pool k).Uses Counts) (prev : Nat) :
    ((Phase.next prev k).code p pool).Uses Counts := by
  unfold Phase.next
  split
  · exact ⟨trivial, fun _ => ⟨trivial, fun _ => h⟩⟩
  · split
    · exact ⟨trivial, fun _ => h⟩
    · exact h

theorem unref_each_uses (k : Nat) : (unref_each p pool k).Uses Counts := by
  induction k with
  | zero => trivial
  | succ k ih =>
    rw [unref_each_succ]
    refine ⟨trivial, fun prev => ?_⟩
    rcases prev with _ | prev
    · exact ih
    · exact next_uses p pool ih prev

theorem ref_each_within (k : Nat) : Within k (ref_each p k) := by
  induction k with
  | zero => trivial
  | succ k ih => exact fun _ => ih

theorem ref_each_uses (k : Nat) : (ref_each p k).Uses Counts := by
  induction k with
  | zero => trivial
  | succ k ih => exact ⟨trivial, fun _ => ih⟩

end

/-! ## Taking references -/

section
variable [Fintype ι] [DecidableEq ι] {p : Field}

/-- The references that were taken, and those that are still to be taken, are all. -/
structure Taking (p : Field) (n : Nat) (s : St ι) (left : ι → Nat) : Prop where
  code : ∀ i, s.left i = ref_each p (left i)
  counted : ∑ i, left i + s.shared.ref_count = n

theorem Taking.step {n : Nat} (hn : n < 2 ^ 32) {s s' : St ι} {left : ι → Nat}
    (h : Taking p n s left) {a : ι × vf_err_t} (hstep : step act s a = some s') :
    ∃ left', Taking p n s' left' := by
  obtain ⟨c, k, r, shared, hleft, hact, rfl⟩ := step_cases hstep
  have hcode := h.code a.1
  rw [hleft] at hcode
  rcases hk : left a.1 with _ | m
  · rw [hk] at hcode
    cases hcode
  · rw [hk] at hcode
    cases hcode
    cases hact
    refine ⟨Function.update left a.1 m, fun i => ?_, ?_⟩
    · by_cases hi : i = a.1
      · subst hi
        simp only [Function.update_self]
        rfl
      · simp only [Function.update_of_ne hi]
        exact h.code i
    · have hsum := sum_update id left a.1 m
      have hall := h.counted
      simp only [id, hk] at hsum
      have hu : u32 (s.shared.ref_count + 1) = s.shared.ref_count + 1 := u32_of_lt (by omega)
      simp only [hu]
      omega

omit [DecidableEq ι] in
/-- In the end, the counter is the number of references. -/
theorem Taking.ended {n : Nat} {s : St ι} {left : ι → Nat} (h : Taking p n s left)
    (hend : Ended s) : s.shared.ref_count = n := by
  have hzero : ∀ i, left i = 0 := by
    intro i
    obtain ⟨u, hu⟩ := hend i
    rw [h.code i] at hu
    rcases hk : left i with _ | m
    · rfl
    · rw [hk] at hu
      cases hu
  have hall := h.counted
  rwa [Finset.sum_eq_zero fun i _ => hzero i, Nat.zero_add] at hall

/-! ## Dropping references -/

/-- Where the threads are while `n` references are dropped, or the one call is made where
there is none. The log has a call of the callback, or a thread owes it, once all calls have
decremented the counter, and not before. -/
structure Dropping (p : Field) (pool : PoolId) (n : Nat) (s : St ι) (ph : ι → Phase) : Prop where
  code : ∀ i, s.left i = (ph i).code p pool
  calls : ∑ i, (ph i).waiting + subs s.shared.log = max n 1
  owed : ∑ i, (ph i).owes + releases s.shared.log =
    if subs s.shared.log = max n 1 then 1 else 0
  undoing : ∀ i k, ph i = .undoes k → n = 0 ∧ s.shared.ref_count = 2 ^ 32 - 1
  counter : (∀ i k, ph i ≠ .undoes k) → s.shared.ref_count = n - subs s.shared.log
  last : ∀ l, l <+: s.shared.log → releases l ≠ 0 → subs l = max n 1

variable {pool : PoolId} {n : Nat} {s : St ι} {ph : ι → Phase} {i : ι} {k : Nat}

omit [Fintype ι] in
theorem code_update (hcode : ∀ j, s.left j = (ph j).code p pool) (x : Phase) (j : ι) :
    Function.update s.left i (x.code p pool) j = (Function.update ph i x j).code p pool := by
  by_cases hj : j = i
  · subst hj
    simp only [Function.update_self]
  · simp only [Function.update_of_ne hj]
    exact hcode j

omit [DecidableEq ι] in
theorem Dropping.not_all (h : Dropping p pool n s ph) (hi : ph i = .calls (k + 1)) :
    subs s.shared.log < max n 1 := by
  have hle : (ph i).waiting ≤ ∑ j, (ph j).waiting :=
    Finset.single_le_sum (f := fun j => (ph j).waiting) (fun _ _ => Nat.zero_le _)
      (Finset.mem_univ i)
  have hall := h.calls
  rw [hi, waiting_calls] at hle
  omega

omit [DecidableEq ι] in
/-- Before all calls have decremented the counter, no thread owes a call of the callback. -/
theorem Dropping.none_owes (h : Dropping p pool n s ph) (hlt : subs s.shared.log < max n 1) :
    (∀ j, (ph j).owes = 0) ∧ releases s.shared.log = 0 := by
  have howed := h.owed
  rw [if_neg (by omega)] at howed
  obtain ⟨hsum, hreleases⟩ := Nat.add_eq_zero_iff.mp howed
  exact ⟨fun j => (Finset.sum_eq_zero_iff.mp hsum) j (Finset.mem_univ j), hreleases⟩

/-- A call decrements the counter. -/
theorem Dropping.sub (hn : n < 2 ^ 32) (h : Dropping p pool n s ph)
    (hi : ph i = .calls (k + 1)) : Dropping p pool n
      ⟨⟨u32_sub s.shared.ref_count 1, s.shared.log ++ [.fetch_sub i s.shared.ref_count]⟩,
        Function.update s.left i ((Phase.next s.shared.ref_count k).code p pool)⟩
      (Function.update ph i (.next s.shared.ref_count k)) := by
  have hlt := h.not_all hi
  obtain ⟨hnone, hreleases⟩ := h.none_owes hlt
  have hcounter : s.shared.ref_count = n - subs s.shared.log := by
    apply h.counter
    intro j m hj
    have hj0 := hnone j
    rw [hj] at hj0
    cases hj0
  have hsubs : subs (s.shared.log ++ [.fetch_sub i s.shared.ref_count]) =
      subs s.shared.log + 1 := by
    simp [subs, Event.is_sub]
  have hrel : releases (s.shared.log ++ [.fetch_sub i s.shared.ref_count]) = 0 := by
    rw [← hreleases]
    simp [releases, Event.is_release]
  have hwait := sum_update Phase.waiting ph i (.next s.shared.ref_count k)
  have howes := sum_update Phase.owes ph i (.next s.shared.ref_count k)
  have howed0 : ∑ j, (ph j).owes = 0 := Finset.sum_eq_zero fun j _ => hnone j
  have hcalls := h.calls
  rw [hi, waiting_calls, next_waiting] at hwait
  rw [hi, owes_calls, next_owes, howed0] at howes
  have hothers : ∀ j, j ≠ i → ∀ m,
      Function.update ph i (.next s.shared.ref_count k) j ≠ .undoes m := by
    intro j hj m hm
    rw [Function.update_of_ne hj] at hm
    have hj0 := hnone j
    rw [hm] at hj0
    cases hj0
  refine ⟨code_update h.code _, ?_, ?_, ?_, ?_, ?_⟩
  · simp only [hsubs]
    omega
  · -- the call owes the callback just if it is the last one
    simp only [hsubs, hrel]
    rw [hcounter] at howes ⊢
    split at howes <;> split <;> omega
  · intro j m hj
    by_cases hji : j = i
    · subst hji
      rw [Function.update_self, next_undoes] at hj
      refine ⟨by omega, ?_⟩
      simp only [hj.1]
      rfl
    · exact absurd hj (hothers j hji m)
  · intro hno
    have hsome := hno i k
    rw [Function.update_self, ne_eq, next_undoes] at hsome
    have hone : u32_sub s.shared.ref_count 1 = s.shared.ref_count - 1 :=
      u32_sub_of_le (by omega) (by omega)
    simp only [hsubs, hone]
    omega
  · intro l hl hr
    simp only [List.prefix_concat_iff] at hl
    rcases hl with rfl | hl
    · exact absurd hrel hr
    · exact h.last l hl hr

/-- A thread that owes a call of the callback is the only one, and all calls have decremented
the counter. -/
theorem Dropping.one_owes (h : Dropping p pool n s ph) (hi : (ph i).owes = 1) :
    (∀ j, j ≠ i → (ph j).owes = 0) ∧ releases s.shared.log = 0 ∧
      subs s.shared.log = max n 1 := by
  have howed := h.owed
  have hsum := sum_update Phase.owes ph i (.calls 0)
  rw [hi, owes_calls] at hsum
  have hall : subs s.shared.log = max n 1 := by
    by_contra hne
    rw [if_neg hne] at howed
    omega
  rw [if_pos hall] at howed
  refine ⟨fun j hj => ?_, by omega, hall⟩
  have hle : (Function.update ph i (.calls 0) j).owes ≤
      ∑ j, (Function.update ph i (.calls 0) j).owes :=
    Finset.single_le_sum (f := fun j => (Function.update ph i (.calls 0) j).owes)
      (fun _ _ => Nat.zero_le _) (Finset.mem_univ j)
  rw [Function.update_of_ne hj] at hle
  omega

/-- The only call, which saw the counter at 0, puts it back. -/
theorem Dropping.undo (h : Dropping p pool n s ph) (hi : ph i = .undoes k) : Dropping p pool n
    ⟨⟨u32 (s.shared.ref_count + 1), s.shared.log ++ [.fetch_add i]⟩,
      Function.update s.left i ((Phase.releases k).code p pool)⟩
    (Function.update ph i (.releases k)) := by
  obtain ⟨hothers, hreleases, hall⟩ := h.one_owes (by rw [hi, owes_undoes] : (ph i).owes = 1)
  obtain ⟨hn0, href⟩ := h.undoing i k hi
  have hsubs : subs (s.shared.log ++ [.fetch_add i]) = subs s.shared.log := by
    simp [subs, Event.is_sub]
  have hrel : releases (s.shared.log ++ [.fetch_add i]) = releases s.shared.log := by
    simp [releases, Event.is_release]
  have hwait := sum_update Phase.waiting ph i (.releases k)
  have howes := sum_update Phase.owes ph i (.releases k)
  rw [hi, waiting_undoes, waiting_releases] at hwait
  rw [hi, owes_undoes, owes_releases] at howes
  refine ⟨code_update h.code _, ?_, ?_, ?_, ?_, ?_⟩
  · have := h.calls
    simp only [hsubs]
    omega
  · have := h.owed
    simp only [hsubs, hrel]
    omega
  · intro j m hj
    by_cases hji : j = i
    · subst hji
      simp at hj
    · rw [Function.update_of_ne hji] at hj
      have hj0 := hothers j hji
      rw [hj] at hj0
      cases hj0
  · intro _
    simp only [href, hn0, Nat.zero_sub]
    rfl
  · intro l hl hr
    simp only [List.prefix_concat_iff] at hl
    rcases hl with rfl | hl
    · exact absurd (hrel.trans hreleases) hr
    · exact h.last l hl hr

/-- A thread calls the callback. -/
theorem Dropping.release (h : Dropping p pool n s ph) (hi : ph i = .releases k) :
    Dropping p pool n ⟨⟨s.shared.ref_count, s.shared.log ++ [.release i]⟩,
      Function.update s.left i ((Phase.calls k).code p pool)⟩
    (Function.update ph i (.calls k)) := by
  obtain ⟨-, hreleases, hall⟩ := h.one_owes (by rw [hi, owes_releases] : (ph i).owes = 1)
  have hsubs : subs (s.shared.log ++ [.release i]) = subs s.shared.log := by
    simp [subs, Event.is_sub]
  have hrel : releases (s.shared.log ++ [.release i]) = releases s.shared.log + 1 := by
    simp [releases, Event.is_release]
  have hwait := sum_update Phase.waiting ph i (.calls k)
  have howes := sum_update Phase.owes ph i (.calls k)
  rw [hi, waiting_releases, waiting_calls] at hwait
  rw [hi, owes_releases, owes_calls] at howes
  refine ⟨code_update h.code _, ?_, ?_, ?_, ?_, ?_⟩
  · have := h.calls
    simp only [hsubs]
    omega
  · have := h.owed
    simp only [hsubs, hrel]
    omega
  · intro j m hj
    by_cases hji : j = i
    · subst hji
      simp at hj
    · rw [Function.update_of_ne hji] at hj
      exact h.undoing j m hj
  · intro hno
    simp only [hsubs]
    apply h.counter
    intro j m hj
    by_cases hji : j = i
    · rw [hji, hi] at hj
      cases hj
    · exact hno j m (by rwa [Function.update_of_ne hji])
  · intro l hl hr
    simp only [List.prefix_concat_iff] at hl
    rcases hl with rfl | hl
    · exact hsubs.trans hall
    · exact h.last l hl hr

theorem Dropping.step (hn : n < 2 ^ 32) (h : Dropping p pool n s ph) {s' : St ι}
    {a : ι × vf_err_t} (hstep : step act s a = some s') : ∃ ph', Dropping p pool n s' ph' := by
  obtain ⟨c, next, r, shared, hleft, hact, rfl⟩ := step_cases hstep
  have hcode := h.code a.1
  rw [hleft] at hcode
  rcases hi : ph a.1 with k | k | k
  · rw [hi] at hcode
    cases k with
    | zero => cases hcode
    | succ k =>
      rw [Phase.code, unref_each_succ] at hcode
      cases hcode
      cases hact
      exact ⟨_, h.sub hn hi⟩
  · rw [hi] at hcode
    cases hcode
    cases hact
    exact ⟨_, h.undo hi⟩
  · rw [hi] at hcode
    cases hcode
    cases hact
    exact ⟨_, h.release hi⟩

omit [DecidableEq ι] in
/-- In the end, the counter is 0 and the callback ran once. -/
theorem Dropping.ended (h : Dropping p pool n s ph) (hend : Ended s) :
    s.shared.ref_count = 0 ∧ ReleasedOnce (max n 1) s.shared.log := by
  have hdone : ∀ i, ph i = .calls 0 := by
    intro i
    obtain ⟨u, hu⟩ := hend i
    exact code_ended p pool ((h.code i).symm.trans hu)
  have hcalls := h.calls
  have howed := h.owed
  have hwait : ∑ i, (ph i).waiting = 0 := Finset.sum_eq_zero fun i _ => by
    rw [hdone i, waiting_calls]
  have howes : ∑ i, (ph i).owes = 0 := Finset.sum_eq_zero fun i _ => by rw [hdone i, owes_calls]
  rw [hwait, Nat.zero_add] at hcalls
  rw [howes, hcalls, if_pos rfl, Nat.zero_add] at howed
  have hcounter := h.counter fun i k hi => by
    rw [hdone i] at hi
    cases hi
  refine ⟨by omega, ?_⟩
  -- the one call of the callback splits the log
  obtain ⟨e, hmem, he⟩ := List.countP_pos_iff.mp (by rw [← releases, howed]; decide)
  obtain ⟨before, after, hlog⟩ := List.append_of_mem hmem
  cases e with
  | fetch_add i => cases he
  | fetch_sub i prev => cases he
  | release i =>
    have hcount : releases s.shared.log = releases before + (releases after + 1) := by
      rw [hlog, releases, List.countP_append, List.countP_cons_of_pos he]
      rfl
    have hprefix : before ++ [.release i] <+: s.shared.log := ⟨after, by rw [hlog]; simp⟩
    have hlast := h.last _ hprefix (by simp [releases, Event.is_release])
    refine ⟨before, i, after, hlog, by omega, by omega, ?_⟩
    rw [← hlast]
    simp [subs, Event.is_sub]

/-! ## The law -/

theorem refs_finish (p : Field) (refs : ι → Nat) :
    Finishes (before_refs p refs) (∑ i, refs i) := fun _ _ hrun =>
  run_ends .VF_SUCCESS act_answers (fun i => ref_each_within p (refs i))
    (fun i => ref_each_uses p (refs i)) hrun

theorem unrefs_finish (p : Field) (pool : PoolId) (ref_count : Nat) (unrefs : ι → Nat) :
    Finishes (before_unrefs p pool ref_count unrefs) (∑ i, 3 * unrefs i) := fun _ _ hrun =>
  run_ends .VF_SUCCESS act_answers (fun i => unref_each_within p pool (unrefs i))
    (fun i => unref_each_uses p pool (unrefs i)) hrun

theorem counter_of_refs {refs : ι → Nat} (hfew : ∑ i, refs i < 2 ^ 32)
    {l : List (ι × vf_err_t)} {s : St ι} (hrun : run (step act) (before_refs p refs) l = some s)
    (hend : Ended s) : s.shared.ref_count = ∑ i, refs i := by
  have hstart : Taking p (∑ i, refs i) (before_refs p refs) refs := ⟨fun _ => rfl, Nat.add_zero _⟩
  obtain ⟨left, h⟩ : ∃ left, Taking p (∑ i, refs i) s left :=
    run_keeps (I := fun s => ∃ left, Taking p (∑ i, refs i) s left)
      (fun s a s' ⟨left, h⟩ _ hstep => h.step hfew hstep) ⟨refs, hstart⟩ (along_true l) hrun
  exact h.ended hend

/-- If a frame gets fewer than 2^32 references, and as many calls drop them, or one call where
there is none, the callback runs once, when all of them have decremented the counter, whatever
the threads and the order of their atomic operations. The counter is 0 in the end. -/
theorem the_callback_runs_once (p : Field) (pool : PoolId) {refs unrefs : ι → Nat}
    (hfew : ∑ i, refs i < 2 ^ 32) (hunrefs : ∑ i, unrefs i = max (∑ i, refs i) 1) :
    CountsDown p pool refs unrefs := by
  refine ⟨refs_finish p refs, fun l s hrefs hend => ⟨unrefs_finish p pool _ unrefs, ?_⟩⟩
  intro m t hrun ht
  rw [counter_of_refs hfew hrefs hend] at hrun
  have hstart : Dropping p pool (∑ i, refs i)
      (before_unrefs p pool (∑ i, refs i) unrefs) fun i => .calls (unrefs i) := by
    refine ⟨fun _ => rfl, hunrefs, ?_, fun _ _ h => ?_, fun _ => rfl, fun l hl hr => ?_⟩
    · have hne : subs (before_unrefs p pool (∑ i, refs i) unrefs).shared.log ≠
          max (∑ i, refs i) 1 := by
        change 0 ≠ _
        omega
      rw [if_neg hne]
      exact Finset.sum_eq_zero fun _ _ => rfl
    · cases h
    · rw [List.prefix_nil.mp hl] at hr
      exact absurd rfl hr
  obtain ⟨ph, h⟩ : ∃ ph, Dropping p pool (∑ i, refs i) t ph :=
    run_keeps (I := fun s => ∃ ph, Dropping p pool (∑ i, refs i) s ph)
      (fun s a s' ⟨ph, h⟩ _ hstep => h.step hfew hstep) ⟨_, hstart⟩ (along_true m) hrun
  rw [hunrefs]
  exact h.ended ht

/-- Two threads with a reference each, and one of them drops both. -/
theorem one_thread_drops_two_references :
    CountsDown .in_fb .pool_in (fun _ : Bool => 1) fun i => if i then 2 else 0 :=
  the_callback_runs_once .in_fb .pool_in (by decide) (by decide)

end

end vision_flow.frame_references
