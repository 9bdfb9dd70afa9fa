-- What a call waits for that stops the service: a thread of a unit that does not run, and does
-- not sleep any more. Each step of that thread brings it nearer to its end, and no step of
-- another thread puts it back.
import VisionFlow.ServiceRollBack

namespace vision_flow.service

open programs units lifecycle runs

section
variable {cfg : vf_service_cfg_t} {m : Mem} {s s' t : St} {acts : List Act} {u : UnitId}
  {th : Thread} {o : Oracle}

/-! ## Calls that wait -/

/-- What is left of the call joins no thread too early. -/
def Waits (s : St) : Prop :=
  ∀ c p, s.calling = some (c, p) → wp Joins p (fun _ _ => True) s.join_view

theorem Waits.step (h : Inv cfg s) (hw : Waits s) {a : Act} (hs : step s a = some s') :
    Waits s' := by
  cases a with
  | worker u tid o =>
    obtain ⟨th, hth, hs⟩ := Option.bind_eq_some_iff.mp hs
    obtain ⟨hrun, hcall, -⟩ := worker_leaves hs
    have hview : s'.join_view = s.join_view := by
      unfold St.join_view
      rw [hrun]
      exact congrArg (JoinView.mk s.running)
        (funext (worker_queue_down h (List.mem_of_find?_eq_some hth) hs))
    unfold Waits
    rw [hview, hcall]
    exact hw
  | wake_up u tid =>
    obtain ⟨th, hth, rfl⟩ := Option.map_eq_some_iff.mp hs
    exact hw
  | call c =>
    rcases hcall : s.calling with _ | called
    · simp only [service.step, hcall, Option.some.injEq] at hs
      subst hs
      rintro c' p hc
      cases hc
      exact Call.patient c _
    · simp [service.step, hcall] at hs
  | control ok =>
    rcases hcall : s.calling with _ | ⟨call, err | ⟨c, k⟩⟩
    · simp [service.step, hcall] at hs
    · simp only [service.step, hcall, Option.some.injEq] at hs
      subst hs
      rintro c p ⟨⟩
    · simp only [service.step, hcall] at hs
      obtain ⟨r, hctl, rfl⟩ := Option.map_eq_some_iff.mp hs
      rintro c' p hc
      cases hc
      exact control_patient hctl (hw call _ hcall)

theorem run_waits (hinit : vf_service_init cfg = .ok m)
    (hok : Along step StartsStopped (St.init m) acts)
    (hrun : run step (St.init m) acts = some t) : Inv cfg t ∧ Waits t := by
  have hstart : Inv cfg (St.init m) ∧ Waits (St.init m) := by
    refine ⟨(vf_service_init.spec hinit).inv, ?_⟩
    rintro c p ⟨⟩
  exact run_keeps (I := fun s => Inv cfg s ∧ Waits s)
    (fun _ _ _ h hguard hs => ⟨h.1.step hguard hs, h.2.step h.1 hs⟩) hstart hok hrun

/-! ## The thread that a stop waits for -/

/-- A call that stops the service is about to join the thread of the unit. -/
structure Joining (cfg : vf_service_cfg_t) (s : St) (u : UnitId) : Prop where
  inv : Inv cfg s
  waits : Waits s
  order : s.order = some (.pthread_join u)
  stops : ∀ c p, s.calling = some (c, p) → c.stops = true

theorem Joining.not_running (h : Joining cfg s u) : s.running u = false := by
  obtain ⟨c, p, Q, hcall, -⟩ := h.inv.orders h.order
  have hwaits := h.waits c p hcall
  have horder := h.order
  unfold St.order at horder
  split at horder
  · rename_i c' op k hcall'
    cases horder
    rw [hcall] at hcall'
    cases hcall'
    exact hwaits.1
  · cases horder

theorem Joining.awake (h : Joining cfg s u) (hth : th ∈ s.threads u) : th.wait = none := by
  obtain ⟨c, p, Q, hcall, hdown, -⟩ := h.inv.orders h.order
  obtain ⟨hpools, hqueue⟩ := hdown (h.stops c p hcall)
  rcases hwait : th.wait with _ | on
  · rfl
  · obtain ⟨hup, hin⟩ := h.inv.sleeper hth hwait
    cases on with
    | slot_available p =>
      have hpool : s.mem.down (.slot_available p) = true := hpools p
      rw [hpool] at hup
      cases hup
    | not_empty q =>
      have hdown' : s.mem.down (.not_empty q) = true := hqueue q (hin q rfl)
      rw [hdown'] at hup
      cases hup

theorem Joining.worker (h : Joining cfg s u) {w : UnitId} (hth : th ∈ s.threads w)
    (hs : worker s w th o = some s') : Joining cfg s' u := by
  obtain ⟨-, hcall, -⟩ := worker_leaves hs
  refine ⟨h.inv.worker hth hs, ?_, ?_, by rw [hcall]; exact h.stops⟩
  · exact h.waits.step h.inv (a := .worker w th.tid o) (by
      obtain ⟨hone, -⟩ := (h.inv.units w).alone hth
      simp [service.step, hone, hs])
  · unfold St.order
    rw [hcall]
    exact h.order

/-- What a signal does to the threads of a unit. -/
theorem signal_threads {on : Option Cond} {wakes : Nat → Bool} (hs : s.signal on wakes = some s')
    (u : UnitId) : ∃ f : Thread → Thread, (∀ th, (f th).tid = th.tid ∧ (f th).pc = th.pc) ∧
      s'.threads u = (s.threads u).map f := by
  unfold St.signal at hs
  split at hs
  · cases hs
    exact ⟨id, fun th => ⟨rfl, rfl⟩, (List.map_id _).symm⟩
  · split at hs
    · cases hs
      refine ⟨_, fun th => ?_, rfl⟩
      split <;> exact ⟨rfl, rfl⟩
    · cases hs

/-- The next place of a thread that does a command. -/
theorem Joining.commands (h : Joining cfg s u) (hone : s.threads u = [th]) {c : UnitCmd}
    {k : c.Res → Code vf_err_t} (hpc : th.pc = some (.op c k))
    (hs : service.worker s u th o = some s') :
    ∃ r th', s'.threads u = [th'] ∧ th'.tid = th.tid ∧ th'.pc = some (k r) := by
  have hth : th ∈ s.threads u := by simp [hone]
  have hnext := h.worker hth hs
  unfold service.worker at hs
  rw [if_neg (not_not.mpr (h.awake hth))] at hs
  simp only [hpc] at hs
  cases hexec : exec u o s.mem c with
  | done r m' on =>
    rw [hexec] at hs
    simp only at hs
    rw [set_thread_eq hone] at hs
    obtain ⟨f, hf, hthreads⟩ := signal_threads hs u
    simp only [Function.update_self, List.map_cons, List.map_nil] at hthreads
    exact ⟨r, _, hthreads, (hf _).1, (hf _).2⟩
  | waits m' on =>
    -- then it sleeps in the next state, where nobody may sleep
    rw [hexec] at hs
    simp only at hs
    rw [set_thread_eq hone] at hs
    cases hs
    have hwait : (⟨th.tid, some (.op c k), some on⟩ : Thread).wait = none :=
      hnext.awake (by simp)
    cases hwait

/-- The thread has come to the end of a run of its unit. -/
theorem Joining.run_ends (h : Joining cfg s u) (hone : s.threads u = [th]) {err : vf_err_t}
    (hpc : th.pc = some (.ret err)) (hs : service.worker s u th o = some s') :
    s'.threads u = [] ∨ ∃ th', s'.threads u = [th'] ∧ th'.tid = th.tid ∧ th'.pc = none := by
  have hth : th ∈ s.threads u := by simp [hone]
  unfold service.worker at hs
  rw [if_neg (not_not.mpr (h.awake hth))] at hs
  simp only [hpc] at hs
  split at hs
  · cases hs
    rw [exit_eq hone]
    exact .inl (by simp)
  · split at hs
    · cases hs
      rw [exit_eq hone]
      exact .inl (by simp)
    · cases hs
      rw [set_thread_eq hone s.mem none th.wait]
      exact .inr ⟨⟨th.tid, none, th.wait⟩, by simp, rfl, rfl⟩

theorem Joining.thread_ends (h : Joining cfg s u) (hone : s.threads u = [th]) (hpc : th.pc = none)
    (hs : service.worker s u th o = some s') : s'.threads u = [] := by
  have hth : th ∈ s.threads u := by simp [hone]
  unfold service.worker at hs
  rw [if_neg (not_not.mpr (h.awake hth))] at hs
  simp only [hpc, h.not_running, Bool.false_eq_true, if_false] at hs
  cases hs
  rw [exit_eq hone]
  simp

/-- Another unit may wake a thread of the unit, and no more. -/
theorem worker_beside {w : UnitId} (hne : u ≠ w) (hs : worker s w th o = some s') :
    ∃ f : Thread → Thread, (∀ th, (f th).tid = th.tid ∧ (f th).pc = th.pc) ∧
      s'.threads u = (s.threads u).map f := by
  have hsame : ∀ new : Thread, (s.set_thread w new).threads u = s.threads u := fun new => by
    simp [St.set_thread, hne]
  have hexit : ∀ tid, (s.exit w tid).threads u = s.threads u := fun tid => by
    simp [St.exit, hne]
  have hid : ∀ l : List Thread, ∃ f : Thread → Thread,
      (∀ th, (f th).tid = th.tid ∧ (f th).pc = th.pc) ∧ l = l.map f := fun l =>
    ⟨id, fun th => ⟨rfl, rfl⟩, (List.map_id l).symm⟩
  unfold worker at hs
  split at hs
  · cases hs
  · rcases hpc : th.pc with _ | err | ⟨c, k⟩ <;> simp only [hpc] at hs
    · split at hs <;> cases hs
      · rw [hsame]
        exact hid _
      · rw [hexit]
        exact hid _
    · split at hs
      · cases hs
        rw [hexit]
        exact hid _
      · split at hs <;> cases hs
        · rw [hexit]
          exact hid _
        · rw [hsame]
          exact hid _
    · cases hexec : exec w o s.mem c with
      | done r m' on =>
        rw [hexec] at hs
        obtain ⟨f, hf, hthreads⟩ := signal_threads hs u
        refine ⟨f, hf, hthreads.trans ?_⟩
        simp [St.set_thread, hne]
      | waits m' on =>
        rw [hexec] at hs
        cases hs
        simp only [St.set_thread, Function.update_of_ne hne]
        exact hid _

end

end vision_flow.service
