-- The roll-back of a start that fails. It joins the threads that the start has made, and
-- wakes a unit only through its queue. So it ends just as long as no unit that it stops
-- sleeps on a pool.
import VisionFlow.ServiceOwnership
import VisionFlow.ServiceShutdown

namespace vision_flow.service

open programs units lifecycle runs

/-! ## What a join waits for -/

/-- The running flags, and the shutdown flags of the queues. -/
structure JoinView where
  running : UnitId → Bool
  queue_down : QueueId → Bool

def St.join_view (s : St) : JoinView := ⟨s.running, fun q => (s.mem.queue q).shutdown⟩

/-- Each outcome of the command leads to `Q`. A thread is joined when its unit does not run
and the unit's queue is shut down. -/
def Joins : (c : CtlCmd UnitId QueueId) → (c.Res → JoinView → Prop) → JoinView → Prop
  | .initialized _, Q, K => ∀ b, Q b K
  | .set_running u b, Q, K => Q () { K with running := Function.update K.running u b }
  | .load_running u, Q, K => Q (K.running u) K
  | .pthread_create _, Q, K => ∀ ok, Q ok K
  | .pthread_join u, Q, K =>
    K.running u = false ∧ (∀ q, u.unit.in_queue = some q → K.queue_down q = true) ∧ Q true K
  | .pool_reset _, Q, K => Q () K
  | .pool_shutdown _, Q, K => Q () K
  | .queue_reset q, Q, K => Q () { K with queue_down := Function.update K.queue_down q false }
  | .queue_shutdown q, Q, K => Q () { K with queue_down := Function.update K.queue_down q true }
  | .send_response _, Q, K => Q () K
  | .send_stats, Q, K => Q () K

/-- The program joins no thread too early. -/
def Patient {α : Type} (p : ServiceCode α) : Prop := ∀ K, wp Joins p (fun _ _ => True) K

section
variable {α β : Type}

theorem joins_mono (c : CtlCmd UnitId QueueId) (Q Q' : c.Res → JoinView → Prop) (K : JoinView)
    (hQ : ∀ r K, Q r K → Q' r K) (h : Joins c Q K) : Joins c Q' K := by
  cases c with
  | initialized o => exact fun b => hQ b K (h b)
  | pthread_create u => exact fun ok => hQ ok K (h ok)
  | pthread_join u => exact ⟨h.1, h.2.1, hQ _ _ h.2.2⟩
  | _ => exact hQ _ _ h

theorem patient_pure (a : α) : Patient (pure a) := fun _ => trivial

theorem patient_bind {p : ServiceCode α} {f : α → ServiceCode β} (hp : Patient p)
    (hf : ∀ a, Patient (f a)) : Patient (p >>= f) := by
  intro K
  rw [wp_bind]
  exact wp_mono joins_mono (fun a K' _ => hf a K') (hp K)

theorem patient_ite {b : Prop} [Decidable b] {p q : ServiceCode α} (hp : Patient p)
    (hq : Patient q) : Patient (if b then p else q) := by
  split
  · exact hp
  · exact hq

/-- Only a join has to wait. -/
theorem patient_ctl {c : CtlCmd UnitId QueueId} (h : ∀ u, c ≠ .pthread_join u) :
    Patient (ctl c) := by
  intro K
  cases c with
  | initialized o => exact fun _ => trivial
  | pthread_create u => exact fun _ => trivial
  | pthread_join u => exact absurd rfl (h u)
  | _ => trivial

theorem vf_unit_stop.patient (u : UnitId) :
    Patient (vf_unit_stop (fun u => u.unit.in_queue) u) := by
  intro K
  unfold vf_unit_stop
  simp only [wp_bind, wp_ite, wp_pure, wp_perform, Joins]
  split
  · trivial
  · rcases hq : u.unit.in_queue with _ | q
    · exact ⟨by simp, by simp [hq], trivial⟩
    · exact ⟨by simp, by simp [hq], trivial⟩

theorem vf_unit_start.patient (u : UnitId) : Patient (vf_unit_start u) := by
  intro K
  unfold vf_unit_start
  simp only [wp_bind, wp_ite, wp_pure, wp_perform, Joins, ite_self, implies_true]

theorem roll_back.patient (err : vf_err_t) (started : List UnitId) :
    Patient (roll_back (fun u => u.unit.in_queue) err started) := by
  induction started generalizing err with
  | nil => exact patient_pure err
  | cons u rest ih => exact patient_bind (vf_unit_stop.patient u) ih

theorem start_units.patient (started rest : List UnitId) :
    Patient (start_units (fun u => u.unit.in_queue) started rest) := by
  induction rest generalizing started with
  | nil => exact patient_pure _
  | cons u rest ih =>
    unfold start_units
    refine patient_bind (vf_unit_start.patient u) fun err => ?_
    exact patient_ite (roll_back.patient err started) (ih (u :: started))

theorem stop_units.patient (units : List UnitId) :
    Patient (stop_units (fun u => u.unit.in_queue) units) := by
  induction units with
  | nil => exact patient_pure ()
  | cons u rest ih => exact patient_bind (vf_unit_stop.patient u) fun _ => ih

theorem vf_service_start.patient : Patient vf_service_start := by
  unfold vf_service_start vf_pipeline_start
  refine patient_bind (patient_ctl (by simp)) fun _ => patient_ite (patient_pure _) ?_
  refine patient_bind (patient_ctl (by simp)) fun _ => ?_
  refine patient_bind (patient_ctl (by simp)) fun _ => ?_
  refine patient_bind (patient_ctl (by simp)) fun _ => ?_
  refine patient_bind (patient_ctl (by simp)) fun _ => ?_
  refine patient_bind (patient_ctl (by simp)) fun _ => ?_
  refine patient_bind ?_ fun _ => patient_ite (patient_pure _) (patient_pure _)
  refine patient_bind (patient_ctl (by simp)) fun _ => patient_ite (patient_pure _) ?_
  exact start_units.patient [] pipeline_units

theorem vf_service_stop.patient : Patient vf_service_stop := by
  unfold vf_service_stop vf_pipeline_stop
  refine patient_bind (patient_ctl (by simp)) fun _ => patient_ite (patient_pure _) ?_
  refine patient_bind (patient_ctl (by simp)) fun _ => ?_
  refine patient_bind (patient_ctl (by simp)) fun _ => ?_
  refine patient_bind ?_ fun _ => patient_ite (patient_pure _) (patient_pure _)
  refine patient_bind (patient_ctl (by simp)) fun _ => patient_ite (patient_pure _) ?_
  exact patient_bind (stop_units.patient _) fun _ => patient_pure _

/-- Every call shuts a unit's queue down before it joins the unit's thread. -/
theorem Call.patient (c : Call) : Patient c.code := by
  have response : ∀ r, Patient (ctl (.send_response r) : ServiceCode Unit) :=
    fun r => patient_ctl (by simp)
  cases c with
  | service_start => exact vf_service_start.patient
  | service_stop => exact vf_service_stop.patient
  | request text =>
    simp only [Call.code]
    unfold vf_control_handle_request
    refine patient_ite (patient_pure _) ?_
    rcases command_of (read_request text) with _ | _ | _ | _ | _
    · exact patient_bind (response _) fun _ => patient_pure _
    · refine patient_bind ?_ fun _ => patient_pure _
      exact patient_bind (patient_ctl (by simp)) fun _ => response _
    · exact patient_bind (patient_ctl (by simp)) fun _ => patient_pure _
    · refine patient_bind ?_ fun _ => patient_pure _
      exact patient_bind vf_service_stop.patient fun _ => patient_ite (response _) (response _)
    · refine patient_bind ?_ fun _ => patient_pure _
      exact patient_bind vf_service_start.patient fun _ => patient_ite (response _) (response _)

end

/-! ## The condition -/

/-- A start is in progress. -/
def St.starting (s : St) : Prop := s.calling.map (·.1.starts) = some true

instance (s : St) : Decidable s.starting := inferInstanceAs (Decidable (_ = _))

def Cond.of_pool : Cond → Bool
  | .not_empty _ => false
  | .slot_available _ => true

/-- A thread of the unit sleeps on a pool. -/
def St.sleeps_on_pool (s : St) (u : UnitId) : Prop :=
  ∃ th ∈ s.threads u, th.wait.any Cond.of_pool = true

/-- The unit is about to wait for a slot of a pool that has none. -/
def St.finds_no_slot (s : St) (u : UnitId) : Prop :=
  match s.next u with
  | .acquire_blocking p _ => (s.mem.pool p).available = 0
  | _ => False

instance (s : St) (u : UnitId) : Decidable (s.sleeps_on_pool u) := by
  unfold St.sleeps_on_pool
  infer_instance

instance (s : St) (u : UnitId) : Decidable (s.finds_no_slot u) := by
  unfold St.finds_no_slot
  split <;> infer_instance

/-- A unit that the start stops again does not sleep on a pool when its running flag is
cleared, and does not find a pool without a free slot from then on. -/
def NoPoolWait (s : St) : Act → Prop
  | .control _ =>
    s.starting → ∀ u, s.order = some (.set_running u false) → ¬ s.sleeps_on_pool u
  | .worker u _ _ => s.starting → s.running u = false → ¬ s.finds_no_slot u
  | _ => True

instance (s : St) : (a : Act) → Decidable (NoPoolWait s a)
  | .control _ => inferInstanceAs (Decidable (_ → _))
  | .worker _ _ _ => inferInstanceAs (Decidable (_ → _))
  | .wake_up _ _ => isTrue trivial
  | .call _ => isTrue trivial

/-! ## The invariant -/

/-- What is left of a call joins no thread too early, and in a start no unit that does not
run sleeps on a pool. -/
structure RollsBack (s : St) : Prop where
  patient : ∀ c p, s.calling = some (c, p) → wp Joins p (fun _ _ => True) s.join_view
  awake : s.starting → ∀ u, s.running u = false → ¬ s.sleeps_on_pool u

section
variable {cfg : vf_service_cfg_t} {m : Mem} {s s' t : St} {acts : List Act}

/-- A unit changes no shutdown flag of a queue. -/
theorem worker_queue_down (h : Inv cfg s) {u : UnitId} {th : Thread} {o : Oracle}
    (hth : th ∈ s.threads u) (hs : worker s u th o = some s') (q : QueueId) :
    (s'.mem.queue q).shutdown = (s.mem.queue q).shutdown := by
  obtain ⟨-, -, hmem | ⟨c, k, hpc, hmem⟩⟩ := worker_leaves hs
  · rw [hmem]
  · have hfits := (h.units u).fits th hth
    rw [hpc] at hfits
    have hsound := exec_sound h.frames o c hfits
    rw [hmem]
    cases hexec : exec u o s.mem c with
    | done r m' on =>
      rw [hexec] at hsound
      exact hsound.2.queue_down q
    | waits m' on =>
      rw [hexec] at hsound
      exact hsound.2.1.queue_down q

theorem acquire_waits {pool : buf_pool.vf_buf_pool_t PoolId} {out : Option Frame}
    (h : buf_pool.vf_buf_pool_acquire_blocking pool out = none) : pool.available = 0 := by
  unfold buf_pool.vf_buf_pool_acquire_blocking at h
  by_cases hinit : pool.initialized = 0
  · simp [hinit] at h
  · by_contra hfree
    simp [hinit, hfree] at h

/-- A command that sleeps on a pool found no free slot there. -/
theorem exec_waits {u : UnitId} {o : Oracle} {m m' : Mem} {c : UnitCmd} {on : Cond}
    (h : exec u o m c = .waits m' on) (hon : on.of_pool = true) :
    ∃ p fd, c = .acquire_blocking p fd ∧ (m.pool p).available = 0 := by
  cases c with
  | acquire_blocking p fd =>
    refine ⟨p, fd, rfl, ?_⟩
    have hpool : ((if (m.pool p).initialized = 0 then m else m.forget u fd).pool p).available =
        (m.pool p).available := by
      split <;> rfl
    simp only [exec, exec_acquire_blocking] at h
    split at h
    · rename_i hnone
      exact hpool ▸ acquire_waits hnone
    · split at h <;> cases h
  | pop_blocking q fd =>
    simp only [exec, exec_pop_blocking] at h
    split at h
    · cases h
      cases hon
    · split at h <;> cases h
  | release p fd =>
    simp only [exec, exec_release] at h
    split at h <;> cases h
  | push q fd =>
    simp only [exec, exec_push] at h
    split at h <;> cases h
  | fetch_add fd =>
    simp only [exec, exec_fetch] at h
    split at h <;> cases h
  | fetch_sub fd =>
    simp only [exec, exec_fetch] at h
    split at h <;> cases h
  | acquire_frame fd =>
    simp only [exec, exec_acquire_frame] at h
    split at h
    · cases h
    · split at h <;> cases h
  | convert src dst =>
    simp only [exec, exec_convert] at h
    split at h <;> cases h
  | _ => cases h

/-- Threads that only wake up, or have a new place in their program. -/
theorem sleeps_of_map {f : Thread → Thread} {threads : List Thread}
    (hf : ∀ th ∈ threads, ∀ on, (f th).wait = some on → th.wait = some on)
    (h : ∃ th ∈ threads.map f, th.wait.any Cond.of_pool = true) :
    ∃ th ∈ threads, th.wait.any Cond.of_pool = true := by
  obtain ⟨th, hth, hon⟩ := h
  obtain ⟨old, hold, rfl⟩ := List.mem_map.mp hth
  rcases hwait : (f old).wait with _ | on
  · rw [hwait] at hon
    cases hon
  · refine ⟨old, hold, ?_⟩
    rw [hf old hold on hwait]
    rwa [hwait] at hon

theorem set_thread_sleeps {u v : UnitId} {new : Thread} (hnew : new.wait = none)
    (h : (s.set_thread u new).sleeps_on_pool v) : s.sleeps_on_pool v := by
  by_cases hv : v = u
  · subst hv
    unfold St.sleeps_on_pool St.set_thread at h
    simp only [Function.update_self] at h
    refine sleeps_of_map (fun th _ on hon => ?_) h
    split at hon
    · rw [hnew] at hon
      cases hon
    · exact hon
  · unfold St.sleeps_on_pool St.set_thread at h
    simp only [Function.update_of_ne hv] at h
    exact h

theorem wake_sleeps {on : Cond} {wakes : Nat → Bool} {u : UnitId}
    (h : ({ s with threads := wake s.threads on wakes } : St).sleeps_on_pool u) :
    s.sleeps_on_pool u := by
  refine sleeps_of_map (fun th _ on' hon => ?_) h
  split at hon
  · cases hon
  · exact hon

theorem signal_sleeps {on : Option Cond} {wakes : Nat → Bool} (hs : s.signal on wakes = some s')
    {u : UnitId} (h : s'.sleeps_on_pool u) : s.sleeps_on_pool u := by
  unfold St.signal at hs
  split at hs
  · cases hs
    exact h
  · split at hs
    · cases hs
      exact wake_sleeps h
    · cases hs

theorem exit_sleeps {u v : UnitId} {tid : Nat} (h : (s.exit u tid).sleeps_on_pool v) :
    s.sleeps_on_pool v := by
  obtain ⟨th, hth, hon⟩ := h
  refine ⟨th, ?_, hon⟩
  by_cases hv : v = u
  · subst hv
    simp only [St.exit, Function.update_self] at hth
    exact List.mem_of_mem_filter hth
  · simpa [St.exit, hv] using hth

/-- After a step of a unit, another unit sleeps on a pool only if it did so before. -/
theorem worker_sleeps (h : Inv cfg s) {u v : UnitId} {th : Thread} {o : Oracle}
    (hth : th ∈ s.threads u) (hs : worker s u th o = some s') (hv : s'.sleeps_on_pool v) :
    s.sleeps_on_pool v ∨ v = u ∧ s.finds_no_slot u := by
  have hone := ((h.units u).alone hth).1
  unfold worker at hs
  split at hs
  · cases hs
  · rename_i hwait
    have hwait : th.wait = none := by simpa using hwait
    rcases hpc : th.pc with _ | err | ⟨c, k⟩ <;> simp only [hpc] at hs
    · split at hs <;> cases hs
      · exact Or.inl (set_thread_sleeps (by exact hwait) hv)
      · exact Or.inl (exit_sleeps hv)
    · split at hs
      · cases hs
        exact Or.inl (exit_sleeps hv)
      · split at hs <;> cases hs
        · exact Or.inl (exit_sleeps hv)
        · exact Or.inl (set_thread_sleeps (by exact hwait) hv)
    · cases hexec : exec u o s.mem c with
      | done r m' on =>
        rw [hexec] at hs
        exact Or.inl (set_thread_sleeps (by exact hwait) (signal_sleeps hs hv))
      | waits m' on =>
        rw [hexec] at hs
        simp only at hs
        rw [set_thread_eq hone] at hs
        cases hs
        obtain ⟨new, hnew, hon⟩ := hv
        by_cases hvu : v = u
        · subst hvu
          simp only [Function.update_self, List.mem_singleton] at hnew
          subst hnew
          obtain ⟨p, fd, rfl, havail⟩ := exec_waits hexec hon
          refine Or.inr ⟨rfl, ?_⟩
          have hnext : s.next v = .acquire_blocking p fd := by
            obtain ⟨tid, pc, wait⟩ := th
            simp only at hpc
            simp [St.next, hone, hpc]
          unfold St.finds_no_slot
          rw [hnext]
          exact havail
        · simp only [Function.update_of_ne hvu] at hnew
          exact Or.inl ⟨new, hnew, hon⟩

theorem RollsBack.worker (h : Inv cfg s) (hr : RollsBack s) {u : UnitId} {th : Thread}
    {o : Oracle} (hguard : s.starting → s.running u = false → ¬ s.finds_no_slot u)
    (hth : th ∈ s.threads u) (hs : worker s u th o = some s') : RollsBack s' := by
  obtain ⟨hrun, hcall, -⟩ := worker_leaves hs
  have hview : s'.join_view = s.join_view := by
    unfold St.join_view
    rw [hrun]
    exact congrArg (JoinView.mk s.running) (funext (worker_queue_down h hth hs))
  constructor
  · rw [hview, hcall]
    exact hr.patient
  · intro hstart v hv hsleep
    have hstart : s.starting := by
      unfold St.starting at hstart ⊢
      rwa [hcall] at hstart
    rw [hrun] at hv
    rcases worker_sleeps h hth hs hsleep with hold | ⟨rfl, hfinds⟩
    · exact hr.awake hstart v hv hold
    · exact hguard hstart hv hfinds

/-- A command of the controlling thread leaves the program that is left patient. -/
theorem control_patient {c : CtlCmd UnitId QueueId} {ok : Bool} {r : c.Res × St}
    {Q : c.Res → JoinView → Prop} (hr : control s ok c = some r) (h : Joins c Q s.join_view) :
    Q r.1 r.2.join_view := by
  cases c with
  | initialized o =>
    cases hr
    exact h (s.mem.initialized o)
  | pthread_create u =>
    simp only [control] at hr
    split at hr <;> cases hr
    · exact h true
    · exact h false
  | pthread_join u =>
    simp only [control] at hr
    split at hr <;> cases hr
    exact h.2.2
  | queue_reset q =>
    cases hr
    simp only [St.join_view, buf_queue.vf_buf_queue_reset, shutdown_queue_flag]
    exact h
  | queue_shutdown q =>
    cases hr
    simp only [St.join_view, St.broadcast, buf_queue.vf_buf_queue_shutdown, shutdown_queue_flag]
    exact h
  | _ =>
    cases hr
    exact h

/-- No command of the controlling thread puts a thread to sleep, and only one clears a
running flag. -/
theorem control_sleeps {c : CtlCmd UnitId QueueId} {ok : Bool} {r : c.Res × St}
    (hr : control s ok c = some r) {u : UnitId} (hu : r.2.sleeps_on_pool u)
    (hrun : r.2.running u = false) :
    s.sleeps_on_pool u ∧ (s.running u = false ∨ c = .set_running u false) := by
  cases c with
  | set_running v b =>
    cases hr
    refine ⟨hu, ?_⟩
    by_cases hv : u = v
    · subst hv
      simp only [Function.update_self] at hrun
      exact Or.inr (by rw [hrun])
    · simp only [Function.update_of_ne hv] at hrun
      exact Or.inl hrun
  | pthread_create v =>
    simp only [control] at hr
    split at hr <;> cases hr
    · refine ⟨?_, Or.inl hrun⟩
      obtain ⟨th, hth, hon⟩ := hu
      refine ⟨th, ?_, hon⟩
      by_cases hv : u = v
      · subst hv
        simp only [Function.update_self] at hth
        rcases List.mem_append.mp hth with hth | hth
        · exact hth
        · rw [List.mem_singleton.mp hth] at hon
          cases hon
      · simpa [hv] using hth
    · exact ⟨hu, Or.inl hrun⟩
  | pthread_join v =>
    simp only [control] at hr
    split at hr <;> cases hr
    exact ⟨hu, Or.inl hrun⟩
  | pool_shutdown p =>
    cases hr
    exact ⟨wake_sleeps hu, Or.inl hrun⟩
  | queue_shutdown q =>
    cases hr
    exact ⟨wake_sleeps hu, Or.inl hrun⟩
  | _ =>
    cases hr
    exact ⟨hu, Or.inl hrun⟩

theorem RollsBack.step (h : Inv cfg s) (hr : RollsBack s) {a : Act} (hstarts : StartsStopped s a)
    (hguard : NoPoolWait s a) (hs : step s a = some s') : RollsBack s' := by
  cases a with
  | worker u tid o =>
    obtain ⟨th, hth, hs⟩ := Option.bind_eq_some_iff.mp hs
    exact hr.worker h hguard (List.mem_of_find?_eq_some hth) hs
  | wake_up u tid =>
    obtain ⟨th, hth, rfl⟩ := Option.map_eq_some_iff.mp hs
    exact ⟨hr.patient, fun hstart v hv hsleep =>
      hr.awake hstart v hv (set_thread_sleeps rfl hsleep)⟩
  | call c =>
    have hnext := h.step hstarts hs
    rcases hcall : s.calling with _ | called
    · simp only [service.step, hcall, Option.some.injEq] at hs
      subst hs
      constructor
      · intro c' p hc
        cases hc
        exact service.Call.patient c _
      · -- no unit has a thread yet
        intro hstart u _ hsleep
        have hstart : c.starts = true := by simpa [St.starting] using hstart
        obtain ⟨th, hth, -⟩ := hsleep
        have hfresh := (hnext.units u).unborn
        simp only [hstart, if_true, St.begin] at hfresh hth
        rw [hfresh (by decide)] at hth
        cases hth
    · simp [service.step, hcall] at hs
  | control ok =>
    rcases hcall : s.calling with _ | ⟨call, err | ⟨c, k⟩⟩
    · simp [service.step, hcall] at hs
    · simp only [service.step, hcall, Option.some.injEq] at hs
      subst hs
      exact ⟨fun c p hc => (by cases hc), fun hstart => (by cases hstart)⟩
    · simp only [service.step, hcall] at hs
      obtain ⟨r, hctl, rfl⟩ := Option.map_eq_some_iff.mp hs
      constructor
      · intro c' p hc
        cases hc
        exact control_patient hctl (hr.patient call _ hcall)
      · intro hstart u hu hsleep
        have hstart : s.starting := by
          unfold St.starting
          rw [hcall]
          exact hstart
        obtain ⟨hold, hrun | hset⟩ := control_sleeps hctl hsleep hu
        · exact hr.awake hstart u hrun hold
        · refine hguard hstart u ?_ hold
          simp [St.order, hcall, hset]

theorem run_rolls_back (hinit : vf_service_init cfg = .ok m)
    (hstarts : Along step StartsStopped (St.init m) acts)
    (hpools : Along step NoPoolWait (St.init m) acts)
    (hrun : run step (St.init m) acts = some t) : Inv cfg t ∧ RollsBack t := by
  refine run_keeps (I := fun s => Inv cfg s ∧ RollsBack s) ?_
    ⟨(vf_service_init.spec hinit).inv, ?_⟩ (along_and hstarts hpools) hrun
  · intro s a s' h hok hs
    exact ⟨h.1.step hok.1 hs, h.2.step h.1 hok.1 hok.2 hs⟩
  · exact ⟨fun c p hc => (by cases hc), fun hstart => (by cases hstart)⟩

/-! ## A roll-back ends -/

/-- If no unit that a start stops again sleeps on a pool, or comes to sleep on one, the
roll-back never waits for a thread that sleeps. -/
theorem a_roll_back_waits_for_no_sleeper (hinit : vf_service_init cfg = .ok m)
    (hstarts : Along step StartsStopped (St.init m) acts)
    (hpools : Along step NoPoolWait (St.init m) acts)
    (hrun : run step (St.init m) acts = some t) {c : Call} {u : UnitId}
    (hcall : t.calling.map (·.1) = some c) (hstart : c.starts = true)
    (hjoin : t.order = some (.pthread_join u)) : ∀ th ∈ t.threads u, th.wait = none := by
  obtain ⟨h, hr⟩ := run_rolls_back hinit hstarts hpools hrun
  obtain ⟨p, hcalling, hjoins⟩ : ∃ p, t.calling = some (c, p) ∧
      ∃ k, p = .op (.pthread_join u) k := by
    unfold St.order at hjoin
    split at hjoin
    · rename_i c' op k hcalling
      cases hjoin
      rw [hcalling] at hcall
      cases hcall
      exact ⟨_, hcalling, k, rfl⟩
    · cases hjoin
  obtain ⟨k, rfl⟩ := hjoins
  obtain ⟨hstopped, hqueue, -⟩ := hr.patient c _ hcalling
  have hstarting : t.starting := by
    unfold St.starting
    rw [hcalling, Option.map_some, hstart]
  intro th hth
  rcases hwait : th.wait with _ | on
  · rfl
  · exfalso
    obtain ⟨hup, hin⟩ := h.sleeper hth hwait
    cases on with
    | slot_available p =>
      refine hr.awake hstarting u hstopped ⟨th, hth, ?_⟩
      rw [hwait]
      rfl
    | not_empty q =>
      -- the roll-back has shut the queue down
      have hdown : t.mem.down (.not_empty q) = true := hqueue q (hin q rfl)
      rw [hdown] at hup
      cases hup

/-- The start launches the camera, whose thread takes `n` steps. The stream provider gets no
thread, so the start stops the camera and joins it. -/
def start_without_stream_provider (n : Nat) : List Act :=
  .call .service_start :: List.replicate 10 (.control true) ++ works .camera 0 n ++
    List.replicate 2 (.control true) ++ .control false :: List.replicate 3 (.control true)

/-- The camera has no picture yet. -/
theorem the_roll_back_joins_the_camera :
    ∃ t, run step (St.init small_mem) (start_without_stream_provider 3) = some t ∧
      t.order = some (.pthread_join .camera) ∧ (t.threads .camera).length = 1 ∧
      ∀ th ∈ t.threads .camera, th.wait = none := by
  have hstate : (run step (St.init small_mem) (start_without_stream_provider 3)).map
      (fun t => (t.order, (t.threads .camera).length, t.calling.map (·.1))) =
      some (some (.pthread_join .camera), 1, some .service_start) := by
    decide
  obtain ⟨t, ht, heq⟩ := Option.map_eq_some_iff.mp hstate
  simp only [Prod.mk.injEq] at heq
  exact ⟨t, ht, heq.1, heq.2.1, a_roll_back_waits_for_no_sleeper small_init (by decide)
    (by decide) ht heq.2.2 rfl heq.1⟩

/-- The camera has passed on the only frame of its pool, and sleeps until there is a free
slot. No unit has the frame, and nothing wakes the camera up. -/
theorem the_roll_back_waits_for_a_sleeper :
    ¬ ∀ cfg m acts t c u, vf_service_init cfg = .ok m →
      Along step StartsStopped (St.init m) acts → run step (St.init m) acts = some t →
      t.calling.map (·.1) = some c → c.starts = true → t.order = some (.pthread_join u) →
      ∀ th ∈ t.threads u, th.wait = none := by
  intro h
  have hstate : (run step (St.init small_mem) (start_without_stream_provider 12)).map
      (fun t => (t.order, t.calling.map (·.1),
        decide (∀ th ∈ t.threads .camera, th.wait = none))) =
      some (some (.pthread_join .camera), some .service_start, false) := by
    decide
  obtain ⟨t, ht, heq⟩ := Option.map_eq_some_iff.mp hstate
  simp only [Prod.mk.injEq] at heq
  exact of_decide_eq_false heq.2.2 (h small small_mem _ t .service_start .camera small_init
    (by decide) ht heq.2.1 rfl heq.1)

end

end vision_flow.service
