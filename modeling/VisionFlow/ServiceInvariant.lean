-- The runs of the camera service. In every run that starts the service only when it is
-- stopped, each unit has at most one thread, each thread is at a place in its program
-- that the state of its frames fits, and a sleeping thread sleeps on a condition that is
-- not shut down.
import VisionFlow.ServiceCommands
import VisionFlow.ServiceControl

namespace vision_flow.service

open programs units lifecycle

/-! ## The invariant -/

/-- What is left of a thread's program fits the unit's view. -/
def Fits (u : UnitId) (L : View) : Option (Code vf_err_t) → Prop
  | none => Idle u L
  | some p => wp (Steps u) p (Ran u) L

/-- The thread is at a command that may sleep on the condition. -/
def SleepsAt (on : Cond) : Option (Code vf_err_t) → Prop
  | some (.op c _) => sleeps_on c = some on
  | _ => False

/-- The threads of a unit: at most one, and only between its creation and its join. -/
structure UnitOk (m : Mem) (u : UnitId) (threads : List Thread) (handle : Nat)
    (phase : Phase) : Prop where
  one : threads.length ≤ 1
  handle : ∀ th ∈ threads, th.tid = handle
  fits : ∀ th ∈ threads, Fits u (m.view u) th.pc
  rests : threads = [] → Rests u (m.view u)
  unborn : phase ≠ .created → threads = []
  fresh : phase = .fresh → m.carry u = none
  sleeps : ∀ th ∈ threads, ∀ on, th.wait = some on → m.down on = false ∧ SleepsAt on th.pc

/-- What the controlling thread sees of the service. -/
def St.ctl_view (s : St) : CtlView :=
  { running := s.running, phase := s.phase, pool_down := fun p => (s.mem.pool p).shutdown
    queue_down := fun q => (s.mem.queue q).shutdown, response := s.response }

/-- What is left of the call fits what the controlling thread sees. -/
def CallFits (K : CtlView) : Option (Call × ServiceCode vf_err_t) → Prop
  | none => Quiet K
  | some (c, p) =>
    wp (Orders c.starts c.stops) p (fun _ K' => Quiet K' ∧ (c.stops = true → Off K')) K

structure Inv (cfg : vf_service_cfg_t) (s : St) : Prop where
  frames : Frames cfg s.mem
  units : ∀ u, UnitOk s.mem u (s.threads u) (s.thread u) (s.phase u)
  calling : CallFits s.ctl_view s.calling
  answered : s.response = some stopped_response → AllStopped s.ctl_view

/-- The service is started only when no unit is running. -/
def StartsStopped (s : St) : Act → Prop
  | .call c => c.starts = true → ∀ u, s.running u = false
  | _ => True

instance (s : St) : (a : Act) → Decidable (StartsStopped s a)
  | .call _ => inferInstanceAs (Decidable (_ → _))
  | .worker _ _ _ => isTrue trivial
  | .wake_up _ _ => isTrue trivial
  | .control _ => isTrue trivial

section
variable {cfg : vf_service_cfg_t} {m m' : Mem} {u : UnitId} {threads : List Thread}
  {handle : Nat} {phase : Phase}

/-! ## The threads of a unit -/

theorem UnitOk.alone (h : UnitOk m u threads handle phase) {th : Thread} (hth : th ∈ threads) :
    threads = [th] ∧ phase = .created := by
  refine ⟨?_, ?_⟩
  · rcases threads with _ | ⟨a, _ | ⟨b, rest⟩⟩
    · simp at hth
    · simp at hth
      rw [hth]
    · have := h.one
      simp at this
  · by_contra hp
    rw [h.unborn hp] at hth
    simp at hth

/-- The memory changes where the unit does not look, and some sleepers may wake up. -/
theorem UnitOk.awake (h : UnitOk m u threads handle phase) {g : Thread → Thread}
    (hv : m'.view u = m.view u)
    (hg : ∀ th, (g th).tid = th.tid ∧ (g th).pc = th.pc ∧
      ∀ on, (g th).wait = some on → th.wait = some on ∧ (m.down on = false → m'.down on = false)) :
    UnitOk m' u (threads.map g) handle phase := by
  have hcarry : m'.carry u = m.carry u := congrArg View.carry hv
  refine ⟨by simpa using h.one, ?_, ?_, ?_, ?_, ?_, ?_⟩
  · intro th hth
    obtain ⟨old, hold, rfl⟩ := List.mem_map.mp hth
    rw [(hg old).1]
    exact h.handle old hold
  · intro th hth
    obtain ⟨old, hold, rfl⟩ := List.mem_map.mp hth
    rw [(hg old).2.1, hv]
    exact h.fits old hold
  · intro hnil
    rw [hv]
    exact h.rests (List.map_eq_nil_iff.mp hnil)
  · intro hp
    rw [h.unborn hp, List.map_nil]
  · intro hp
    rw [hcarry]
    exact h.fresh hp
  · intro th hth on hon
    obtain ⟨old, hold, rfl⟩ := List.mem_map.mp hth
    obtain ⟨-, hpc, hwait⟩ := hg old
    obtain ⟨hon', hdown⟩ := hwait on hon
    obtain ⟨hflag, hat⟩ := h.sleeps old hold on hon'
    rw [hpc]
    exact ⟨hdown hflag, hat⟩

/-- The memory changes where the unit does not look. -/
theorem UnitOk.of_view (h : UnitOk m u threads handle phase) (hv : m'.view u = m.view u)
    (hd : ∀ on, m.down on = false → m'.down on = false) : UnitOk m' u threads handle phase := by
  have := h.awake (g := id) hv fun th => ⟨rfl, rfl, fun on hon => ⟨hon, hd on⟩⟩
  rwa [List.map_id] at this

theorem down_of_kept {v : UnitId} (h : Kept cfg v m m') (on : Cond) : m'.down on = m.down on := by
  cases on with
  | not_empty q => exact h.queue_down q
  | slot_available p => exact h.pool_down p

/-- The unit's thread goes on. -/
theorem UnitOk.go {th : Thread} (hh : th.tid = handle) (hp : phase = .created)
    (hfits : Fits u (m.view u) th.pc)
    (hsleep : ∀ on, th.wait = some on → m.down on = false ∧ SleepsAt on th.pc) :
    UnitOk m u [th] handle phase := by
  refine ⟨by simp, ?_, ?_, by simp, fun h => absurd hp h, by simp [hp], ?_⟩
  · intro th' hth'
    rw [List.mem_singleton.mp hth']
    exact hh
  · intro th' hth'
    rw [List.mem_singleton.mp hth']
    exact hfits
  · intro th' hth'
    rw [List.mem_singleton.mp hth']
    exact hsleep

/-- The unit has no thread any more. -/
theorem UnitOk.gone (hrest : Rests u (m.view u)) (hf : phase = .fresh → m.carry u = none) :
    UnitOk m u [] handle phase :=
  ⟨by simp, by simp, by simp, fun _ => hrest, fun _ => rfl, hf, by simp⟩

end

/-! ## Steps of the units -/

section
variable {cfg : vf_service_cfg_t} {s s' : St} {u : UnitId}

/-- A step of a unit that keeps the frames, and leaves its own threads in order. -/
theorem Inv.unit_step (h : Inv cfg s) {m' : Mem} {threads : List Thread}
    (hk : Kept cfg u s.mem m') (hu : UnitOk m' u threads (s.thread u) (s.phase u)) :
    Inv cfg { s with mem := m', threads := Function.update s.threads u threads } := by
  have hview : St.ctl_view
      { s with mem := m', threads := Function.update s.threads u threads } = s.ctl_view := by
    simp only [St.ctl_view, CtlView.mk.injEq, true_and, and_true]
    exact ⟨funext hk.pool_down, funext hk.queue_down⟩
  refine ⟨hk.frames, ?_, ?_, ?_⟩
  · intro v
    by_cases hv : v = u
    · subst hv
      simpa using hu
    · simp only [Function.update_of_ne hv]
      exact (h.units v).of_view (hk.others v hv) fun on hon => (down_of_kept hk on).trans hon
  · rw [hview]
    exact h.calling
  · rw [hview]
    exact h.answered

theorem Inv.signal (h : Inv cfg s) {on : Option Cond} {wakes : Nat → Bool}
    (hs : s.signal on wakes = some s') : Inv cfg s' := by
  unfold St.signal at hs
  rcases on with _ | on
  · cases hs
    exact h
  · simp only at hs
    split at hs
    · cases hs
      refine ⟨h.frames, ?_, h.calling, h.answered⟩
      intro v
      apply (h.units v).awake rfl
      intro th
      split
      · exact ⟨rfl, rfl, by simp⟩
      · exact ⟨rfl, rfl, fun on' hon => ⟨hon, fun hd => hd⟩⟩
    · cases hs

/-- The unit's one thread, with another place in its program. -/
theorem set_thread_eq {th : Thread} (hth : s.threads u = [th]) (m : Mem)
    (pc : Option (Code vf_err_t)) (wait : Option Cond) :
    ({ s with mem := m } : St).set_thread u ⟨th.tid, pc, wait⟩ =
      { s with mem := m, threads := Function.update s.threads u [⟨th.tid, pc, wait⟩] } := by
  simp [St.set_thread, hth]

theorem exit_eq {th : Thread} (hth : s.threads u = [th]) :
    s.exit u th.tid = { s with threads := Function.update s.threads u [] } := by
  simp [St.exit, hth]

theorem Inv.worker (h : Inv cfg s) {th : Thread} {o : Oracle} (hth : th ∈ s.threads u)
    (hs : worker s u th o = some s') : Inv cfg s' := by
  have hu := h.units u
  obtain ⟨hone, hphase⟩ := hu.alone hth
  have hhandle := hu.handle th hth
  have hfits := hu.fits th hth
  have hfresh : s.phase u = .fresh → s.mem.carry u = none := hu.fresh
  have hgo : ∀ pc, Fits u (s.mem.view u) pc → th.wait = none →
      Inv cfg (s.set_thread u { th with pc := pc }) := by
    intro pc hpc hw
    rw [set_thread_eq hone s.mem pc th.wait]
    exact h.unit_step (Kept.refl h.frames)
      (UnitOk.go hhandle hphase hpc fun on hon => by simp [hw] at hon)
  have hgone : Rests u (s.mem.view u) → Inv cfg (s.exit u th.tid) := by
    intro hrest
    rw [exit_eq hone]
    exact h.unit_step (Kept.refl h.frames) (UnitOk.gone hrest hfresh)
  unfold service.worker at hs
  split at hs
  · cases hs
  · rename_i hw
    have hw : th.wait = none := by simpa using hw
    rcases hpc : th.pc with _ | p
    · -- the test of the loop
      rw [hpc] at hfits hs
      simp only at hs
      split at hs
      · cases hs
        exact hgo _ (u.runs hfits) hw
      · cases hs
        exact hgone hfits.1
    · rw [hpc] at hfits hs
      rcases p with err | ⟨c, k⟩
      · -- the end of a run
        have hran : Ran u err (s.mem.view u) := hfits
        unfold Ran at hran
        simp only at hs
        split at hs
        · cases hs
          rename_i he
          rw [if_pos he] at hran
          exact hgone hran
        · rename_i he
          rw [if_neg he] at hran
          split at hs
          · cases hs
            exact hgone hran.1
          · cases hs
            exact hgo _ hran hw
      · -- a command
        have hsound := exec_sound h.frames o c hfits
        simp only at hs
        cases hexec : exec u o s.mem c with
        | done r m' on =>
          rw [hexec] at hsound hs
          obtain ⟨hrest, hkept⟩ := hsound
          simp only at hs
          rw [set_thread_eq hone] at hs
          apply Inv.signal _ hs
          exact h.unit_step hkept
            (UnitOk.go hhandle hphase hrest fun on hon => by simp [hw] at hon)
        | waits m' on =>
          rw [hexec] at hsound hs
          obtain ⟨hagain, hkept, hat, hdown⟩ := hsound
          simp only at hs
          rw [set_thread_eq hone] at hs
          cases hs
          apply h.unit_step hkept
          have hagain' : Fits u (m'.view u) (some (.op c k)) := hagain
          refine UnitOk.go hhandle hphase hagain' fun on' hon' => ?_
          cases hon'
          exact ⟨hdown, hat⟩

theorem Inv.wake_up (h : Inv cfg s) {th : Thread} (hth : th ∈ s.threads u) :
    Inv cfg (s.set_thread u { th with wait := none }) := by
  obtain ⟨hone, hphase⟩ := (h.units u).alone hth
  rw [set_thread_eq hone s.mem th.pc none]
  exact h.unit_step (Kept.refl h.frames) (UnitOk.go ((h.units u).handle th hth) hphase
    ((h.units u).fits th hth) fun on hon => by simp at hon)

end

/-! ## Steps of the controlling thread -/

section
variable {cfg : vf_service_cfg_t} {m : Mem} {s : St} {u : UnitId}

/-- A flag is cleared: a sleeper sleeps on a condition that is not shut down, as before. -/
theorem UnitOk.up {threads : List Thread} {handle : Nat} {phase : Phase}
    (h : UnitOk m u threads handle phase) (on : Cond) :
    UnitOk (m.set_down on false) u threads handle phase := by
  apply h.of_view (view_set_down m on false u)
  intro on' hon
  rw [down_set_down]
  split
  · rfl
  · exact hon

/-- A flag is set, and the sleepers on its condition wake up. -/
theorem UnitOk.woken {handle : Nat} {phase : Phase}
    (h : UnitOk m u (s.threads u) handle phase) (on : Cond) :
    UnitOk (m.set_down on true) u (wake s.threads on (fun _ => true) u) handle phase := by
  apply h.awake (view_set_down m on true u)
  intro th
  by_cases hw : th.wait = some on
  · simp [hw]
  · refine ⟨by simp [hw], by simp [hw], fun on' hon => ?_⟩
    have hon' : th.wait = some on' := by simpa [hw] using hon
    have hne : on' ≠ on := fun he => hw (he ▸ hon')
    refine ⟨hon', fun hdown => ?_⟩
    rw [down_set_down, if_neg hne]
    exact hdown

/-- A thread is created for a unit that has none. -/
theorem UnitOk.born {m : Mem} {handle tid : Nat} {phase : Phase} {threads : List Thread}
    (h : UnitOk m u threads handle phase) (hp : phase = .fresh) :
    UnitOk m u (threads ++ [⟨tid, none, none⟩]) tid .created := by
  have hnil : threads = [] := h.unborn (by simp [hp])
  rw [hnil]
  have hidle : Idle u (m.view u) := ⟨h.rests hnil, h.fresh hp⟩
  exact UnitOk.go rfl rfl hidle fun on hon => by cases hon

/-- A command of the controlling thread. -/
theorem Inv.control (h : Inv cfg s) {call : Call} {c : CtlCmd UnitId QueueId}
    {k : c.Res → ServiceCode vf_err_t} {ok : Bool} {r : c.Res × St}
    (hcall : s.calling = some (call, .op c k)) (hr : control s ok c = some r) :
    Inv cfg { r.2 with calling := some (call, k r.1) } := by
  have hfit := h.calling
  rw [hcall] at hfit
  simp only [CallFits, wp_op] at hfit
  cases c with
  | initialized o =>
    unfold service.control at hr
    cases hr
    refine ⟨h.frames, h.units, ?_, h.answered⟩
    rw [h.frames.initialized]
    exact hfit
  | set_running v b =>
    unfold service.control at hr
    cases hr
    exact ⟨h.frames, h.units, hfit.2, h.answered⟩
  | load_running v =>
    unfold service.control at hr
    cases hr
    exact ⟨h.frames, h.units, hfit, h.answered⟩
  | pthread_create v =>
    obtain ⟨hfresh, hnone, hborn, hfail⟩ := hfit
    cases ok with
    | false =>
      simp only [service.control, Bool.false_eq_true, if_false, Option.some.injEq] at hr
      subst hr
      exact ⟨h.frames, h.units, hfail, h.answered⟩
    | true =>
      simp only [service.control, if_true, Option.some.injEq] at hr
      subst hr
      refine ⟨h.frames, ?_, hborn, ?_⟩
      · intro w
        by_cases hw : w = v
        · subst hw
          simpa using (h.units w).born hfresh
        · simpa [hw] using h.units w
      · intro hans
        have hnone' : s.response = none := hnone
        rw [show s.response = some stopped_response from hans] at hnone'
        cases hnone'
  | pthread_join v =>
    simp only [service.control] at hr
    split at hr
    · cases hr
    · rename_i hany
      simp only [Option.some.injEq] at hr
      subst hr
      have hnil : s.threads v = [] := by
        rcases hth : s.threads v with _ | ⟨th, rest⟩
        · rfl
        · have := (h.units v).handle th (by simp [hth])
          simp [hth, this] at hany
      refine ⟨h.frames, ?_, hfit.2, ?_⟩
      · intro w
        by_cases hw : w = v
        · subst hw
          simpa [hnil] using UnitOk.gone ((h.units w).rests hnil) (by simp)
        · simpa [hw] using h.units w
      · intro hans w
        by_cases hw : w = v
        · subst hw
          simp [St.ctl_view]
        · simpa [St.ctl_view, hw] using h.answered hans w
  | pool_reset p =>
    unfold service.control at hr
    cases hr
    refine ⟨h.frames.set_down (.slot_available p) false,
      fun w => (h.units w).up (.slot_available p), ?_, h.answered⟩
    simp only [CallFits, St.ctl_view, buf_pool.vf_buf_pool_reset, shutdown_pool_flag]
    exact hfit
  | pool_shutdown p =>
    unfold service.control at hr
    cases hr
    refine ⟨h.frames.set_down (.slot_available p) true,
      fun w => (h.units w).woken (.slot_available p), ?_, h.answered⟩
    simp only [CallFits, St.ctl_view, St.broadcast, buf_pool.vf_buf_pool_shutdown,
      shutdown_pool_flag]
    exact hfit
  | queue_reset q =>
    unfold service.control at hr
    cases hr
    refine ⟨h.frames.set_down (.not_empty q) false,
      fun w => (h.units w).up (.not_empty q), ?_, h.answered⟩
    simp only [CallFits, St.ctl_view, buf_queue.vf_buf_queue_reset, shutdown_queue_flag]
    exact hfit
  | queue_shutdown q =>
    unfold service.control at hr
    cases hr
    refine ⟨h.frames.set_down (.not_empty q) true,
      fun w => (h.units w).woken (.not_empty q), ?_, h.answered⟩
    simp only [CallFits, St.ctl_view, St.broadcast, buf_queue.vf_buf_queue_shutdown,
      shutdown_queue_flag]
    exact hfit
  | send_response response =>
    unfold service.control at hr
    cases hr
    refine ⟨h.frames, h.units, hfit.2, ?_⟩
    intro hans
    exact hfit.1 (Option.some.inj hans)
  | send_stats =>
    unfold service.control at hr
    cases hr
    exact ⟨h.frames, h.units, hfit, h.answered⟩

/-! ## Calls -/

/-- The history begins anew when no unit carries anything. -/
theorem frames_begin (h : Frames cfg s.mem) : Frames cfg s.begin.mem := by
  refine { h with flow := ?_, order := ?_ }
  · simp [Mem.in_flight, St.begin, Mem.numbers]
  · simp [Mem.taken, St.begin]

theorem view_begin (s : St) (u : UnitId) :
    s.begin.mem.view u = (s.mem.view u).carrying none := rfl

theorem rests_carrying {L : View} (h : Rests u L) (n : Option Nat) : Rests u (L.carrying n) := by
  cases u <;> exact h

/-- After a start has begun, no unit has had a thread. -/
theorem begin_units (h : Inv cfg s) (hquiet : Quiet s.ctl_view)
    (hstop : ∀ u, s.running u = false) (u : UnitId) :
    UnitOk s.begin.mem u (s.threads u) (s.thread u) .fresh := by
  have hnil : s.threads u = [] := (h.units u).unborn (hquiet u (hstop u))
  have hrest : Rests u (s.begin.mem.view u) := by
    rw [view_begin]
    exact rests_carrying ((h.units u).rests hnil) none
  rw [hnil]
  exact UnitOk.gone hrest fun _ => rfl

theorem Inv.call (h : Inv cfg s) {c : Call} (hcall : s.calling = none)
    (hguard : c.starts = true → ∀ u, s.running u = false) :
    Inv cfg { (if c.starts then s.begin else s) with
      calling := some (c, c.code), response := none } := by
  have hquiet : Quiet s.ctl_view := by
    have := h.calling
    rwa [hcall] at this
  by_cases hs : c.starts = true
  · rw [if_pos hs]
    have hbegun : Quiet { s.begin with response := none }.ctl_view := fun u _ => by
      simp [St.ctl_view, St.begin]
    exact ⟨frames_begin h.frames, begin_units h hquiet (hguard hs),
      Call.runs c hbegun rfl fun _ _ => rfl, by simp⟩
  · rw [if_neg hs]
    have hquiet' : Quiet { s with response := none }.ctl_view := hquiet
    exact ⟨h.frames, h.units, Call.runs c hquiet' rfl fun he => absurd he hs, by simp⟩

end

/-! ## Runs -/

section
variable {cfg : vf_service_cfg_t} {s s' : St}

/-- A step that starts the service only when it is stopped keeps the invariant. -/
theorem Inv.step (h : Inv cfg s) {a : Act} (hguard : StartsStopped s a)
    (hs : step s a = some s') : Inv cfg s' := by
  cases a with
  | worker u tid o =>
    obtain ⟨th, hth, hs⟩ := Option.bind_eq_some_iff.mp hs
    exact h.worker (List.mem_of_find?_eq_some hth) hs
  | wake_up u tid =>
    obtain ⟨th, hth, rfl⟩ := Option.map_eq_some_iff.mp hs
    exact h.wake_up (List.mem_of_find?_eq_some hth)
  | call c =>
    rcases hcall : s.calling with _ | called
    · simp only [service.step, hcall, Option.some.injEq] at hs
      subst hs
      exact h.call hcall hguard
    · simp [service.step, hcall] at hs
  | control ok =>
    rcases hcall : s.calling with _ | ⟨call, err | ⟨c, k⟩⟩
    · simp [service.step, hcall] at hs
    · simp only [service.step, hcall, Option.some.injEq] at hs
      subst hs
      have hfit := h.calling
      rw [hcall] at hfit
      exact ⟨h.frames, h.units, hfit.1, h.answered⟩
    · simp only [service.step, hcall] at hs
      obtain ⟨r, hr, rfl⟩ := Option.map_eq_some_iff.mp hs
      exact h.control hcall hr

end

end vision_flow.service
