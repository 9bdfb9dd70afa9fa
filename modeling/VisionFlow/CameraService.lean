-- Each run of the program with a camera is a run of its service, with one controlling thread:
-- the calls of the two threads come one after the other, first the start, then the requests of
-- the clients, then the stop. So what holds of the runs of the service holds in the program.
import VisionFlow.CameraProgramRuns

namespace vision_flow.camera_program

open programs units lifecycle runs

/-! ## The controlling thread -/

section
variable {v : service.St} {x : Option (Call × ServiceCode vf_err_t)}

theorem signal_calling {on : Option service.Cond} {wakes : Nat → Bool} :
    ({ v with calling := x } : service.St).signal on wakes =
      (v.signal on wakes).map fun v' => { v' with calling := x } := by
  unfold service.St.signal
  split
  · rfl
  · split <;> rfl

/-- A unit does not look at who controls the service. -/
theorem worker_calling (u : UnitId) (th : service.Thread) (o : service.Oracle) :
    service.worker { v with calling := x } u th o =
      (service.worker v u th o).map fun v' => { v' with calling := x } := by
  unfold service.worker
  by_cases hwait : th.wait = none
  · rw [if_neg (not_not.mpr hwait), if_neg (not_not.mpr hwait)]
    rcases th.pc with _ | err | ⟨c, k⟩
    · simp only
      split <;> rfl
    · simp only
      split
      · rfl
      · split <;> rfl
    · cases hexec : service.exec u o v.mem c with
      | waits m on =>
        simp only [hexec]
        rfl
      | done r m on =>
        simp only [hexec]
        exact signal_calling
          (v := ({ v with mem := m } : service.St).set_thread u { th with pc := some (k r) })
  · rw [if_pos hwait, if_pos hwait]
    rfl

theorem control_calling (ok : Bool) (c : CtlCmd UnitId QueueId) :
    service.control { v with calling := x } ok c =
      (service.control v ok c).map fun r => (r.1, { r.2 with calling := x }) := by
  cases c with
  | pthread_create u =>
    simp only [service.control]
    split <;> rfl
  | pthread_join u =>
    simp only [service.control]
    split <;> rfl
  | _ => rfl

end

/-! ## What the program shows of the service -/

/-- The service, with the call that a thread is in. -/
def St.seen (s : St) (v : service.St) : service.St := { v with calling := s.calling }

def called : service.Act → Option Call
  | .call c => some c
  | _ => none

/-- The call that the thread is about to begin. -/
def Pc.next_call {α : Type} : Pc α → Option Call
  | .code (.op (.call c) _) => some c
  | _ => none

/-- A client's request to start the service comes only when no unit is running. -/
def StartsStopped (s : St) : Act → Prop
  | .server _ => ∀ c, s.server.next_call = some c → c.starts = true → Off s
  | _ => True

instance (s : St) : Decidable (Off s) := inferInstanceAs (Decidable (∀ v ∈ s.svc, ∀ _, _))

instance (s : St) : (a : Act) → Decidable (StartsStopped s a)
  | .server _ => inferInstanceAs (Decidable (∀ c ∈ s.server.next_call, _ → _))
  | .main _ => isTrue trivial
  | .worker _ _ _ => isTrue trivial
  | .wake_up _ _ => isTrue trivial
  | .signal => isTrue trivial
  | .connect => isTrue trivial
  | .send _ _ => isTrue trivial
  | .hang_up _ => isTrue trivial

/-- The service is where a run of it comes to, whose calls are those of the program. If
`guarded`, each of them that starts it finds it stopped. -/
def Traced (guarded : Prop) (s : St) : Prop :=
  ∀ v, s.svc = some v → ∃ m acts, service.vf_service_init camera_cfg = .ok m ∧
    run service.step (.init m) acts = some (s.seen v) ∧ acts.filterMap called = s.calls ∧
    (guarded → Along service.step service.StartsStopped (.init m) acts)

section
variable {guarded : Prop} {s s' : St} {stage : Stage} {o : Oracle}

/-- The service does not go on. -/
theorem Traced.stays (h : Traced guarded s) (hsvc : ∀ v, s'.svc = some v → s.svc = some v)
    (hcalling : s'.calling = s.calling) (hcalls : s'.calls = s.calls) : Traced guarded s' := by
  intro v hv
  obtain ⟨m, acts, hinit, hrun, hacts, hguard⟩ := h v (hsvc v hv)
  refine ⟨m, acts, hinit, ?_, hacts.trans hcalls.symm, hguard⟩
  rw [hrun, St.seen, St.seen, hcalling]

/-- The service goes on by one step. -/
theorem Traced.goes_on (h : Traced guarded s) {v v' : service.St} (hv : s.svc = some v)
    (hv' : s'.svc = some v') {a : service.Act} (hstep : service.step (s.seen v) a = some (s'.seen v'))
    (hcalls : s'.calls = s.calls ++ (called a).toList)
    (hstarts : guarded → service.StartsStopped (s.seen v) a) : Traced guarded s' := by
  intro w hw
  obtain rfl : v' = w := Option.some.inj (hv'.symm.trans hw)
  obtain ⟨m, acts, hinit, hrun, hacts, hguard⟩ := h v hv
  refine ⟨m, acts ++ [a], hinit, ?_, ?_, fun hg => along_snoc (hguard hg) hrun (hstarts hg)⟩
  · rw [run_append, hrun]
    simpa [run] using hstep
  · rw [List.filterMap_append, hacts, hcalls]
    cases hc : called a <;> simp [hc]

/-- A call begins, where no thread is in one. -/
theorem Traced.enters (h : Traced guarded s) (hcalling : s.calling = none) {c : Call}
    (hsvc : s'.svc = (s.enter c).svc) (hcalling' : s'.calling = some (c, c.code))
    (hcalls : s'.calls = s.calls ++ [c]) (hstarts : guarded → c.starts = true → Off s) :
    Traced guarded s' := by
  intro w hw
  obtain ⟨v, hv, heq⟩ := Option.map_eq_some_iff.mp (hsvc.symm.trans hw)
  refine h.goes_on hv hw (a := .call c) ?_ (by simp [called, hcalls]) ?_ w hw
  · subst heq
    simp only [service.step, St.seen, hcalling, hcalling']
    split <;> rfl
  · intro hg hc u
    exact hstarts hg hc v hv u

/-- A call goes on by one command. -/
theorem Traced.commands (h : Traced guarded s) {v v' : service.St} (hv : s.svc = some v)
    (hv' : s'.svc = some v') {c : Call} {cmd : CtlCmd UnitId QueueId}
    {q : cmd.Res → ServiceCode vf_err_t} {r : cmd.Res} {ok : Bool}
    (hcalling : s.calling = some (c, .op cmd q)) (hcalling' : s'.calling = some (c, q r))
    (hdo : service.control v ok cmd = some (r, v')) (hcalls : s'.calls = s.calls) :
    Traced guarded s' := by
  refine h.goes_on hv hv' (a := .control ok) ?_ (by simp [called, hcalls]) fun _ => trivial
  simp only [service.step, St.seen, hcalling, hcalling', control_calling, hdo, Option.map_some]

/-- A call ends. -/
theorem Traced.leaves (h : Traced guarded s) {c : Call} {err : vf_err_t}
    (hsvc : s'.svc = s.svc) (hcalling : s.calling = some (c, .ret err))
    (hcalling' : s'.calling = none) (hcalls : s'.calls = s.calls) : Traced guarded s' := by
  intro w hw
  have hv : s.svc = some w := hsvc.symm.trans hw
  refine h.goes_on hv hw (a := .control true) ?_ (by simp [called, hcalls])
    (fun _ => trivial) w hw
  simp only [service.step, St.seen, hcalling, hcalling']

/-! ## Steps -/

/-- The two threads are not in calls at the same time. -/
theorem Inv.one_call (h : Inv s stage) : s.main.calling = none ∨ s.server = .gone := by
  have hfit := h.main
  rcases hmain : s.main with _ | p | ⟨c, q, k⟩ | _
  · exact .inl rfl
  · exact .inl rfl
  · rw [hmain] at hfit
    exact .inr (h.joinable hfit.1)
  · exact .inl rfl

theorem calling_of_server (h : s.main.calling = none) : s.calling = s.server.calling := by
  unfold St.calling
  rw [h]

theorem same_calling (h : s.main.calling = none) (hmain : s'.main = s.main)
    (hserver : s'.server.calling = s.server.calling) : s'.calling = s.calling := by
  have h' : s'.main.calling = none := by rw [hmain, h]
  rw [calling_of_server h', hserver, calling_of_server h]

theorem Traced.main_step (ht : Traced guarded s) (h : Inv s stage)
    (hs : camera_program.main_step o s = some s') : Traced guarded s' := by
  have hfit := h.main
  rcases main_step_cases hs with ⟨hmain, rfl | ⟨-, rfl⟩⟩ | ⟨hmain, rfl⟩ | ⟨err, hmain, rfl⟩ |
    ⟨pc', t, hadv, rfl⟩
  · exact ht
  · exact ht.stays (fun v hv => hv) (by simp [St.calling, hmain, Pc.calling]) rfl
  · exact ht.stays (fun v hv => hv) (by simp [St.calling, hmain, Pc.calling]) rfl
  · exact ht.stays (fun v hv => hv) (by simp [St.calling, hmain, Pc.calling]) rfl
  · rcases advance_cases hadv with ⟨c, k, hmain, rfl, rfl⟩ | ⟨c, k, r, hmain, hdo, rfl⟩ |
      ⟨c, cmd, q, k, r, hmain, hdo, rfl⟩ | ⟨c, err, k, hmain, rfl, rfl⟩
    · rw [hmain] at hfit
      obtain ⟨hcode, hout⟩ := hfit
      obtain ⟨hj, hoff⟩ : s.joinable = false ∧ (c.starts = true → Off s) := by
        cases c with
        | service_start =>
          obtain ⟨-, hj, hstage, -⟩ := hcode
          have hnew : stage = .new := hstage
          exact ⟨hj, fun _ => hout.off (by rw [hnew]; decide)⟩
        | service_stop => exact ⟨hcode.2.1, fun h => by cases h⟩
        | request text => exact hcode.elim
      exact ht.enters (by simp [St.calling, hmain, Pc.calling, h.joinable hj]) rfl rfl rfl
        fun _ => hoff
    · rw [hmain] at hfit
      obtain ⟨hcode, hout⟩ := hfit
      have hleaves := do_sys_leaves hdo
      have hcalling : s.calling = s.server.calling := by simp [St.calling, hmain, Pc.calling]
      rcases hleaves.svc with hsvc | ⟨-, hnone⟩ | ⟨rfl, m, hinit, hsvc⟩
      · refine ht.stays (fun v hv => hsvc.symm.trans hv) ?_ hleaves.calls
        rw [hcalling]
        rcases hleaves.server with hserver | ⟨rfl, hserver⟩
        · exact congrArg Pc.calling hserver
        · obtain ⟨-, hj, -⟩ := hcode
          have hloop : t.server = .loop := hserver
          rw [h.joinable hj]
          simp [St.calling, Pc.calling, hloop]
      · intro v hv
        cases hnone.symm.trans hv
      · obtain ⟨-, hj, rfl, -⟩ := hcode
        intro v hv
        obtain rfl : service.St.init m = v := Option.some.inj (hsvc.symm.trans hv)
        have hnocall : t.server.calling = none := by
          rcases hleaves.server with hserver | ⟨hne, -⟩
          · have hgone : t.server = .gone := hserver.trans (h.joinable hj)
            rw [hgone]
            rfl
          · cases hne
        have hcalls : s.calls = [] := hout.called
        refine ⟨m, [], hinit, ?_, hcalls.symm.trans hleaves.calls.symm, fun _ => trivial⟩
        have hnone : ({ t with main := .code (k r) } : St).calling = none :=
          (calling_of_server rfl).trans hnocall
        rw [St.seen, hnone]
        rfl
    · rw [hmain] at hfit
      obtain ⟨hj, -, v, hv, hq⟩ := hfit
      obtain ⟨v', hctl, rfl, -⟩ := do_service.flags hv (h.made v hv) hq hdo
      exact ht.commands hv rfl (by simp [St.calling, hmain, Pc.calling]) rfl hctl rfl
    · rw [hmain] at hfit
      have hgone : s.server.calling = none := by
        rw [h.joinable hfit.1]
        rfl
      have hcall : s.calling = some (c, .ret err) := by simp [St.calling, hmain, Pc.calling]
      exact ht.leaves rfl hcall ((calling_of_server rfl).trans hgone) rfl

theorem Traced.server_step (ht : Traced guarded s) (h : Inv s stage)
    (hstarts : guarded → StartsStopped s (.server o))
    (hs : camera_program.server_step o s = some s') : Traced guarded s' := by
  have hmain : s.main.calling = none := by
    rcases h.one_call with hmain | hgone
    · exact hmain
    · unfold camera_program.server_step at hs
      rw [hgone] at hs
      cases hs
  have hlive := h.live (by
    by_contra hj
    have hgone := h.joinable (Bool.eq_false_iff.mpr hj)
    unfold camera_program.server_step at hs
    rw [hgone] at hs
    cases hs)
  have hfit := h.server
  rcases server_step_cases hs with ⟨hserver, rfl⟩ | ⟨stop, hserver, rfl⟩ | ⟨pc', t, hadv, rfl⟩
  · refine ht.stays (fun v hv => hv) (same_calling hmain rfl ?_) rfl
    rw [hserver]
    simp only
    split <;> rfl
  · refine ht.stays (fun v hv => hv) (same_calling hmain rfl ?_) rfl
    rw [hserver]
    cases stop <;> rfl
  · rcases advance_cases hadv with ⟨c, k, hserver, rfl, rfl⟩ | ⟨c, k, r, hserver, hdo, rfl⟩ |
      ⟨c, cmd, q, k, r, hserver, hdo, rfl⟩ | ⟨c, err, k, hserver, rfl, rfl⟩
    · exact ht.enters (by rw [calling_of_server hmain, hserver]; rfl) rfl
        (calling_of_server hmain) rfl fun hg => hstarts hg c (by rw [hserver]; rfl)
    · rw [hserver] at hfit
      obtain ⟨b, hhold, hcode⟩ := hfit
      obtain ⟨b', -, -, client_fd, accepted, open_fds, closed, hr⟩ :=
        do_sys.serves hhold hlive.2.2 hcode hdo
      simp only at hr
      subst hr
      refine ht.stays (fun v hv => hv) (same_calling hmain rfl ?_) rfl
      rw [hserver]
      rfl
    · rw [hserver] at hfit
      obtain ⟨-, hhold, -⟩ := hfit
      obtain ⟨v, hv⟩ := Option.isSome_iff_exists.mp hlive.1
      obtain ⟨v', killed, hctl, hr⟩ := do_service.serves hv hhold hdo
      simp only at hr
      subst hr
      exact ht.commands hv rfl (by rw [calling_of_server hmain, hserver]; rfl)
        (calling_of_server hmain) hctl rfl
    · exact ht.leaves rfl (by rw [calling_of_server hmain, hserver]; rfl)
        (calling_of_server hmain) rfl

theorem Traced.step (ht : Traced guarded s) (h : Inv s stage) {a : Act}
    (hstarts : guarded → StartsStopped s a) (hs : camera_program.step s a = some s') :
    Traced guarded s' := by
  unfold camera_program.step at hs
  split at hs
  · cases hs
  · cases a with
    | main o => exact ht.main_step h hs
    | server o => exact ht.server_step h hstarts hs
    | worker u tid o =>
      obtain ⟨v, hv, hs⟩ := Option.bind_eq_some_iff.mp hs
      obtain ⟨v', hstep, rfl⟩ := Option.map_eq_some_iff.mp hs
      refine ht.goes_on hv rfl (a := .worker u tid o) ?_ (by simp [called]) fun _ => trivial
      obtain ⟨th, hth, hw⟩ := Option.bind_eq_some_iff.mp hstep
      have hth' : ((s.seen v).threads u).find? (·.tid = tid) = some th := hth
      simp only [service.step, hth', Option.bind_some]
      rw [St.seen, worker_calling, hw]
      rfl
    | wake_up u tid =>
      obtain ⟨v, hv, hs⟩ := Option.bind_eq_some_iff.mp hs
      obtain ⟨v', hstep, rfl⟩ := Option.map_eq_some_iff.mp hs
      refine ht.goes_on hv rfl (a := .wake_up u tid) ?_ (by simp [called]) fun _ => trivial
      obtain ⟨th, hth, rfl⟩ := Option.map_eq_some_iff.mp hstep
      have hth' : ((s.seen v).threads u).find? (·.tid = tid) = some th := hth
      simp only [service.step, hth', Option.map_some]
      rfl
    | signal =>
      cases hs
      exact ht.stays (fun v hv => hv) rfl rfl
    | connect =>
      simp only at hs
      split at hs <;> cases hs
      exact ht.stays (fun v hv => hv) rfl rfl
    | send n text =>
      simp only at hs
      split at hs <;> cases hs
      exact ht.stays (fun v hv => hv) rfl rfl
    | hang_up n =>
      simp only at hs
      split at hs <;> cases hs
      exact ht.stays (fun v hv => hv) rfl rfl

/-! ## Runs -/

variable {acts : List Act}

/-- If the calls so far found the service stopped where they started it, no unit has a thread
when the memory of the service is freed. -/
theorem Inv.frees (h : Inv s stage) (ht : Traced guarded s) (hg : guarded)
    (hfrees : s.main.frees = true) :
    s.server = .gone ∧ ∃ v, s.svc = some v ∧ ∀ u, v.threads u = [] := by
  obtain ⟨k, hmain⟩ : ∃ k, s.main = .code (.op .service_deinit k) := by
    unfold Pc.frees at hfrees
    split at hfrees
    · rename_i k hmain
      exact ⟨k, hmain⟩
    · cases hfrees
  have hfit := h.main
  rw [hmain] at hfit
  obtain ⟨⟨hsome, hj, -, hstage, -⟩, hout⟩ := hfit
  have hgone := h.joinable hj
  obtain ⟨v, hv⟩ := Option.isSome_iff_exists.mp hsome
  obtain ⟨m, service_acts, hinit, hrun, -, hguard⟩ := ht v hv
  have hcalling : s.calling = none := by
    have hnone : s.main.calling = none := by
      rw [hmain]
      rfl
    rw [calling_of_server hnone, hgone]
    rfl
  have hinv := service.run_inv hinit (hguard hg) hrun
  have hquiet := hinv.calling
  rw [show (s.seen v).calling = none from hcalling] at hquiet
  exact ⟨hgone, v, hv, fun u => (hinv.units u).unborn (hquiet u (hout.off hstage v hv u))⟩

/-- The service goes on as a run of it does, and if its starts are guarded, nothing is to
blame. -/
theorem run_traced (hok : Along step (fun s a => guarded → StartsStopped s a) .start acts)
    (hrun : run step .start acts = some s) :
    ∃ stage, Inv s stage ∧ Traced guarded s ∧ (guarded → s.fault = false) := by
  have hstart : Inv .start .new ∧ Traced guarded .start ∧ (guarded → St.start.fault = false) := by
    refine ⟨St.start.inv, ?_, fun _ => rfl⟩
    rintro v ⟨⟩
  have hstep : ∀ (s : St) a s',
      (∃ stage, Inv s stage ∧ Traced guarded s ∧ (guarded → s.fault = false)) →
      (guarded → StartsStopped s a) → camera_program.step s a = some s' →
      ∃ stage, Inv s' stage ∧ Traced guarded s' ∧ (guarded → s'.fault = false) := by
    rintro s a s' ⟨stage, h, ht, hclean⟩ hguard hs
    obtain ⟨stage', h'⟩ := h.step hs
    refine ⟨stage', h', ht.step h hguard hs, fun hg => ?_⟩
    by_contra hfault
    obtain ⟨hfrees, hthreads⟩ := h.step_fault hs (hclean hg) (Bool.not_eq_false _ ▸ hfault)
    obtain ⟨-, v, hv, hnone⟩ := h.frees ht hg hfrees
    simp [St.unit_threads, hv, hnone] at hthreads
  exact run_keeps hstep ⟨.new, hstart⟩ hok hrun

theorem run_guarded (hstarts : Along step StartsStopped .start acts)
    (hrun : run step .start acts = some s) :
    ∃ stage, Inv s stage ∧ Traced True s ∧ s.fault = false := by
  obtain ⟨stage, h, ht, hclean⟩ := run_traced (along_mono (fun _ _ h _ => h) hstarts) hrun
  exact ⟨stage, h, ht, hclean trivial⟩

theorem run_inv (hrun : run step .start acts = some s) : ∃ stage, Inv s stage := by
  have hok : Along step (fun s a => False → StartsStopped s a) .start acts :=
    along_mono (fun _ _ _ h => h.elim) (along_true acts)
  obtain ⟨stage, h, -⟩ := run_traced hok hrun
  exact ⟨stage, h⟩

/-- First the start, then the requests of the clients, then the stop. -/
def InOrder (calls : List Call) : Prop :=
  ∃ texts : List (List Char), calls = [] ∨ calls = .service_start :: texts.map .request ∨
    calls = .service_start :: texts.map .request ++ [.service_stop]

theorem Called.in_order {calls : List Call} (h : Called stage calls) : InOrder calls := by
  cases stage with
  | new => exact ⟨[], .inl h⟩
  | started =>
    obtain ⟨texts, rfl⟩ := h
    exact ⟨texts, .inr (.inl rfl)⟩
  | failed => exact ⟨[], .inr (.inl h)⟩
  | stopped =>
    obtain ⟨texts, rfl⟩ := h
    exact ⟨texts, .inr (.inr rfl)⟩

theorem Inv.in_order (h : Inv s stage) : InOrder s.calls := by
  have hfit := h.main
  rcases hmain : s.main with _ | p | ⟨c, q, k⟩ | _ <;> rw [hmain] at hfit
  · exact hfit.2.called.in_order
  · exact hfit.2.called.in_order
  · obtain ⟨-, hcalls, -⟩ := hfit
    cases c with
    | service_start => exact ⟨[], .inr (.inl hcalls.2)⟩
    | service_stop => exact Called.in_order hcalls.2
    | request text => exact hcalls.elim
  · obtain ⟨err, -, -, hout⟩ := hfit
    exact hout.called.in_order

/-- In each state of each run at most one thread is in a call of the service. The calls so
far are in order, and the service is where a run of it comes to in which one thread makes
just these calls. If the clients start it only when it is stopped, so do the calls of that
run. -/
theorem each_run_is_a_run_of_the_service (hrun : run step .start acts = some s) :
    (s.main.calling = none ∨ s.server.calling = none) ∧ InOrder s.calls ∧
      ∀ v, s.svc = some v → ∃ m service_acts, service.vf_service_init camera_cfg = .ok m ∧
        run service.step (.init m) service_acts = some (s.seen v) ∧
        service_acts.filterMap called = s.calls ∧
        (Along step StartsStopped .start acts →
          Along service.step service.StartsStopped (.init m) service_acts) := by
  have hok : Along step (fun s a => Along step StartsStopped .start acts → StartsStopped s a)
      .start acts := by
    by_cases hguard : Along step StartsStopped .start acts
    · exact along_mono (fun _ _ h _ => h) hguard
    · exact along_mono (fun _ _ _ h => absurd h hguard) (along_true acts)
  obtain ⟨stage, h, ht, -⟩ := run_traced hok hrun
  refine ⟨?_, h.in_order, ht⟩
  rcases h.one_call with hmain | hgone
  · exact .inl hmain
  · exact .inr (by rw [hgone]; rfl)

def calm : Oracle := ⟨.VF_SUCCESS, true⟩

def mains (n : Nat) : List Act := List.replicate n (.main calm)

def servers (n : Nat) : List Act := List.replicate n (.server calm)

/-- The thread of a unit ends, and the server, which waits for it, goes on. -/
def joined (u : UnitId) (tid n : Nat) : List Act :=
  .worker u tid ⟨.VF_SUCCESS, fun _ => 0, fun _ => true⟩ :: servers n

/-- The service starts, and a client stops it before any unit runs. Then the signal comes,
and the main thread stops the server and the service. -/
def a_client_and_a_signal : List Act :=
  mains 30 ++ [.connect, .send 0 "\x7b\"cmd\":\"stop\"\x7d\n".toList] ++ servers 11 ++
    joined .file_out 3 4 ++ joined .conversion 2 4 ++ joined .stream_provider 1 3 ++
    joined .camera 0 6 ++ [.signal] ++ mains 5 ++ servers 3 ++ mains 15

theorem a_client_stops_it_before_the_signal : ∃ s, run step .start a_client_and_a_signal = some s ∧
    s.calls.length = 3 ∧ InOrder s.calls ∧ ∀ v, s.svc = some v → ∃ m service_acts,
      service.vf_service_init camera_cfg = .ok m ∧
      run service.step (.init m) service_acts = some (s.seen v) ∧
      service_acts.filterMap called = s.calls ∧
      Along service.step service.StartsStopped (.init m) service_acts := by
  have hstate : (run step .start a_client_and_a_signal).map (·.calls.length) = some 3 := by
    decide +kernel
  have hstarts : Along step StartsStopped .start a_client_and_a_signal := by decide +kernel
  obtain ⟨s, hrun, hcalls⟩ := Option.map_eq_some_iff.mp hstate
  obtain ⟨-, horder, hservice⟩ := each_run_is_a_run_of_the_service hrun
  refine ⟨s, hrun, hcalls, horder, fun v hv => ?_⟩
  obtain ⟨m, service_acts, hinit, hrun', hcalled, hguard⟩ := hservice v hv
  exact ⟨m, service_acts, hinit, hrun', hcalled, hguard hstarts⟩

/-- Nothing is used that is closed, freed or not there yet. At most one client's socket is
open, that of the last client that was accepted, and the others are closed, each once. When
the main thread has ended, all is given back, and the exit code is a success just if the
service was stopped: an init of the server that failed before that is not reported. -/
structure Tidy (s : St) : Prop where
  fault : s.fault = false
  one_client : s.open_fds = ∅ ∧ s.closed = List.range s.accepted ∨
    ∃ n, s.open_fds = {n} ∧ s.accepted = n + 1 ∧ s.closed = List.range n
  ended : ∀ err, s.exit_code = some err → s.svc = none ∧ s.listener = none ∧
    s.server = .gone ∧ s.open_fds = ∅ ∧ s.closed = List.range s.accepted ∧
    (err = .VF_SUCCESS ↔ .service_stop ∈ s.calls)

theorem Holding.one_client {b : Bool} (h : Holding s b) :
    s.open_fds = ∅ ∧ s.closed = List.range s.accepted ∨
      ∃ n, s.open_fds = {n} ∧ s.accepted = n + 1 ∧ s.closed = List.range n := by
  cases b with
  | false => exact .inl h
  | true =>
    obtain ⟨n, -, hopen, haccepted, hclosed⟩ := h
    exact .inr ⟨n, hopen, haccepted, hclosed⟩

/-- A stop is among the calls just if the main thread has made it. -/
theorem Called.stopped_iff {calls : List Call} (h : Called stage calls) :
    .service_stop ∈ calls ↔ stage = .stopped := by
  cases stage with
  | new =>
    obtain rfl : calls = [] := h
    simp
  | started =>
    obtain ⟨texts, rfl⟩ := h
    simp
  | failed =>
    obtain rfl : calls = [.service_start] := h
    simp
  | stopped =>
    obtain ⟨texts, rfl⟩ := h
    simp

/-- If the clients start the service only when it is stopped, no unit has a thread when the
memory of the service is freed. -/
theorem the_service_is_freed_without_threads
    (hstarts : Along step StartsStopped .start acts) (hrun : run step .start acts = some s)
    (hfrees : s.main.frees = true) :
    s.server = .gone ∧ ∃ v, s.svc = some v ∧ ∀ u, v.threads u = [] := by
  obtain ⟨stage, h, ht, -⟩ := run_guarded hstarts hrun
  exact h.frees ht trivial hfrees

theorem the_client_leaves_no_thread : ∃ s, run step .start a_client_and_a_signal = some s ∧
    s.main.frees = true ∧ s.server = .gone ∧ ∃ v, s.svc = some v ∧ ∀ u, v.threads u = [] := by
  have hstate : (run step .start a_client_and_a_signal).map (·.main.frees) = some true := by
    decide +kernel
  obtain ⟨s, hrun, hfrees⟩ := Option.map_eq_some_iff.mp hstate
  exact ⟨s, hrun, hfrees,
    the_service_is_freed_without_threads (by decide +kernel) hrun hfrees⟩

end

end vision_flow.camera_program
