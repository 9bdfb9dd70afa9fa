-- The runs of the program with a camera that never end, where each thread is scheduled
-- fairly. A call of the service comes to its end in such a run: a stop waits for threads that
-- end, and a start whose threads can all be created waits for none.
import VisionFlow.CameraService
import VisionFlow.Lib.Fairness
import VisionFlow.ServiceProgress

namespace vision_flow.camera_program

open programs units lifecycle runs fairness

/-! ## The scheduler -/

/-- What the scheduler runs. -/
inductive Task
  | main
  | server
  | unit (u : UnitId) (tid : Nat)

def Act.task : Act → Option Task
  | .main _ => some .main
  | .server _ => some .server
  | .worker u tid _ => some (.unit u tid)
  | _ => none

/-- The thread does not wait, where no system call fails. -/
def CanRun : Task → St → Prop
  | .main, s => (main_step calm s).isSome = true
  | .server, s => (server_step calm s).isSome = true
  | .unit u tid, s => ∃ v th, s.svc = some v ∧ (v.threads u).find? (·.tid = tid) = some th ∧
      th.wait = none

/-- The next command of the thread creates the thread of a unit. -/
def Pc.creates {α : Type} : Pc α → Bool
  | .inside _ (.op (.pthread_create _) _) _ => true
  | _ => false

/-- The thread of a unit is created. -/
def Creates (s : St) : Act → Prop
  | .main o => s.main.creates = true → o.ok = true
  | .server o => s.server.creates = true → o.ok = true
  | _ => True

instance (s : St) : (a : Act) → Decidable (Creates s a)
  | .main _ => inferInstanceAs (Decidable (_ → _))
  | .server _ => inferInstanceAs (Decidable (_ → _))
  | .worker _ _ _ => isTrue trivial
  | .wake_up _ _ => isTrue trivial
  | .signal => isTrue trivial
  | .connect => isTrue trivial
  | .send _ _ => isTrue trivial
  | .hang_up _ => isTrue trivial

/-- The client has sent something, or it has hung up. -/
def Client.heard (c : Client) : Bool := c.sent.isSome || c.hung_up

/-- A run from the start of the program in which no thread that can go on is left out for
ever, each client that was accepted is heard of, a client starts the service only when it is
stopped, and the thread of each unit can be created. -/
structure Scheduled (e : Endless step) : Prop where
  start : e.state 0 = .start
  fair : Fair e Act.task CanRun
  heard : ∀ i n, n < (e.state i).accepted →
    ∃ j, i ≤ j ∧ ((e.state j).clients n).heard = true
  starts : ∀ i, StartsStopped (e.state i) (e.act i)
  creates : ∀ i, Creates (e.state i) (e.act i)

/-! ## Calls that join no thread -/

/-- Each outcome of the command leads to `Q`, where no init is missing and each thread can be
created. No thread is joined. -/
def Forward : (c : CtlCmd UnitId QueueId) → (c.Res → Unit → Prop) → Unit → Prop
  | .initialized _, Q, _ => Q true ()
  | .load_running _, Q, _ => ∀ b, Q b ()
  | .pthread_create _, Q, _ => Q true ()
  | .pthread_join _, _, _ => False
  | .set_running _ _, Q, _ => Q () ()
  | .pool_reset _, Q, _ => Q () ()
  | .pool_shutdown _, Q, _ => Q () ()
  | .queue_reset _, Q, _ => Q () ()
  | .queue_shutdown _, Q, _ => Q () ()
  | .send_response _, Q, _ => Q () ()
  | .send_stats, Q, _ => Q () ()

theorem start_units.forward {Q : vf_err_t → Unit → Prop} (hQ : Q .VF_SUCCESS ())
    (started rest : List UnitId) :
    wp Forward (start_units (fun u => u.unit.in_queue) started rest) Q () := by
  induction rest generalizing started with
  | nil => exact hQ
  | cons u rest ih =>
    unfold start_units vf_unit_start
    simp only [wp_bind, wp_ite, wp_pure, wp_perform, Forward, Bool.not_true, Bool.false_eq_true,
      if_false, ne_eq, not_true_eq_false]
    exact ih (u :: started)

theorem vf_service_start.forward {Q : vf_err_t → Unit → Prop} (hQ : Q .VF_SUCCESS ()) :
    wp Forward vf_service_start Q () := by
  unfold vf_service_start vf_pipeline_start
  simp only [wp_bind, wp_ite, wp_pure, wp_perform, Forward, Bool.not_true, Bool.false_eq_true,
    if_false]
  apply start_units.forward
  rw [if_neg (by simp)]
  exact hQ

/-- A call that does not stop the service waits for no thread, if all goes well. -/
theorem Call.forward (c : Call) (hstop : c.stops = false) :
    wp Forward c.code (fun _ _ => True) () := by
  cases c with
  | service_start => exact vf_service_start.forward trivial
  | service_stop => cases hstop
  | request text =>
    simp only [Call.code]
    unfold vf_control_handle_request
    rw [wp_ite]
    split
    · trivial
    · rcases hcmd : command_of (read_request text) with _ | _ | _ | _ | _
      · trivial
      · trivial
      · trivial
      · simp [Call.stops, hcmd] at hstop
      · simp only [wp_bind]
        unfold handle_start
        rw [wp_bind]
        apply vf_service_start.forward
        rw [wp_ite, if_neg (by simp)]
        trivial

/-- What is left of the thread's call joins no thread, unless it stops the service. -/
def Pc.Forward {α : Type} (pc : Pc α) : Prop :=
  ∀ c q k, pc = .inside c q k → c.stops = false →
    wp camera_program.Forward q (fun _ _ => True) ()

section
variable {α : Type} {s t : St} {stage : Stage} {o : Oracle} {pc pc' : Pc α}

theorem Pc.forward_code (p : Code α) : (Pc.code p).Forward := by
  rintro c q k ⟨⟩

theorem Pc.forward_loop : (Pc.loop : Pc α).Forward := by
  rintro c q k ⟨⟩

theorem Pc.forward_gone : (Pc.gone : Pc α).Forward := by
  rintro c q k ⟨⟩

theorem control_forward {v v' : service.St} {ok : Bool} {c : CtlCmd UnitId QueueId}
    {Q : c.Res → Unit → Prop} {r : c.Res} (hinit : ∀ o, v.mem.initialized o = true)
    (hok : ∀ u, c = .pthread_create u → ok = true) (h : Forward c Q ())
    (hr : service.control v ok c = some (r, v')) : Q r () := by
  cases c with
  | initialized o =>
    cases hr
    rw [hinit o]
    exact h
  | load_running u =>
    cases hr
    exact h _
  | pthread_create u =>
    simp only [service.control, hok u rfl, if_true] at hr
    cases hr
    exact h
  | pthread_join u => exact h.elim
  | _ => exact h

theorem advance_forward (h : pc.Forward) (hadv : advance o s pc = some (pc', t))
    (hsvc : pc.calling ≠ none → ∃ v, s.svc = some v ∧ ∀ o, v.mem.initialized o = true)
    (hcreates : pc.creates = true → o.ok = true) : pc'.Forward := by
  rcases advance_cases hadv with ⟨c, k, rfl, rfl, rfl⟩ | ⟨c, k, r, rfl, hdo, rfl⟩ |
    ⟨c, cmd, q, k, r, rfl, hdo, rfl⟩ | ⟨c, err, k, rfl, rfl, rfl⟩
  · rintro c' q k' heq hstop
    cases heq
    exact Call.forward c hstop
  · exact Pc.forward_code _
  · rintro c' q' k' heq hstop
    cases heq
    obtain ⟨v, hv, hinit⟩ := hsvc (by simp [Pc.calling])
    have hv' : (if writes cmd then do_write s else s).svc = some v := by
      rw [← hv]
      unfold do_write
      repeat' split
      all_goals rfl
    unfold do_service at hdo
    simp only [hv'] at hdo
    obtain ⟨⟨r', v'⟩, hctl, heq⟩ := Option.map_eq_some_iff.mp hdo
    cases heq
    refine control_forward hinit (fun u hu => ?_) (h c _ k rfl hstop) hctl
    subst hu
    exact hcreates rfl
  · exact Pc.forward_code _

end

/-! ## Steps -/

section
variable {s s' t : St} {stage : Stage} {o : Oracle} {a : Act}

/-- What a step of a thread leaves alone. -/
structure AdvanceLeaves {α : Type} (s : St) (pc : Pc α) (t : St) : Prop where
  main : t.main = s.main
  exit_code : t.exit_code = s.exit_code
  g_running : t.g_running = s.g_running
  arrived : t.arrived = s.arrived
  accepted : s.accepted ≤ t.accepted
  server : t.server = s.server ∨ t.server = .loop ∧ ∃ k, pc = .code (.op .pthread_create k)

theorem do_service_eq {cmd : CtlCmd UnitId QueueId} {r : cmd.Res × St}
    (h : do_service o s cmd = some r) : ∃ svc killed fault,
      r.2 = { s with svc := svc, killed := killed, fault := fault } := by
  have hwrite : ∀ b : Bool, ∃ killed fault,
      (if b then do_write s else s) = { s with killed := killed, fault := fault } := by
    intro b
    unfold do_write
    repeat' split
    all_goals exact ⟨_, _, rfl⟩
  obtain ⟨killed, fault, hw⟩ := hwrite (writes cmd)
  unfold do_service at h
  simp only [hw] at h
  split at h
  · cases h
    exact ⟨s.svc, killed, fault, rfl⟩
  · obtain ⟨r', -, rfl⟩ := Option.map_eq_some_iff.mp h
    exact ⟨some r'.2, killed, fault, rfl⟩

theorem advance_leaves {α : Type} {pc pc' : Pc α} (h : advance o s pc = some (pc', t)) :
    AdvanceLeaves s pc t := by
  rcases advance_cases h with ⟨c, k, rfl, rfl, rfl⟩ | ⟨c, k, r, rfl, hdo, rfl⟩ |
    ⟨c, cmd, q, k, r, rfl, hdo, rfl⟩ | ⟨c, err, k, rfl, rfl, rfl⟩
  · exact ⟨rfl, rfl, rfl, rfl, le_rfl, .inl rfl⟩
  · have hleaves := do_sys_leaves hdo
    refine ⟨hleaves.main, hleaves.exit_code, hleaves.g_running, hleaves.arrived,
      hleaves.accepted, ?_⟩
    rcases hleaves.server with hserver | ⟨rfl, hserver⟩
    · exact .inl hserver
    · exact .inr ⟨hserver, k, rfl⟩
  · obtain ⟨_, _, _, hr⟩ := do_service_eq hdo
    simp only at hr
    subst hr
    exact ⟨rfl, rfl, rfl, rfl, le_rfl, .inl rfl⟩
  · exact ⟨rfl, rfl, rfl, rfl, le_rfl, .inl rfl⟩

/-- The world goes on. What was heard of a client stays so. -/
structure World (s s' : St) : Prop where
  same : ∃ g_running clients arrived,
    s' = { s with g_running := g_running, clients := clients, arrived := arrived }
  arrived : s.arrived ≤ s'.arrived
  g_running : s'.g_running = s.g_running ∨ s'.g_running = false
  heard : ∀ n, (s.clients n).heard = true → (s'.clients n).heard = true

/-- A thread of a unit goes on, or wakes up. -/
inductive UnitStep (v : service.St) : Act → service.St → Prop
  | worker {u : UnitId} {tid : Nat} {o : service.Oracle} {th : service.Thread} {v' : service.St}
    (hth : (v.threads u).find? (·.tid = tid) = some th)
    (hw : service.worker v u th o = some v') : UnitStep v (.worker u tid o) v'
  | wake_up {u : UnitId} {tid : Nat} {th : service.Thread}
    (hth : (v.threads u).find? (·.tid = tid) = some th) :
    UnitStep v (.wake_up u tid) (v.set_thread u { th with wait := none })

/-- What the steps are. -/
theorem step_cases (hs : step s a = some s') :
    (∃ o, a = .main o ∧ main_step o s = some s') ∨
    (∃ o, a = .server o ∧ server_step o s = some s') ∨
    (∃ v v', s.svc = some v ∧ UnitStep v a v' ∧ s' = { s with svc := some v' }) ∨
    (a.task = none ∧ World s s') := by
  unfold step at hs
  split at hs
  · cases hs
  · cases a with
    | main o => exact .inl ⟨o, rfl, hs⟩
    | server o => exact .inr (.inl ⟨o, rfl, hs⟩)
    | worker u tid o =>
      obtain ⟨v, hv, hs⟩ := Option.bind_eq_some_iff.mp hs
      obtain ⟨v', hstep, rfl⟩ := Option.map_eq_some_iff.mp hs
      obtain ⟨th, hth, hw⟩ := Option.bind_eq_some_iff.mp hstep
      exact .inr (.inr (.inl ⟨v, v', hv, .worker hth hw, rfl⟩))
    | wake_up u tid =>
      obtain ⟨v, hv, hs⟩ := Option.bind_eq_some_iff.mp hs
      obtain ⟨v', hstep, rfl⟩ := Option.map_eq_some_iff.mp hs
      obtain ⟨th, hth, rfl⟩ := Option.map_eq_some_iff.mp hstep
      exact .inr (.inr (.inl ⟨v, _, hv, .wake_up hth, rfl⟩))
    | signal =>
      cases hs
      exact .inr (.inr (.inr ⟨rfl, ⟨_, _, _, rfl⟩, le_rfl, .inr rfl, fun _ h => h⟩))
    | connect =>
      simp only at hs
      split at hs <;> cases hs
      exact .inr (.inr (.inr
        ⟨rfl, ⟨_, _, _, rfl⟩, Nat.le_succ _, .inl rfl, fun _ h => h⟩))
    | send n text =>
      simp only at hs
      split at hs <;> cases hs
      refine .inr (.inr (.inr ⟨rfl, ⟨_, _, _, rfl⟩, le_rfl, .inl rfl, fun n' h => ?_⟩))
      by_cases hn : n' = n
      · subst hn
        simp [Client.heard]
      · simpa only [Function.update_of_ne hn] using h
    | hang_up n =>
      simp only at hs
      split at hs <;> cases hs
      refine .inr (.inr (.inr ⟨rfl, ⟨_, _, _, rfl⟩, le_rfl, .inl rfl, fun n' h => ?_⟩))
      by_cases hn : n' = n
      · subst hn
        simp [Client.heard]
      · simpa only [Function.update_of_ne hn] using h

theorem server_step_leaves (hs : server_step o s = some s') :
    s'.main = s.main ∧ s'.g_running = s.g_running ∧ s'.arrived = s.arrived ∧
      s.accepted ≤ s'.accepted := by
  rcases server_step_cases hs with ⟨-, rfl⟩ | ⟨stop, -, rfl⟩ | ⟨pc', t, hadv, rfl⟩
  · exact ⟨rfl, rfl, rfl, le_rfl⟩
  · exact ⟨rfl, rfl, rfl, le_rfl⟩
  · have hleaves := advance_leaves hadv
    exact ⟨hleaves.main, hleaves.g_running, hleaves.arrived, hleaves.accepted⟩

theorem main_step_leaves (hs : main_step o s = some s') :
    s'.g_running = s.g_running ∧ s'.arrived = s.arrived ∧ s.accepted ≤ s'.accepted := by
  rcases main_step_cases hs with ⟨-, rfl | ⟨-, rfl⟩⟩ | ⟨-, rfl⟩ | ⟨err, -, rfl⟩ |
    ⟨pc', t, hadv, rfl⟩
  · exact ⟨rfl, rfl, le_rfl⟩
  · exact ⟨rfl, rfl, le_rfl⟩
  · exact ⟨rfl, rfl, le_rfl⟩
  · exact ⟨rfl, rfl, le_rfl⟩
  · have hleaves := advance_leaves hadv
    exact ⟨hleaves.g_running, hleaves.arrived, hleaves.accepted⟩

/-- The signal is not taken back, and clients only come. -/
theorem step_goes_on (hs : step s a = some s') : (s.g_running = false → s'.g_running = false) ∧
    s.arrived ≤ s'.arrived ∧ s.accepted ≤ s'.accepted := by
  rcases step_cases hs with ⟨o, -, hown⟩ | ⟨o, -, hown⟩ | ⟨v, v', -, -, rfl⟩ | ⟨-, hworld⟩
  · obtain ⟨hrunning, harrived, haccepted⟩ := main_step_leaves hown
    exact ⟨fun h => hrunning.trans h, harrived.ge, haccepted⟩
  · obtain ⟨-, hrunning, harrived, haccepted⟩ := server_step_leaves hown
    exact ⟨fun h => hrunning.trans h, harrived.ge, haccepted⟩
  · exact ⟨id, le_rfl, le_rfl⟩
  · refine ⟨fun h => ?_, hworld.arrived, ?_⟩
    · rcases hworld.g_running with hsame | hfalse
      · exact hsame.trans h
      · exact hfalse
    · obtain ⟨_, _, _, rfl⟩ := hworld.same
      exact le_rfl

/-- What the main thread does is a step of its own. -/
theorem main_stays (hs : step s a = some s') (ha : a.task ≠ some .main) : s'.main = s.main := by
  rcases step_cases hs with ⟨o, rfl, -⟩ | ⟨o, rfl, hown⟩ | ⟨v, v', -, -, rfl⟩ | ⟨-, hworld⟩
  · exact absurd rfl ha
  · exact (server_step_leaves hown).1
  · rfl
  · obtain ⟨_, _, _, rfl⟩ := hworld.same
    rfl

/-- What the thread of the server does, as long as there is one, is a step of its own. -/
theorem server_stays (h : Inv s stage) (hs : step s a = some s') (ha : a.task ≠ some .server)
    (hserver : s.server ≠ .gone) : s'.server = s.server := by
  rcases step_cases hs with ⟨o, rfl, hown⟩ | ⟨o, rfl, -⟩ | ⟨v, v', -, -, rfl⟩ | ⟨-, hworld⟩
  · rcases main_step_cases hown with ⟨-, rfl | ⟨-, rfl⟩⟩ | ⟨-, rfl⟩ | ⟨err, -, rfl⟩ |
      ⟨pc', t, hadv, rfl⟩
    · rfl
    · rfl
    · rfl
    · rfl
    · rcases (advance_leaves hadv).server with hsame | ⟨-, k, hmain⟩
      · exact hsame
      · have hfit := h.main
        rw [hmain] at hfit
        obtain ⟨⟨-, hj, -⟩, -⟩ := hfit
        exact absurd (h.joinable hj) hserver
  · exact absurd rfl ha
  · rfl
  · obtain ⟨_, _, _, rfl⟩ := hworld.same
    rfl

/-! ## What holds all the time -/

theorem forward_step (h : Inv s stage) (hmain : s.main.Forward) (hserver : s.server.Forward)
    (hcreates : Creates s a) (hs : step s a = some s') : s'.main.Forward ∧ s'.server.Forward := by
  rcases step_cases hs with ⟨o, rfl, hown⟩ | ⟨o, rfl, hown⟩ | ⟨v, v', -, -, rfl⟩ | ⟨-, hworld⟩
  · rcases main_step_cases hown with ⟨-, rfl | ⟨-, rfl⟩⟩ | ⟨-, rfl⟩ | ⟨err, -, rfl⟩ |
      ⟨pc', t, hadv, rfl⟩
    · exact ⟨hmain, hserver⟩
    · exact ⟨Pc.forward_code _, hserver⟩
    · exact ⟨Pc.forward_loop, hserver⟩
    · exact ⟨Pc.forward_gone, hserver⟩
    · refine ⟨advance_forward hmain hadv (fun hne => ?_) hcreates, ?_⟩
      · have hfit := h.main
        rcases hpc : s.main with _ | p | ⟨c, q, k⟩ | _ <;> rw [hpc] at hne hfit
        · exact absurd rfl hne
        · exact absurd rfl hne
        · obtain ⟨-, -, v, hv, -⟩ := hfit
          exact ⟨v, hv, h.made v hv⟩
        · exact absurd rfl hne
      · rcases (advance_leaves hadv).server with hsame | ⟨hloop, -⟩
        · intro c q k hc
          exact hserver c q k (hsame ▸ hc)
        · simp only [hloop]
          exact Pc.forward_loop
  · rcases server_step_cases hown with ⟨-, rfl⟩ | ⟨stop, -, rfl⟩ | ⟨pc', t, hadv, rfl⟩
    · refine ⟨hmain, ?_⟩
      simp only
      split
      · exact Pc.forward_code _
      · exact Pc.forward_gone
    · refine ⟨hmain, ?_⟩
      simp only
      split
      · exact Pc.forward_gone
      · exact Pc.forward_loop
    · refine ⟨?_, advance_forward hserver hadv (fun hne => ?_) hcreates⟩
      · intro c q k hc
        exact hmain c q k ((advance_leaves hadv).main ▸ hc)
      · have hlive := h.live (by
          by_contra hj
          rw [h.joinable (Bool.eq_false_iff.mpr hj)] at hne
          exact hne rfl)
        obtain ⟨v, hv⟩ := Option.isSome_iff_exists.mp hlive.1
        exact ⟨v, hv, h.made v hv⟩
  · exact ⟨hmain, hserver⟩
  · obtain ⟨_, _, _, rfl⟩ := hworld.same
    exact ⟨hmain, hserver⟩

/-- What is known of each state of such a run. -/
structure Good (s : St) : Prop where
  inv : ∃ stage, Inv s stage
  service : ∀ v, s.svc = some v → service.Inv camera_cfg (s.seen v) ∧ service.Waits (s.seen v)
  main : s.main.Forward
  server : s.server.Forward

variable {e : Endless step}

theorem Scheduled.good (h : Scheduled e) (i : Nat) : Good (e.state i) := by
  have hreach : ∀ i, ∃ stage, Inv (e.state i) stage ∧ Traced True (e.state i) := by
    intro i
    have hok := e.along_first StartsStopped h.starts i
    have hrun := e.run_first i
    rw [h.start] at hok hrun
    obtain ⟨stage, hinv, ht, -⟩ := run_guarded hok hrun
    exact ⟨stage, hinv, ht⟩
  have hforward : (e.state i).main.Forward ∧ (e.state i).server.Forward := by
    induction i with
    | zero =>
      rw [h.start]
      exact ⟨Pc.forward_code _, Pc.forward_gone⟩
    | succ i ih =>
      obtain ⟨stage, hinv, -⟩ := hreach i
      exact forward_step hinv ih.1 ih.2 (h.creates i) (e.goes i)
  obtain ⟨stage, hinv, htraced⟩ := hreach i
  refine ⟨⟨stage, hinv⟩, fun v hv => ?_, hforward.1, hforward.2⟩
  obtain ⟨m, acts, hinit, hrun, -, hguard⟩ := htraced v hv
  exact service.run_waits hinit (hguard trivial) hrun

end

end vision_flow.camera_program
