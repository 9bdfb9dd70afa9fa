-- The runs of the program with a camera. The two threads never call the service at the same
-- time, they use nothing that is closed or freed, and at the end everything is given back.
import VisionFlow.CameraProgramCode
import VisionFlow.ServiceStatus

namespace vision_flow.camera_program

open programs units lifecycle runs

/-! ## The invariant -/

def St.view (s : St) (stage : Stage) : View :=
  ⟨s.svc.isSome, s.initialized, s.running, s.listener, s.joinable, stage⟩

/-- No unit of the service is running. -/
def Off (s : St) : Prop := ∀ v, s.svc = some v → AllOff v.running

/-- The calls of the service so far, when the main thread is at this stage and not inside one
of its calls. -/
def Called : Stage → List Call → Prop
  | .new, calls => calls = []
  | .started, calls => ∃ texts : List (List Char), calls = .service_start :: texts.map .request
  | .failed, calls => calls = [.service_start]
  | .stopped, calls => ∃ texts : List (List Char),
      calls = .service_start :: texts.map .request ++ [.service_stop]

/-- What is known outside of the main thread's calls. -/
structure Outside (s : St) (stage : Stage) : Prop where
  off : stage ≠ .started → Off s
  called : Called stage s.calls

/-- Where a call of the main thread leads, with the running flags that it leaves. -/
def After (s : St) (k : vf_err_t → Code (Option vf_err_t)) :
    Call → vf_err_t → (UnitId → Bool) → Prop
  | .service_start, err, K => (err ≠ .VF_SUCCESS → AllOff K) ∧
      wp Orderly (k err) Leads (s.view (if err = .VF_SUCCESS then .started else .failed))
  | .service_stop, err, K => AllOff K ∧ err = .VF_SUCCESS ∧
      wp Orderly (k err) Leads (s.view .stopped)
  | .request _, _, _ => False

/-- The calls so far, inside a call of the main thread. -/
def Calls (stage : Stage) (calls : List Call) : Call → Prop
  | .service_start => stage = .new ∧ calls = [.service_start]
  | .service_stop => stage = .started ∧ Called .stopped calls
  | .request _ => False

def MainFits (s : St) (stage : Stage) : Pc (Option vf_err_t) → Prop
  | .loop => Ready (s.view stage) ∧ Outside s stage
  | .code p => wp Orderly p Leads (s.view stage) ∧ Outside s stage
  | .inside c q k => s.joinable = false ∧ Calls stage s.calls c ∧
      ∃ v, s.svc = some v ∧ wp Flags q (After s k c) v.running
  | .gone => ∃ err, s.exit_code = some err ∧ Final err (s.view stage) ∧ Outside s stage

/-- The sockets of the clients. `b` says that one is open: the one that was accepted last.
The others are closed. -/
def Holding (s : St) : Bool → Prop
  | false => s.open_fds = ∅ ∧ s.closed = List.range s.accepted
  | true => ∃ n, s.client_fd = some n ∧ s.open_fds = {n} ∧ s.accepted = n + 1 ∧
      s.closed = List.range n

def ServerFits (s : St) : Pc Bool → Prop
  | .loop => Holding s false
  | .code p => ∃ b, Holding s b ∧ wp Serves p (fun _ b => b = false) b
  | .inside c _ k => (∃ text, c = .request text) ∧ Holding s true ∧
      ∀ err, wp Serves (k err) (fun _ b => b = false) true
  | .gone => Holding s false

/-- The parts of the invariant that do not look at the main thread. -/
structure Base (s : St) (stage : Stage) : Prop where
  server : ServerFits s s.server
  joinable : s.joinable = false → s.server = .gone
  live : s.joinable = true → s.svc.isSome = true ∧ stage = .started ∧
    (s.listener = some .listening ∨ s.listener = some .shut)
  fault : s.fault = true → s.svc = none ∧ stage ≠ .new
  made : ∀ v, s.svc = some v → ∀ o, v.mem.initialized o = true

structure Inv (s : St) (stage : Stage) : Prop extends Base s stage where
  main : MainFits s stage s.main
  exit : s.main ≠ .gone → s.exit_code = none

theorem St.start.inv : Inv .start .new where
  main := ⟨setup.orderly, ⟨fun _ => by rintro v ⟨⟩, rfl⟩⟩
  server := ⟨rfl, rfl⟩
  joinable := fun _ => rfl
  live := fun h => by cases h
  fault := fun h => by cases h
  made := by rintro v ⟨⟩
  exit := fun _ => rfl

/-! ## The commands of the main thread -/

section
variable {s s' : St} {stage : Stage} {o : Oracle}

theorem Base.not_serves (h : Base s stage) (hj : s.joinable = false) : s.serves = false := by
  unfold St.serves
  rw [h.joinable hj]
  rfl

/-- While there is a service, nothing is to blame. -/
theorem Base.no_fault (h : Base s stage) {v : service.St} (hv : s.svc = some v) {P : Prop}
    (hf : s.fault = true) : P := by
  have hnone := (h.fault hf).1
  rw [hv] at hnone
  cases hnone

/-- The server's socket belongs to the main thread while there is no other one. -/
theorem Base.set_listener (h : Base s stage) (hj : s.joinable = false) (l : Option Listener) :
    Base { s with listener := l } stage :=
  ⟨h.server, h.joinable, fun h => absurd (hj.symm.trans h) (by decide), h.fault, h.made⟩

theorem blame_false (s : St) : s.blame false = s := by
  unfold St.blame
  rw [Bool.or_false]

theorem init_error {cfg : service.vf_service_cfg_t} {err : vf_err_t}
    (h : service.vf_service_init cfg = .error err) : err ≠ .VF_SUCCESS := by
  unfold service.vf_service_init at h
  simp only at h
  repeat'
    split at h
    · cases h
      assumption
  cases h

/-- A command of the main thread, which is not inside a call, leads to where its answer may
lead, and keeps the rest. Only the deinit of the service may be to blame. -/
theorem do_sys.orderly {c : SysCmd} {Q : c.Res → View → Prop} {r : c.Res × St}
    (h : Base s stage) (hout : Outside s stage) (hc : Orderly c Q (s.view stage))
    (hs : do_sys o s c = some r) :
    Q r.1 (r.2.view stage) ∧ Base r.2 stage ∧ Outside r.2 stage ∧ (r.2.fault = s.fault ∨
      c = .service_deinit ∧ r.2.fault = (s.fault || s.unit_threads)) := by
  cases c with
  | service_init =>
    obtain ⟨hnone, hj, hstage, hQ⟩ := hc
    subst hstage
    simp only [do_sys] at hs
    split at hs
    · rename_i herr
      cases hs
      have hview := hQ o.err
      rw [decide_eq_false herr] at hview
      refine ⟨?_, h, hout, .inl rfl⟩
      have hsame : { s.view .new with svc := false } = s.view .new := by rw [← hnone]
      rwa [hsame] at hview
    · split at hs
      · rename_i err hinit
        cases hs
        have hview := hQ err
        have herr : err ≠ .VF_SUCCESS := init_error hinit
        rw [decide_eq_false herr] at hview
        refine ⟨?_, h, hout, .inl rfl⟩
        have hsame : { s.view .new with svc := false } = s.view .new := by rw [← hnone]
        rwa [hsame] at hview
      · rename_i m hinit
        cases hs
        have hmade := service.vf_service_init.spec hinit
        have hview := hQ .VF_SUCCESS
        rw [decide_eq_true rfl] at hview
        refine ⟨hview, ⟨h.server, h.joinable, fun h => ?_,
          fun hf => absurd rfl (h.fault hf).2, ?_⟩, ⟨fun _ => ?_, hout.called⟩, .inl rfl⟩
        · exact absurd (hj.symm.trans h) (by decide)
        · rintro v ⟨⟩
          exact hmade.initialized
        · rintro v ⟨⟩ u
          rfl
  | service_deinit =>
    obtain ⟨hsome, hj, hnew, hstarted, hQ⟩ := hc
    cases hs
    have hsvc : s.svc.isNone = false := by simpa [St.view] using hsome
    have hj' : s.joinable = false := hj
    simp only [hsvc, h.not_serves hj, Bool.false_or]
    refine ⟨hQ, ⟨h.server, h.joinable, fun h => ?_, fun _ => ⟨rfl, hnew⟩, by rintro v ⟨⟩⟩,
      ⟨fun _ => by rintro v ⟨⟩, hout.called⟩, .inr ⟨trivial, rfl⟩⟩
    exact absurd (hj'.symm.trans h) (by decide)
  | call c => cases hs
  | socket =>
    obtain ⟨hnone, hj, htrue, hfalse⟩ := hc
    simp only [do_sys] at hs
    split at hs
    · cases hs
      exact ⟨htrue, h.set_listener hj _, ⟨hout.off, hout.called⟩, .inl rfl⟩
    · cases hs
      exact ⟨hfalse, h, hout, .inl rfl⟩
  | bind =>
    cases hs
    refine ⟨?_, h, hout, .inl rfl⟩
    cases o.ok with
    | false => exact hc.2
    | true => exact hc.1
  | listen =>
    obtain ⟨hopened, hj, htrue, hfalse⟩ := hc
    simp only [do_sys] at hs
    split at hs
    · cases hs
      exact ⟨htrue, h.set_listener hj _, ⟨hout.off, hout.called⟩, .inl rfl⟩
    · cases hs
      exact ⟨hfalse, h, hout, .inl rfl⟩
  | shutdown =>
    obtain ⟨hrunning, hlistening, hQ⟩ := hc
    cases hs
    have hl : s.listener = some .listening := hlistening
    simp only [hl, Option.map_some]
    exact ⟨hQ, ⟨h.server, h.joinable, fun hj => ⟨(h.live hj).1, (h.live hj).2.1, .inr rfl⟩,
      h.fault, h.made⟩, ⟨hout.off, hout.called⟩, .inl trivial⟩
  | close_listener =>
    obtain ⟨hsome, hj, hQ⟩ := hc
    cases hs
    have hl : s.listener.isNone = false := by simpa [St.view] using hsome
    simp only [hl, h.not_serves hj, Bool.or_false, blame_false]
    exact ⟨hQ, h.set_listener hj _, ⟨hout.off, hout.called⟩, .inl trivial⟩
  | has_fd =>
    cases hs
    exact ⟨hc, h, hout, .inl rfl⟩
  | load_initialized =>
    cases hs
    exact ⟨hc, h, hout, .inl rfl⟩
  | set_initialized b =>
    cases hs
    exact ⟨hc, ⟨h.server, h.joinable, h.live, h.fault, h.made⟩, ⟨hout.off, hout.called⟩, .inl rfl⟩
  | set_running b =>
    cases hs
    exact ⟨hc.2, ⟨h.server, h.joinable, h.live, h.fault, h.made⟩, ⟨hout.off, hout.called⟩, .inl rfl⟩
  | clear =>
    obtain ⟨hj, hQ⟩ := hc
    cases hs
    simp only [h.not_serves hj, blame_false]
    exact ⟨hQ, ⟨h.server, h.joinable, h.live, h.fault, h.made⟩,
      ⟨hout.off, hout.called⟩, .inl trivial⟩
  | pthread_create =>
    obtain ⟨hsome, hj, hrunning, hlistening, hstage, hQ⟩ := hc
    cases hs
    have hj' : s.joinable = false := hj
    have hgone : Holding s false := by
      have hserver := h.server
      rwa [h.joinable hj] at hserver
    simp only [hj', blame_false]
    exact ⟨hQ, ⟨hgone, fun h => Bool.noConfusion h, fun _ => ⟨hsome, hstage, .inl hlistening⟩,
      h.fault, h.made⟩, ⟨hout.off, hout.called⟩, .inl trivial⟩
  | pthread_join =>
    obtain ⟨hj, hrunning, hshut, hQ⟩ := hc
    have hj' : s.joinable = true := hj
    simp only [do_sys] at hs
    split at hs
    · cases hs
    · rename_i hserves
      cases hs
      have hgone : s.server = .gone := by
        rcases hpc : s.server with _ | p | ⟨c, q, k⟩ | _
        · simp [St.serves, Pc.is_gone, hpc] at hserves
        · simp [St.serves, Pc.is_gone, hpc] at hserves
        · simp [St.serves, Pc.is_gone, hpc] at hserves
        · rfl
      simp only [hj', Bool.not_true, blame_false]
      exact ⟨hQ, ⟨h.server, fun _ => hgone, fun h => Bool.noConfusion h, h.fault, h.made⟩,
        ⟨hout.off, hout.called⟩, .inl trivial⟩
  | load_running => exact hc.elim
  | accept => exact hc.elim
  | read => exact hc.elim
  | close => exact hc.elim

/-! ## The commands of the server's thread -/

/-- A command of the server's thread uses the open socket alone, and leaves what the main
thread sees. -/
theorem do_sys.serves {c : SysCmd} {Q : c.Res → Bool → Prop} {r : c.Res × St} {b : Bool}
    (hhold : Holding s b) (hlive : s.listener = some .listening ∨ s.listener = some .shut)
    (hc : Serves c Q b) (hs : do_sys o s c = some r) :
    ∃ b', Q r.1 b' ∧ Holding r.2 b' ∧ ∃ client_fd accepted open_fds closed, r.2 =
      { s with client_fd := client_fd, accepted := accepted, open_fds := open_fds,
               closed := closed } := by
  cases c with
  | accept =>
    obtain ⟨rfl, htrue, hfalse⟩ := hc
    obtain ⟨hopen, hclosed⟩ := hhold
    have hrefused : Holding { s with client_fd := none } false := ⟨hopen, hclosed⟩
    simp only [do_sys, do_accept] at hs
    split at hs
    · rename_i hl
      simp [hl] at hlive
    · rename_i hl
      simp [hl] at hlive
    · split at hs
      · cases hs
        exact ⟨false, hfalse, hrefused, _, _, _, _, rfl⟩
      · split at hs
        · cases hs
          refine ⟨true, htrue, ⟨s.accepted, rfl, ?_, rfl, hclosed⟩, _, _, _, _, rfl⟩
          simp only [hopen, insert_empty_eq]
        · split at hs
          · cases hs
            exact ⟨false, hfalse, hrefused, _, _, _, _, rfl⟩
          · cases hs
  | load_running =>
    cases hs
    exact ⟨b, hc s.running, hhold, _, _, _, _, rfl⟩
  | read =>
    obtain ⟨rfl, hQ⟩ := hc
    obtain ⟨n, hfd, hopen, -⟩ := id hhold
    have hsame : r.2 = s := by
      simp only [do_sys, do_read, hfd, hopen, Finset.mem_singleton, not_true_eq_false,
        if_false] at hs
      split at hs
      · cases hs
        rfl
      · split at hs
        · cases hs
          rfl
        · cases hs
    rw [hsame]
    exact ⟨true, hQ r.1, hhold, _, _, _, _, rfl⟩
  | close =>
    obtain ⟨rfl, hQ⟩ := hc
    obtain ⟨n, hfd, hopen, haccepted, hclosed⟩ := hhold
    cases hs
    have hblame : s.blame (n ∉ s.open_fds) = s := by
      simp [hopen, blame_false]
    simp only [do_close, hfd, hblame]
    refine ⟨false, hQ, ⟨?_, ?_⟩, _, _, _, _, rfl⟩
    · simp [hopen]
    · simp [hclosed, haccepted, List.range_succ]
  | call c => cases hs
  | _ => exact hc.elim

/-! ## The commands of the service -/

theorem control_initialized {v : service.St} {ok : Bool} {c : CtlCmd UnitId QueueId}
    {r : c.Res × service.St} (h : service.control v ok c = some r) :
    r.2.mem.initialized = v.mem.initialized := by
  cases c with
  | pthread_create u =>
    simp only [service.control] at h
    split at h <;> cases h <;> rfl
  | pthread_join u =>
    simp only [service.control] at h
    split at h <;> cases h
    rfl
  | _ =>
    cases h
    rfl

/-- A command in a call of the main thread changes the service alone. -/
theorem do_service.flags {c : CtlCmd UnitId QueueId} {Q : c.Res → (UnitId → Bool) → Prop}
    {r : c.Res × St} {v : service.St} (hsvc : s.svc = some v)
    (hinit : ∀ o, v.mem.initialized o = true) (hc : Flags c Q v.running)
    (hs : do_service o s c = some r) :
    ∃ v', service.control v o.ok c = some (r.1, v') ∧ r.2 = { s with svc := some v' } ∧
      Q r.1 v'.running := by
  have hwrites : writes c = false := by
    cases c <;> first | rfl | exact hc.elim
  unfold do_service at hs
  simp only [hwrites, Bool.false_eq_true, if_false, hsvc] at hs
  obtain ⟨r', hr, rfl⟩ := Option.map_eq_some_iff.mp hs
  refine ⟨r'.2, hr, rfl, ?_⟩
  cases c with
  | initialized ob =>
    cases hr
    have hQ : Q true v.running := hc
    rwa [← hinit ob] at hQ
  | pthread_create u =>
    simp only [service.control] at hr
    split at hr <;> cases hr
    · exact hc.1
    · exact hc.2
  | pthread_join u =>
    simp only [service.control] at hr
    split at hr <;> cases hr
    exact hc
  | send_response r => exact hc.elim
  | send_stats => exact hc.elim
  | _ =>
    cases hr
    exact hc

/-- A command in a call of the server's thread may also end the process. -/
theorem do_service.serves {c : CtlCmd UnitId QueueId} {r : c.Res × St} {v : service.St}
    (hsvc : s.svc = some v) (hhold : Holding s true) (hs : do_service o s c = some r) :
    ∃ v' killed, service.control v o.ok c = some (r.1, v') ∧
      r.2 = { s with svc := some v', killed := killed } := by
  obtain ⟨n, hfd, hopen, -⟩ := hhold
  obtain ⟨killed, hwrite⟩ : ∃ killed,
      (if writes c then do_write s else s) = { s with killed := killed } := by
    split
    · unfold do_write
      split
      · exact ⟨s.killed, rfl⟩
      · rename_i n' hfd'
        obtain rfl : n' = n := by simpa [hfd'] using hfd
        rw [if_neg (by simp [hopen])]
        split
        · exact ⟨true, rfl⟩
        · exact ⟨s.killed, rfl⟩
    · exact ⟨s.killed, rfl⟩
  unfold do_service at hs
  simp only [hwrite, hsvc] at hs
  obtain ⟨r', hr, rfl⟩ := Option.map_eq_some_iff.mp hs
  exact ⟨r'.2, killed, hr, rfl⟩

/-! ## Steps -/

/-- What a thread does in one step of its code or of a call. -/
theorem advance_cases {α : Type} {pc pc' : Pc α} (h : advance o s pc = some (pc', s')) :
    (∃ c k, pc = .code (.op (.call c) k) ∧ pc' = .inside c c.code k ∧ s' = s.enter c) ∨
    (∃ (c : SysCmd) (k : c.Res → Code α) (r : c.Res), pc = .code (.op c k) ∧
      do_sys o s c = some (r, s') ∧ pc' = .code (k r)) ∨
    (∃ (c : Call) (cmd : CtlCmd UnitId QueueId) (q : cmd.Res → ServiceCode vf_err_t)
      (k : vf_err_t → Code α) (r : cmd.Res), pc = .inside c (.op cmd q) k ∧
      do_service o s cmd = some (r, s') ∧ pc' = .inside c (q r) k) ∨
    (∃ c err k, pc = .inside c (.ret err) k ∧ pc' = .code (k err) ∧ s = s') := by
  rcases pc with _ | (a | ⟨c, k⟩) | ⟨c, (err | ⟨cmd, q⟩), k⟩ | _
  · cases h
  · cases h
  · cases c with
    | call c =>
      cases h
      exact .inl ⟨c, k, rfl, rfl, rfl⟩
    | _ =>
      simp only [advance, Option.map_eq_some_iff] at h
      obtain ⟨r, hr, heq⟩ := h
      cases heq
      exact .inr (.inl ⟨_, k, r.1, rfl, hr, rfl⟩)
  · cases h
    exact .inr (.inr (.inr ⟨c, err, k, rfl, rfl, rfl⟩))
  · obtain ⟨r, hr, heq⟩ := Option.map_eq_some_iff.mp h
    cases heq
    exact .inr (.inr (.inl ⟨c, cmd, q, k, r.1, rfl, hr, rfl⟩))
  · cases h

theorem main_step_cases (h : main_step o s = some s') :
    (s.main = .loop ∧ (s' = s ∨ s.g_running = false ∧ s' = { s with main := .code wind_up })) ∨
    (s.main = .code (.ret none) ∧ s' = { s with main := .loop }) ∨
    (∃ err, s.main = .code (.ret (some err)) ∧
      s' = { s with main := .gone, exit_code := some err }) ∨
    ∃ pc' t, advance o s s.main = some (pc', t) ∧ s' = { t with main := pc' } := by
  unfold main_step at h
  split at h
  · rename_i hmain
    refine .inl ⟨hmain, ?_⟩
    cases hrun : s.g_running with
    | true =>
      rw [hrun] at h
      cases h
      exact .inl rfl
    | false =>
      rw [hrun] at h
      cases h
      exact .inr ⟨rfl, rfl⟩
  · rename_i hmain
    cases h
    exact .inr (.inl ⟨hmain, rfl⟩)
  · rename_i err hmain
    cases h
    exact .inr (.inr (.inl ⟨err, hmain, rfl⟩))
  · obtain ⟨⟨pc', t⟩, hr, rfl⟩ := Option.map_eq_some_iff.mp h
    exact .inr (.inr (.inr ⟨pc', t, hr, rfl⟩))

theorem server_step_cases (h : server_step o s = some s') :
    (s.server = .loop ∧ s' = { s with
      server := if s.running then .code vf_control_server_thread_fn else .gone }) ∨
    (∃ stop, s.server = .code (.ret stop) ∧
      s' = { s with server := if stop then .gone else .loop }) ∨
    ∃ pc' t, advance o s s.server = some (pc', t) ∧ s' = { t with server := pc' } := by
  unfold server_step at h
  split at h
  · rename_i hserver
    cases h
    exact .inl ⟨hserver, rfl⟩
  · rename_i stop hserver
    cases h
    exact .inr (.inl ⟨stop, hserver, rfl⟩)
  · obtain ⟨⟨pc', t⟩, hr, rfl⟩ := Option.map_eq_some_iff.mp h
    exact .inr (.inr ⟨pc', t, hr, rfl⟩)

/-- What a command leaves alone, other than a call. -/
structure Leaves (s : St) (c : SysCmd) (s' : St) : Prop where
  main : s'.main = s.main
  exit_code : s'.exit_code = s.exit_code
  g_running : s'.g_running = s.g_running
  arrived : s'.arrived = s.arrived
  accepted : s.accepted ≤ s'.accepted
  calls : s'.calls = s.calls
  server : s'.server = s.server ∨ c = .pthread_create ∧ s'.server = .loop
  svc : s'.svc = s.svc ∨ (c = .service_deinit ∧ s'.svc = none) ∨ c = .service_init ∧ ∃ m,
    service.vf_service_init camera_cfg = .ok m ∧ s'.svc = some (.init m)

theorem do_sys_leaves {c : SysCmd} {r : c.Res × St} (h : do_sys o s c = some r) :
    Leaves s c r.2 := by
  have hsame : ∀ c, Leaves s c s := fun c => ⟨rfl, rfl, rfl, rfl, le_rfl, rfl, .inl rfl, .inl rfl⟩
  cases c with
  | service_init =>
    simp only [do_sys] at h
    split at h
    · cases h
      exact hsame _
    · split at h
      · cases h
        exact hsame _
      · rename_i m hinit
        cases h
        exact ⟨rfl, rfl, rfl, rfl, le_rfl, rfl, .inl rfl, .inr (.inr ⟨rfl, m, hinit, rfl⟩)⟩
  | service_deinit =>
    cases h
    exact ⟨rfl, rfl, rfl, rfl, le_rfl, rfl, .inl rfl, .inr (.inl ⟨rfl, rfl⟩)⟩
  | socket =>
    simp only [do_sys] at h
    split at h <;> cases h <;> exact ⟨rfl, rfl, rfl, rfl, le_rfl, rfl, .inl rfl, .inl rfl⟩
  | listen =>
    simp only [do_sys] at h
    split at h <;> cases h <;> exact ⟨rfl, rfl, rfl, rfl, le_rfl, rfl, .inl rfl, .inl rfl⟩
  | pthread_create =>
    cases h
    exact ⟨rfl, rfl, rfl, rfl, le_rfl, rfl, .inr ⟨rfl, rfl⟩, .inl rfl⟩
  | pthread_join =>
    simp only [do_sys] at h
    split at h <;> cases h
    exact ⟨rfl, rfl, rfl, rfl, le_rfl, rfl, .inl rfl, .inl rfl⟩
  | accept =>
    simp only [do_sys, do_accept] at h
    repeat' split at h
    all_goals cases h
    all_goals exact ⟨rfl, rfl, rfl, rfl, by simp [St.blame], rfl, .inl rfl, .inl rfl⟩
  | read =>
    simp only [do_sys, do_read] at h
    repeat' split at h
    all_goals cases h
    all_goals exact ⟨rfl, rfl, rfl, rfl, le_rfl, rfl, .inl rfl, .inl rfl⟩
  | close =>
    cases h
    simp only [do_close]
    split <;> exact ⟨rfl, rfl, rfl, rfl, le_rfl, rfl, .inl rfl, .inl rfl⟩
  | call c => cases h
  | _ =>
    cases h
    exact ⟨rfl, rfl, rfl, rfl, le_rfl, rfl, .inl rfl, .inl rfl⟩

/-! ## The invariant of the steps -/

/-- A call that begins changes no running flag. -/
theorem enter_svc {c : Call} {v' : service.St} (h : (s.enter c).svc = some v') :
    ∃ v, s.svc = some v ∧ v'.running = v.running ∧ v'.mem.initialized = v.mem.initialized := by
  obtain ⟨v, hv, rfl⟩ := Option.map_eq_some_iff.mp h
  refine ⟨v, hv, ?_⟩
  split <;> exact ⟨rfl, rfl⟩

theorem view_enter (c : Call) (stage : Stage) : (s.enter c).view stage = s.view stage := by
  simp [St.enter, St.view]

theorem after_congr (h : ∀ stage, s'.view stage = s.view stage)
    (k : vf_err_t → Code (Option vf_err_t)) (c : Call) : After s' k c = After s k c := by
  funext err K
  cases c <;> simp only [After, h]

/-- The main thread goes on. -/
theorem Inv.main_step (h : Inv s stage) (hs : main_step o s = some s') :
    ∃ stage', Inv s' stage' := by
  have hfit := h.main
  rcases main_step_cases hs with ⟨hmain, rfl | ⟨-, rfl⟩⟩ | ⟨hmain, rfl⟩ | ⟨err, hmain, rfl⟩ |
    ⟨pc', t, hadv, rfl⟩
  · exact ⟨stage, h⟩
  · rw [hmain] at hfit
    exact ⟨stage, ⟨h.server, h.joinable, h.live, h.fault, h.made⟩,
      ⟨wind_up.orderly hfit.1, ⟨hfit.2.off, hfit.2.called⟩⟩,
      fun _ => h.exit (by simp [hmain])⟩
  · rw [hmain] at hfit
    exact ⟨stage, ⟨h.server, h.joinable, h.live, h.fault, h.made⟩,
      ⟨hfit.1, ⟨hfit.2.off, hfit.2.called⟩⟩, fun _ => h.exit (by simp [hmain])⟩
  · rw [hmain] at hfit
    exact ⟨stage, ⟨h.server, h.joinable, h.live, h.fault, h.made⟩,
      ⟨err, rfl, hfit.1, ⟨hfit.2.off, hfit.2.called⟩⟩, fun hne => absurd rfl hne⟩
  · have hexit : s.exit_code = none := h.exit fun hgone => by
      rw [hgone] at hadv
      cases hadv
    rcases advance_cases hadv with ⟨c, k, hmain, rfl, rfl⟩ | ⟨c, k, r, hmain, hdo, rfl⟩ |
      ⟨c, cmd, q, k, r, hmain, hdo, rfl⟩ | ⟨c, err, k, hmain, rfl, rfl⟩
    · -- a call begins
      rw [hmain] at hfit
      obtain ⟨hcode, hout⟩ := hfit
      have hbase : Base { s.enter c with main := .inside c c.code k } stage := by
        refine ⟨h.server, h.joinable, fun hj => ?_,
          fun hf => ⟨by simp [St.enter, (h.fault hf).1], (h.fault hf).2⟩, fun v' hv' => ?_⟩
        · obtain ⟨hsome, hrest⟩ := h.live hj
          exact ⟨by simpa [St.enter] using hsome, hrest⟩
        · obtain ⟨v, hv, -, hinit⟩ := enter_svc hv'
          rw [hinit]
          exact h.made v hv
      have hview : ∀ stage, ({ s.enter c with main := .inside c c.code k } : St).view stage =
          s.view stage := fun stage => view_enter c stage
      cases c with
      | service_start =>
        obtain ⟨hsome, hj, rfl, hQ⟩ := hcode
        obtain ⟨v', hv'⟩ := Option.isSome_iff_exists.mp
          (show (s.enter .service_start).svc.isSome = true by
            simpa [St.enter, St.view] using hsome)
        obtain ⟨v, hv, hrun, -⟩ := enter_svc hv'
        have hcalls : s.calls = [] := hout.called
        refine ⟨.new, hbase, ⟨hj, ⟨rfl, by simp [St.enter, hcalls]⟩, v', hv', ?_⟩,
          fun _ => hexit⟩
        rw [after_congr hview, hrun]
        exact vf_service_start.flags (hout.off (by decide) v hv) fun err K' hoff =>
          ⟨hoff, hQ err⟩
      | service_stop =>
        obtain ⟨hsome, hj, rfl, hQ⟩ := hcode
        obtain ⟨v', hv'⟩ := Option.isSome_iff_exists.mp
          (show (s.enter .service_stop).svc.isSome = true by
            simpa [St.enter, St.view] using hsome)
        obtain ⟨texts, hcalls⟩ := hout.called
        refine ⟨.started, hbase, ⟨hj, ⟨rfl, texts, by simp [St.enter, hcalls]⟩, v', hv', ?_⟩,
          fun _ => hexit⟩
        rw [after_congr hview]
        exact vf_service_stop.flags fun K' hoff => ⟨hoff, rfl, hQ⟩
      | request text => exact hcode.elim
    · -- a command of its own
      rw [hmain] at hfit
      obtain ⟨hQ, hbase, hout, -⟩ := do_sys.orderly h.toBase hfit.2 hfit.1 hdo
      exact ⟨stage, ⟨hbase.server, hbase.joinable, hbase.live, hbase.fault, hbase.made⟩,
        ⟨hQ, ⟨hout.off, hout.called⟩⟩, fun _ => (do_sys_leaves hdo).exit_code.trans hexit⟩
    · -- a command of the call
      rw [hmain] at hfit
      obtain ⟨hj, hcalls, v, hv, hq⟩ := hfit
      obtain ⟨v', hctl, rfl, hq'⟩ := do_service.flags hv (h.made v hv) hq hdo
      have hview : ∀ stage, ({ s with svc := some v', main := .inside c (q r) k } : St).view
          stage = s.view stage := fun stage => by simp [St.view, hv]
      refine ⟨stage, ⟨h.server, h.joinable, fun hj' => ?_, h.no_fault hv, fun w hw => ?_⟩,
        ⟨hj, hcalls, v', rfl, ?_⟩, fun _ => hexit⟩
      · exact absurd (hj.symm.trans hj') (by decide)
      · cases hw
        rw [control_initialized hctl]
        exact h.made v hv
      · rw [after_congr hview]
        exact hq'
    · -- the call ends
      rw [hmain] at hfit
      obtain ⟨hj, hcalls, v, hv, hafter⟩ := hfit
      have hbase : ∀ stage', Base { s with main := .code (k err) } stage' := fun stage' =>
        ⟨h.server, h.joinable, fun hj' => absurd (hj.symm.trans hj') (by decide), h.no_fault hv,
          h.made⟩
      cases c with
      | service_start =>
        obtain ⟨hoff, hcode⟩ := hafter
        refine ⟨_, hbase _, ⟨hcode, ⟨fun hne w hw => ?_, ?_⟩⟩, fun _ => hexit⟩
        · obtain rfl : v = w := Option.some.inj (hv.symm.trans hw)
          exact hoff fun herr => hne (if_pos herr)
        · split
          · exact ⟨[], hcalls.2⟩
          · exact hcalls.2
      | service_stop =>
        obtain ⟨hoff, -, hcode⟩ := hafter
        refine ⟨.stopped, hbase _, ⟨hcode, ⟨fun _ w hw => ?_, hcalls.2⟩⟩, fun _ => hexit⟩
        obtain rfl : v = w := Option.some.inj (hv.symm.trans hw)
        exact hoff
      | request text => exact hcalls.elim

/-- While there is a thread of the server, the main thread does not care what it does. -/
theorem MainFits.served (h : MainFits s stage s.main) (hj : s.joinable = true)
    (hstage : stage = .started) (hmain : s'.main = s.main)
    (hview : s'.view stage = s.view stage) (hcalled : Called stage s'.calls) :
    MainFits s' stage s'.main := by
  have hout : Outside s' stage := ⟨fun hne => absurd hstage hne, hcalled⟩
  rw [hmain]
  rcases hpc : s.main with _ | p | ⟨c, q, k⟩ | _ <;> rw [hpc] at h
  · exact ⟨by rw [hview]; exact h.1, hout⟩
  · exact ⟨by rw [hview]; exact h.1, hout⟩
  · exact absurd (hj.symm.trans h.1) (by decide)
  · obtain ⟨err, -, hfinal, -⟩ := h
    exact absurd (hj.symm.trans hfinal.2.2.1) (by decide)

theorem MainFits.called (h : MainFits s stage s.main) (hj : s.joinable = true) :
    Called stage s.calls := by
  rcases hpc : s.main with _ | p | ⟨c, q, k⟩ | _ <;> rw [hpc] at h
  · exact h.2.called
  · exact h.2.called
  · exact absurd (hj.symm.trans h.1) (by decide)
  · obtain ⟨err, -, hfinal, -⟩ := h
    exact absurd (hj.symm.trans hfinal.2.2.1) (by decide)

/-- The thread of the server goes on. -/
theorem Inv.server_step (h : Inv s stage) (hs : server_step o s = some s') : Inv s' stage := by
  have hj : s.joinable = true := by
    cases hj : s.joinable with
    | true => rfl
    | false =>
      unfold camera_program.server_step at hs
      rw [h.joinable hj] at hs
      cases hs
  obtain ⟨hsome, hstage, hlistener⟩ := h.live hj
  have hcalled := h.main.called hj
  have hfit := h.server
  rcases server_step_cases hs with ⟨hserver, rfl⟩ | ⟨stop, hserver, rfl⟩ | ⟨pc', t, hadv, rfl⟩
  · rw [hserver] at hfit
    refine ⟨⟨?_, fun hno => absurd (hj.symm.trans hno) (by decide), h.live, h.fault, h.made⟩,
      h.main.served hj hstage rfl rfl hcalled, h.exit⟩
    simp only
    split
    · exact ⟨false, hfit, vf_control_server_thread_fn.serves⟩
    · exact hfit
  · rw [hserver] at hfit
    obtain ⟨b, hhold, rfl⟩ := hfit
    refine ⟨⟨?_, fun hno => absurd (hj.symm.trans hno) (by decide), h.live, h.fault, h.made⟩,
      h.main.served hj hstage rfl rfl hcalled, h.exit⟩
    simp only
    split
    · exact hhold
    · exact hhold
  · rcases advance_cases hadv with ⟨c, k, hserver, rfl, rfl⟩ | ⟨c, k, r, hserver, hdo, rfl⟩ |
      ⟨c, cmd, q, k, r, hserver, hdo, rfl⟩ | ⟨c, err, k, hserver, rfl, rfl⟩
    · rw [hserver] at hfit
      obtain ⟨b, hhold, hcode⟩ := hfit
      cases c with
      | request text =>
        obtain ⟨rfl, hk⟩ := hcode
        refine ⟨⟨⟨⟨text, rfl⟩, hhold, hk⟩, fun hno => absurd (hj.symm.trans hno) (by decide),
          fun hj' => ⟨by simpa [St.enter] using hsome, (h.live hj').2⟩,
          fun hf => ⟨by simp [St.enter, (h.fault hf).1], (h.fault hf).2⟩, fun v' hv' => ?_⟩,
          h.main.served hj hstage rfl (view_enter _ _) ?_, h.exit⟩
        · obtain ⟨v, hv, -, hinit⟩ := enter_svc hv'
          rw [hinit]
          exact h.made v hv
        · subst hstage
          obtain ⟨texts, hcalls⟩ := hcalled
          exact ⟨texts ++ [text], by simp [St.enter, hcalls]⟩
      | service_start => exact hcode.elim
      | service_stop => exact hcode.elim
    · rw [hserver] at hfit
      obtain ⟨b, hhold, hcode⟩ := hfit
      obtain ⟨b', hQ, hhold', client_fd, accepted, open_fds, closed, ht⟩ :=
        do_sys.serves hhold hlistener hcode hdo
      simp only at ht
      subst ht
      exact ⟨⟨⟨b', hhold', hQ⟩, fun hno => absurd (hj.symm.trans hno) (by decide), h.live,
        h.fault, h.made⟩, h.main.served hj hstage rfl rfl hcalled, h.exit⟩
    · rw [hserver] at hfit
      obtain ⟨htext, hhold, hk⟩ := hfit
      obtain ⟨v, hv⟩ := Option.isSome_iff_exists.mp hsome
      obtain ⟨v', killed, hctl, ht⟩ := do_service.serves hv hhold hdo
      simp only at ht
      subst ht
      refine ⟨⟨⟨htext, hhold, hk⟩, fun hno => absurd (hj.symm.trans hno) (by decide),
        fun hj' => ⟨rfl, (h.live hj').2⟩, h.no_fault hv, fun w hw => ?_⟩,
        h.main.served hj hstage rfl (by simp [St.view, hv]) hcalled, h.exit⟩
      cases hw
      rw [control_initialized hctl]
      exact h.made v hv
    · rw [hserver] at hfit
      obtain ⟨htext, hhold, hk⟩ := hfit
      exact ⟨⟨⟨true, hhold, hk err⟩, fun hno => absurd (hj.symm.trans hno) (by decide), h.live,
        h.fault, h.made⟩, h.main.served hj hstage rfl rfl hcalled, h.exit⟩

/-- The main thread does not care what else goes on, as long as no running flag changes. -/
theorem MainFits.beside {pc : Pc (Option vf_err_t)} (h : MainFits s stage pc)
    (hview : ∀ stage, s'.view stage = s.view stage) (hexit : s'.exit_code = s.exit_code)
    (hcalls : s'.calls = s.calls) (hunits : ∀ v', s'.svc = some v' → ∃ v, s.svc = some v ∧
      v'.running = v.running) : MainFits s' stage pc := by
  have hout : Outside s stage → Outside s' stage := by
    refine fun hout => ⟨fun hne v' hv' => ?_, hcalls ▸ hout.called⟩
    obtain ⟨v, hv, hrun⟩ := hunits v' hv'
    rw [hrun]
    exact hout.off hne v hv
  rcases pc with _ | p | ⟨c, q, k⟩ | _
  · exact ⟨by rw [hview]; exact h.1, hout h.2⟩
  · exact ⟨by rw [hview]; exact h.1, hout h.2⟩
  · obtain ⟨hj, hcalled, v, hv, hq⟩ := h
    have hsome : s'.svc.isSome = s.svc.isSome := congrArg View.svc (hview stage)
    obtain ⟨v', hv'⟩ := Option.isSome_iff_exists.mp (hsome.trans (by rw [hv, Option.isSome_some]))
    obtain ⟨w, hw, hrun⟩ := hunits v' hv'
    obtain rfl : v = w := Option.some.inj (hv.symm.trans hw)
    refine ⟨(congrArg View.joinable (hview stage)).trans hj, hcalls ▸ hcalled, v', hv', ?_⟩
    rw [after_congr hview, hrun]
    exact hq
  · obtain ⟨err, hcode, hfinal, hout'⟩ := h
    exact ⟨err, hexit.trans hcode, by rw [hview]; exact hfinal, hout hout'⟩

/-- The service goes on by a step that changes no running flag. -/
theorem Inv.service_step (h : Inv s stage) {v v' : service.St} (hv : s.svc = some v)
    (hrun : v'.running = v.running) (hinit : v'.mem.initialized = v.mem.initialized) :
    Inv { s with svc := some v' } stage := by
  refine ⟨⟨h.server, h.joinable, fun hj => ⟨rfl, (h.live hj).2⟩, h.no_fault hv, fun w hw => ?_⟩,
    h.main.beside (fun stage => by simp [St.view, hv]) rfl rfl fun w hw => ?_, h.exit⟩
  · cases hw
    rw [hinit]
    exact h.made v hv
  · cases hw
    exact ⟨v, hv, hrun⟩

/-- The world goes on. -/
theorem Inv.world (h : Inv s stage) (g_running : Bool) (clients : Nat → Client) (arrived : Nat) :
    Inv { s with g_running := g_running, clients := clients, arrived := arrived } stage :=
  ⟨⟨h.server, h.joinable, h.live, h.fault, h.made⟩,
    h.main.beside (fun _ => rfl) rfl rfl fun v hv => ⟨v, hv, rfl⟩, h.exit⟩

/-- Any step keeps the invariant. -/
theorem Inv.step (h : Inv s stage) {a : Act} (hs : step s a = some s') :
    ∃ stage', Inv s' stage' := by
  unfold camera_program.step at hs
  split at hs
  · cases hs
  · cases a with
    | main o => exact h.main_step hs
    | server o => exact ⟨stage, h.server_step hs⟩
    | worker u tid o =>
      obtain ⟨v, hv, hs⟩ := Option.bind_eq_some_iff.mp hs
      obtain ⟨v', hstep, rfl⟩ := Option.map_eq_some_iff.mp hs
      obtain ⟨th, -, hw⟩ := Option.bind_eq_some_iff.mp hstep
      exact ⟨stage, h.service_step hv (service.worker_leaves hw).1
        (service.worker_initialized hw)⟩
    | wake_up u tid =>
      obtain ⟨v, hv, hs⟩ := Option.bind_eq_some_iff.mp hs
      obtain ⟨v', hstep, rfl⟩ := Option.map_eq_some_iff.mp hs
      obtain ⟨th, -, rfl⟩ := Option.map_eq_some_iff.mp hstep
      exact ⟨stage, h.service_step hv rfl rfl⟩
    | signal =>
      cases hs
      exact ⟨stage, h.world false s.clients s.arrived⟩
    | connect =>
      simp only at hs
      split at hs <;> cases hs
      exact ⟨stage, h.world s.g_running s.clients _⟩
    | send n text =>
      simp only at hs
      split at hs <;> cases hs
      exact ⟨stage, h.world s.g_running _ s.arrived⟩
    | hang_up n =>
      simp only at hs
      split at hs <;> cases hs
      exact ⟨stage, h.world s.g_running _ s.arrived⟩

/-! ## Faults -/

/-- The next command of the thread frees the service. -/
def Pc.frees {α : Type} : Pc α → Bool
  | .code (.op .service_deinit _) => true
  | _ => false

/-- A step of the main thread leads to a fault only where it frees the service, and a unit has
a thread. -/
theorem Inv.main_fault (h : Inv s stage) (hs : camera_program.main_step o s = some s')
    (hclean : s.fault = false) (hfault : s'.fault = true) :
    s.main.frees = true ∧ s.unit_threads = true := by
  have hfit := h.main
  have hnew : s'.fault ≠ s.fault := by
    rw [hclean, hfault]
    decide
  rcases main_step_cases hs with ⟨-, rfl | ⟨-, rfl⟩⟩ | ⟨-, rfl⟩ | ⟨err, -, rfl⟩ |
    ⟨pc', t, hadv, rfl⟩
  · exact absurd rfl hnew
  · exact absurd rfl hnew
  · exact absurd rfl hnew
  · exact absurd rfl hnew
  · rcases advance_cases hadv with ⟨c, k, -, rfl, rfl⟩ | ⟨c, k, r, hmain, hdo, rfl⟩ |
      ⟨c, cmd, q, k, r, hmain, hdo, rfl⟩ | ⟨c, err, k, -, rfl, rfl⟩
    · exact absurd rfl hnew
    · rw [hmain] at hfit
      obtain ⟨-, -, -, hsame | ⟨rfl, hthreads⟩⟩ := do_sys.orderly h.toBase hfit.2 hfit.1 hdo
      · exact absurd hsame hnew
      · refine ⟨by rw [hmain]; rfl, ?_⟩
        rw [hclean, Bool.false_or] at hthreads
        exact hthreads.symm.trans hfault
    · rw [hmain] at hfit
      obtain ⟨-, -, v, hv, hq⟩ := hfit
      obtain ⟨v', -, rfl, -⟩ := do_service.flags hv (h.made v hv) hq hdo
      exact absurd rfl hnew
    · exact absurd rfl hnew

/-- A step of the server's thread leads to no fault. -/
theorem Inv.server_fault (h : Inv s stage) (hs : camera_program.server_step o s = some s') :
    s'.fault = s.fault := by
  have hfit := h.server
  rcases server_step_cases hs with ⟨-, rfl⟩ | ⟨stop, -, rfl⟩ | ⟨pc', t, hadv, rfl⟩
  · rfl
  · rfl
  · have hj : s.joinable = true := by
      by_contra hno
      rw [h.joinable (Bool.eq_false_iff.mpr hno)] at hadv
      cases hadv
    obtain ⟨hsome, -, hlistener⟩ := h.live hj
    rcases advance_cases hadv with ⟨c, k, -, rfl, rfl⟩ | ⟨c, k, r, hserver, hdo, rfl⟩ |
      ⟨c, cmd, q, k, r, hserver, hdo, rfl⟩ | ⟨c, err, k, -, rfl, rfl⟩
    · rfl
    · rw [hserver] at hfit
      obtain ⟨b, hhold, hcode⟩ := hfit
      obtain ⟨-, -, -, client_fd, accepted, open_fds, closed, ht⟩ :=
        do_sys.serves hhold hlistener hcode hdo
      simp only at ht
      subst ht
      rfl
    · rw [hserver] at hfit
      obtain ⟨v, hv⟩ := Option.isSome_iff_exists.mp hsome
      obtain ⟨v', killed, -, ht⟩ := do_service.serves hv hfit.2.1 hdo
      simp only at ht
      subst ht
      rfl
    · rfl

/-- Any step leads to a fault only where the main thread frees the service, and a unit has a
thread. -/
theorem Inv.step_fault (h : Inv s stage) {a : Act} (hs : camera_program.step s a = some s')
    (hclean : s.fault = false) (hfault : s'.fault = true) :
    s.main.frees = true ∧ s.unit_threads = true := by
  have hnew : s'.fault ≠ s.fault := by
    rw [hclean, hfault]
    decide
  unfold camera_program.step at hs
  split at hs
  · cases hs
  · cases a with
    | main o => exact h.main_fault hs hclean hfault
    | server o => exact absurd (h.server_fault hs) hnew
    | worker u tid o =>
      obtain ⟨v, -, hs⟩ := Option.bind_eq_some_iff.mp hs
      obtain ⟨v', -, rfl⟩ := Option.map_eq_some_iff.mp hs
      exact absurd rfl hnew
    | wake_up u tid =>
      obtain ⟨v, -, hs⟩ := Option.bind_eq_some_iff.mp hs
      obtain ⟨v', -, rfl⟩ := Option.map_eq_some_iff.mp hs
      exact absurd rfl hnew
    | signal =>
      cases hs
      exact absurd rfl hnew
    | connect =>
      simp only at hs
      split at hs <;> cases hs
      exact absurd rfl hnew
    | send n text =>
      simp only at hs
      split at hs <;> cases hs
      exact absurd rfl hnew
    | hang_up n =>
      simp only at hs
      split at hs <;> cases hs
      exact absurd rfl hnew

end

end vision_flow.camera_program
