-- The clients of the program with a camera. As long as the signal has not come, the server's
-- thread does not end, and in a run that is scheduled fairly each client is served.
import VisionFlow.CameraEnds

namespace vision_flow.camera_program

open programs units lifecycle runs fairness

/-! ## The server stays -/

/-- Each answer leads to `Q`, where the server is still to run. -/
def Persists : (c : SysCmd) → (c.Res → Unit → Prop) → Unit → Prop
  | .load_running, Q, _ => Q true ()
  | _, Q, _ => ∀ r, Q r ()

/-- The body of the server's loop is not to break. -/
def Pc.Persists : Pc Bool → Prop
  | .loop => True
  | .code p => wp camera_program.Persists p (fun stop _ => stop = false) ()
  | .inside _ _ k =>
    ∀ err, wp camera_program.Persists (k err) (fun stop _ => stop = false) ()
  | .gone => False

/-- The server's thread goes on as long as `srv->running` is set. -/
def Persistent (s : St) : Prop := s.joinable = true → s.running = true → s.server.Persists

theorem vf_control_server_thread_fn.persists :
    (Pc.code vf_control_server_thread_fn).Persists := by
  unfold Pc.Persists vf_control_server_thread_fn
  simp [camera_program.Persists]

section
variable {s s' : St} {stage : Stage} {o : Oracle} {a : Act}

/-- A command of the main thread makes the server run only where it has no thread. -/
theorem Persistent.do_sys {c : SysCmd} {Q : c.Res → View → Prop} {r : c.Res × St}
    (hp : Persistent s) (hc : Orderly c Q (s.view stage)) (hs : do_sys o s c = some r) :
    Persistent r.2 := by
  cases c with
  | set_running b =>
    cases hs
    intro hj hrunning
    have hj' : s.joinable = true := hj
    have hb : b = true := hrunning
    obtain ⟨hno, -⟩ := hc.1 hb
    exact absurd (hj'.symm.trans hno) (by decide)
  | clear =>
    cases hs
    rintro - ⟨⟩
  | pthread_create =>
    cases hs
    exact fun _ _ => trivial
  | pthread_join =>
    simp only [camera_program.do_sys] at hs
    split at hs <;> cases hs
    rintro ⟨⟩
  | service_init =>
    simp only [camera_program.do_sys] at hs
    split at hs
    · cases hs
      exact hp
    · split at hs <;> cases hs <;> exact hp
  | socket =>
    simp only [camera_program.do_sys] at hs
    split at hs <;> cases hs <;> exact hp
  | listen =>
    simp only [camera_program.do_sys] at hs
    split at hs <;> cases hs <;> exact hp
  | call c => cases hs
  | load_running => exact hc.elim
  | accept => exact hc.elim
  | read => exact hc.elim
  | close => exact hc.elim
  | _ =>
    cases hs
    exact hp

theorem Persistent.main_step (hp : Persistent s) (h : Inv s stage)
    (hs : main_step o s = some s') : Persistent s' := by
  have hfit := h.main
  rcases main_step_cases hs with ⟨-, rfl | ⟨-, rfl⟩⟩ | ⟨-, rfl⟩ | ⟨err, -, rfl⟩ |
    ⟨pc', t, hadv, rfl⟩
  · exact hp
  · exact hp
  · exact hp
  · exact hp
  · rcases advance_cases hadv with ⟨c, k, hmain, rfl, rfl⟩ | ⟨c, k, r, hmain, hdo, rfl⟩ |
      ⟨c, cmd, q, k, r, hmain, hdo, rfl⟩ | ⟨c, err, k, hmain, rfl, rfl⟩
    · exact hp
    · rw [hmain] at hfit
      exact Persistent.do_sys hp hfit.1 hdo
    · obtain ⟨_, _, _, hr⟩ := do_service_eq hdo
      simp only at hr
      subst hr
      exact hp
    · exact hp

theorem Persistent.server_step (hp : Persistent s) (h : Inv s stage)
    (hs : server_step o s = some s') : Persistent s' := by
  have hfit := h.server
  rcases server_step_cases hs with ⟨-, rfl⟩ | ⟨stop, hserver, rfl⟩ | ⟨pc', t, hadv, rfl⟩
  · intro _ hrunning
    have hrunning' : s.running = true := hrunning
    simp only [hrunning', if_true]
    exact vf_control_server_thread_fn.persists
  · intro hj hrunning
    have hstop := hp hj hrunning
    rw [hserver] at hstop
    obtain rfl : stop = false := hstop
    trivial
  · have hlive := h.live (by
      by_contra hj
      rw [h.joinable (Bool.eq_false_iff.mpr hj)] at hadv
      cases hadv)
    rcases advance_cases hadv with ⟨c, k, hserver, rfl, rfl⟩ | ⟨c, k, r, hserver, hdo, rfl⟩ |
      ⟨c, cmd, q, k, r, hserver, hdo, rfl⟩ | ⟨c, err, k, hserver, rfl, rfl⟩
    · intro hj hrunning err
      have hcode := hp hj hrunning
      rw [hserver] at hcode
      exact hcode err
    · rw [hserver] at hfit
      obtain ⟨b, hhold, hserves⟩ := hfit
      obtain ⟨b', -, -, _, _, _, _, ht⟩ := do_sys.serves hhold hlive.2.2 hserves hdo
      simp only at ht
      subst ht
      intro hj hrunning
      have hcode := hp hj hrunning
      rw [hserver] at hcode
      cases c with
      | load_running =>
        have hrunning' : s.running = true := hrunning
        have hr : s.running = r := congrArg Prod.fst (Option.some.inj hdo)
        rw [← hr, hrunning']
        exact hcode
      | _ => exact hcode r
    · obtain ⟨_, _, _, hr⟩ := do_service_eq hdo
      simp only at hr
      subst hr
      intro hj hrunning
      have hcode := hp hj hrunning
      rw [hserver] at hcode
      exact hcode
    · intro hj hrunning
      have hcode := hp hj hrunning
      rw [hserver] at hcode
      exact hcode err

theorem Persistent.step (hp : Persistent s) (h : Inv s stage) (hs : step s a = some s') :
    Persistent s' := by
  rcases step_cases hs with ⟨o, -, hown⟩ | ⟨o, -, hown⟩ | ⟨v, v', -, -, rfl⟩ | ⟨-, hworld⟩
  · exact hp.main_step h hown
  · exact hp.server_step h hown
  · exact hp
  · obtain ⟨_, _, _, rfl⟩ := hworld.same
    exact hp

end

section
variable {e : Endless step}

theorem Scheduled.persistent (h : Scheduled e) (i : Nat) : Persistent (e.state i) := by
  induction i with
  | zero =>
    rw [h.start]
    rintro ⟨⟩
  | succ i ih =>
    obtain ⟨stage, hinv⟩ := (h.good i).inv
    exact ih.step hinv (e.goes i)

/-! ## A client is served -/

/-- The main thread waits for the signal, and client `n` is there. At least `m` clients were
accepted. -/
structure Open (n m : Nat) (s : St) : Prop where
  main : s.main = .loop
  arrived : n < s.arrived
  accepted : m ≤ s.accepted

variable {n m : Nat}

/-- The main thread does nothing but sleep. -/
theorem main_sleeps {i : Nat} (hcalm : (e.state i).g_running = true)
    (hmain : (e.state i).main = .loop) (ha : (e.act i).task = some .main) :
    e.state (i + 1) = e.state i := by
  obtain ⟨o, ha⟩ := act_of_main ha
  have hs := e.goes i
  rw [ha] at hs
  have hs' := step_main hs
  unfold main_step at hs'
  simp only [hmain, hcalm, if_true, Option.some.injEq] at hs'
  exact hs'.symm

theorem Open.stays {i : Nat} (hcalm : (e.state i).g_running = true)
    (ho : Open n m (e.state i)) : Open n m (e.state (i + 1)) := by
  obtain ⟨-, harrived, haccepted⟩ := step_goes_on (e.goes i)
  refine ⟨?_, ho.arrived.trans_le harrived, ho.accepted.trans haccepted⟩
  by_cases ha : (e.act i).task = some .main
  · rw [main_sleeps hcalm ho.main ha]
    exact ho.main
  · exact (main_stays (e.goes i) ha).trans ho.main

theorem Open.meanwhile (hcalm : ∀ i, (e.state i).g_running = true) : Meanwhile e (Open n m) :=
  ⟨fun i ho _ => ho.stays (hcalm i), fun i ho _ ha => main_sleeps (hcalm i) ho.main ha⟩

/-- Only the server's thread accepts a client. -/
theorem Open.accepts_none {i : Nat} (hcalm : (e.state i).g_running = true)
    (ho : Open n m (e.state i)) (ha : (e.act i).task ≠ some .server) :
    (e.state (i + 1)).accepted = (e.state i).accepted := by
  rcases step_cases (e.goes i) with ⟨o, hact, -⟩ | ⟨o, hact, -⟩ | ⟨v, v', -, -, hs⟩ | ⟨-, hworld⟩
  · rw [main_sleeps hcalm ho.main (by rw [hact]; rfl)]
  · exact absurd (by rw [hact]; rfl) ha
  · rw [hs]
  · obtain ⟨_, _, _, hs⟩ := hworld.same
    rw [hs]

/-- The server runs, and its socket listens. -/
theorem Open.ready (h : Scheduled e) {i : Nat} (ho : Open n m (e.state i)) :
    (e.state i).running = true ∧ (e.state i).listener = some .listening ∧
      (e.state i).server.Persists := by
  obtain ⟨stage, hinv⟩ := (h.good i).inv
  have hfit := hinv.main
  rw [ho.main] at hfit
  have hready : (e.state i).view stage = ⟨true, true, true, some .listening, true, .started⟩ :=
    hfit.1
  simp only [St.view, View.mk.injEq] at hready
  obtain ⟨-, -, hrunning, hlistener, hj, -⟩ := hready
  exact ⟨hrunning, hlistener, h.persistent i hj hrunning⟩

/-- A client that was accepted is served before the next one. -/
theorem closed_of_accepted {s : St} (hn : n < s.accepted) (hhold : Holding s false) :
    n ∈ s.closed := by
  rw [hhold.2]
  exact List.mem_range.mpr hn

theorem Open.accepts (h : Scheduled e) (hcalm : ∀ i, (e.state i).g_running = true)
    (k : Bool → Code Bool) : LeadsTo e (ServerAt (Open n m) (.op .accept k))
      fun s => (∃ r, ServerAt (Open n m) (k r) s) ∨ n ∈ s.closed := by
  have hz : Meanwhile e (Open n m) := Open.meanwhile hcalm
  intro i hat
  by_cases hn : n < (e.state i).accepted
  · obtain ⟨b, hhold, hserves⟩ := hat.serves h
    obtain ⟨rfl, -⟩ := hserves
    exact ⟨i, le_rfl, .inr (closed_of_accepted hn hhold)⟩
  · -- the client waits in the queue of the socket
    have hwaits : LeadsTo e
        (fun s => ServerAt (Open n m) (.op .accept k) s ∧ s.accepted ≤ n)
        fun s => (∃ r, ServerAt (Open n m) (k r) s) ∨ n ∈ s.closed := by
      refine (hz.server h).by_step h rfl (fun i hi => hi.1) (fun i hi => ?_)
        (fun i hi ha hholds hpc => .inl ⟨⟨hholds, hpc⟩, ?_⟩) fun i o t _ hholds hadv => ?_
      · obtain ⟨⟨ho, -⟩, hle⟩ := hi
        obtain ⟨-, hlistener, -⟩ := ho.ready h
        apply advance_isSome
        simp [do_sys, do_accept, hlistener, calm, hle.trans_lt ho.arrived]
      · rw [hi.1.1.accepts_none (hcalm i) ha]
        exact hi.2
      · obtain ⟨r, -, hpc⟩ := advance_code (by simp) hadv
        exact .inl ⟨r, hholds, hpc⟩
    exact hwaits i ⟨hat, by omega⟩

/-- From each place in its code, the server's thread comes back to its loop. -/
theorem Open.body_ends (h : Scheduled e) (hcalm : ∀ i, (e.state i).g_running = true)
    (p : Code Bool) : LeadsTo e (ServerAt (Open n m) p)
      fun s => (Open n m s ∧ s.server = .loop) ∨ n ∈ s.closed := by
  have hz : Meanwhile e (Open n m) := Open.meanwhile hcalm
  have hgoes : ∀ (c : SysCmd) (k : c.Res → Code Bool),
      LeadsTo e (ServerAt (Open n m) (.op c k))
        fun s => (∃ r, ServerAt (Open n m) (k r) s) ∨ n ∈ s.closed := by
    intro c k
    by_cases hc : c = .accept
    · subst hc
      exact Open.accepts h hcalm k
    · exact (ServerAt.goes hz h c k fun hc' => absurd hc' hc).trans
        (LeadsTo.of_imp fun i hi => .inl hi)
  have hends : ∀ stop, LeadsTo e (ServerAt (Open n m) (.ret stop))
      fun s => (Open n m s ∧ s.server = .loop) ∨ n ∈ s.closed := by
    intro stop
    refine server_tests hz h (by simp) (fun i hi => by simp [server_step, hi])
      fun i o hi hi' hpc hs => .inl ⟨hi', ?_⟩
    obtain ⟨-, -, hpersists⟩ := hi.ready h
    rw [hpc] at hpersists
    obtain rfl : stop = false := hpersists
    unfold server_step at hs
    simp only [hpc, Option.some.injEq] at hs
    rw [← hs]
    rfl
  exact (program_ends_or (ServerAt (Open n m)) hgoes p).trans
    ((LeadsTo.exists hends).or (LeadsTo.of_imp fun i hi => .inr hi))

/-- The next command of the thread is `accept`. -/
def Pc.accepts {α : Type} : Pc α → Bool
  | .code (.op .accept _) => true
  | _ => false

/-- No `accept` fails. -/
def Accepts (s : St) : Act → Prop
  | .server o => s.server.accepts = true → o.ok = true
  | _ => True

instance (s : St) : (a : Act) → Decidable (Accepts s a)
  | .server _ => inferInstanceAs (Decidable (_ → _))
  | .main _ => isTrue trivial
  | .worker _ _ _ => isTrue trivial
  | .wake_up _ _ => isTrue trivial
  | .signal => isTrue trivial
  | .connect => isTrue trivial
  | .send _ _ => isTrue trivial
  | .hang_up _ => isTrue trivial

/-- The server accepts one more client, and serves it. -/
theorem Open.serves_one (h : Scheduled e) (hcalm : ∀ i, (e.state i).g_running = true)
    (haccepts : ∀ i, Accepts (e.state i) (e.act i))
    (m : Nat) : LeadsTo e (fun s => Open n m s ∧ s.server = .loop)
      fun s => (Open n (m + 1) s ∧ s.server = .loop) ∨ n ∈ s.closed := by
  obtain ⟨k, hfn⟩ : ∃ k, vf_control_server_thread_fn = .op .accept k := ⟨_, rfl⟩
  have hz : Meanwhile e (Open n m) := Open.meanwhile hcalm
  -- back in its loop, with one more client accepted
  have hbody : ∀ r, LeadsTo e (ServerAt (Open n (m + 1)) (k r))
      fun s => (Open n (m + 1) s ∧ s.server = .loop) ∨ n ∈ s.closed :=
    fun r => Open.body_ends h hcalm (k r)
  have haccept : LeadsTo e (fun s => ServerAt (Open n m) (.op .accept k) s ∧ s.accepted ≤ n)
      fun s => ∃ r, ServerAt (Open n (m + 1)) (k r) s := by
    refine LeadsTo.by_task h.fair .server (fun i hi => ?_) (fun i hi ha => ?_) fun i hi ha => ?_
    · obtain ⟨⟨ho, hpc⟩, hle⟩ := hi
      obtain ⟨-, hlistener, -⟩ := ho.ready h
      change (server_step calm (e.state i)).isSome = true
      rw [server_step_busy calm (by rw [hpc]; rfl), Option.isSome_map, hpc]
      apply advance_isSome
      simp [do_sys, do_accept, hlistener, calm, hle.trans_lt ho.arrived]
    · obtain ⟨hholds, hpc⟩ := (hz.server h).stays i hi.1.1 (by
        simp only [Meanwhile.server, hi.1.2, Pc.busy]) ha
      refine .inl ⟨⟨hholds, hpc.trans hi.1.2⟩, ?_⟩
      rw [hi.1.1.accepts_none (hcalm i) ha]
      exact hi.2
    · obtain ⟨⟨ho, hpc⟩, hle⟩ := hi
      obtain ⟨-, hlistener, -⟩ := ho.ready h
      obtain ⟨o, ha⟩ := act_of_server ha
      have hok : o.ok = true := by
        have haccept := haccepts i
        rw [ha] at haccept
        exact haccept (by rw [hpc]; rfl)
      have hs := e.goes i
      rw [ha] at hs
      have hs' := step_server hs
      rw [server_step_busy o (by rw [hpc]; rfl), hpc] at hs'
      simp only [advance, do_sys, do_accept, hlistener, hok, Bool.not_true, Bool.false_eq_true,
        if_false, hle.trans_lt ho.arrived, if_true, Option.map_some, Option.some.injEq] at hs'
      rw [← hs']
      exact ⟨true, ⟨ho.main, ho.arrived, Nat.succ_le_succ ho.accepted⟩, rfl⟩
  have hloop : LeadsTo e (fun s => Open n m s ∧ s.server = .loop)
      (ServerAt (Open n m) (.op .accept k)) := by
    refine server_tests hz h (by simp) (fun i hi => by simp [server_step, hi])
      fun i o hi hi' hpc hs => ⟨hi', ?_⟩
    obtain ⟨hrunning, -⟩ := hi.ready h
    unfold server_step at hs
    simp only [hpc, hrunning, if_true, Option.some.injEq, hfn] at hs
    rw [← hs]
  intro i hi
  obtain ⟨j, hij, hj⟩ := hloop i hi
  by_cases hn : n < (e.state j).accepted
  · obtain ⟨b, hhold, hserves⟩ := hj.serves h
    obtain ⟨rfl, -⟩ := hserves
    exact ⟨j, hij, .inr (closed_of_accepted hn hhold)⟩
  · obtain ⟨l, hjl, hl⟩ := (haccept.trans (LeadsTo.exists hbody)) j ⟨hj, by omega⟩
    exact ⟨l, hij.trans hjl, hl⟩

def Pc.sleeps {α : Type} : Pc α → Bool
  | .loop => true
  | _ => false

end

/-! ## A client that keeps silent -/

section
variable {s s' t : St} {stage : Stage} {o : Oracle} {a : Act} {n : Nat} {acts more : List Act}

/-- What the main thread leaves to the server's thread. -/
theorem main_step_fds (h : Inv s stage) (hs : main_step o s = some s') :
    s'.client_fd = s.client_fd ∧ s'.open_fds = s.open_fds ∧ s'.clients = s.clients ∧
      s'.closed = s.closed := by
  have hfit := h.main
  rcases main_step_cases hs with ⟨-, rfl | ⟨-, rfl⟩⟩ | ⟨-, rfl⟩ | ⟨err, -, rfl⟩ |
    ⟨pc', t, hadv, rfl⟩
  · exact ⟨rfl, rfl, rfl, rfl⟩
  · exact ⟨rfl, rfl, rfl, rfl⟩
  · exact ⟨rfl, rfl, rfl, rfl⟩
  · exact ⟨rfl, rfl, rfl, rfl⟩
  · rcases advance_cases hadv with ⟨c, k, hmain, rfl, rfl⟩ | ⟨c, k, r, hmain, hdo, rfl⟩ |
      ⟨c, cmd, q, k, r, hmain, hdo, rfl⟩ | ⟨c, err, k, hmain, rfl, rfl⟩
    · exact ⟨rfl, rfl, rfl, rfl⟩
    · rw [hmain] at hfit
      obtain ⟨hcode, -⟩ := hfit
      cases c with
      | service_init =>
        simp only [do_sys] at hdo
        split at hdo
        · cases hdo
          exact ⟨rfl, rfl, rfl, rfl⟩
        · split at hdo <;> cases hdo <;> exact ⟨rfl, rfl, rfl, rfl⟩
      | socket =>
        simp only [do_sys] at hdo
        split at hdo <;> cases hdo <;> exact ⟨rfl, rfl, rfl, rfl⟩
      | listen =>
        simp only [do_sys] at hdo
        split at hdo <;> cases hdo <;> exact ⟨rfl, rfl, rfl, rfl⟩
      | pthread_join =>
        simp only [do_sys] at hdo
        split at hdo <;> cases hdo
        exact ⟨rfl, rfl, rfl, rfl⟩
      | call c => cases hdo
      | load_running => exact hcode.elim
      | accept => exact hcode.elim
      | read => exact hcode.elim
      | close => exact hcode.elim
      | _ =>
        cases hdo
        exact ⟨rfl, rfl, rfl, rfl⟩
    · obtain ⟨_, _, _, hr⟩ := do_service_eq hdo
      simp only at hr
      subst hr
      exact ⟨rfl, rfl, rfl, rfl⟩
    · exact ⟨rfl, rfl, rfl, rfl⟩

/-- The server's thread waits for what client `n` sends. -/
structure Held (n : Nat) (s : St) : Prop where
  reads : ∃ k, s.server = .code (.op .read k)
  fd : s.client_fd = some n
  opened : n ∈ s.open_fds
  silent : (s.clients n).heard = false

/-- The client neither sends anything nor hangs up, and no `read` fails. -/
def Silent (n : Nat) : Act → Prop
  | .send m _ => m ≠ n
  | .hang_up m => m ≠ n
  | .server o => o.ok = true
  | _ => True

theorem Held.step (hh : Held n s) (h : Inv s stage) (ha : Silent n a)
    (hs : step s a = some s') : Held n s' ∧ s'.closed = s.closed := by
  obtain ⟨k, hpc⟩ := hh.reads
  have hsent : (s.clients n).sent = none ∧ (s.clients n).hung_up = false := by
    have hsilent := hh.silent
    unfold Client.heard at hsilent
    simpa using hsilent
  have hserver : a.task ≠ some .server → s'.server = .code (.op .read k) := fun hne =>
    (server_stays h hs hne (by rw [hpc]; simp)).trans hpc
  unfold camera_program.step at hs
  split at hs
  · cases hs
  · cases a with
    | main o =>
      obtain ⟨hfd, hopen, hclients, hclosed⟩ := main_step_fds h hs
      exact ⟨⟨⟨k, hserver (by simp [Act.task])⟩, hfd.trans hh.fd, by rw [hopen]; exact hh.opened,
        by rw [hclients]; exact hh.silent⟩, hclosed⟩
    | server o =>
      -- its read waits
      have hok : o.ok = true := ha
      unfold server_step at hs
      simp [hpc, advance, do_sys, do_read, hh.fd, hh.opened, hsent, hok] at hs
    | worker u tid o =>
      obtain ⟨v, -, hs⟩ := Option.bind_eq_some_iff.mp hs
      obtain ⟨v', -, rfl⟩ := Option.map_eq_some_iff.mp hs
      exact ⟨⟨⟨k, hpc⟩, hh.fd, hh.opened, hh.silent⟩, rfl⟩
    | wake_up u tid =>
      obtain ⟨v, -, hs⟩ := Option.bind_eq_some_iff.mp hs
      obtain ⟨v', -, rfl⟩ := Option.map_eq_some_iff.mp hs
      exact ⟨⟨⟨k, hpc⟩, hh.fd, hh.opened, hh.silent⟩, rfl⟩
    | signal =>
      cases hs
      exact ⟨⟨⟨k, hpc⟩, hh.fd, hh.opened, hh.silent⟩, rfl⟩
    | connect =>
      simp only at hs
      split at hs <;> cases hs
      exact ⟨⟨⟨k, hpc⟩, hh.fd, hh.opened, hh.silent⟩, rfl⟩
    | send m text =>
      simp only at hs
      split at hs <;> cases hs
      refine ⟨⟨⟨k, hpc⟩, hh.fd, hh.opened, ?_⟩, rfl⟩
      simp only [Function.update_of_ne (Ne.symm ha)]
      exact hh.silent
    | hang_up m =>
      simp only at hs
      split at hs <;> cases hs
      refine ⟨⟨⟨k, hpc⟩, hh.fd, hh.opened, ?_⟩, rfl⟩
      simp only [Function.update_of_ne (Ne.symm ha)]
      exact hh.silent

/-- The main thread waits for the end of the server's thread. -/
def Joins (s : St) : Prop := ∃ k, s.main = .code (.op .pthread_join k)

theorem Held.joins (hh : Held n s) (hs : camera_program.step s a = some s')
    (hjoins : Joins s) : Joins s' := by
  obtain ⟨k, hmain⟩ := hjoins
  by_cases ha : a.task = some .main
  · obtain ⟨p, hpc⟩ := hh.reads
    have hserves : s.serves = true := by
      unfold St.serves
      rw [hpc]
      rfl
    unfold camera_program.step at hs
    split at hs
    · cases hs
    · cases a with
      | main o => simp [main_step, hmain, advance, do_sys, hserves] at hs
      | _ => cases ha
  · exact ⟨k, (main_stays hs ha).trans hmain⟩

/-- As long as the client that the server reads from keeps silent, no other client is served,
and the program does not end, not even after the signal: the main thread does not come past
its join. -/
theorem a_silent_client_holds_the_program (hrun : run step .start acts = some s)
    (hheld : Held n s) (hmore : ∀ a ∈ more, Silent n a) (hgoes : run step s more = some t) :
    Held n t ∧ t.closed = s.closed ∧ t.exit_code = none ∧ t.joinable = true ∧
      (Joins s → Joins t) := by
  obtain ⟨stage, hinv⟩ := run_inv hrun
  have hall : ∀ more (s : St), (∃ stage, Inv s stage) → Held n s → (∀ a ∈ more, Silent n a) →
      run step s more = some t →
      (∃ stage, Inv t stage) ∧ Held n t ∧ t.closed = s.closed ∧ (Joins s → Joins t) := by
    clear hrun hheld hmore hgoes hinv
    intro more
    induction more with
    | nil =>
      rintro s hinv hheld - hgoes
      cases hgoes
      exact ⟨hinv, hheld, rfl, id⟩
    | cons a rest ih =>
      rintro s ⟨stage, hinv⟩ hheld hmore hgoes
      obtain ⟨s', hs, hrest⟩ := run_cons hgoes
      obtain ⟨hheld', hclosed⟩ := hheld.step hinv (hmore a List.mem_cons_self) hs
      obtain ⟨hinv', ht, hclosed', hjoins⟩ :=
        ih s' (hinv.step hs) hheld' (fun a ha => hmore a (List.mem_cons_of_mem _ ha)) hrest
      exact ⟨hinv', ht, hclosed'.trans hclosed, fun h => hjoins (hheld.joins hs h)⟩
  obtain ⟨⟨stage', hinv'⟩, ht, hclosed, hjoins⟩ := hall more s ⟨stage, hinv⟩ hheld hmore hgoes
  have hserves : t.server ≠ .gone := by
    obtain ⟨k, hpc⟩ := ht.reads
    simp [hpc]
  have hjoinable : t.joinable = true := by
    by_contra hno
    exact hserves (hinv'.joinable (Bool.eq_false_iff.mpr hno))
  refine ⟨ht, hclosed, hinv'.exit fun hgone => ?_, hjoinable, hjoins⟩
  have hfit := hinv'.main
  rw [hgone] at hfit
  obtain ⟨err, -, hfinal, -⟩ := hfit
  exact hserves (hinv'.joinable hfinal.2.2.1)

def Pc.reads {α : Type} : Pc α → Bool
  | .code (.op .read _) => true
  | _ => false

def Pc.joins {α : Type} : Pc α → Bool
  | .code (.op .pthread_join _) => true
  | _ => false

/-- Two clients connect, and the first sends nothing. The signal comes, and the main thread
waits for the server's thread. -/
def a_silent_client : List Act :=
  mains 30 ++ [.connect, .connect] ++ servers 2 ++ .signal :: mains 5

/-- The second client asks for the status and hangs up, and a unit runs. -/
def others_go_on : List Act :=
  [.send 1 "\x7b\"cmd\":\"get_status\"\x7d\n".toList, .hang_up 1,
    .worker .file_out 3 ⟨.VF_SUCCESS, fun _ => 0, fun _ => true⟩]

theorem the_signal_does_not_end_it : ∃ s t, run step .start a_silent_client = some s ∧
    run step s others_go_on = some t ∧ Held 0 t ∧ t.closed = [] ∧ t.exit_code = none ∧
    Joins t := by
  have hstate : (run step .start a_silent_client).map (fun s =>
      ((s.server.reads, s.main.joins, s.client_fd, s.closed),
        decide (0 ∈ s.open_fds), (s.clients 0).heard, (run step s others_go_on).isSome)) =
          some ((true, true, some 0, []), true, false, true) := by
    decide +kernel
  obtain ⟨s, hrun, heq⟩ := Option.map_eq_some_iff.mp hstate
  simp only [Prod.mk.injEq] at heq
  obtain ⟨⟨hreads, hjoins, hfd, hclosed⟩, hopen, hsilent, hgoes⟩ := heq
  obtain ⟨t, ht⟩ := Option.isSome_iff_exists.mp hgoes
  have hheld : Held 0 s := by
    refine ⟨?_, hfd, of_decide_eq_true hopen, hsilent⟩
    unfold Pc.reads at hreads
    split at hreads
    · rename_i k hpc
      exact ⟨k, hpc⟩
    · cases hreads
  have hjoins' : Joins s := by
    unfold Pc.joins at hjoins
    split at hjoins
    · rename_i k hpc
      exact ⟨k, hpc⟩
    · cases hjoins
  have hmore : ∀ a ∈ others_go_on, Silent 0 a := by
    simp [others_go_on, Silent]
  obtain ⟨hheld', hsame, hexit, -, hwaits⟩ :=
    a_silent_client_holds_the_program hrun hheld hmore ht
  exact ⟨s, t, hrun, ht, hheld', hsame.trans hclosed, hexit, hwaits hjoins'⟩

end

end vision_flow.camera_program
