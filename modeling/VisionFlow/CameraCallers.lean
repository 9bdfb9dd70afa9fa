-- The calls of the service in a run that is scheduled fairly. Each call of the main thread or
-- of the server's thread ends: a stop waits for threads that end, and a start for none.
import VisionFlow.CameraFairness

namespace vision_flow.camera_program

open programs units lifecycle runs fairness

/-! ## A thread that calls the service -/

/-- The thread is in its own code or in a call, and not at the end of its code. -/
def Pc.busy {α : Type} : Pc α → Bool
  | .code (.op _ _) => true
  | .inside _ _ _ => true
  | _ => false

/-- One of the two threads, with what holds of the state while it runs. -/
structure Caller (e : Endless step) (α : Type) where
  pc : St → Pc α
  task : Task
  holds : St → Prop
  stays : ∀ i, holds (e.state i) → (pc (e.state i)).busy = true → (e.act i).task ≠ some task →
    holds (e.state (i + 1)) ∧ pc (e.state (i + 1)) = pc (e.state i)
  goes : ∀ i, holds (e.state i) → (pc (e.state i)).busy = true → (e.act i).task = some task →
    holds (e.state (i + 1)) ∧
      ∃ o t, advance o (e.state i) (pc (e.state i)) = some (pc (e.state (i + 1)), t)
  can : ∀ i, (pc (e.state i)).busy = true →
    (advance calm (e.state i) (pc (e.state i))).isSome = true → CanRun task (e.state i)
  own : task = .main ∨ task = .server
  calling : ∀ i c q k, pc (e.state i) = .inside c q k → (e.state i).calling = some (c, q)
  alone : ∀ i c q k, pc (e.state i) = .inside c q k → (e.act i).task ≠ some task →
    (e.act i).task = some .main ∨ (e.act i).task = some .server →
    (e.state (i + 1)).svc = (e.state i).svc
  served : ∀ i c q k, pc (e.state i) = .inside c q k → ∃ v, (e.state i).svc = some v
  forward : ∀ i, (pc (e.state i)).Forward

section
variable {e : Endless step} {α : Type} {C : Caller e α} {c : Call}
  {k : vf_err_t → Code α} {u : UnitId} {i : Nat}

/-- The thread is in the call, with this left of it. -/
def Caller.At (C : Caller e α) (c : Call) (k : vf_err_t → Code α) (q : ServiceCode vf_err_t)
    (s : St) : Prop := C.holds s ∧ C.pc s = .inside c q k

/-- The thread waits for the thread of a unit, which is there. -/
def Caller.JoinsAt (C : Caller e α) (c : Call) (k : vf_err_t → Code α) (u : UnitId)
    (q : Bool → ServiceCode vf_err_t) (tid : Nat) (pc : Option (units.Code vf_err_t)) (s : St) :
    Prop :=
  C.At c k (.op (.pthread_join u) q) s ∧ ∃ v th, s.svc = some v ∧ v.threads u = [th] ∧
    th.tid = tid ∧ th.pc = pc

/-- The thread of the unit has ended. -/
def Caller.JoinEnds (C : Caller e α) (c : Call) (k : vf_err_t → Code α) (u : UnitId)
    (q : Bool → ServiceCode vf_err_t) (s : St) : Prop :=
  C.At c k (.op (.pthread_join u) q) s ∧ ∃ v, s.svc = some v ∧ v.threads u = []

variable {q : Bool → ServiceCode vf_err_t}

theorem Caller.joining (h : Scheduled e) (hstop : c.stops = true)
    (hat : C.At c k (.op (.pthread_join u) q) (e.state i)) {v : service.St}
    (hv : (e.state i).svc = some v) : service.Joining camera_cfg ((e.state i).seen v) u := by
  have hcall := C.calling i _ _ _ hat.2
  obtain ⟨hinv, hwaits⟩ := (h.good i).service v hv
  refine ⟨hinv, hwaits, ?_, ?_⟩
  · simp only [service.St.order, St.seen, hcall]
  · intro c' p hc
    obtain rfl : c = c' := congrArg Prod.fst (Option.some.inj (hcall.symm.trans hc))
    exact hstop

/-- While the thread waits for a unit, the units alone change the service. -/
theorem Caller.service_moves (hat : C.At c k (.op (.pthread_join u) q) (e.state i))
    {v : service.St} (hv : (e.state i).svc = some v) (hother : (e.act i).task ≠ some C.task) :
    C.At c k (.op (.pthread_join u) q) (e.state (i + 1)) ∧ ∃ v', (e.state (i + 1)).svc = some v' ∧
      (v' = v ∧ (∀ w tid, (e.act i).task ≠ some (.unit w tid)) ∨ UnitStep v (e.act i) v') := by
  have hbusy : (C.pc (e.state i)).busy = true := by rw [hat.2]; rfl
  obtain ⟨hholds, hpc⟩ := C.stays i hat.1 hbusy hother
  refine ⟨⟨hholds, hpc.trans hat.2⟩, ?_⟩
  rcases step_cases (e.goes i) with ⟨o, ha, -⟩ | ⟨o, ha, -⟩ | ⟨w, v', hw, hunit, hs⟩ |
    ⟨htask, hworld⟩
  · have hsame := C.alone i _ _ _ hat.2 hother (.inl (by rw [ha]; rfl))
    exact ⟨v, hsame.trans hv, .inl ⟨rfl, by simp [ha, Act.task]⟩⟩
  · have hsame := C.alone i _ _ _ hat.2 hother (.inr (by rw [ha]; rfl))
    exact ⟨v, hsame.trans hv, .inl ⟨rfl, by simp [ha, Act.task]⟩⟩
  · obtain rfl : v = w := Option.some.inj (hv.symm.trans hw)
    exact ⟨v', by rw [hs], .inr hunit⟩
  · obtain ⟨_, _, _, hs⟩ := hworld.same
    exact ⟨v, by rw [hs]; exact hv, .inl ⟨rfl, by simp [htask]⟩⟩

/-- A step of a unit, with the call in progress. -/
theorem seen_worker {s : St} {v v' : service.St} {w : UnitId} {th : service.Thread}
    {o : service.Oracle} (hw : service.worker v w th o = some v') :
    service.worker (s.seen v) w th o = some (s.seen v') := by
  rw [St.seen, worker_calling, hw]
  rfl

/-- A step that is not one of the unit's own thread leaves that thread where it is. -/
theorem unit_beside {v v' : service.St} {a : Act} (h : UnitStep v a v') {th : service.Thread}
    (hone : v.threads u = [th]) (ha : a.task ≠ some (.unit u th.tid)) :
    ∃ th', v'.threads u = [th'] ∧ th'.tid = th.tid ∧ th'.pc = th.pc := by
  cases h with
  | @worker w tid o th' v' hth hw =>
    by_cases hu : u = w
    · subst hu
      rw [hone] at hth
      simp only [List.find?_singleton] at hth
      split at hth
      · rename_i htid
        cases hth
        exact absurd (by simp only [Act.task, ← of_decide_eq_true htid]) ha
      · cases hth
    · obtain ⟨f, hf, hthreads⟩ := service.worker_beside hu hw
      exact ⟨f th, by rw [hthreads, hone]; rfl, (hf th).1, (hf th).2⟩
  | @wake_up w tid th' hth =>
    by_cases hu : u = w
    · subst hu
      refine ⟨if th.tid = th'.tid then { th' with wait := none } else th, ?_, ?_⟩
      · simp [service.St.set_thread, hone]
      · have hmem := List.mem_of_find?_eq_some hth
        rw [hone] at hmem
        obtain rfl := List.mem_singleton.mp hmem
        simp
    · exact ⟨th, by simp [service.St.set_thread, hu, hone], rfl, rfl⟩

/-- The one thread of the unit goes on. -/
theorem unit_worker {v v' : service.St} {tid : Nat} {o : service.Oracle}
    (h : UnitStep v (.worker u tid o) v') {th : service.Thread} (hone : v.threads u = [th])
    (htid : th.tid = tid) : service.worker v u th o = some v' := by
  cases h with
  | worker hth hw =>
    rw [hone, List.find?_cons_of_pos (by simp [htid])] at hth
    cases hth
    exact hw

/-- No step makes a new thread for the unit. -/
theorem unit_stays_gone {v v' : service.St} {a : Act} (h : UnitStep v a v')
    (hnil : v.threads u = []) : v'.threads u = [] := by
  cases h with
  | @worker w tid o th' v' hth hw =>
    by_cases hu : u = w
    · subst hu
      rw [hnil] at hth
      cases hth
    · obtain ⟨f, -, hthreads⟩ := service.worker_beside hu hw
      rw [hthreads, hnil]
      rfl
  | @wake_up w tid th' hth =>
    by_cases hu : u = w
    · subst hu
      rw [hnil] at hth
      cases hth
    · simp [service.St.set_thread, hu, hnil]

variable {tid : Nat} {pc : Option (units.Code vf_err_t)}

/-- A thread of a unit that is waited for leads to what each of its steps leads to. -/
theorem Caller.unit_goes (h : Scheduled e) (hstop : c.stops = true) {Q : St → Prop}
    (hown : ∀ i v v' th o, C.At c k (.op (.pthread_join u) q) (e.state (i + 1)) →
      (e.state (i + 1)).svc = some v' → service.Joining camera_cfg ((e.state i).seen v) u →
      v.threads u = [th] → th.tid = tid → th.pc = pc →
      service.worker ((e.state i).seen v) u th o = some ((e.state i).seen v') →
      Q (e.state (i + 1))) :
    LeadsTo e (C.JoinsAt c k u q tid pc) Q := by
  refine LeadsTo.by_task h.fair (.unit u tid) ?_ ?_ ?_
  · rintro i ⟨hat, v, th, hv, hone, htid, -⟩
    have hjoin := C.joining h hstop hat hv
    refine ⟨v, th, hv, by simp [hone, htid], ?_⟩
    exact hjoin.awake (by simp [St.seen, hone])
  · rintro i ⟨hat, v, th, hv, hone, htid, hpc⟩ hother
    have hne : (e.act i).task ≠ some C.task := by
      intro hmine
      have hbusy : (C.pc (e.state i)).busy = true := by rw [hat.2]; rfl
      obtain ⟨-, o, t, hadv⟩ := C.goes i hat.1 hbusy hmine
      rw [hat.2] at hadv
      have hjoin := C.joining h hstop hat hv
      have hhandle := (hjoin.inv.units u).handle th (by simp [St.seen, hone])
      have hhandle' : th.tid = v.thread u := hhandle
      simp [advance, do_service, writes, hv, service.control, hone, hhandle'] at hadv
    obtain ⟨hat', v', hv', ⟨rfl, -⟩ | hunit⟩ := C.service_moves hat hv hne
    · exact .inl ⟨hat', v', th, hv', hone, htid, hpc⟩
    · obtain ⟨th', hone', htid', hpc'⟩ := unit_beside hunit hone (htid ▸ hother)
      exact .inl ⟨hat', v', th', hv', hone', htid'.trans htid, hpc'.trans hpc⟩
  · rintro i ⟨hat, v, th, hv, hone, htid, hpc⟩ hmine
    have hne : (e.act i).task ≠ some C.task := by
      rw [hmine]
      rcases C.own with htask | htask <;> simp [htask]
    obtain ⟨hat', v', hv', ⟨-, hno⟩ | hunit⟩ := C.service_moves hat hv hne
    · exact absurd hmine (hno u tid)
    · cases ha : e.act i with
      | worker w tid' o =>
        rw [ha] at hunit hmine
        cases hmine
        exact hown i v v' th o hat' hv' (C.joining h hstop hat hv) hone htid hpc
          (seen_worker (unit_worker hunit hone htid))
      | _ =>
        rw [ha] at hmine
        cases hmine

/-- A call that stops the service, and waits for the thread of a unit, comes to where there
is no such thread. -/
theorem Caller.drained (h : Scheduled e) (hstop : c.stops = true) :
    LeadsTo e (C.At c k (.op (.pthread_join u) q)) (C.JoinEnds c k u q) := by
  -- a command of the unit
  have hcommand : ∀ tid (d : UnitCmd) (p : d.Res → units.Code vf_err_t),
      LeadsTo e (C.JoinsAt c k u q tid (some (.op d p)))
        fun s => ∃ r, C.JoinsAt c k u q tid (some (p r)) s := by
    intro tid d p
    refine C.unit_goes h hstop fun i v v' th o hat hv hjoin hone htid hpc hw => ?_
    obtain ⟨r, th', hone', htid', hpc'⟩ := hjoin.commands hone hpc hw
    exact ⟨r, hat, v', th', hv, hone', htid'.trans htid, hpc'⟩
  -- the test of its loop
  have hloop : ∀ tid, LeadsTo e (C.JoinsAt c k u q tid none) (C.JoinEnds c k u q) := by
    intro tid
    refine C.unit_goes h hstop fun i v v' th o hat hv hjoin hone htid hpc hw => ?_
    have hnil : ((e.state i).seen v').threads u = [] := hjoin.thread_ends hone hpc hw
    exact ⟨hat, v', hv, hnil⟩
  -- the end of a run
  have hend : ∀ tid err, LeadsTo e (C.JoinsAt c k u q tid (some (.ret err)))
      (C.JoinEnds c k u q) := by
    intro tid err
    have hnext : LeadsTo e (C.JoinsAt c k u q tid (some (.ret err)))
        fun s => C.JoinEnds c k u q s ∨ C.JoinsAt c k u q tid none s := by
      refine C.unit_goes h hstop fun i v v' th o hat hv hjoin hone htid hpc hw => ?_
      rcases hjoin.run_ends hone hpc hw with hnil | ⟨th', hone', htid', hpc'⟩
      · exact .inl ⟨hat, v', hv, hnil⟩
      · exact .inr ⟨hat, v', th', hv, hone', htid'.trans htid, hpc'⟩
    exact hnext.trans (LeadsTo.or (LeadsTo.of_imp fun _ h => h) (hloop tid))
  intro i hat
  obtain ⟨v, hv⟩ := C.served i _ _ _ hat.2
  have hone := ((C.joining h hstop hat hv).inv.units u).one
  rcases hthreads : v.threads u with _ | ⟨th, _ | ⟨th', rest⟩⟩
  · exact ⟨i, le_rfl, hat, v, hv, hthreads⟩
  · have hjoins : C.JoinsAt c k u q th.tid th.pc (e.state i) := ⟨hat, v, th, hv, hthreads, rfl, rfl⟩
    rcases hpc : th.pc with _ | p <;> rw [hpc] at hjoins
    · exact hloop th.tid i hjoins
    · have hruns := program_ends (fun p => C.JoinsAt c k u q th.tid (some p))
        (hcommand th.tid) p
      exact (hruns.trans (LeadsTo.exists (hend th.tid))) i hjoins
  · have hlength : (v.threads u).length ≤ 1 := hone
    rw [hthreads] at hlength
    simp at hlength

/-! ## A call ends -/

/-- The thread does its next step. -/
theorem Caller.by_step (h : Scheduled e) {P Q : St → Prop} {at_pc : Pc α}
    (hbusy : at_pc.busy = true) (hP : ∀ i, P (e.state i) → C.holds (e.state i) ∧
      C.pc (e.state i) = at_pc)
    (hcan : ∀ i, P (e.state i) → (advance calm (e.state i) at_pc).isSome = true)
    (hkeeps : ∀ i, P (e.state i) → (e.act i).task ≠ some C.task → C.holds (e.state (i + 1)) →
      C.pc (e.state (i + 1)) = at_pc → P (e.state (i + 1)) ∨ Q (e.state (i + 1)))
    (hnext : ∀ i o t, P (e.state i) → C.holds (e.state (i + 1)) →
      advance o (e.state i) at_pc = some (C.pc (e.state (i + 1)), t) → Q (e.state (i + 1))) :
    LeadsTo e P Q := by
  refine LeadsTo.by_task h.fair C.task (fun i hi => ?_) (fun i hi hother => ?_) fun i hi hmine => ?_
  · obtain ⟨-, hpc⟩ := hP i hi
    exact C.can i (by rw [hpc]; exact hbusy) (by rw [hpc]; exact hcan i hi)
  · obtain ⟨hholds, hpc⟩ := hP i hi
    obtain ⟨hholds', hpc'⟩ := C.stays i hholds (by rw [hpc]; exact hbusy) hother
    exact hkeeps i hi hother hholds' (hpc'.trans hpc)
  · obtain ⟨hholds, hpc⟩ := hP i hi
    obtain ⟨hholds', o, t, hadv⟩ := C.goes i hholds (by rw [hpc]; exact hbusy) hmine
    rw [hpc] at hadv
    exact hnext i o t hi hholds' hadv

/-- After the next command of a call. -/
theorem advance_inside {s t : St} {o : Oracle} {cmd : CtlCmd UnitId QueueId}
    {q : cmd.Res → ServiceCode vf_err_t} {pc' : Pc α}
    (hadv : advance o s (.inside c (.op cmd q) k) = some (pc', t)) :
    ∃ r, pc' = .inside c (q r) k := by
  obtain ⟨r, -, heq⟩ := Option.map_eq_some_iff.mp hadv
  cases heq
  exact ⟨r.1, rfl⟩

/-- Each command but a join is answered. -/
theorem control_answers (v : service.St) (ok : Bool) {cmd : CtlCmd UnitId QueueId}
    (hjoin : ∀ u, cmd = .pthread_join u → v.threads u = []) :
    (service.control v ok cmd).isSome = true := by
  cases cmd with
  | pthread_create u => cases ok <;> rfl
  | pthread_join u => simp [service.control, hjoin u rfl]
  | _ => rfl

theorem advance_answers {s : St} {v : service.St} (hv : s.svc = some v)
    {cmd : CtlCmd UnitId QueueId} (q : cmd.Res → ServiceCode vf_err_t) (o : Oracle)
    (hjoin : ∀ u, cmd = .pthread_join u → v.threads u = []) :
    (advance o s (.inside c (.op cmd q) k)).isSome = true := by
  have hv' : (if writes cmd then do_write s else s).svc = some v := by
    rw [← hv]
    unfold do_write
    repeat' split
    all_goals rfl
  simp only [advance, do_service, hv', Option.isSome_map]
  exact control_answers v o.ok hjoin

/-- The call goes on by one command. -/
theorem Caller.call_goes (h : Scheduled e) (C : Caller e α) (c : Call) (k : vf_err_t → Code α)
    (cmd : CtlCmd UnitId QueueId) (q : cmd.Res → ServiceCode vf_err_t) :
    LeadsTo e (C.At c k (.op cmd q)) fun s => ∃ r, C.At c k (q r) s := by
  have hdone : ∀ i o t, C.holds (e.state (i + 1)) →
      advance o (e.state i) (.inside c (.op cmd q) k) = some (C.pc (e.state (i + 1)), t) →
      ∃ r, C.At c k (q r) (e.state (i + 1)) := by
    intro i o t hholds hadv
    obtain ⟨r, hpc⟩ := advance_inside hadv
    exact ⟨r, hholds, hpc⟩
  by_cases hjoin : ∃ u, cmd = .pthread_join u
  · obtain ⟨u, rfl⟩ := hjoin
    cases hstop : c.stops with
    | false => exact fun i hi => (C.forward i c _ k hi.2 hstop).elim
    | true =>
      refine (C.drained h hstop).trans (C.by_step h rfl (fun i hi => hi.1) (fun i hi => ?_)
        (fun i hi hother hholds hpc => ?_) fun i o t _ => hdone i o t)
      · obtain ⟨hat, v, hv, hnil⟩ := hi
        refine advance_answers hv q calm fun u' hu => ?_
        cases hu
        exact hnil
      · obtain ⟨hat, v, hv, hnil⟩ := hi
        obtain ⟨hat', v', hv', ⟨rfl, -⟩ | hunit⟩ := C.service_moves hat hv hother
        · exact .inl ⟨hat', v', hv', hnil⟩
        · exact .inl ⟨hat', v', hv', unit_stays_gone hunit hnil⟩
  · refine C.by_step h rfl (fun i hi => hi) (fun i hi => ?_) (fun i _ _ hholds hpc => ?_)
      fun i o t _ => hdone i o t
    · obtain ⟨v, hv⟩ := C.served i _ _ _ hi.2
      exact advance_answers hv q calm fun u hu => absurd ⟨u, hu⟩ hjoin
    · exact .inl ⟨hholds, hpc⟩

theorem Caller.call_ends (h : Scheduled e) (C : Caller e α) (c : Call) (k : vf_err_t → Code α)
    (q : ServiceCode vf_err_t) : LeadsTo e (C.At c k q) fun s => ∃ err, C.At c k (.ret err) s :=
  program_ends (C.At c k) (C.call_goes h c k) q

end

/-! ## The two threads -/

section
variable {e : Endless step} {s s' : St} {stage : Stage} {o : Oracle} {a : Act}

theorem act_of_main (h : a.task = some .main) : ∃ o, a = .main o := by
  cases a with
  | main o => exact ⟨o, rfl⟩
  | _ => cases h

theorem act_of_server (h : a.task = some .server) : ∃ o, a = .server o := by
  cases a with
  | server o => exact ⟨o, rfl⟩
  | _ => cases h

theorem main_step_busy (o : Oracle) (h : s.main.busy = true) :
    main_step o s = (advance o s s.main).map fun r => { r.2 with main := r.1 } := by
  unfold main_step
  rcases hpc : s.main with _ | (err | ⟨c, k⟩) | ⟨c, q, k⟩ | _ <;> rw [hpc] at h
  · cases h
  · cases h

theorem server_step_busy (o : Oracle) (h : s.server.busy = true) :
    server_step o s = (advance o s s.server).map fun r => { r.2 with server := r.1 } := by
  unfold server_step
  rcases hpc : s.server with _ | (stop | ⟨c, k⟩) | ⟨c, q, k⟩ | _ <;> rw [hpc] at h
  · cases h
  · cases h

theorem step_main (hs : step s (.main o) = some s') : main_step o s = some s' := by
  unfold step at hs
  split at hs
  · cases hs
  · exact hs

theorem step_server (hs : step s (.server o) = some s') : server_step o s = some s' := by
  unfold step at hs
  split at hs
  · cases hs
  · exact hs

/-- While there is a thread of the server, the main thread does not change the service. -/
theorem main_beside (h : Inv s stage) (hserver : s.server ≠ .gone)
    (hs : main_step o s = some s') : s'.svc = s.svc := by
  have hj : s.joinable ≠ false := fun hj => hserver (h.joinable hj)
  have hfit := h.main
  rcases main_step_cases hs with ⟨-, rfl | ⟨-, rfl⟩⟩ | ⟨-, rfl⟩ | ⟨err, -, rfl⟩ |
    ⟨pc', t, hadv, rfl⟩
  · rfl
  · rfl
  · rfl
  · rfl
  · rcases advance_cases hadv with ⟨c, k, hmain, rfl, rfl⟩ | ⟨c, k, r, hmain, hdo, rfl⟩ |
      ⟨c, cmd, q, k, r, hmain, hdo, rfl⟩ | ⟨c, err, k, hmain, rfl, rfl⟩ <;> rw [hmain] at hfit
    · obtain ⟨hcode, -⟩ := hfit
      cases c with
      | request text => exact hcode.elim
      | _ => exact absurd hcode.2.1 hj
    · rcases (do_sys_leaves hdo).svc with hsvc | ⟨rfl, -⟩ | ⟨rfl, -⟩
      · exact hsvc
      · exact absurd hfit.1.2.1 hj
      · exact absurd hfit.1.2.1 hj
    · exact absurd hfit.1 hj

end

end vision_flow.camera_program
