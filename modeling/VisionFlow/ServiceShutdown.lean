-- Starts and stops at run time. A unit has one thread as long as the service is started
-- only when it is stopped, a stop leaves no thread behind, and it never waits for a thread
-- that sleeps.
import VisionFlow.ServiceRuns

namespace vision_flow.service

open units lifecycle runs

section
variable {cfg : vf_service_cfg_t} {m : Mem} {s t : St} {acts : List Act}

/-! ## Threads -/

/-- The next command of the controlling thread. -/
def St.order (s : St) : Option (CtlCmd UnitId QueueId) :=
  match s.calling with
  | some (_, .op c _) => some c
  | _ => none

/-- Each unit has at most one thread. It is created when the unit has none, and there is
none after the answer that the service is stopped. -/
structure OneThread (s : St) : Prop where
  one : ∀ u, (s.threads u).length ≤ 1
  created : ∀ u, s.order = some (.pthread_create u) → (s.threads u).length = 0
  stopped : s.response = some stopped_response → ∀ u, (s.threads u).length = 0

instance (s : St) : Decidable (OneThread s) :=
  decidable_of_iff (_ ∧ _ ∧ _) ⟨fun h => ⟨h.1, h.2.1, h.2.2⟩, fun h => ⟨h.1, h.2, h.3⟩⟩

/-- The call may do its next command. -/
theorem Inv.orders (h : Inv cfg s) {op : CtlCmd UnitId QueueId} (horder : s.order = some op) :
    ∃ c p Q, s.calling = some (c, p) ∧ Orders c.starts c.stops op Q s.ctl_view := by
  have hfit := h.calling
  unfold St.order at horder
  split at horder
  · rename_i c op' k hcall
    cases horder
    rw [hcall] at hfit ⊢
    exact ⟨c, _, _, rfl, hfit⟩
  · cases horder

theorem Inv.one_thread (h : Inv cfg s) : OneThread s := by
  refine ⟨fun u => (h.units u).one, fun u hu => ?_, fun hr u => ?_⟩
  · obtain ⟨c, p, Q, -, hfresh, -⟩ := h.orders hu
    have hphase : s.phase u = .fresh := hfresh
    rw [(h.units u).unborn (by simp [hphase])]
    rfl
  · rw [(h.units u).unborn (h.answered hr u)]
    rfl

/-- If each start finds no unit running, each unit has at most one thread, and after a stop
that is answered there is no thread. -/
theorem starts_of_a_stopped_service_make_one_thread (hinit : vf_service_init cfg = .ok m)
    (hstarts : Along step StartsStopped (St.init m) acts)
    (hrun : run step (St.init m) acts = some t) : OneThread t :=
  (run_inv hinit hstarts hrun).one_thread

/-- The service starts, and a client stops it before any unit runs. -/
def start_and_stop : List Act :=
  calls .service_start 20 ++ calls (.request "\x7b\"cmd\":\"stop\"\x7d\n".toList) 7 ++
    works .file_out 3 1 ++ List.replicate 4 (.control true) ++ works .conversion 2 1 ++
    List.replicate 4 (.control true) ++ works .stream_provider 1 1 ++
    List.replicate 3 (.control true) ++ works .camera 0 1 ++ List.replicate 3 (.control true)

theorem a_stopped_service_has_no_thread : ∃ t, run step (St.init small_mem) start_and_stop =
    some t ∧ t.response = some stopped_response ∧ OneThread t := by
  have hstate : (run step (St.init small_mem) start_and_stop).map (·.response) =
      some (some stopped_response) := by
    decide
  obtain ⟨t, ht, hresponse⟩ := Option.map_eq_some_iff.mp hstate
  exact ⟨t, ht, hresponse,
    starts_of_a_stopped_service_make_one_thread small_init (by decide) ht⟩

/-! ## A start of a running service -/

/-- A client asks to start or to stop the service, or a thread goes on. No `pthread_create`
fails. -/
def Asks : Act → Prop
  | .call (.request text) =>
    (Call.request text).starts = true ∨ (Call.request text).stops = true
  | .call _ => False
  | .control ok => ok = true
  | _ => True

instance : DecidablePred Asks
  | .call (.request _) => inferInstanceAs (Decidable (_ ∨ _))
  | .call .service_start => isFalse id
  | .call .service_stop => isFalse id
  | .control _ => inferInstanceAs (Decidable (_ = _))
  | .worker _ _ _ => isTrue trivial
  | .wake_up _ _ => isTrue trivial

/-- The service is started, and a client asks to start it once more. -/
def start_twice : List Act :=
  calls .service_start 20 ++ calls (.request "\x7b\"cmd\":\"start\"\x7d\n".toList) 20

/-- A second start makes a second thread for each unit. -/
theorem a_second_start_makes_a_second_thread :
    ¬ ∀ cfg m acts t, vf_service_init cfg = .ok m → (∀ a ∈ acts, Asks a) →
      run step (St.init m) (.call .service_start :: acts) = some t → OneThread t := by
  intro h
  have hstate : (run step (St.init small_mem) start_twice).map (fun t => decide (OneThread t)) =
      some false := by
    decide
  obtain ⟨t, ht, heq⟩ := Option.map_eq_some_iff.mp hstate
  exact of_decide_eq_false heq (h small small_mem start_twice.tail t small_init (by decide) ht)

/-! ## A stop ends -/

/-- A thread sleeps on a pool, or on the queue of its unit, that is not shut down. -/
theorem Inv.sleeper (h : Inv cfg s) {u : UnitId} {th : Thread} {on : Cond}
    (hth : th ∈ s.threads u) (hwait : th.wait = some on) :
    s.mem.down on = false ∧ ∀ q, on = .not_empty q → u.unit.in_queue = some q := by
  have hu := h.units u
  obtain ⟨hup, hat⟩ := hu.sleeps th hth on hwait
  refine ⟨hup, fun q hq => ?_⟩
  subst hq
  have hfits := hu.fits th hth
  rcases hpc : th.pc with _ | err | ⟨op, k⟩
  · simp [hpc, SleepsAt] at hat
  · simp [hpc, SleepsAt] at hat
  · rw [hpc] at hat hfits
    cases op with
    | pop_blocking q' fd =>
      cases hat
      exact hfits.2.2.1
    | _ => cases hat

/-- A stop that waits for the thread of a unit waits for no thread that sleeps. -/
theorem a_stop_waits_for_no_sleeper (hinit : vf_service_init cfg = .ok m)
    (hstarts : Along step StartsStopped (St.init m) acts)
    (hrun : run step (St.init m) acts = some t) {c : Call} {u : UnitId}
    (hcall : t.calling.map (·.1) = some c) (hstop : c.stops = true)
    (hjoin : t.order = some (.pthread_join u)) : ∀ th ∈ t.threads u, th.wait = none := by
  have h := run_inv hinit hstarts hrun
  obtain ⟨c', p, Q, hcall', hdown, -⟩ := h.orders hjoin
  obtain rfl : c' = c := by simpa [hcall'] using hcall
  obtain ⟨hpools, hqueue⟩ := hdown hstop
  intro th hth
  rcases hwait : th.wait with _ | on
  · rfl
  · -- what the thread sleeps on is not shut down, but the stop has shut it down
    obtain ⟨hup, hin⟩ := h.sleeper hth hwait
    cases on with
    | slot_available p =>
      have hpool : t.mem.down (.slot_available p) = true := hpools p
      rw [hpool] at hup
      cases hup
    | not_empty q =>
      have hqueue' : t.mem.down (.not_empty q) = true := hqueue q (hin q rfl)
      rw [hqueue'] at hup
      cases hup

/-- The conversion unit sleeps at its empty queue when the service is stopped. -/
def stop_with_a_sleeper : List Act :=
  calls .service_start 20 ++ works .conversion 2 3 ++ calls .service_stop 7 ++
    works .file_out 3 1 ++ List.replicate 4 (.control true)

theorem the_sleeper_is_awake_before_its_join :
    ∃ t, run step (St.init small_mem) stop_with_a_sleeper = some t ∧
      t.order = some (.pthread_join .conversion) ∧ (t.threads .conversion).length = 1 ∧
      ∀ th ∈ t.threads .conversion, th.wait = none := by
  have hstate : (run step (St.init small_mem) stop_with_a_sleeper).map
      (fun t => (t.order, (t.threads .conversion).length, t.calling.map (·.1))) =
      some (some (.pthread_join .conversion), 1, some .service_stop) := by
    decide
  obtain ⟨t, ht, heq⟩ := Option.map_eq_some_iff.mp hstate
  simp only [Prod.mk.injEq] at heq
  exact ⟨t, ht, heq.1, heq.2.1,
    a_stop_waits_for_no_sleeper small_init (by decide) ht heq.2.2 rfl heq.1⟩

end

end vision_flow.service
