-- What a call of the controlling thread does, seen from this thread alone: the running
-- flags, the shutdown flags and which threads it created and joined. No unit changes
-- these, so a call can be verified as if the units stood still.
import VisionFlow.Service

namespace vision_flow.service

open programs units lifecycle

/-! ## The controlling thread's view -/

structure CtlView where
  running : UnitId → Bool
  phase : UnitId → Phase
  pool_down : PoolId → Bool
  queue_down : QueueId → Bool
  response : Option String

/-- A unit that is not running has no thread to join. -/
def Quiet (K : CtlView) : Prop := ∀ u, K.running u = false → K.phase u ≠ .created

/-- No unit is running. -/
def Off (K : CtlView) : Prop := ∀ u, K.running u = false

/-- No unit has a thread to join. -/
def AllStopped (K : CtlView) : Prop := ∀ u, K.phase u ≠ .created

/-- The pools and the unit's queue are shut down. -/
def Down (K : CtlView) (u : UnitId) : Prop :=
  (∀ p, K.pool_down p = true) ∧ ∀ q, u.unit.in_queue = some q → K.queue_down q = true

/-- The command is one that the thread may do, and each outcome of it leads to `Q`. Only a
call that starts the service sets a unit running. A thread is created for a unit that has
none. In a call that stops the service, a thread is joined when all that its unit may wait
for is shut down. -/
def Orders (starts stops : Bool) : (c : CtlCmd UnitId QueueId) → (c.Res → CtlView → Prop) →
    CtlView → Prop
  | .initialized _, Q, K => Q true K
  | .set_running u b, Q, K =>
    (b = true → starts = true) ∧ Q () { K with running := Function.update K.running u b }
  | .load_running u, Q, K => Q (K.running u) K
  | .pthread_create u, Q, K =>
    K.phase u = .fresh ∧ K.response = none ∧
      Q true { K with phase := Function.update K.phase u .created } ∧ Q false K
  | .pthread_join u, Q, K =>
    (stops = true → Down K u) ∧ Q true { K with phase := Function.update K.phase u .joined }
  | .pool_reset p, Q, K => Q () { K with pool_down := Function.update K.pool_down p false }
  | .pool_shutdown p, Q, K => Q () { K with pool_down := Function.update K.pool_down p true }
  | .queue_reset q, Q, K => Q () { K with queue_down := Function.update K.queue_down q false }
  | .queue_shutdown q, Q, K => Q () { K with queue_down := Function.update K.queue_down q true }
  | .send_response r, Q, K =>
    (r = stopped_response → AllStopped K) ∧ Q () { K with response := some r }
  | .send_stats, Q, K => Q () K

section
variable {starts stops : Bool} {K : CtlView} {Q : vf_err_t → CtlView → Prop}

/-! ## Units -/

/-- What stopping a unit leaves: the unit is stopped, and the pools and the other units
are as they were. -/
structure Stopped (K K' : CtlView) (u : UnitId) : Prop where
  quiet : Quiet K'
  stopped : K'.running u = false ∧ K'.phase u ≠ .created
  others : ∀ v, v ≠ u → K'.running v = K.running v ∧ K'.phase v = K.phase v
  pools : K'.pool_down = K.pool_down
  response : K'.response = K.response

theorem vf_unit_stop.spec {u : UnitId} (hq : Quiet K)
    (hdown : stops = true → ∀ p, K.pool_down p = true)
    (hok : ∀ K', Stopped K K' u → Q .VF_SUCCESS K') :
    wp (Orders starts stops) (vf_unit_stop (fun u => u.unit.in_queue) u) Q K := by
  unfold vf_unit_stop
  simp only [wp_bind, wp_ite, wp_pure, wp_perform, Orders]
  cases hrun : K.running u with
  | false =>
    rw [if_pos rfl]
    exact hok K ⟨hq, ⟨hrun, hq u hrun⟩, fun _ _ => ⟨rfl, rfl⟩, rfl, rfl⟩
  | true =>
    rw [if_neg (by simp)]
    -- with or without a queue, the unit's thread is joined after its flag is cleared
    have hjoin : ∀ down, (∀ q, u.unit.in_queue = some q → down q = true) →
        (stops = true → Down ⟨Function.update K.running u false, K.phase, K.pool_down, down,
          K.response⟩ u) ∧
          Q .VF_SUCCESS ⟨Function.update K.running u false, Function.update K.phase u .joined,
            K.pool_down, down, K.response⟩ := by
      intro down hq'
      refine ⟨fun hs => ⟨hdown hs, hq'⟩, hok _ ⟨?_, by simp, ?_, rfl, rfl⟩⟩
      · intro v hv
        by_cases hvu : v = u
        · simp [hvu]
        · simp only [Function.update_of_ne hvu] at hv ⊢
          exact hq v hv
      · intro v hv
        simp [hv]
    cases hin : u.unit.in_queue with
    | none => simpa [Orders] using hjoin K.queue_down (by simp [hin])
    | some q =>
      simpa [wp, Orders] using hjoin (Function.update K.queue_down q true) (by simp [hin])

theorem vf_unit_start.spec {u : UnitId} (hstart : starts = true) (hq : Quiet K)
    (hfresh : K.phase u = .fresh) (hr : K.response = none)
    (hok : Q .VF_SUCCESS { K with
      running := Function.update K.running u true, phase := Function.update K.phase u .created })
    (herr : ∀ K', Quiet K' → K'.response = none → Q .VF_SYNC_ERROR K') :
    wp (Orders starts stops) (vf_unit_start u) Q K := by
  unfold vf_unit_start
  simp only [wp_bind, wp_ite, wp_pure, wp_perform, Orders]
  refine ⟨fun _ => hstart, hfresh, hr, ?_, ?_⟩
  · exact hok
  · rw [if_pos (by decide)]
    refine ⟨by simp, ?_⟩
    apply herr
    · intro v hv
      by_cases hvu : v = u
      · simp [hvu, hfresh]
      · simp only [Function.update_of_ne hvu] at hv
        exact hq v hv
    · exact hr

/-! ## Pipelines -/

theorem roll_back.spec {err : vf_err_t} {started : List UnitId} (hq : Quiet K)
    (hs : stops = false) (hr : K.response = none)
    (hok : ∀ err K', Quiet K' → K'.response = none → Q err K') :
    wp (Orders starts stops) (roll_back (fun u => u.unit.in_queue) err started) Q K := by
  induction started generalizing err K with
  | nil => exact hok err K hq hr
  | cons u started ih =>
    unfold roll_back
    rw [wp_bind]
    apply vf_unit_stop.spec hq (by simp [hs])
    intro K' hK'
    exact ih hK'.quiet (hK'.response.trans hr)

theorem start_units.spec {started rest : List UnitId} (hstart : starts = true) (hq : Quiet K)
    (hs : stops = false) (hr : K.response = none) (hfresh : ∀ u ∈ rest, K.phase u = .fresh)
    (hnodup : rest.Nodup)
    (hok : ∀ err K', Quiet K' → K'.response = none → Q err K') :
    wp (Orders starts stops) (start_units (fun u => u.unit.in_queue) started rest) Q K := by
  induction rest generalizing started K with
  | nil => exact hok _ K hq hr
  | cons u rest ih =>
    obtain ⟨hnot, hnodup⟩ := List.nodup_cons.mp hnodup
    unfold start_units
    rw [wp_bind]
    apply vf_unit_start.spec hstart hq (hfresh u List.mem_cons_self) hr
    · rw [wp_ite, if_neg (by decide)]
      apply ih
      · intro v hv
        by_cases hvu : v = u
        · simp [hvu] at hv
        · simp only [Function.update_of_ne hvu] at hv ⊢
          exact hq v hv
      · exact hr
      · intro v hv
        have hvu : v ≠ u := fun he => hnot (he ▸ hv)
        simpa [hvu] using hfresh v (List.mem_cons_of_mem _ hv)
      · exact hnodup
    · intro K' hK' hr'
      rw [wp_ite, if_pos (by decide)]
      exact roll_back.spec hK' hs hr' hok

theorem stop_units.spec {us : List UnitId} {Q : Unit → CtlView → Prop} (hq : Quiet K)
    (hdown : stops = true → ∀ p, K.pool_down p = true)
    (hok : ∀ K', Quiet K' → (∀ u ∈ us, K'.running u = false ∧ K'.phase u ≠ .created) →
      (∀ u, K.running u = false ∧ K.phase u ≠ .created →
        K'.running u = false ∧ K'.phase u ≠ .created) →
      K'.response = K.response → Q () K') :
    wp (Orders starts stops) (stop_units (fun u => u.unit.in_queue) us) Q K := by
  induction us generalizing K with
  | nil => exact hok K hq (by simp) (fun _ h => h) rfl
  | cons u us ih =>
    unfold stop_units
    rw [wp_bind]
    apply vf_unit_stop.spec hq hdown
    intro K' hK'
    have hkeep : ∀ v, K.running v = false ∧ K.phase v ≠ .created →
        K'.running v = false ∧ K'.phase v ≠ .created := by
      intro v hv
      by_cases hvu : v = u
      · rw [hvu]
        exact hK'.stopped
      · rwa [(hK'.others v hvu).1, (hK'.others v hvu).2]
    apply ih hK'.quiet
    · intro hs p
      rw [hK'.pools]
      exact hdown hs p
    · intro K'' hq'' hus hkeep'' hr''
      refine hok K'' hq'' ?_ (fun v hv => hkeep'' v (hkeep v hv)) (hr''.trans hK'.response)
      intro v hv
      rcases List.mem_cons.mp hv with rfl | hv
      · exact hkeep'' v hK'.stopped
      · exact hus v hv

/-! ## The service -/

theorem vf_service_start.spec (hstart : starts = true) (hq : Quiet K) (hs : stops = false)
    (hr : K.response = none)
    (hfresh : ∀ u, K.phase u = .fresh)
    (hok : ∀ err K', Quiet K' → K'.response = none → Q err K') :
    wp (Orders starts stops) vf_service_start Q K := by
  unfold vf_service_start vf_pipeline_start
  simp only [wp_bind, wp_ite, wp_pure, wp_perform, Orders]
  rw [if_neg (by decide), if_neg (by decide)]
  apply start_units.spec hstart
  · exact hq
  · exact hs
  · exact hr
  · intro u _
    exact hfresh u
  · decide
  · intro err K' hK' hr'
    split
    · exact hok err K' hK' hr'
    · exact hok _ K' hK' hr'

/-- After a stop no unit is running, and every unit is joined. -/
theorem vf_service_stop.spec (hq : Quiet K)
    (hok : ∀ K', Quiet K' → Off K' → AllStopped K' → Q .VF_SUCCESS K') :
    wp (Orders starts stops) vf_service_stop Q K := by
  have hall : ∀ u, u ∈ pipeline_units.reverse := by
    intro u
    cases u <;> decide
  unfold vf_service_stop vf_pipeline_stop
  simp only [wp_bind, wp_ite, wp_pure, wp_perform, Orders]
  rw [if_neg (by decide), if_neg (by decide)]
  apply stop_units.spec
  · exact hq
  · intro _ p
    cases p <;> simp
  · intro K' hK' hstopped _ _
    rw [if_neg (by decide)]
    exact hok K' hK' (fun u => (hstopped u (hall u)).1) fun u => (hstopped u (hall u)).2

/-! ## Requests and calls -/

section
variable {Q : Unit → CtlView → Prop}

theorem send_error.spec {message : String} (hne : error_response message ≠ stopped_response)
    (hok : Q () { K with response := some (error_response message) }) :
    wp (Orders starts stops) (send_error message) Q K :=
  ⟨fun he => absurd he hne, hok⟩

theorem handle_start.spec (hstart : starts = true) (hq : Quiet K) (hs : stops = false)
    (hr : K.response = none) (hfresh : ∀ u, K.phase u = .fresh) (hok : ∀ K', Quiet K' → Q () K') :
    wp (Orders starts stops) handle_start Q K := by
  unfold handle_start
  rw [wp_bind]
  apply vf_service_start.spec hstart hq hs hr hfresh
  intro err K' hK' _
  rw [wp_ite]
  split
  · exact send_error.spec (by decide) (hok _ hK')
  · exact ⟨fun he => absurd he (by decide), hok _ hK'⟩

theorem handle_stop.spec (hq : Quiet K) (hok : ∀ K', Quiet K' → Off K' → Q () K') :
    wp (Orders starts stops) handle_stop Q K := by
  unfold handle_stop
  rw [wp_bind]
  apply vf_service_stop.spec hq
  intro K' hK' hoff hall
  rw [wp_ite, if_neg (by decide)]
  exact ⟨fun _ => hall, hok _ hK' hoff⟩

theorem handle_get_status.spec (hq : Quiet K) (hok : ∀ K', Quiet K' → Q () K') :
    wp (Orders starts stops) handle_get_status Q K :=
  ⟨fun he => absurd he (by decide), hok _ hq⟩

end

/-- A call from a quiet state ends in a quiet state, and after a stop no unit is running.
A call that starts the service must find no thread of a unit. -/
theorem Call.runs (c : Call) (hq : Quiet K) (hr : K.response = none)
    (hfresh : c.starts = true → ∀ u, K.phase u = .fresh) :
    wp (Orders c.starts c.stops) c.code (fun _ K' => Quiet K' ∧ (c.stops = true → Off K')) K := by
  cases c with
  | service_start =>
    apply vf_service_start.spec rfl hq rfl hr (hfresh rfl)
    exact fun _ _ h _ => ⟨h, by simp [Call.stops]⟩
  | service_stop => exact vf_service_stop.spec hq fun _ h hoff _ => ⟨h, fun _ => hoff⟩
  | request text =>
    simp only [Call.code]
    unfold vf_control_handle_request
    rw [wp_ite]
    split
    · rename_i hempty
      have hnone : command_of (read_request text) = none := by
        rw [hempty]
        decide
      exact ⟨hq, by simp [Call.stops, hnone]⟩
    · rcases hcmd : command_of (read_request text) with _ | _ | _ | _ | _ <;>
        simp only [wp_bind, wp_pure]
      · exact send_error.spec (by decide) ⟨hq, by simp [Call.stops, hcmd]⟩
      · exact handle_get_status.spec hq fun _ h => ⟨h, by simp [Call.stops, hcmd]⟩
      · exact ⟨hq, by simp [Call.stops, hcmd]⟩
      · exact handle_stop.spec hq fun _ h hoff => ⟨h, fun _ => hoff⟩
      · apply handle_start.spec (by simp [Call.starts, hcmd]) hq (by simp [Call.stops, hcmd]) hr
        · exact hfresh (by simp [Call.starts, hcmd])
        · exact fun _ h => ⟨h, by simp [Call.stops, hcmd]⟩

end

end vision_flow.service
