-- What the two threads of the program with a camera keep to, each seen alone: the main thread
-- calls the service and gives things back only while there is no thread of the server, and
-- that thread serves one client at a time and closes its socket.
import VisionFlow.CameraProgram

namespace vision_flow.camera_program

open programs units lifecycle

/-! ## The main thread's view -/

/-- How far the main thread is with its calls of the service. -/
inductive Stage
  | new
  | started
  | failed
  | stopped
  deriving DecidableEq

/-- What the main thread alone changes. -/
structure View where
  svc : Bool
  initialized : Bool
  running : Bool
  listener : Option Listener
  joinable : Bool
  stage : Stage

/-- The server is up, and the main thread may wait for the signal. -/
def Ready (V : View) : Prop :=
  V = ⟨true, true, true, some .listening, true, .started⟩

/-- Everything is given back, and the exit code is that of the stop, if there was one. -/
def Final (err : vf_err_t) (V : View) : Prop :=
  V.svc = false ∧ V.listener = none ∧ V.joinable = false ∧
    (err = .VF_SUCCESS ↔ V.stage = .stopped) ∧ V.stage ≠ .started

/-- What the main thread may do, where each answer must lead to `Q`. It calls the service and
gives things back only while there is no thread of the server. -/
def Orderly : (c : SysCmd) → (c.Res → View → Prop) → View → Prop
  | .service_init, Q, V => V.svc = false ∧ V.joinable = false ∧ V.stage = .new ∧
      ∀ err, Q err { V with svc := decide (err = .VF_SUCCESS) }
  | .service_deinit, Q, V => V.svc = true ∧ V.joinable = false ∧ V.stage ≠ .new ∧
      V.stage ≠ .started ∧ Q () { V with svc := false }
  | .call .service_start, Q, V => V.svc = true ∧ V.joinable = false ∧ V.stage = .new ∧
      ∀ err, Q err { V with stage := if err = .VF_SUCCESS then .started else .failed }
  | .call .service_stop, Q, V => V.svc = true ∧ V.joinable = false ∧ V.stage = .started ∧
      Q .VF_SUCCESS { V with stage := .stopped }
  | .call (.request _), _, _ => False
  | .socket, Q, V => V.listener = none ∧ V.joinable = false ∧
      Q true { V with listener := some .opened } ∧ Q false V
  | .bind, Q, V => Q true V ∧ Q false V
  | .listen, Q, V => V.listener = some .opened ∧ V.joinable = false ∧
      Q true { V with listener := some .listening } ∧ Q false V
  | .shutdown, Q, V => V.running = false ∧ V.listener = some .listening ∧
      Q () { V with listener := some .shut }
  | .close_listener, Q, V => V.listener.isSome = true ∧ V.joinable = false ∧
      Q () { V with listener := none }
  | .has_fd, Q, V => Q V.listener.isSome V
  | .load_initialized, Q, V => Q V.initialized V
  | .set_initialized b, Q, V => Q () { V with initialized := b }
  | .set_running b, Q, V =>
      (b = true → V.joinable = false ∧ V.listener = some .listening) ∧
      Q () { V with running := b }
  | .clear, Q, V => V.joinable = false ∧ Q () { V with initialized := false, running := false }
  | .pthread_create, Q, V => V.svc = true ∧ V.joinable = false ∧ V.running = true ∧
      V.listener = some .listening ∧ V.stage = .started ∧ Q () { V with joinable := true }
  | .pthread_join, Q, V => V.joinable = true ∧ V.running = false ∧ V.listener = some .shut ∧
      Q () { V with joinable := false }
  | .load_running, _, _ => False
  | .accept, _, _ => False
  | .read, _, _ => False
  | .close, _, _ => False

/-- Where the code of the main thread leads. -/
def Leads : Option vf_err_t → View → Prop
  | none, V => Ready V
  | some err, V => Final err V

theorem wind_up.orderly {V : View} (h : Ready V) : wp Orderly wind_up Leads V := by
  unfold wind_up vf_control_server_stop vf_control_server_deinit
  obtain rfl := h
  simp [Orderly, Leads, Final, EOK]

theorem setup.orderly : wp Orderly setup Leads ⟨false, false, false, none, false, .new⟩ := by
  unfold setup vf_control_server_init vf_control_server_start vf_control_server_deinit
  simp only [wp_bind, wp_ite, wp_pure, wp_perform, Orderly]
  simp [Leads, Final, Ready, EOK]
  intro err herr
  simp [herr]

/-! ## The running flags -/

/-- What the calls of the main thread do with the running flags of the units. No init is
missing, and no join fails. -/
def Flags : (c : CtlCmd UnitId QueueId) → (c.Res → (UnitId → Bool) → Prop) →
    (UnitId → Bool) → Prop
  | .initialized _, Q, K => Q true K
  | .set_running u b, Q, K => Q () (Function.update K u b)
  | .load_running u, Q, K => Q (K u) K
  | .pthread_create _, Q, K => Q true K ∧ Q false K
  | .pthread_join _, Q, K => Q true K
  | .pool_reset _, Q, K => Q () K
  | .pool_shutdown _, Q, K => Q () K
  | .queue_reset _, Q, K => Q () K
  | .queue_shutdown _, Q, K => Q () K
  | .send_response _, _, _ => False
  | .send_stats, _, _ => False

section
variable {K : UnitId → Bool} {Q : vf_err_t → (UnitId → Bool) → Prop}

def AllOff (K : UnitId → Bool) : Prop := ∀ u, K u = false

theorem vf_unit_stop.flags {u : UnitId} (hok : Q .VF_SUCCESS (Function.update K u false)) :
    wp Flags (vf_unit_stop (fun u => u.unit.in_queue) u) Q K := by
  unfold vf_unit_stop
  simp only [wp_bind, wp_ite, wp_pure, wp_perform, Flags]
  cases hrun : K u with
  | false =>
    rw [if_pos rfl]
    rwa [← hrun, Function.update_eq_self] at hok
  | true =>
    rw [if_neg (by simp)]
    cases hin : u.unit.in_queue with
    | none => simpa [Flags] using hok
    | some q => simpa [Flags] using hok

/-- A roll back of at least one unit answers a success. -/
theorem roll_back.flags {err : vf_err_t} {started : List UnitId}
    (hok : ∀ err' K', (started = [] → err' = err ∧ K' = K) →
      (started ≠ [] → err' = .VF_SUCCESS) → Q err' K') :
    wp Flags (roll_back (fun u => u.unit.in_queue) err started) Q K := by
  induction started generalizing err K with
  | nil => exact hok err K (fun _ => ⟨rfl, rfl⟩) (by simp)
  | cons u rest ih =>
    unfold roll_back
    rw [wp_bind]
    apply vf_unit_stop.flags
    apply ih
    intro err' K' hnil hcons
    refine hok err' K' (by simp) fun _ => ?_
    by_cases hrest : rest = []
    · exact (hnil hrest).1
    · exact hcons hrest

/-- If a start of the units fails, and says so, no unit runs. -/
theorem start_units.flags {started rest : List UnitId} (hoff : started = [] → AllOff K)
    (hok : ∀ err K', (err ≠ .VF_SUCCESS → AllOff K') → Q err K') :
    wp Flags (start_units (fun u => u.unit.in_queue) started rest) Q K := by
  induction rest generalizing started K with
  | nil => exact hok _ K fun h => absurd rfl h
  | cons u rest ih =>
    unfold start_units vf_unit_start
    simp only [wp_bind, wp_ite, wp_pure, wp_perform, Flags]
    refine ⟨?_, ?_⟩
    · simp only [Bool.not_true, Bool.false_eq_true, if_false, ne_eq, not_true_eq_false]
      exact ih (by simp)
    · simp only [Bool.not_false, if_true, ne_eq, reduceCtorEq, not_false_eq_true,
        Function.update_idem]
      apply roll_back.flags
      intro err' K' hnil hcons
      refine hok err' K' fun herr => ?_
      by_cases hstarted : started = []
      · obtain ⟨-, rfl⟩ := hnil hstarted
        intro v
        by_cases hv : v = u
        · rw [hv, Function.update_self]
        · rw [Function.update_of_ne hv]
          exact hoff hstarted v
      · exact absurd (hcons hstarted) herr

theorem vf_service_start.flags (hoff : AllOff K)
    (hok : ∀ err K', (err ≠ .VF_SUCCESS → AllOff K') → Q err K') :
    wp Flags vf_service_start Q K := by
  unfold vf_service_start vf_pipeline_start
  simp only [wp_bind, wp_ite, wp_pure, wp_perform, Flags]
  rw [if_neg (by decide), if_neg (by decide)]
  apply start_units.flags fun _ => hoff
  intro err K' h
  split
  · exact hok err K' h
  · exact hok _ K' fun hne => absurd rfl hne

theorem stop_units.flags {us : List UnitId} {Q : Unit → (UnitId → Bool) → Prop}
    (hok : ∀ K', (∀ u ∈ us, K' u = false) → (∀ u, K u = false → K' u = false) → Q () K') :
    wp Flags (stop_units (fun u => u.unit.in_queue) us) Q K := by
  induction us generalizing K with
  | nil => exact hok K (by simp) fun _ h => h
  | cons u us ih =>
    unfold stop_units
    rw [wp_bind]
    apply vf_unit_stop.flags
    apply ih
    intro K' hus hkeep
    have hu : K' u = false := hkeep u (Function.update_self ..)
    refine hok K' (fun v hv => ?_) fun v hv => ?_
    · rcases List.mem_cons.mp hv with rfl | hv
      · exact hu
      · exact hus v hv
    · by_cases hvu : v = u
      · rw [hvu]
        exact hu
      · exact hkeep v (by rwa [Function.update_of_ne hvu])

/-- A stop of the service succeeds, and no unit runs after it. -/
theorem vf_service_stop.flags (hok : ∀ K', AllOff K' → Q .VF_SUCCESS K') :
    wp Flags vf_service_stop Q K := by
  have hall : ∀ u, u ∈ pipeline_units.reverse := by
    intro u
    cases u <;> decide
  unfold vf_service_stop vf_pipeline_stop
  simp only [wp_bind, wp_ite, wp_pure, wp_perform, Flags]
  rw [if_neg (by decide), if_neg (by decide)]
  apply stop_units.flags
  intro K' hus _
  rw [if_neg (by decide)]
  exact hok K' fun u => hus u (hall u)

end

/-! ## The thread of the server -/

/-- What the thread of the server may do, where each answer must lead to `Q`. `b` says that a
client's socket is open: there is at most one. -/
def Serves : (c : SysCmd) → (c.Res → Bool → Prop) → Bool → Prop
  | .accept, Q, b => b = false ∧ Q true true ∧ Q false false
  | .load_running, Q, b => ∀ running, Q running b
  | .read, Q, b => b = true ∧ ∀ text, Q text b
  | .call (.request _), Q, b => b = true ∧ ∀ err, Q err b
  | .close, Q, b => b = true ∧ Q () false
  | _, _, _ => False

/-- At the end of its loop's body no client's socket is open. -/
theorem vf_control_server_thread_fn.serves :
    wp Serves vf_control_server_thread_fn (fun _ b => b = false) false := by
  unfold vf_control_server_thread_fn
  simp [Serves]

end vision_flow.camera_program
