-- What the camera layer reports. `camera_ioctl` returns `VF_ERROR_MIN` for a failed call,
-- and that is `VF_SUCCESS`: no caller sees the failure, and `vf_camera_acquire_frame`
-- reports a timeout as a frame. So the reports are true just in the runs without a failure.
import VisionFlow.Lib.Runs
import VisionFlow.Camera

namespace vision_flow.vf_camera

open oracle framebuffer runs

/-! ## What the calls say -/

/-- A call that the code should report: an `ioctl` that failed for good, or a `select` that
failed or timed out. -/
def Fails (e : DriverEvent) : Prop :=
  match e.call with
  | .ioctl _ _ _ => e.answer.rc = -1 ∧ interrupted e.answer = false
  | .select _ => e.answer.rc = -1 ∨ e.answer.rc = 0
  | _ => False

instance (e : DriverEvent) : Decidable (Fails e) := by
  unfold Fails
  split <;> infer_instance

/-- The call was this request, and it succeeded. -/
def Done (request : Request) (e : DriverEvent) : Prop :=
  match e.call with
  | .ioctl _ r _ => r = request ∧ e.answer.rc ≠ -1
  | _ => False

/-- The stream after a call: on after the last `VIDIOC_STREAMON`, if that succeeded and if
nothing has undone it since. -/
def stream_after (on : Bool) (e : DriverEvent) : Bool :=
  match e.call with
  | .ioctl _ .VIDIOC_STREAMON _ => e.answer.rc ≠ -1
  | .ioctl _ .VIDIOC_STREAMOFF _ => if e.answer.rc ≠ -1 then false else on
  | .close _ => false
  | _ => on

def streaming (log : List DriverEvent) : Bool := log.foldl stream_after false

/-- A dequeued buffer: its bytes, and how many the driver has used. -/
structure Dequeue where
  bytes : Nat → UInt8
  bytesused : Nat

/-- The buffers that the calls dequeued, in order. -/
def dequeues (camera : vf_camera_t) (log : List DriverEvent) : List Dequeue :=
  log.filterMap fun e =>
    match e.call with
    | .ioctl _ .VIDIOC_DQBUF _ =>
      if e.answer.rc ≠ -1 then
        some ⟨e.answer.mapped (camera.buffers e.answer.arg.index).start, e.answer.arg.bytesused⟩
      else none
    | _ => none

/-- The frame holds the bytes of the dequeued buffer, as far as both go. -/
def Carries (fb : vf_framebuffer_t) (q : Dequeue) : Prop :=
  ∀ d, fb.data = some d → ∀ a < q.bytesused, a < fb.total_size → d a = q.bytes a

/-- A buffer that the calls dequeued was queued back after that. -/
def Requeued (log : List DriverEvent) : Prop :=
  ∃ before dq after qb fd, log = before ++ dq :: after ∧ Done .VIDIOC_DQBUF dq ∧ qb ∈ after ∧
    qb.call = .ioctl fd .VIDIOC_QBUF dq.answer.arg ∧ qb.answer.rc ≠ -1

/-! ## Runs of calls -/

inductive Act
  | init (cfg : vf_camera_cfg_t)
  | start
  | acquire_frame (fb : vf_framebuffer_t)
  | stop
  | deinit
  | get_data (acquired : vf_err_t) (fb : vf_framebuffer_t)
  | send_data (pushed : vf_err_t)

/-- What a call leaves: its error code, the unit's data, the frame that it was to fill, and
the frame that it pushed. -/
structure Outcome where
  ret : vf_err_t
  data : vf_camera_unit_data_t
  fb : Option vf_framebuffer_t
  pushed : Option vf_framebuffer_t

def perform (data : vf_camera_unit_data_t) : Act → Driver Outcome
  | .init cfg => do
    let (ret, camera) ← vf_camera_init data.camera cfg
    return ⟨ret, { data with camera := camera }, none, none⟩
  | .start => do
    let (ret, camera) ← vf_camera_start data.camera
    return ⟨ret, { data with camera := camera }, none, none⟩
  | .acquire_frame fb => do
    let (ret, camera, fb) ← vf_camera_acquire_frame data.camera fb
    return ⟨ret, { data with camera := camera }, some fb, none⟩
  | .stop => do
    let (ret, camera) ← vf_camera_stop data.camera
    return ⟨ret, { data with camera := camera }, none, none⟩
  | .deinit => do
    let (ret, camera) ← vf_camera_deinit data.camera
    return ⟨ret, { data with camera := camera }, none, none⟩
  | .get_data acquired fb => do
    let (ret, data) ← vf_camera_unit_get_data data acquired fb
    return ⟨ret, data, data.current_fb, none⟩
  | .send_data pushed =>
    let (ret, data, fb) := vf_camera_unit_send_data data pushed
    return ⟨ret, data, none, fb⟩

/-- The camera unit, and what has happened. `last` are the driver calls of the last step. -/
structure St where
  data : vf_camera_unit_data_t
  answers : List Answer
  ret : vf_err_t
  fb : Option vf_framebuffer_t
  last : List DriverEvent
  log : List DriverEvent
  dequeued : List Dequeue
  pushed : List vf_framebuffer_t

def step (s : St) (a : Act) : Option St :=
  (perform s.data a ⟨s.answers, []⟩).map fun (o, w) =>
    { data := o.data, answers := w.answers, ret := o.ret, fb := o.fb, last := w.log,
      log := s.log ++ w.log, dequeued := s.dequeued ++ dequeues s.data.camera w.log,
      pushed := s.pushed ++ o.pushed.toList }

/-- Before any call, with the driver's answers to come. -/
def fresh (answers : List Answer) : St :=
  { data := ⟨.zeroed, none⟩, answers := answers, ret := .VF_SUCCESS, fb := none, last := [],
    log := [], dequeued := [], pushed := [] }

/-- The frame of the step was filled from the one buffer that it dequeued and queued back. -/
def Captured (s s' : St) : Prop :=
  (∃ q fb, dequeues s.data.camera s'.last = [q] ∧ s'.fb = some fb ∧ Carries fb q) ∧
    Requeued s'.last

/-- The step's reports are true: the state is running only while the driver streams, a
success of init, of start, of stop (also the one in deinit) or of a capture comes from a
success of the driver, and each pushed frame carries a buffer of its own. -/
structure Truthful (s : St) (a : Act) (s' : St) : Prop where
  running : s'.data.camera.state = .VF_CAMERA_STATE_RUNNING → streaming s'.log = true
  init : (∃ cfg, a = .init cfg) → s'.ret = .VF_SUCCESS → ∀ e ∈ s'.last, ¬ Fails e
  start : a = .start → s'.ret = .VF_SUCCESS → ∃ e ∈ s'.last, Done .VIDIOC_STREAMON e
  stop : a = .stop ∨ (a = .deinit ∧ s.data.camera.fd ≠ -1) → s'.ret = .VF_SUCCESS →
    s.data.camera.state = .VF_CAMERA_STATE_RUNNING → ∃ e ∈ s'.last, Done .VIDIOC_STREAMOFF e
  acquire : (∃ fb, a = .acquire_frame fb) ∨ (∃ acquired fb, a = .get_data acquired fb) →
    s'.ret = .VF_SUCCESS → Captured s s'
  pushed : List.SublistForall₂ Carries s'.pushed s'.dequeued

/-- No driver call of the step has failed. -/
def Unfailing (s' : St) : Prop := ∀ e ∈ s'.last, ¬ Fails e

instance (s : St) (a : Act) : Decidable (∀ s', step s a = some s' → Unfailing s') :=
  match h : step s a with
  | none => isTrue (by simp)
  | some s' => decidable_of_iff (∀ e ∈ s'.last, ¬ Fails e) (by simp [Unfailing])

/-! ## The specs -/

theorem camera_ioctl.spec (fd : Int) (request : Request) (arg : v4l2_arg_t) :
    Gives (camera_ioctl fd request arg) fun r l =>
      ∃ a, Tried interrupted (.ioctl fd request arg) l a ∧
        r = (.VF_SUCCESS, if a.rc = -1 then arg else a.arg, a.mapped) := by
  unfold camera_ioctl
  apply gives_bind (gives_ask_until _ _)
  intro a l hl
  apply gives_ite
  · intro h
    apply gives_pure
    rw [List.append_nil]
    exact ⟨a, hl, by rw [if_pos h]⟩
  · intro h
    apply gives_pure
    rw [List.append_nil]
    exact ⟨a, hl, by rw [if_neg h]⟩

/-- The check after a `camera_ioctl` never sees an error. -/
theorem gives_past_check {α : Type} {p q : Driver α} {Q : α → List DriverEvent → Prop}
    (h : Gives q Q) :
    Gives (if vf_err_t.VF_SUCCESS ≠ vf_err_t.VF_SUCCESS then p else q) Q := by
  rwa [if_neg (not_not.mpr rfl)]

theorem vf_camera_start.spec (camera : vf_camera_t) :
    Gives (vf_camera_start camera) fun r l =>
      (camera.state ≠ .VF_CAMERA_STATE_STOPPED ∧ r = (.VF_INIT_FAILED, camera) ∧ l = []) ∨
      (camera.state = .VF_CAMERA_STATE_STOPPED ∧
        r = (.VF_SUCCESS, { camera with state := .VF_CAMERA_STATE_RUNNING }) ∧
        ∃ a, Tried interrupted (.ioctl camera.fd .VIDIOC_STREAMON .zeroed) l a) := by
  unfold vf_camera_start
  apply gives_ite
  · intro h
    exact gives_pure (Or.inl ⟨h, rfl, rfl⟩)
  · intro h
    apply gives_bind (camera_ioctl.spec _ _ _)
    rintro _ l ⟨a, hl, rfl⟩
    apply gives_past_check
    apply gives_pure
    rw [List.append_nil]
    exact Or.inr ⟨not_not.mp h, rfl, a, hl⟩

theorem vf_camera_stop.spec (camera : vf_camera_t) :
    Gives (vf_camera_stop camera) fun r l =>
      (camera.state ≠ .VF_CAMERA_STATE_RUNNING ∧ r = (.VF_SUCCESS, camera) ∧ l = []) ∨
      (camera.state = .VF_CAMERA_STATE_RUNNING ∧
        r = (.VF_SUCCESS, { camera with state := .VF_CAMERA_STATE_STOPPED }) ∧
        ∃ a, Tried interrupted (.ioctl camera.fd .VIDIOC_STREAMOFF .zeroed) l a) := by
  unfold vf_camera_stop
  apply gives_ite
  · intro h
    exact gives_pure (Or.inl ⟨h, rfl, rfl⟩)
  · intro h
    apply gives_bind (camera_ioctl.spec _ _ _)
    rintro _ l ⟨a, hl, rfl⟩
    apply gives_past_check
    apply gives_pure
    rw [List.append_nil]
    exact Or.inr ⟨not_not.mp h, rfl, a, hl⟩

/-- A capture of a running camera: the select is not ready, or a dequeue and a queue are
tried. After a dequeue that failed, `buf` is as before. -/
inductive Capture (camera : vf_camera_t) (fb : vf_framebuffer_t) :
    vf_err_t × vf_camera_t × vf_framebuffer_t → List DriverEvent → Prop
  | not_ready (ready : Answer) (h : ready.rc = -1 ∨ ready.rc = 0) :
    Capture camera fb (.VF_SUCCESS, camera, fb) [⟨.select camera.fd, ready⟩]
  | tried (ready a b : Answer) (buf : v4l2_arg_t) (l₁ l₂ : List DriverEvent)
      (hready : ¬ (ready.rc = -1 ∨ ready.rc = 0))
      (hdq : Tried interrupted (.ioctl camera.fd .VIDIOC_DQBUF .zeroed) l₁ a)
      (hbuf : buf = if a.rc = -1 then .zeroed else a.arg)
      (hq : Tried interrupted (.ioctl camera.fd .VIDIOC_QBUF buf) l₂ b) :
    Capture camera fb
      (.VF_SUCCESS, { camera with frame_id := u32 (camera.frame_id + 1) },
        memcpy fb (a.mapped (camera.buffers buf.index).start)
          (if buf.bytesused < fb.total_size then buf.bytesused else fb.total_size))
      (⟨.select camera.fd, ready⟩ :: (l₁ ++ l₂))

theorem vf_camera_acquire_frame.spec (camera : vf_camera_t) (fb : vf_framebuffer_t) :
    Gives (vf_camera_acquire_frame camera fb) fun r l =>
      (camera.state ≠ .VF_CAMERA_STATE_RUNNING ∧ r = (.VF_CAMERA_INIT_ERR, camera, fb) ∧ l = []) ∨
      (camera.state = .VF_CAMERA_STATE_RUNNING ∧ Capture camera fb r l) := by
  unfold vf_camera_acquire_frame
  apply gives_ite
  · intro h
    exact gives_pure (Or.inl ⟨h, rfl, rfl⟩)
  · intro h
    have hrun := not_not.mp h
    apply gives_bind (P := fun ready l => l = [⟨.select camera.fd, ready⟩])
      (gives_ask fun _ => rfl)
    rintro ready _ rfl
    apply gives_ite
    · intro hr
      exact gives_pure (Or.inr ⟨hrun, .not_ready ready (Or.inl hr)⟩)
    · intro hr
      apply gives_ite
      · intro hr0
        exact gives_pure (Or.inr ⟨hrun, .not_ready ready (Or.inr hr0)⟩)
      · intro hr0
        apply gives_bind (camera_ioctl.spec _ _ _)
        rintro _ l₁ ⟨a, hdq, rfl⟩
        apply gives_past_check
        apply gives_bind (camera_ioctl.spec _ _ _)
        rintro _ l₂ ⟨b, hq, rfl⟩
        apply gives_past_check
        apply gives_pure
        rw [List.append_nil]
        exact Or.inr ⟨hrun, .tried ready a b _ l₁ l₂ (by tauto) hdq rfl hq⟩

/-- Only `munmap` and `close`. -/
def Unmaps (l : List DriverEvent) : Prop :=
  ∀ e ∈ l, (∃ start length, e.call = .munmap start length) ∨ ∃ fd, e.call = .close fd

theorem unmap_from.spec (buffers : Nat → vf_camera_buffer_t) (i n : Nat) :
    Gives (unmap_from buffers i n) fun _ l => Unmaps l := by
  induction n generalizing buffers i with
  | zero =>
    apply gives_pure
    intro e he
    cases he
  | succ n ih =>
    unfold unmap_from
    apply gives_ite
    · intro _
      apply gives_bind (P := fun _ l => Unmaps l)
      · apply gives_ask
        intro a e he
        cases List.mem_singleton.mp he
        exact Or.inl ⟨_, _, rfl⟩
      · intro _ l hl
        apply (ih _ _).mono
        intro _ l' hl' e he
        exact (List.mem_append.mp he).elim (hl e) (hl' e)
    · intro _
      exact ih _ _

theorem stop_if_running.spec (camera : vf_camera_t) :
    Gives (stop_if_running camera) fun r l => r.1 = .VF_SUCCESS ∧
      ((camera.state ≠ .VF_CAMERA_STATE_RUNNING ∧ l = []) ∨
        (camera.state = .VF_CAMERA_STATE_RUNNING ∧
          ∃ a, Tried interrupted (.ioctl camera.fd .VIDIOC_STREAMOFF .zeroed) l a)) := by
  unfold stop_if_running
  apply gives_ite
  · intro _
    apply (vf_camera_stop.spec camera).mono
    rintro _ l (⟨h, rfl, rfl⟩ | ⟨h, rfl, a, hl⟩)
    · exact ⟨rfl, Or.inl ⟨h, rfl⟩⟩
    · exact ⟨rfl, Or.inr ⟨h, a, hl⟩⟩
  · intro h
    exact gives_pure ⟨rfl, Or.inl ⟨h, rfl⟩⟩

/-- The camera is stopped after `deinit`, and only its stop is an `ioctl`. -/
theorem vf_camera_deinit.spec (camera : vf_camera_t) :
    Gives (vf_camera_deinit camera) fun r l =>
      (r = (.VF_SUCCESS, camera) ∧ camera.fd = -1 ∧ l = []) ∨
      (camera.fd ≠ -1 ∧ r.1 = .VF_SUCCESS ∧ r.2.state = .VF_CAMERA_STATE_STOPPED ∧
        ∃ l₁ l₂, l = l₁ ++ l₂ ∧ Unmaps l₂ ∧
          ((camera.state ≠ .VF_CAMERA_STATE_RUNNING ∧ l₁ = []) ∨
            (camera.state = .VF_CAMERA_STATE_RUNNING ∧
              ∃ a, Tried interrupted (.ioctl camera.fd .VIDIOC_STREAMOFF .zeroed) l₁ a))) := by
  unfold vf_camera_deinit
  apply gives_ite
  · intro h
    exact gives_pure (Or.inl ⟨rfl, h, rfl⟩)
  · intro hfd
    apply gives_bind (stop_if_running.spec camera)
    rintro ⟨err, camera'⟩ l₁ ⟨rfl, hl₁⟩
    apply gives_past_check
    apply gives_bind (unmap_from.spec _ _ _)
    intro buffers l₂ hl₂
    apply gives_bind (P := fun _ l => Unmaps l)
    · apply gives_ask
      intro a e he
      cases List.mem_singleton.mp he
      exact Or.inr ⟨_, rfl⟩
    · intro _ l₃ hl₃
      apply gives_pure
      refine Or.inr ⟨hfd, rfl, rfl, l₁, l₂ ++ (l₃ ++ []), rfl, ?_, hl₁⟩
      intro e he
      rw [List.append_nil] at he
      exact (List.mem_append.mp he).elim (hl₂ e) (hl₃ e)

theorem map_from.spec (fd : Int) (buffers : Nat → vf_camera_buffer_t) (i n : Nat) :
    Gives (map_from fd buffers i n) fun r _ => r.1 = .VF_SUCCESS ∨ r.1 = .VF_OOM := by
  induction n generalizing buffers i with
  | zero => exact gives_pure (Or.inl rfl)
  | succ n ih =>
    unfold map_from
    apply gives_bind (camera_ioctl.spec _ _ _)
    rintro _ l ⟨a, -, rfl⟩
    apply gives_past_check
    apply gives_bind (P := fun _ _ => True) (gives_ask fun _ => trivial)
    intro start l' _
    apply gives_ite
    · intro _
      exact gives_pure (Or.inr rfl)
    · intro _
      exact ih _ _

theorem queue_from.spec (fd : Int) (buf : v4l2_arg_t) (i n : Nat) :
    Gives (queue_from fd buf i n) fun r _ => r = .VF_SUCCESS := by
  induction n generalizing buf i with
  | zero => exact gives_pure rfl
  | succ n ih =>
    unfold queue_from
    apply gives_bind (camera_ioctl.spec _ _ _)
    rintro _ l ⟨a, -, rfl⟩
    apply gives_past_check
    exact ih _ _

/-- The camera is not running after `init`, or `init` has done nothing. -/
theorem vf_camera_init.spec (camera : vf_camera_t) (cfg : vf_camera_cfg_t) :
    Gives (vf_camera_init camera cfg) fun r l =>
      (r = (.VF_INVALID_PARAMETER, camera) ∧ l = []) ∨
        r.2.state ≠ .VF_CAMERA_STATE_RUNNING := by
  have closes : ∀ camera err, Gives (close_fd camera err) fun r _ =>
      r.2.state ≠ .VF_CAMERA_STATE_RUNNING := by
    intro camera err
    unfold close_fd
    apply gives_bind (P := fun _ _ => True) (gives_ask fun _ => trivial)
    intro _ _ _
    apply gives_pure
    simp
  have unmaps : ∀ camera err, Gives (unmap_buffers camera err) fun r _ =>
      r.2.state ≠ .VF_CAMERA_STATE_RUNNING := by
    intro camera err
    unfold unmap_buffers
    apply gives_bind (unmap_from.spec _ _ _)
    intro _ _ _
    exact closes _ _
  unfold vf_camera_init
  apply gives_ite
  · intro _
    exact gives_pure (Or.inl ⟨rfl, rfl⟩)
  · intro _
    refine Gives.mono (P := fun r _ => r.2.state ≠ .VF_CAMERA_STATE_RUNNING) ?_ fun _ _ h =>
      Or.inr h
    apply gives_bind (P := fun _ _ => True) (gives_ask fun _ => trivial)
    intro fd _ _
    apply gives_ite
    · intro _
      apply gives_pure
      simp
    · intro _
      apply gives_bind (camera_ioctl.spec _ _ _)
      rintro _ _ ⟨_, -, rfl⟩
      apply gives_past_check
      apply gives_ite (fun _ => closes _ _)
      intro _
      apply gives_ite (fun _ => closes _ _)
      intro _
      apply gives_bind (camera_ioctl.spec _ _ _)
      rintro _ _ ⟨_, -, rfl⟩
      apply gives_past_check
      apply gives_bind (camera_ioctl.spec _ _ _)
      rintro _ _ ⟨_, -, rfl⟩
      apply gives_past_check
      apply gives_ite (fun _ => closes _ _)
      intro _
      apply gives_bind (map_from.spec _ _ _ _)
      intro _ _ _
      apply gives_ite (fun _ => unmaps _ _)
      intro _
      apply gives_bind (queue_from.spec _ _ _ _)
      rintro _ _ rfl
      apply gives_past_check
      apply gives_pure
      simp

/-- All that a call can do. -/
inductive Performed (data : vf_camera_unit_data_t) : Act → Outcome → List DriverEvent → Prop
  | init_refused (cfg : vf_camera_cfg_t) :
    Performed data (.init cfg) ⟨.VF_INVALID_PARAMETER, data, none, none⟩ []
  | init (cfg : vf_camera_cfg_t) (ret : vf_err_t) (camera : vf_camera_t) (l : List DriverEvent)
      (h : camera.state ≠ .VF_CAMERA_STATE_RUNNING) :
    Performed data (.init cfg) ⟨ret, { data with camera := camera }, none, none⟩ l
  | start_refused :
    Performed data .start ⟨.VF_INIT_FAILED, data, none, none⟩ []
  | start (a : Answer) (l : List DriverEvent)
      (hl : Tried interrupted (.ioctl data.camera.fd .VIDIOC_STREAMON .zeroed) l a) :
    Performed data .start ⟨.VF_SUCCESS,
      { data with camera := { data.camera with state := .VF_CAMERA_STATE_RUNNING } },
      none, none⟩ l
  | stop_nothing (h : data.camera.state ≠ .VF_CAMERA_STATE_RUNNING) :
    Performed data .stop ⟨.VF_SUCCESS, data, none, none⟩ []
  | stop (h : data.camera.state = .VF_CAMERA_STATE_RUNNING) (a : Answer)
      (l : List DriverEvent)
      (hl : Tried interrupted (.ioctl data.camera.fd .VIDIOC_STREAMOFF .zeroed) l a) :
    Performed data .stop ⟨.VF_SUCCESS,
      { data with camera := { data.camera with state := .VF_CAMERA_STATE_STOPPED } },
      none, none⟩ l
  | deinit_again (h : data.camera.fd = -1) :
    Performed data .deinit ⟨.VF_SUCCESS, data, none, none⟩ []
  | deinit (hfd : data.camera.fd ≠ -1) (camera : vf_camera_t) (l₁ l₂ : List DriverEvent)
      (h : camera.state = .VF_CAMERA_STATE_STOPPED)
      (h₁ : (data.camera.state ≠ .VF_CAMERA_STATE_RUNNING ∧ l₁ = []) ∨
        (data.camera.state = .VF_CAMERA_STATE_RUNNING ∧
          ∃ a, Tried interrupted (.ioctl data.camera.fd .VIDIOC_STREAMOFF .zeroed) l₁ a))
      (h₂ : Unmaps l₂) :
    Performed data .deinit ⟨.VF_SUCCESS, { data with camera := camera }, none, none⟩ (l₁ ++ l₂)
  | acquire_refused (fb : vf_framebuffer_t) :
    Performed data (.acquire_frame fb) ⟨.VF_CAMERA_INIT_ERR, data, some fb, none⟩ []
  | acquire (fb : vf_framebuffer_t) (r : vf_err_t × vf_camera_t × vf_framebuffer_t)
      (l : List DriverEvent) (h : data.camera.state = .VF_CAMERA_STATE_RUNNING)
      (hc : Capture data.camera fb r l) :
    Performed data (.acquire_frame fb) ⟨r.1, { data with camera := r.2.1 }, some r.2.2, none⟩ l
  | get_refused (acquired : vf_err_t) (fb : vf_framebuffer_t) (ret : vf_err_t)
      (h : ret ≠ .VF_SUCCESS) :
    Performed data (.get_data acquired fb) ⟨ret, { data with current_fb := none }, none, none⟩ []
  | get (acquired : vf_err_t) (fb : vf_framebuffer_t)
      (r : vf_err_t × vf_camera_t × vf_framebuffer_t) (l : List DriverEvent)
      (h : data.camera.state = .VF_CAMERA_STATE_RUNNING) (hc : Capture data.camera fb r l) :
    Performed data (.get_data acquired fb) ⟨.VF_SUCCESS, ⟨r.2.1, some r.2.2⟩, some r.2.2, none⟩ l
  | send_nothing (pushed : vf_err_t) (h : data.current_fb = none) :
    Performed data (.send_data pushed) ⟨.VF_INVALID_PARAMETER, data, none, none⟩ []
  | send_refused (pushed : vf_err_t) :
    Performed data (.send_data pushed) ⟨pushed, { data with current_fb := none }, none, none⟩ []
  | send (pushed : vf_err_t) (fb : vf_framebuffer_t) (h : data.current_fb = some fb) :
    Performed data (.send_data pushed) ⟨.VF_SUCCESS, { data with current_fb := none }, none,
      some fb⟩ []

theorem Capture.ret {camera : vf_camera_t} {fb : vf_framebuffer_t}
    {r : vf_err_t × vf_camera_t × vf_framebuffer_t} {l : List DriverEvent}
    (h : Capture camera fb r l) : r.1 = .VF_SUCCESS := by
  cases h <;> rfl

theorem perform.spec (data : vf_camera_unit_data_t) (a : Act) :
    Gives (perform data a) (Performed data a) := by
  cases a with
  | init cfg =>
    apply gives_bind (vf_camera_init.spec _ _)
    intro r l h
    apply gives_pure
    rw [List.append_nil]
    rcases h with ⟨rfl, rfl⟩ | h
    · exact .init_refused cfg
    · exact .init cfg _ _ _ h
  | start =>
    apply gives_bind (vf_camera_start.spec _)
    intro r l h
    apply gives_pure
    rw [List.append_nil]
    rcases h with ⟨-, rfl, rfl⟩ | ⟨-, rfl, a, hl⟩
    · exact .start_refused
    · exact .start a l hl
  | acquire_frame fb =>
    apply gives_bind (vf_camera_acquire_frame.spec _ _)
    intro r l h
    apply gives_pure
    rw [List.append_nil]
    rcases h with ⟨-, rfl, rfl⟩ | ⟨hs, hc⟩
    · exact .acquire_refused fb
    · exact .acquire fb r l hs hc
  | stop =>
    apply gives_bind (vf_camera_stop.spec _)
    intro r l h
    apply gives_pure
    rw [List.append_nil]
    rcases h with ⟨hs, rfl, rfl⟩ | ⟨hs, rfl, a, hl⟩
    · exact .stop_nothing hs
    · exact .stop hs a l hl
  | deinit =>
    apply gives_bind (vf_camera_deinit.spec _)
    rintro ⟨ret, camera⟩ l h
    apply gives_pure
    rw [List.append_nil]
    rcases h with ⟨he, hfd, rfl⟩ | ⟨hfd, rfl, hs, l₁, l₂, rfl, h₂, h₁⟩
    · cases he
      exact .deinit_again hfd
    · exact .deinit hfd camera l₁ l₂ hs h₁ h₂
  | get_data acquired fb =>
    apply gives_bind (P := fun r l =>
      (r.1 ≠ .VF_SUCCESS ∧ r.2 = { data with current_fb := none } ∧ l = []) ∨
      ∃ c, data.camera.state = .VF_CAMERA_STATE_RUNNING ∧ Capture data.camera fb c l ∧
        r = (.VF_SUCCESS, ⟨c.2.1, some c.2.2⟩))
    · unfold vf_camera_unit_get_data
      apply gives_ite
      · intro h
        exact gives_pure (Or.inl ⟨h, rfl, rfl⟩)
      · intro _
        apply gives_bind (vf_camera_acquire_frame.spec _ _)
        rintro ⟨err, camera, fb'⟩ l (⟨-, he, rfl⟩ | ⟨hs, hc⟩)
        · cases he
          exact gives_pure (Or.inl ⟨by simp, rfl, rfl⟩)
        · have hret : err = .VF_SUCCESS := hc.ret
          subst hret
          apply gives_past_check
          apply gives_pure
          rw [List.append_nil]
          exact Or.inr ⟨_, hs, hc, rfl⟩
    · rintro ⟨ret, data'⟩ l h
      apply gives_pure
      rw [List.append_nil]
      rcases h with ⟨hne, rfl, rfl⟩ | ⟨c, hs, hc, he⟩
      · exact .get_refused acquired fb ret hne
      · cases he
        exact .get acquired fb c l hs hc
  | send_data pushed =>
    unfold perform vf_camera_unit_send_data
    rcases hcur : data.current_fb with _ | fb
    · exact gives_pure (.send_nothing pushed hcur)
    · by_cases hp : pushed = .VF_SUCCESS
      · simp only [hp, ne_eq, not_true_eq_false, if_false]
        exact gives_pure (.send _ fb hcur)
      · simp only [hp, ne_eq, not_false_eq_true, if_true]
        exact gives_pure (.send_refused pushed)

theorem step_cases {s s' : St} {a : Act} (h : step s a = some s') :
    ∃ o l, Performed s.data a o l ∧ s'.data = o.data ∧ s'.ret = o.ret ∧ s'.fb = o.fb ∧
      s'.last = l ∧ s'.log = s.log ++ l ∧
      s'.dequeued = s.dequeued ++ dequeues s.data.camera l ∧
      s'.pushed = s.pushed ++ o.pushed.toList := by
  obtain ⟨⟨o, w⟩, hp, rfl⟩ := Option.map_eq_some_iff.mp h
  obtain ⟨l, hl, hperf⟩ := perform.spec s.data a _ _ _ hp
  rw [List.nil_append] at hl
  exact ⟨o, w.log, hl ▸ hperf, rfl, rfl, rfl, rfl, rfl, rfl, rfl⟩

/-! ## One ioctl -/

section
variable {fd : Int} {request : Request} {arg : v4l2_arg_t} {l : List DriverEvent} {a : Answer}

theorem rc_of_interrupted (h : interrupted a = true) : a.rc = -1 := by
  unfold interrupted at h
  exact (of_decide_eq_true h).1

theorem tried_unfailing_iff (h : Tried interrupted (.ioctl fd request arg) l a) :
    (∀ e ∈ l, ¬ Fails e) ↔ a.rc ≠ -1 := by
  obtain ⟨⟨tries, rfl, htries⟩, hlast⟩ := h
  constructor
  · intro hall hrc
    exact hall ⟨.ioctl fd request arg, a⟩ (by simp) ⟨hrc, hlast⟩
  · intro hrc e he
    rcases List.mem_append.mp he with he | he
    · obtain ⟨hcall, hint⟩ := htries e he
      simp [Fails, hcall, hint]
    · cases List.mem_singleton.mp he
      simp [Fails, hrc]

theorem tried_done_iff (h : Tried interrupted (.ioctl fd request arg) l a) :
    (∃ e ∈ l, Done request e) ↔ a.rc ≠ -1 := by
  obtain ⟨⟨tries, rfl, htries⟩, -⟩ := h
  constructor
  · rintro ⟨e, he, hd⟩
    rcases List.mem_append.mp he with he | he
    · obtain ⟨hcall, hint⟩ := htries e he
      simp [Done, hcall, rc_of_interrupted hint] at hd
    · cases List.mem_singleton.mp he
      exact hd.2
  · intro hrc
    exact ⟨⟨.ioctl fd request arg, a⟩, by simp, rfl, hrc⟩

theorem dequeues_append (camera : vf_camera_t) (l k : List DriverEvent) :
    dequeues camera (l ++ k) = dequeues camera l ++ dequeues camera k :=
  List.filterMap_append

/-- Of a dequeue that was tried, the last try counts. -/
theorem tried_dequeues (h : Tried interrupted (.ioctl fd .VIDIOC_DQBUF arg) l a)
    (camera : vf_camera_t) :
    dequeues camera l = if a.rc ≠ -1 then
      [⟨a.mapped (camera.buffers a.arg.index).start, a.arg.bytesused⟩] else [] := by
  obtain ⟨⟨tries, rfl, htries⟩, -⟩ := h
  have hnone : dequeues camera tries = [] := by
    apply List.filterMap_eq_nil_iff.mpr
    intro e he
    obtain ⟨hcall, hint⟩ := htries e he
    simp [hcall, rc_of_interrupted hint]
  rw [dequeues_append, hnone]
  by_cases hrc : a.rc = -1 <;> simp [dequeues, hrc]

theorem tried_other_dequeues (h : Tried interrupted (.ioctl fd request arg) l a)
    (hr : request ≠ .VIDIOC_DQBUF) (camera : vf_camera_t) : dequeues camera l = [] := by
  obtain ⟨⟨tries, rfl, htries⟩, -⟩ := h
  apply List.filterMap_eq_nil_iff.mpr
  intro e he
  have hcall : e.call = .ioctl fd request arg := by
    rcases List.mem_append.mp he with he | he
    · exact (htries e he).1
    · cases List.mem_singleton.mp he
      rfl
  cases request <;> first | exact absurd rfl hr | simp [hcall]

theorem tried_streamon (h : Tried interrupted (.ioctl fd .VIDIOC_STREAMON arg) l a)
    (hrc : a.rc ≠ -1) (on : Bool) : l.foldl stream_after on = true := by
  obtain ⟨⟨tries, rfl, -⟩, -⟩ := h
  simp [stream_after, hrc]

/-- Only these requests concern the stream. -/
theorem tried_stream_same (h : Tried interrupted (.ioctl fd request arg) l a)
    (hr : request = .VIDIOC_DQBUF ∨ request = .VIDIOC_QBUF) (on : Bool) :
    l.foldl stream_after on = on := by
  obtain ⟨⟨tries, rfl, htries⟩, -⟩ := h
  have same : ∀ l : List DriverEvent, (∀ e ∈ l, e.call = .ioctl fd request arg) →
      l.foldl stream_after on = on := by
    intro l hl
    induction l with
    | nil => rfl
    | cons e rest ih =>
      have he : stream_after on e = on := by
        rcases hr with rfl | rfl <;> simp [stream_after, hl e (by simp)]
      rw [List.foldl_cons, he]
      exact ih fun e' he' => hl e' (List.mem_cons_of_mem _ he')
  apply same
  intro e he
  rcases List.mem_append.mp he with he | he
  · exact (htries e he).1
  · cases List.mem_singleton.mp he
    rfl

end

/-! ## One capture -/

section
variable {camera : vf_camera_t} {fb : vf_framebuffer_t}
  {r : vf_err_t × vf_camera_t × vf_framebuffer_t} {l : List DriverEvent}

theorem Capture.stream_same (h : Capture camera fb r l) (on : Bool) :
    l.foldl stream_after on = on := by
  cases h with
  | not_ready ready _ => rfl
  | tried ready a b buf l₁ l₂ _ hdq _ hq =>
    rw [List.foldl_cons, List.foldl_append, tried_stream_same hdq (Or.inl rfl),
      tried_stream_same hq (Or.inr rfl)]
    rfl

/-- What the calls of a capture dequeue. -/
theorem capture_dequeues {ready a b : Answer} {buf : v4l2_arg_t} {l₁ l₂ : List DriverEvent}
    (hd : Tried interrupted (.ioctl camera.fd .VIDIOC_DQBUF .zeroed) l₁ a)
    (hq : Tried interrupted (.ioctl camera.fd .VIDIOC_QBUF buf) l₂ b) :
    dequeues camera (⟨.select camera.fd, ready⟩ :: (l₁ ++ l₂)) = if a.rc ≠ -1 then
      [⟨a.mapped (camera.buffers a.arg.index).start, a.arg.bytesused⟩] else [] := by
  have hsel : dequeues camera (⟨.select camera.fd, ready⟩ :: (l₁ ++ l₂)) =
      dequeues camera (l₁ ++ l₂) := rfl
  rw [hsel, dequeues_append, tried_dequeues hd, tried_other_dequeues hq (by simp),
    List.append_nil]

theorem Capture.requeued_only (h : Capture camera fb r l) (hre : Requeued l)
    (hdq : dequeues camera l ≠ []) : ∀ e ∈ l, ¬ Fails e := by
  cases h with
  | not_ready ready _ => exact absurd rfl hdq
  | tried ready a b buf l₁ l₂ hready hd hbuf hq =>
    have ha : a.rc ≠ -1 := by
      intro hrc
      apply hdq
      rw [capture_dequeues hd hq, if_neg (not_not.mpr hrc)]
    have hb : b.rc ≠ -1 := by
      apply (tried_done_iff hq).mp
      obtain ⟨before, dq, after, qb, fd, he, -, hmem, hcall, hrc⟩ := hre
      have hqb : qb ∈ ⟨.select camera.fd, ready⟩ :: (l₁ ++ l₂) := by
        rw [he]
        simp [hmem]
      have hdone : Done .VIDIOC_QBUF qb := by simp [Done, hcall, hrc]
      rcases List.mem_cons.mp hqb with rfl | hqb
      · simp at hcall
      · rcases List.mem_append.mp hqb with h1 | h2
        · obtain ⟨⟨tries, rfl, htries⟩, -⟩ := hd
          rcases List.mem_append.mp h1 with h1 | h1
          · rw [(htries qb h1).1] at hcall
            simp at hcall
          · cases List.mem_singleton.mp h1
            simp at hcall
        · exact ⟨qb, h2, hdone⟩
    intro e he
    rcases List.mem_cons.mp he with rfl | he
    · simpa [Fails] using hready
    · rcases List.mem_append.mp he with h1 | h2
      · exact (tried_unfailing_iff hd).mpr ha e h1
      · exact (tried_unfailing_iff hq).mpr hb e h2

/-- A capture without a failure fills the frame from the one buffer that it dequeues. -/
theorem Capture.captured (h : Capture camera fb r l) (hok : ∀ e ∈ l, ¬ Fails e) :
    (∃ q, dequeues camera l = [q] ∧ Carries r.2.2 q) ∧ Requeued l := by
  cases h with
  | not_ready ready hr => exact absurd hr (hok _ (List.mem_singleton_self _))
  | tried ready a b buf l₁ l₂ hready hd hbuf hq =>
    have ha : a.rc ≠ -1 := by
      apply (tried_unfailing_iff hd).mp
      intro e he
      exact hok e (List.mem_cons_of_mem _ (List.mem_append_left _ he))
    have hb : b.rc ≠ -1 := by
      apply (tried_unfailing_iff hq).mp
      intro e he
      exact hok e (List.mem_cons_of_mem _ (List.mem_append_right _ he))
    rw [if_neg ha] at hbuf
    subst hbuf
    refine ⟨⟨⟨a.mapped (camera.buffers a.arg.index).start, a.arg.bytesused⟩, ?_, ?_⟩, ?_⟩
    · rw [capture_dequeues hd hq, if_pos ha]
    · intro d hd' k hk ht
      obtain ⟨d₀, -, rfl⟩ := Option.map_eq_some_iff.mp hd'
      have hlt : k < if a.arg.bytesused < fb.total_size then a.arg.bytesused else fb.total_size := by
        split
        · exact hk
        · exact ht
      exact if_pos hlt
    · obtain ⟨⟨tries, rfl, -⟩, -⟩ := hd
      obtain ⟨⟨tries', rfl, -⟩, -⟩ := hq
      refine ⟨⟨.select camera.fd, ready⟩ :: tries, ⟨.ioctl camera.fd .VIDIOC_DQBUF .zeroed, a⟩,
        tries' ++ [⟨.ioctl camera.fd .VIDIOC_QBUF a.arg, b⟩],
        ⟨.ioctl camera.fd .VIDIOC_QBUF a.arg, b⟩, camera.fd, by simp, ⟨rfl, ha⟩, by simp, rfl, hb⟩

end

/-! ## A list inside another -/

section
variable {γ δ : Type} {R : γ → δ → Prop}

theorem inside_of_append {l m : List γ} {k : List δ} (h : List.SublistForall₂ R (l ++ m) k) :
    List.SublistForall₂ R l k := by
  obtain ⟨k', hk, hs⟩ := List.sublistForall₂_iff.mp h
  refine List.sublistForall₂_iff.mpr ⟨k'.take l.length, ?_, (List.take_sublist _ _).trans hs⟩
  have ht := List.forall₂_take l.length hk
  rwa [List.take_left] at ht

theorem inside_more {l : List γ} {k : List δ} (h : List.SublistForall₂ R l k) (k' : List δ) :
    List.SublistForall₂ R l (k ++ k') := by
  obtain ⟨k₀, hk, hs⟩ := List.sublistForall₂_iff.mp h
  exact List.sublistForall₂_iff.mpr ⟨k₀, hk, hs.trans (List.sublist_append_left _ _)⟩

theorem inside_concat {l : List γ} {k : List δ} {x : γ} {y : δ} (h : List.SublistForall₂ R l k)
    (hxy : R x y) : List.SublistForall₂ R (l ++ [x]) (k ++ [y]) := by
  obtain ⟨k₀, hk, hs⟩ := List.sublistForall₂_iff.mp h
  refine List.sublistForall₂_iff.mpr ⟨k₀ ++ [y], ?_, hs.append (List.Sublist.refl _)⟩
  exact List.rel_append hk (List.Forall₂.cons hxy List.Forall₂.nil)

end

/-! ## A step -/

/-- What a run without failures keeps: the state is running only while the driver streams,
and the frames that were pushed, and the one still held, carry buffers of their own. -/
structure Faithful (s : St) : Prop where
  running : s.data.camera.state = .VF_CAMERA_STATE_RUNNING → streaming s.log = true
  frames : List.SublistForall₂ Carries (s.pushed ++ s.data.current_fb.toList) s.dequeued

theorem faithful_fresh (answers : List Answer) : Faithful (fresh answers) := by
  refine ⟨?_, List.SublistForall₂.nil⟩
  intro h
  cases h

/-- True reports come from calls without a failure. Only init may catch a failure later, by
the zeros that the failed call leaves. -/
theorem unfailing_of_truthful {s s' : St} {a : Act} (h : step s a = some s')
    (ht : Truthful s a s') : (∃ cfg, a = .init cfg) ∨ Unfailing s' := by
  obtain ⟨o, l, hp, hdata, hret, hfb, hlast, -⟩ := step_cases h
  cases hp with
  | init_refused cfg => exact Or.inl ⟨cfg, rfl⟩
  | init cfg _ _ _ _ => exact Or.inl ⟨cfg, rfl⟩
  | start a l hl =>
    have hd := ht.start rfl hret
    rw [hlast] at hd
    right
    unfold Unfailing
    rw [hlast]
    exact (tried_unfailing_iff hl).mpr ((tried_done_iff hl).mp hd)
  | stop hs a l hl =>
    have hd := ht.stop (Or.inl rfl) hret hs
    rw [hlast] at hd
    right
    unfold Unfailing
    rw [hlast]
    exact (tried_unfailing_iff hl).mpr ((tried_done_iff hl).mp hd)
  | deinit hfd camera l₁ l₂ hs h₁ h₂ =>
    right
    unfold Unfailing
    rw [hlast]
    intro e he
    rcases List.mem_append.mp he with he | he
    · rcases h₁ with ⟨-, rfl⟩ | ⟨hrun, a, hl⟩
      · cases he
      · obtain ⟨e', he', hd⟩ := ht.stop (Or.inr ⟨rfl, hfd⟩) hret hrun
        rw [hlast] at he'
        -- the unmapping is no ioctl
        have hin : e' ∈ l₁ := by
          rcases List.mem_append.mp he' with h1 | h2
          · exact h1
          · rcases h₂ e' h2 with ⟨_, _, hc⟩ | ⟨_, hc⟩ <;> simp [Done, hc] at hd
        exact (tried_unfailing_iff hl).mpr ((tried_done_iff hl).mp ⟨e', hin, hd⟩) e he
    · rcases h₂ e he with ⟨_, _, hc⟩ | ⟨_, hc⟩ <;> simp [Fails, hc]
  | acquire fb r l hs hc =>
    obtain ⟨⟨q, fb', hdq, -⟩, hre⟩ := ht.acquire (Or.inl ⟨fb, rfl⟩) (hret.trans hc.ret)
    rw [hlast] at hdq hre
    right
    unfold Unfailing
    rw [hlast]
    exact hc.requeued_only hre (by rw [hdq]; simp)
  | get acquired fb r l hs hc =>
    obtain ⟨⟨q, fb', hdq, -⟩, hre⟩ := ht.acquire (Or.inr ⟨acquired, fb, rfl⟩) hret
    rw [hlast] at hdq hre
    right
    unfold Unfailing
    rw [hlast]
    exact hc.requeued_only hre (by rw [hdq]; simp)
  | _ =>
    right
    unfold Unfailing
    rw [hlast]
    intro e he
    cases he

/-- A call without a failure keeps the frames and the state faithful. -/
theorem faithful_step {s s' : St} {a : Act} (hf : Faithful s) (h : step s a = some s')
    (hu : Unfailing s') : Faithful s' := by
  obtain ⟨o, l, hp, hdata, hret, hfb, hlast, hlog, hdq, hpushed⟩ := step_cases h
  have held := inside_more hf.frames (dequeues s.data.camera l)
  have dropped := inside_of_append held
  unfold Unfailing at hu
  rw [hlast] at hu
  constructor
  · rw [hdata, hlog]
    unfold streaming
    rw [List.foldl_append]
    cases hp with
    | init _ _ camera _ hs => exact fun hrun => absurd hrun hs
    | start a l hl =>
      exact fun _ => tried_streamon hl ((tried_unfailing_iff hl).mp hu) _
    | stop hs a l hl => exact fun hrun => by cases hrun
    | deinit hfd camera l₁ l₂ hs h₁ h₂ => exact fun hrun => by cases hs.symm.trans hrun
    | acquire fb r l hs hc => exact fun _ => (hc.stream_same _).trans (hf.running hs)
    | get acquired fb r l hs hc => exact fun _ => (hc.stream_same _).trans (hf.running hs)
    | _ => exact hf.running
  · rw [hdata, hdq, hpushed]
    cases hp with
    | get_refused acquired fb ret hne => simpa using dropped
    | get acquired fb r l hs hc =>
      obtain ⟨⟨q, hq, hcarry⟩, -⟩ := hc.captured hu
      rw [hq]
      simpa using inside_concat (inside_of_append hf.frames) hcarry
    | send_refused pushed => simpa using dropped
    | send pushed fb hcur => simpa [hcur] using held
    | _ => simpa using held

/-- Calls without a failure report the truth. -/
theorem truthful_of_unfailing {s s' : St} {a : Act} (hf : Faithful s) (h : step s a = some s')
    (hu : Unfailing s') : Truthful s a s' := by
  have hf' := faithful_step hf h hu
  obtain ⟨o, l, hp, hdata, hret, hfb, hlast, -⟩ := step_cases h
  unfold Unfailing at hu
  rw [hlast] at hu
  refine ⟨hf'.running, fun _ _ => by rwa [hlast], ?_, ?_, ?_, inside_of_append hf'.frames⟩
  · rintro rfl hok
    rw [hlast]
    cases hp with
    | start_refused =>
      rw [hret] at hok
      cases hok
    | start a l hl =>
      exact (tried_done_iff hl).mpr ((tried_unfailing_iff hl).mp hu)
  · intro ha hok hrun
    rw [hlast]
    cases hp with
    | stop_nothing hs => exact absurd hrun hs
    | stop hs a l hl =>
      exact (tried_done_iff hl).mpr ((tried_unfailing_iff hl).mp hu)
    | deinit_again hfd => simp [hfd] at ha
    | deinit hfd camera l₁ l₂ hs h₁ h₂ =>
      rcases h₁ with ⟨hne, -⟩ | ⟨-, a, hl⟩
      · exact absurd hrun hne
      · obtain ⟨e, he, hd⟩ := (tried_done_iff hl).mpr ((tried_unfailing_iff hl).mp fun e he =>
          hu e (List.mem_append_left _ he))
        exact ⟨e, List.mem_append_left _ he, hd⟩
    | _ => simp at ha
  · intro ha hok
    unfold Captured
    rw [hlast, hfb]
    cases hp with
    | acquire_refused fb =>
      rw [hret] at hok
      cases hok
    | get_refused acquired fb ret hne => exact absurd (hret.symm.trans hok) hne
    | acquire fb r l hs hc =>
      obtain ⟨⟨q, hq, hcarry⟩, hre⟩ := hc.captured hu
      exact ⟨⟨q, _, hq, rfl, hcarry⟩, hre⟩
    | get acquired fb r l hs hc =>
      obtain ⟨⟨q, hq, hcarry⟩, hre⟩ := hc.captured hu
      exact ⟨⟨q, _, hq, rfl, hcarry⟩, hre⟩
    | _ => simp at ha

/-! ## The law -/

/-- Whatever the calls and the driver's answers: in a run without a failed driver call all
reports are true. Where they are, no call but init has made a driver call that failed. -/
theorem the_reports_are_true_without_a_failure (answers : List Answer) (l : List Act) :
    (Along step (fun s a => ∀ s', step s a = some s' → Unfailing s') (fresh answers) l →
      Along step (fun s a => ∀ s', step s a = some s' → Truthful s a s') (fresh answers) l) ∧
    (Along step (fun s a => ∀ s', step s a = some s' → Truthful s a s') (fresh answers) l →
      Along step (fun s a => ∀ s', step s a = some s' → (∃ cfg, a = .init cfg) ∨ Unfailing s')
        (fresh answers) l) := by
  constructor
  · apply along_of_inv (I := Faithful)
    · exact fun s a hf hu s' h => truthful_of_unfailing hf h (hu s' h)
    · exact fun s a s' hf hu h => faithful_step hf h (hu s' h)
    · exact faithful_fresh answers
  · apply along_of_inv (I := fun _ => True)
    · exact fun s a _ ht s' h => unfailing_of_truthful h (ht s' h)
    · exact fun _ _ _ _ _ _ => trivial
    · trivial

/-- A driver that has a frame of four bytes ready. -/
def one_frame : List Answer :=
  let arg := v4l2_arg_t.zeroed
  let answer := fun (rc : Int) (arg : v4l2_arg_t) => (⟨rc, 0, arg, fun _ a => a.toUInt8⟩ : Answer)
  [answer 3 arg,
    answer 0 { arg with capabilities := V4L2_CAP_VIDEO_CAPTURE + V4L2_CAP_STREAMING },
    answer 0 arg, answer 0 { arg with count := 1 }, answer 0 { arg with length := 16 },
    answer 4096 arg, answer 0 arg, answer 0 arg, answer 1 arg,
    answer 0 { arg with bytesused := 4 }, answer 0 arg]

/-- The camera unit takes the frame and pushes it. -/
def one_capture : List Act :=
  [.init ⟨"/dev/video0", 2, 1, .VF_PIXEL_FMT_YUYV, 1⟩, .start,
    .get_data .VF_SUCCESS (vf_framebuffer_alloc zeroed ⟨2, 1, .VF_PIXEL_FMT_YUYV⟩ true).2,
    .send_data .VF_SUCCESS]

/-- The run goes through, and its reports are true. -/
theorem one_capture_is_reported :
    (∃ s, run step (fresh one_frame) one_capture = some s ∧ s.dequeued.length = 1 ∧
      s.pushed.length = 1) ∧
    Along step (fun s a => ∀ s', step s a = some s' → Truthful s a s') (fresh one_frame)
      one_capture := by
  refine ⟨⟨_, rfl, rfl, rfl⟩, ?_⟩
  apply (the_reports_are_true_without_a_failure one_frame one_capture).1
  decide

/-- A driver that opens the device, maps one buffer and starts to stream, and then has no
frame for two seconds. -/
def no_frame : List Answer :=
  let arg := v4l2_arg_t.zeroed
  let answer := fun (rc : Int) (arg : v4l2_arg_t) => (⟨rc, 0, arg, fun _ _ => 0⟩ : Answer)
  [answer 3 arg,
    answer 0 { arg with capabilities := V4L2_CAP_VIDEO_CAPTURE + V4L2_CAP_STREAMING },
    answer 0 arg, answer 0 { arg with count := 1 }, answer 0 { arg with length := 614400 },
    answer 4096 arg, answer 0 arg, answer 0 arg, answer 0 arg]

/-- A capture that times out is reported as a success, and the frame is as it was. -/
theorem a_timeout_is_reported_as_a_frame :
    let fb := (vf_framebuffer_alloc zeroed ⟨640, 480, .VF_PIXEL_FMT_YUYV⟩ true).2
    ∃ s s', run step (fresh no_frame) [.init ⟨"/dev/video0", 640, 480, .VF_PIXEL_FMT_YUYV, 1⟩,
        .start] = some s ∧ step s (.get_data .VF_SUCCESS fb) = some s' ∧
      s'.ret = .VF_SUCCESS ∧ s'.data.current_fb = some fb ∧ s'.dequeued = [] ∧
      ¬ Truthful s (.get_data .VF_SUCCESS fb) s' := by
  intro fb
  refine ⟨_, _, rfl, rfl, rfl, rfl, rfl, ?_⟩
  intro ht
  obtain ⟨⟨q, fb', hq, -⟩, -⟩ := ht.acquire (Or.inr ⟨_, _, rfl⟩) rfl
  cases hq

end vision_flow.vf_camera
