-- The buffers of the camera. The code checks the number of buffers that it asks for, and then
-- counts to the number that the driver grants. So it stays in its array just if the driver
-- grants 16 buffers at most. With such a driver each mapped buffer is unmapped once, by the
-- init that fails or by the deinit.
import VisionFlow.CameraMemory

namespace vision_flow.camera_buffers

open c_memory camera_memory framebuffer
open vf_camera (Call Request v4l2_arg_t Answer DriverEvent vf_camera_t vf_camera_cfg_t
  vf_camera_buffer_t NULL VF_CAMERA_MAX_BUFFERS pixel_fmt_to_v4l2 V4L2_CAP_VIDEO_CAPTURE
  V4L2_CAP_STREAMING)

/-! ## What holds with any driver -/

section
variable (driver : Driver)

/-- No run accesses an element past the end of `buffers[]`, reads a buffer that is not mapped
or unmaps one. An init that fails leaves nothing mapped, and so does a deinit. -/
def Safe (cfg : vf_camera_cfg_t) (camera : vf_camera_t) : Prop :=
  ∃ err m, vf_camera_init driver cfg ⟨camera, []⟩ = some (err, m) ∧
    (err ≠ .VF_SUCCESS → mapped m.log = ∅) ∧
    (err = .VF_SUCCESS → ∀ acts, ∃ m', run driver acts m = some ((), m') ∧
      (.deinit ∈ acts → mapped m'.log = ∅))

/-- The first calls of an init. -/
def opened (cfg : vf_camera_cfg_t) : DriverEvent :=
  ⟨.open_device cfg.device_path, driver [] (.open_device cfg.device_path)⟩

def queried (cfg : vf_camera_cfg_t) : DriverEvent :=
  let call := .ioctl (opened driver cfg).answer.rc .VIDIOC_QUERYCAP .zeroed
  ⟨call, driver [opened driver cfg] call⟩

def formatted (cfg : vf_camera_cfg_t) : DriverEvent :=
  let call := .ioctl (opened driver cfg).answer.rc .VIDIOC_S_FMT { v4l2_arg_t.zeroed with
    width := cfg.width, height := cfg.height, pixelformat := pixel_fmt_to_v4l2 cfg.format }
  ⟨call, driver [opened driver cfg, queried driver cfg] call⟩

def requested (cfg : vf_camera_cfg_t) : DriverEvent :=
  let call := .ioctl (opened driver cfg).answer.rc .VIDIOC_REQBUFS { v4l2_arg_t.zeroed with
    count := cfg.buffer_count }
  ⟨call, driver [opened driver cfg, queried driver cfg, formatted driver cfg] call⟩

/-- The init comes to its request for buffers. -/
def Requests (cfg : vf_camera_cfg_t) : Prop :=
  cfg.buffer_count ≤ VF_CAMERA_MAX_BUFFERS ∧ (opened driver cfg).answer.rc ≠ -1 ∧
    (queried driver cfg).answer.rc ≠ -1 ∧
    (queried driver cfg).answer.arg.capabilities &&& V4L2_CAP_VIDEO_CAPTURE ≠ 0 ∧
    (queried driver cfg).answer.arg.capabilities &&& V4L2_CAP_STREAMING ≠ 0

instance (cfg : vf_camera_cfg_t) : Decidable (Requests driver cfg) :=
  inferInstanceAs (Decidable (_ ∧ _))

end

section
variable {driver : Driver} {m : Mem}

/-! ## The init -/

theorem close_fd.spec (driver : Driver) (err : vf_err_t) :
    ∃ m', close_fd driver err m = some (err, m') ∧ mapped m'.log = mapped m.log := by
  unfold close_fd
  rw [run_bind_of get.spec, run_bind_of (sys.spec _), run_bind_of (put.spec _)]
  exact ⟨_, rfl, mapped_plain trivial⟩

/-- All buffers of the camera are mapped. -/
structure Open (m : Mem) : Prop where
  kept : Kept m
  fd : m.camera.fd ≠ -1
  pos : 0 < m.camera.buffer_count
  max : m.camera.buffer_count ≤ VF_CAMERA_MAX_BUFFERS
  granted : granted m.log ≤ m.camera.buffer_count
  usable : ∀ i < m.camera.buffer_count, Usable (m.camera.buffers i)

theorem Open.same {m' : Mem} (h : Open m) (hs : Same m m') : Open m' := by
  refine ⟨h.kept.same hs, ?_, ?_, ?_, ?_, ?_⟩
  · rw [hs.fd]
    exact h.fd
  · rw [hs.buffer_count]
    exact h.pos
  · rw [hs.buffer_count]
    exact h.max
  · rw [hs.granted, hs.buffer_count]
    exact h.granted
  · rw [hs.buffer_count, hs.buffers]
    exact h.usable

/-- The buffers are granted, and none is mapped. -/
structure Unmapped (m : Mem) : Prop where
  fd : m.camera.fd ≠ -1
  pos : 0 < m.camera.buffer_count
  granted : granted m.log ≤ m.camera.buffer_count
  usable : ∀ i, ¬ Usable (m.camera.buffers i)
  mapped : mapped m.log = ∅

theorem Unmapped.kept (h : Unmapped m) : Kept m := by
  unfold Kept
  rw [h.mapped]
  exact ⟨fun i _ hu => absurd hu (h.usable i), fun b hb => absurd hb (Finset.notMem_empty b),
    fun i _ _ _ hu => absurd hu (h.usable i)⟩

theorem map_and_queue.spec (hd : Lawful driver) (h : Unmapped m)
    (hmax : m.camera.buffer_count ≤ VF_CAMERA_MAX_BUFFERS) :
    ∃ err m', map_and_queue driver m = some (err, m') ∧
      (err ≠ .VF_SUCCESS → mapped m'.log = ∅) ∧ (err = .VF_SUCCESS → Open m') := by
  obtain ⟨err, m1, hmap, hframe, hkept, hall⟩ := map_from.spec hd m.camera.buffer_count h.kept
    (Nat.zero_add _).symm hmax (fun j hj => absurd hj (Nat.not_lt_zero j)) fun j _ => h.usable j
  unfold map_and_queue
  rw [run_bind_of get.spec, run_bind_of hmap]
  by_cases herr : err = .VF_SUCCESS
  · obtain ⟨m2, hqueue, hsame⟩ := queue_from.spec driver (m := m1) m.camera.fd
      m.camera.buffer_count .zeroed 0
    have hopen : Open m1 := by
      refine ⟨hkept, ?_, ?_, ?_, ?_, hall herr⟩
      · rw [hframe.fd]
        exact h.fd
      · rw [hframe.buffer_count]
        exact h.pos
      · rw [hframe.buffer_count]
        exact hmax
      · rw [hframe.granted, hframe.buffer_count]
        exact h.granted
    rw [if_neg (not_not.mpr herr), run_bind_of hqueue]
    exact ⟨_, m2, rfl, nofun, fun _ => hopen.same hsame⟩
  · obtain ⟨m2, hunmap, -, hnone⟩ := unmap_from.spec driver m1.camera.buffer_count hkept
      (Nat.zero_add _).symm (by rw [hframe.buffer_count]; exact hmax)
      fun j hj => absurd hj (Nat.not_lt_zero j)
    obtain ⟨m3, hclose, hmapped⟩ := close_fd.spec driver (m := m2) err
    rw [if_pos herr, unmap_buffers, run_bind_of get.spec, run_bind_of hunmap, hclose]
    exact ⟨err, m3, rfl, fun _ => hmapped.trans hnone, fun h => absurd h herr⟩

theorem map_and_queue_past (h : VF_CAMERA_MAX_BUFFERS < m.camera.buffer_count) :
    map_and_queue driver m = none := by
  unfold map_and_queue
  rw [run_bind_of get.spec, run_bind]
  rcases map_from_past driver (m := m) m.camera.buffer_count (Nat.zero_le _)
    (by omega) with hmap | ⟨m1, hmap, hcount⟩
  · rw [hmap]
    rfl
  · rw [hmap, Option.bind_some, if_pos nofun, unmap_buffers, run_bind_of get.spec, run_bind,
      hcount, unmap_from_past driver _ (Nat.zero_le _) (by omega)]
    rfl

variable {cfg : vf_camera_cfg_t}

/-- The memory when an init requests its buffers. -/
def asking (driver : Driver) (cfg : vf_camera_cfg_t) : Mem :=
  ⟨{ vf_camera_t.zeroed with
      cfg := cfg, state := .VF_CAMERA_STATE_STOPPED, fd := (opened driver cfg).answer.rc },
    [opened driver cfg, queried driver cfg, formatted driver cfg]⟩

/-- The camera from the `open` to the request. -/
def reached (driver : Driver) (cfg : vf_camera_cfg_t) (log : List DriverEvent) : Mem :=
  ⟨(asking driver cfg).camera, log⟩

theorem open_device (camera : vf_camera_t) :
    sys driver (.open_device cfg.device_path) ⟨camera, []⟩ =
      some ((opened driver cfg).answer, ⟨camera, [opened driver cfg]⟩) := rfl

theorem query_capabilities :
    camera_ioctl driver (opened driver cfg).answer.rc .VIDIOC_QUERYCAP .zeroed
        (reached driver cfg [opened driver cfg]) =
      some ((.VF_SUCCESS, left (queried driver cfg).answer .zeroed,
          (queried driver cfg).answer.mapped),
        reached driver cfg [opened driver cfg, queried driver cfg]) :=
  camera_ioctl.spec _ _ _

theorem set_format :
    camera_ioctl driver (opened driver cfg).answer.rc .VIDIOC_S_FMT { v4l2_arg_t.zeroed with
        width := cfg.width, height := cfg.height, pixelformat := pixel_fmt_to_v4l2 cfg.format }
        (reached driver cfg [opened driver cfg, queried driver cfg]) =
      some ((.VF_SUCCESS, left (formatted driver cfg).answer { v4l2_arg_t.zeroed with
        width := cfg.width, height := cfg.height, pixelformat := pixel_fmt_to_v4l2 cfg.format },
        (formatted driver cfg).answer.mapped), asking driver cfg) :=
  camera_ioctl.spec _ _ _

/-- The capabilities that the init reads, which are none if it cannot query them. -/
def capabilities (driver : Driver) (cfg : vf_camera_cfg_t) : Nat :=
  (left (queried driver cfg).answer .zeroed).capabilities

theorem requests_iff : Requests driver cfg ↔ cfg.buffer_count ≤ VF_CAMERA_MAX_BUFFERS ∧
    (opened driver cfg).answer.rc ≠ -1 ∧
    capabilities driver cfg &&& V4L2_CAP_VIDEO_CAPTURE ≠ 0 ∧
    capabilities driver cfg &&& V4L2_CAP_STREAMING ≠ 0 := by
  unfold Requests capabilities left
  by_cases hqueried : (queried driver cfg).answer.rc = -1
  · simp [hqueried, v4l2_arg_t.zeroed]
  · simp [hqueried]

theorem init_opened (hcount : cfg.buffer_count ≤ VF_CAMERA_MAX_BUFFERS)
    (hopened : (opened driver cfg).answer.rc ≠ -1) (camera : vf_camera_t) :
    vf_camera_init driver cfg ⟨camera, []⟩ =
      if capabilities driver cfg &&& V4L2_CAP_VIDEO_CAPTURE = 0 then
        close_fd driver .VF_INIT_FAILED
          (reached driver cfg [opened driver cfg, queried driver cfg])
      else if capabilities driver cfg &&& V4L2_CAP_STREAMING = 0 then
        close_fd driver .VF_INIT_FAILED
          (reached driver cfg [opened driver cfg, queried driver cfg])
      else request_buffers driver (opened driver cfg).answer.rc cfg (asking driver cfg) := by
  have hcap : (left (queried driver cfg).answer .zeroed).capabilities =
    capabilities driver cfg := rfl
  unfold vf_camera_init
  rw [if_neg (by omega), run_bind_of (open_device camera), run_bind_of (put.spec _),
    if_neg hopened]
  refine (run_bind_of query_capabilities).trans ?_
  simp only [ne_eq, not_true_eq_false, if_false, hcap]
  split
  · rfl
  · split
    · rfl
    · rw [run_bind_of set_format]
      rfl

theorem init_requests (h : Requests driver cfg) (camera : vf_camera_t) :
    vf_camera_init driver cfg ⟨camera, []⟩ =
      request_buffers driver (opened driver cfg).answer.rc cfg (asking driver cfg) := by
  obtain ⟨hcount, hopened, hcapture, hstreaming⟩ := requests_iff.mp h
  rw [init_opened hcount hopened, if_neg hcapture, if_neg hstreaming]

theorem init_stops (h : ¬ Requests driver cfg) (camera : vf_camera_t) :
    ∃ err m, vf_camera_init driver cfg ⟨camera, []⟩ = some (err, m) ∧ err ≠ .VF_SUCCESS ∧
      mapped m.log = ∅ := by
  by_cases hcount : cfg.buffer_count ≤ VF_CAMERA_MAX_BUFFERS
  · by_cases hopened : (opened driver cfg).answer.rc = -1
    · unfold vf_camera_init
      rw [if_neg (by omega), run_bind_of (open_device camera), run_bind_of (put.spec _),
        if_pos hopened]
      exact ⟨_, _, rfl, nofun, rfl⟩
    · obtain ⟨m', hclose, hmapped⟩ := close_fd.spec driver
        (m := reached driver cfg [opened driver cfg, queried driver cfg]) .VF_INIT_FAILED
      refine ⟨.VF_INIT_FAILED, m', ?_, nofun, hmapped⟩
      rw [init_opened hcount hopened, ← hclose]
      split
      · rfl
      · split
        · rfl
        · rename_i hcapture hstreaming
          exact absurd (requests_iff.mpr ⟨hcount, hopened, hcapture, hstreaming⟩) h
  · unfold vf_camera_init
    rw [if_pos (by omega)]
    exact ⟨_, _, rfl, nofun, rfl⟩

/-- The number of buffers that the camera gets. -/
def buffer_count (driver : Driver) (cfg : vf_camera_cfg_t) : Nat :=
  if (requested driver cfg).answer.rc = -1 then cfg.buffer_count
  else (requested driver cfg).answer.arg.count

/-- The memory after the request. -/
def counted (driver : Driver) (cfg : vf_camera_cfg_t) : Mem :=
  ⟨{ (asking driver cfg).camera with buffer_count := buffer_count driver cfg },
    [opened driver cfg, queried driver cfg, formatted driver cfg, requested driver cfg]⟩

theorem request_for_buffers :
    camera_ioctl driver (opened driver cfg).answer.rc .VIDIOC_REQBUFS
        { v4l2_arg_t.zeroed with count := cfg.buffer_count } (asking driver cfg) =
      some ((.VF_SUCCESS, left (requested driver cfg).answer
          { v4l2_arg_t.zeroed with count := cfg.buffer_count },
        (requested driver cfg).answer.mapped),
        reached driver cfg [opened driver cfg, queried driver cfg, formatted driver cfg,
          requested driver cfg]) :=
  camera_ioctl.spec _ _ _

theorem request_buffers_eq :
    request_buffers driver (opened driver cfg).answer.rc cfg (asking driver cfg) =
      if buffer_count driver cfg = 0 then
        close_fd driver .VF_OOM (reached driver cfg [opened driver cfg, queried driver cfg,
          formatted driver cfg, requested driver cfg])
      else map_and_queue driver (counted driver cfg) := by
  have hcount : (left (requested driver cfg).answer
      { v4l2_arg_t.zeroed with count := cfg.buffer_count }).count = buffer_count driver cfg := by
    unfold left buffer_count
    split
    · rfl
    · rfl
  unfold request_buffers
  rw [run_bind_of request_for_buffers]
  simp only [ne_eq, not_true_eq_false, if_false, hcount]
  split
  · rfl
  · rw [run_bind_of (put.spec _)]
    rfl

theorem counted_unmapped (hopened : (opened driver cfg).answer.rc ≠ -1)
    (hpos : buffer_count driver cfg ≠ 0) : Unmapped (counted driver cfg) := by
  refine ⟨hopened, Nat.pos_of_ne_zero hpos, ?_, fun i hu => hu.1 rfl, rfl⟩
  have hgranted : granted (counted driver cfg).log =
      if (requested driver cfg).answer.rc = -1 then 0
      else (requested driver cfg).answer.arg.count := rfl
  have hcount : (counted driver cfg).camera.buffer_count = buffer_count driver cfg := rfl
  rw [hgranted, hcount]
  unfold buffer_count
  split
  · exact Nat.zero_le _
  · exact Nat.le_refl _

/-! ## The acts -/

/-- The camera was closed, and no buffer is mapped. -/
structure Closed (m : Mem) : Prop where
  fd : m.camera.fd = -1
  mapped : mapped m.log = ∅

theorem Closed.same {m' : Mem} (h : Closed m) (hs : Same m m') : Closed m' :=
  ⟨hs.fd.trans h.fd, hs.mapped.trans h.mapped⟩

theorem vf_camera_start.spec (driver : Driver) (m : Mem) :
    ∃ err m', vf_camera_start driver m = some (err, m') ∧ Same m m' := by
  unfold vf_camera_start
  rw [run_bind_of get.spec]
  split
  · exact ⟨_, m, rfl, Same.refl m⟩
  · rw [run_bind_of (camera_ioctl.spec _ _ _)]
    simp only [ne_eq, not_true_eq_false, if_false]
    rw [run_bind_of (put.spec _)]
    exact ⟨_, _, rfl, ⟨rfl, rfl, granted_plain trivial⟩, rfl, mapped_plain trivial⟩

theorem vf_camera_stop.spec (driver : Driver) (m : Mem) :
    ∃ m', vf_camera_stop driver m = some (.VF_SUCCESS, m') ∧ Same m m' := by
  unfold vf_camera_stop
  rw [run_bind_of get.spec]
  split
  · exact ⟨m, rfl, Same.refl m⟩
  · rw [run_bind_of (camera_ioctl.spec _ _ _)]
    simp only [ne_eq, not_true_eq_false, if_false]
    rw [run_bind_of (put.spec _)]
    exact ⟨_, rfl, ⟨rfl, rfl, granted_plain trivial⟩, rfl, mapped_plain trivial⟩

theorem stop_if_running.spec (driver : Driver) (m : Mem) :
    ∃ m', stop_if_running driver m = some (.VF_SUCCESS, m') ∧ Same m m' := by
  unfold stop_if_running
  rw [run_bind_of get.spec]
  split
  · exact vf_camera_stop.spec driver m
  · exact ⟨m, rfl, Same.refl m⟩

theorem vf_camera_deinit.closed (h : Closed m) :
    vf_camera_deinit driver m = some (.VF_SUCCESS, m) := by
  unfold vf_camera_deinit
  rw [run_bind_of get.spec, if_pos h.fd]
  rfl

theorem vf_camera_deinit.spec (driver : Driver) (h : Open m) :
    ∃ m', vf_camera_deinit driver m = some (.VF_SUCCESS, m') ∧ Closed m' := by
  obtain ⟨m1, hstop, hsame⟩ := stop_if_running.spec driver m
  have h1 := h.same hsame
  obtain ⟨m2, hunmap, -, hnone⟩ := unmap_from.spec driver m1.camera.buffer_count
    h1.kept (Nat.zero_add _).symm h1.max fun j hj => absurd hj (Nat.not_lt_zero j)
  unfold vf_camera_deinit
  rw [run_bind_of get.spec, if_neg h.fd, run_bind_of hstop]
  simp only [ne_eq, not_true_eq_false, if_false]
  rw [run_bind_of get.spec, run_bind_of hunmap, run_bind_of (sys.spec _),
    run_bind_of (put.spec _)]
  have hclose : Same m2 (m2.called driver (.close m1.camera.fd)) := Same.called driver trivial
  exact ⟨_, rfl, rfl, hclose.mapped.trans hnone⟩

theorem need_mapped.spec {b : vf_camera_buffer_t} (h : place b ∈ mapped m.log) :
    need_mapped b.start m = some ((), m) :=
  reads_of (if_pos ⟨place b, h, rfl⟩)

/-- On a closed camera no frame is ready. -/
theorem vf_camera_acquire_frame.closed (hd : Lawful driver) (h : Closed m)
    (fb : vf_framebuffer_t) :
    ∃ r m', vf_camera_acquire_frame driver fb m = some (r, m') ∧ Same m m' := by
  unfold vf_camera_acquire_frame
  rw [run_bind_of get.spec]
  split
  · exact ⟨_, m, rfl, Same.refl m⟩
  · have hselect : Same m (m.called driver (.select m.camera.fd)) := Same.called driver trivial
    rw [run_bind_of (sys.spec _)]
    rcases hd.closed m.log with hrc | hrc
    · rw [h.fd, if_pos hrc]
      exact ⟨_, _, rfl, h.fd ▸ hselect⟩
    · rw [h.fd, if_neg (by omega), if_pos hrc]
      exact ⟨_, _, rfl, h.fd ▸ hselect⟩

/-- The buffer that is read is one of the camera's, also if no buffer was dequeued. -/
theorem dequeued_index (hd : Lawful driver) (h : Open m) (fd : Int) :
    (left (driver m.log (.ioctl fd .VIDIOC_DQBUF .zeroed)) .zeroed).index <
      m.camera.buffer_count := by
  unfold left
  split
  · exact h.pos
  · rename_i hrc
    exact Nat.lt_of_lt_of_le (hd.dequeue m.log fd .zeroed hrc) h.granted

theorem vf_camera_acquire_frame.spec (hd : Lawful driver) (h : Open m) (fb : vf_framebuffer_t) :
    ∃ r m', vf_camera_acquire_frame driver fb m = some (r, m') ∧ Same m m' := by
  unfold vf_camera_acquire_frame
  rw [run_bind_of get.spec]
  split
  · exact ⟨_, m, rfl, Same.refl m⟩
  · have hselect : Same m (m.called driver (.select m.camera.fd)) := Same.called driver trivial
    rw [run_bind_of (sys.spec _)]
    split
    · exact ⟨_, _, rfl, hselect⟩
    · split
      · exact ⟨_, _, rfl, hselect⟩
      · have hopen := h.same hselect
        have hindex := dequeued_index hd hopen m.camera.fd
        have hdequeue := hselect.trans
          (Same.called driver (c := .ioctl m.camera.fd .VIDIOC_DQBUF .zeroed) trivial)
        have hopen' := h.same hdequeue
        have hmapped := hopen'.kept.held _ hindex (hopen'.usable _ hindex)
        rw [run_bind_of (camera_ioctl.spec _ _ _)]
        simp only [ne_eq, not_true_eq_false, if_false]
        rw [run_bind_of (load.spec (Nat.lt_of_lt_of_le hindex hopen.max)),
          run_bind_of (need_mapped.spec hmapped), run_bind_of (put.spec _),
          run_bind_of (camera_ioctl.spec _ _ _)]
        refine ⟨_, _, rfl, hdequeue.trans ?_⟩
        exact ⟨⟨rfl, rfl, granted_plain trivial⟩, rfl, mapped_plain trivial⟩

/-! ## Whole runs -/

/-- The camera is open with all its buffers, or it is closed. -/
def Held (m : Mem) : Prop := Open m ∨ Closed m

theorem Held.same {m' : Mem} (h : Held m) (hs : Same m m') : Held m' :=
  h.imp (fun h => h.same hs) fun h => h.same hs

/-- An act has no fault. After a deinit the camera is closed, and it stays closed. -/
theorem perform.spec (hd : Lawful driver) (h : Held m) (a : Act) :
    ∃ m', perform driver a m = some ((), m') ∧ Held m' ∧
      (a = .deinit → Closed m') ∧ (Closed m → Closed m') := by
  cases a with
  | start =>
    obtain ⟨err, m', hrun, hsame⟩ := vf_camera_start.spec driver m
    exact ⟨m', run_bind_of hrun, h.same hsame, nofun, fun hc => hc.same hsame⟩
  | acquire_frame fb =>
    have hacquire : ∃ r m', vf_camera_acquire_frame driver fb m = some (r, m') ∧ Same m m' := by
      rcases h with h | h
      · exact vf_camera_acquire_frame.spec hd h fb
      · exact vf_camera_acquire_frame.closed hd h fb
    obtain ⟨r, m', hrun, hsame⟩ := hacquire
    exact ⟨m', run_bind_of hrun, h.same hsame, nofun, fun hc => hc.same hsame⟩
  | stop =>
    obtain ⟨m', hrun, hsame⟩ := vf_camera_stop.spec driver m
    exact ⟨m', run_bind_of hrun, h.same hsame, nofun, fun hc => hc.same hsame⟩
  | deinit =>
    rcases h with h | h
    · obtain ⟨m', hrun, hclosed⟩ := vf_camera_deinit.spec driver h
      exact ⟨m', run_bind_of hrun, .inr hclosed, fun _ => hclosed, fun _ => hclosed⟩
    · exact ⟨m, run_bind_of (vf_camera_deinit.closed h), .inr h, fun _ => h, id⟩

theorem run.spec (hd : Lawful driver) (h : Held m) (acts : List Act) :
    ∃ m', run driver acts m = some ((), m') ∧ (.deinit ∈ acts ∨ Closed m → Closed m') := by
  induction acts generalizing m with
  | nil => exact ⟨m, rfl, fun hc => hc.resolve_left List.not_mem_nil⟩
  | cons a acts ih =>
    obtain ⟨m1, hact, hheld, hdeinit, hstays⟩ := perform.spec hd h a
    obtain ⟨m', hrun, hclosed⟩ := ih hheld
    refine ⟨m', (run_bind_of hact).trans hrun, fun hc => hclosed ?_⟩
    rcases hc with hmem | hc
    · rcases List.mem_cons.mp hmem with rfl | hmem
      · exact .inr (hdeinit rfl)
      · exact .inl hmem
    · exact .inr (hstays hc)

/-- A driver that grants what the array holds. -/
theorem init_safe (hd : Lawful driver) (h : Requests driver cfg)
    (hmax : buffer_count driver cfg ≤ VF_CAMERA_MAX_BUFFERS) (camera : vf_camera_t) :
    ∃ err m, vf_camera_init driver cfg ⟨camera, []⟩ = some (err, m) ∧
      (err ≠ .VF_SUCCESS → mapped m.log = ∅) ∧ (err = .VF_SUCCESS → Open m) := by
  rw [init_requests h, request_buffers_eq]
  by_cases hpos : buffer_count driver cfg = 0
  · obtain ⟨m', hclose, hmapped⟩ := close_fd.spec driver (m := reached driver cfg
      [opened driver cfg, queried driver cfg, formatted driver cfg, requested driver cfg]) .VF_OOM
    rw [if_pos hpos]
    exact ⟨_, m', hclose, fun _ => hmapped, nofun⟩
  · rw [if_neg hpos]
    exact map_and_queue.spec hd (counted_unmapped h.2.1 hpos) hmax

/-- A driver that grants more. -/
theorem init_faults (h : Requests driver cfg)
    (hmax : VF_CAMERA_MAX_BUFFERS < buffer_count driver cfg) (camera : vf_camera_t) :
    vf_camera_init driver cfg ⟨camera, []⟩ = none := by
  rw [init_requests h, request_buffers_eq, if_neg (by omega)]
  exact map_and_queue_past hmax

theorem safe_iff (hd : Lawful driver) (camera : vf_camera_t) : Safe driver cfg camera ↔
    (Requests driver cfg → buffer_count driver cfg ≤ VF_CAMERA_MAX_BUFFERS) := by
  constructor
  · rintro ⟨err, m, hinit, -⟩ h
    by_contra hmax
    rw [init_faults h (Nat.lt_of_not_le hmax)] at hinit
    cases hinit
  · intro hmax
    by_cases h : Requests driver cfg
    · obtain ⟨err, m, hinit, hfail, hopen⟩ := init_safe hd h (hmax h) camera
      refine ⟨err, m, hinit, hfail, fun herr acts => ?_⟩
      obtain ⟨m', hrun, hclosed⟩ := run.spec hd (.inl (hopen herr)) acts
      exact ⟨m', hrun, fun hmem => (hclosed (.inl hmem)).mapped⟩
    · obtain ⟨err, m, hinit, herr, hnone⟩ := init_stops h camera
      exact ⟨err, m, hinit, fun _ => hnone, fun hs => absurd hs herr⟩

end

/-! ## The law -/

/-- The camera stays in its array, and unmaps once what it maps, just if the driver grants no
more buffers than the array has. -/
theorem the_camera_keeps_to_its_buffers_just_if_the_grant_fits (driver : Driver)
    (cfg : vf_camera_cfg_t) (camera : vf_camera_t) (hd : Lawful driver) :
    Safe driver cfg camera ↔ (Requests driver cfg → (requested driver cfg).answer.rc ≠ -1 →
      (requested driver cfg).answer.arg.count ≤ VF_CAMERA_MAX_BUFFERS) := by
  rw [safe_iff hd]
  refine forall_congr' fun h => ?_
  unfold buffer_count
  by_cases hrc : (requested driver cfg).answer.rc = -1
  · -- the count stays the one of the configuration, which was checked
    rw [if_pos hrc]
    exact iff_of_true h.1 fun hne => absurd hrc hne
  · rw [if_neg hrc]
    exact ⟨fun hmax _ => hmax, fun hmax => hmax hrc⟩

/-- A driver that grants `n` buffers, and on which all else succeeds. -/
def granting (n : Nat) : Driver := fun log call =>
  let answer (rc : Int) (arg : v4l2_arg_t) : Answer := ⟨rc, 0, arg, fun _ _ => 0⟩
  match call with
  | .ioctl _ .VIDIOC_QUERYCAP arg =>
    answer 0 { arg with capabilities := V4L2_CAP_VIDEO_CAPTURE ||| V4L2_CAP_STREAMING }
  | .ioctl _ .VIDIOC_REQBUFS arg => answer 0 { arg with count := n }
  | .ioctl _ .VIDIOC_QUERYBUF arg => answer 0 { arg with length := 4096 }
  | .ioctl _ .VIDIOC_DQBUF arg =>
    answer (if granted log = 0 then -1 else 0) { arg with index := granted log - 1 }
  | .mmap _ _ _ => answer ((mapped log).sup (fun b => b.1.toNat) + 4096 : Nat) .zeroed
  | .select fd => answer (if fd = -1 then -1 else 1) .zeroed
  | .open_device _ => answer 3 .zeroed
  | _ => answer 0 .zeroed

theorem granting_lawful (n : Nat) : Lawful (granting n) := by
  refine ⟨?_, ?_, ?_⟩
  · intro log fd length offset _
    have hle : ∀ b ∈ mapped log, b.1.toNat ≤ (mapped log).sup fun b => b.1.toNat := fun b hb =>
      Finset.le_sup (f := fun b : Int × Nat => b.1.toNat) hb
    refine ⟨?_, fun b hb => ?_⟩
    · simp only [granting, NULL]
      omega
    · have := hle b hb
      simp only [granting]
      omega
  · intro log fd arg hrc
    simp only [granting] at hrc ⊢
    split at hrc
    · exact absurd rfl hrc
    · omega
  · intro log
    exact .inl rfl

theorem four_buffers_are_kept : Lawful (granting 4) ∧
    Safe (granting 4) ⟨"/dev/video0", 640, 480, .VF_PIXEL_FMT_YUYV, 4⟩ .zeroed :=
  ⟨granting_lawful 4, (the_camera_keeps_to_its_buffers_just_if_the_grant_fits _ _ _
    (granting_lawful 4)).mpr fun _ _ => by decide⟩

/-- The number that the code checks is not the one that it counts to. -/
theorem a_larger_grant_leaves_the_array :
    ¬ ∀ (driver : Driver) (cfg : vf_camera_cfg_t) (camera : vf_camera_t), Lawful driver →
      cfg.buffer_count ≤ VF_CAMERA_MAX_BUFFERS → Safe driver cfg camera := by
  intro h
  have hsafe := h (granting 32) ⟨"/dev/video0", 640, 480, .VF_PIXEL_FMT_YUYV, 4⟩ .zeroed
    (granting_lawful 32) (by decide)
  have hrequests : Requests (granting 32) ⟨"/dev/video0", 640, 480, .VF_PIXEL_FMT_YUYV, 4⟩ := by
    decide
  have hcount := (safe_iff (granting_lawful 32) _).mp hsafe hrequests
  exact absurd hcount (by decide)

end vision_flow.camera_buffers
