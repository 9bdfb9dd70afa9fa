-- The checked code of the camera against the camera layer. As long as no access is refused
-- and no call is interrupted, a function makes the same calls as the one of the camera layer,
-- and returns the same error, camera and frame.
import VisionFlow.CameraMemory
import VisionFlow.Lib.InStep

namespace vision_flow.camera_calls

open c_memory oracle in_step camera_memory framebuffer
open vf_camera (Call Request v4l2_arg_t Answer vf_camera_t vf_camera_cfg_t vf_camera_buffer_t
  interrupted)

/-! ## The parts of a call -/

section
variable {driver : Driver} {m : Mem}

theorem follows_sys (c : Call) :
    Follows Mem.log m (sys driver c) (ask c) fun a m' b => b = a ∧ m'.camera = m.camera := by
  intro a m' hrun
  cases hrun
  exact ⟨[⟨c, driver m.log c⟩], _, rfl, fun rest before => rfl, rfl, rfl⟩

section
variable {α β : Type} {q : Prog Call Answer β} {P : α → Mem → β → Prop}

theorem follows_get {f : vf_camera_t → Code α} (h : Follows Mem.log m (f m.camera) q P) :
    Follows Mem.log m (camera_memory.get >>= f) q P := by
  apply follows_reads
  intro camera hcamera
  cases hcamera
  exact h

theorem follows_put {f : Unit → Code α} {change : vf_camera_t → vf_camera_t}
    (h : Follows Mem.log ⟨change m.camera, m.log⟩ (f ()) q P) :
    Follows Mem.log m (put change >>= f) q P := by
  apply follows_writes
  intro m' hm'
  cases hm'
  exact ⟨rfl, h⟩

theorem follows_load {i : Nat} {f : vf_camera_buffer_t → Code α}
    (h : Follows Mem.log m (f (m.camera.buffers i)) q P) :
    Follows Mem.log m (load i >>= f) q P := by
  apply follows_reads
  intro b hb
  split at hb
  · cases hb
    exact h
  · cases hb

theorem follows_store {i : Nat} {f : Unit → Code α}
    {change : vf_camera_buffer_t → vf_camera_buffer_t}
    (h : Follows Mem.log (m.set_buffer i (change (m.camera.buffers i))) (f ()) q P) :
    Follows Mem.log m (store i change >>= f) q P := by
  apply follows_writes
  intro m' hm'
  split at hm'
  · cases hm'
    exact ⟨rfl, h⟩
  · cases hm'

theorem follows_need_mapped {start : Int} {f : Unit → Code α} (h : Follows Mem.log m (f ()) q P) :
    Follows Mem.log m (need_mapped start >>= f) q P := by
  apply follows_reads
  intro u _
  exact h

end

/-- No call is interrupted. -/
def NotInterrupted (driver : Driver) : Prop := ∀ log c, interrupted (driver log c) = false

theorem follows_ioctl (hno : NotInterrupted driver) (fd : Int) (request : Request)
    (arg : v4l2_arg_t) :
    Follows Mem.log m (camera_ioctl driver fd request arg) (vf_camera.camera_ioctl fd request arg)
      fun a m' b => b = a ∧ m'.camera = m.camera := by
  have hask : Follows Mem.log m (sys driver (.ioctl fd request arg))
      (ask_until interrupted (.ioctl fd request arg))
      fun a m' b => b = a ∧ m'.camera = m.camera := by
    intro a m' hrun
    cases hrun
    have hgo := hno m.log (.ioctl fd request arg)
    refine ⟨[⟨_, driver m.log (.ioctl fd request arg)⟩], _, rfl, fun rest before => ?_, rfl, rfl⟩
    simp only [ask_until, List.map_cons, List.map_nil, List.singleton_append, ask_until_from, hgo]
    rfl
  unfold camera_memory.camera_ioctl vf_camera.camera_ioctl
  apply follows_bind hask
  rintro a m' b ⟨rfl, hm⟩
  apply follows_ite
  · intro _
    exact follows_pure ⟨rfl, hm⟩
  · intro _
    exact follows_pure ⟨rfl, hm⟩

/-! ## The loops -/

theorem munmap_follows (b : vf_camera_buffer_t) :
    Follows Mem.log m (munmap driver b) (ask (.munmap b.start b.length))
      fun _ m' _ => m'.camera = m.camera := by
  intro u m' hrun
  have hmem : (b.start, b.length) ∈ mapped m.log := by
    by_contra hnot
    have hfault : reads (fun m : Mem =>
        if (b.start, b.length) ∈ mapped m.log then some () else none) m = none := by
      simp [reads, hnot]
    rw [munmap, run_bind, hfault] at hrun
    cases hrun
  rw [munmap.spec driver hmem] at hrun
  cases hrun
  exact ⟨[⟨_, driver m.log (.munmap b.start b.length)⟩], _, rfl, fun rest before => rfl, rfl⟩

theorem unmap_from_follows (n i : Nat) :
    Follows Mem.log m (unmap_from driver i n) (vf_camera.unmap_from m.camera.buffers i n)
      fun _ m' b => m'.camera = { m.camera with buffers := b } := by
  induction n generalizing i m with
  | zero => exact follows_pure rfl
  | succ n ih =>
    rw [camera_memory.unmap_from, vf_camera.unmap_from]
    apply follows_load
    apply follows_ite
    · intro _
      apply follows_bind (munmap_follows _)
      intro u m1 a hm1
      apply follows_store
      have hrest := ih (m := m1.set_buffer i { m1.camera.buffers i with start := vf_camera.NULL })
        (i + 1)
      rw [Mem.set_buffer, hm1] at hrest ⊢
      exact hrest
    · intro _
      exact ih (i + 1)

theorem map_from_follows (hno : NotInterrupted driver) (n i : Nat) :
    Follows Mem.log m (map_from driver i n)
      (vf_camera.map_from m.camera.fd m.camera.buffers i n)
      fun err m' r => r.1 = err ∧ m'.camera = { m.camera with buffers := r.2 } := by
  induction n generalizing i m with
  | zero => exact follows_pure ⟨rfl, rfl⟩
  | succ n ih =>
    rw [camera_memory.map_from, vf_camera.map_from]
    apply follows_get
    apply follows_bind (follows_ioctl hno _ _ _)
    rintro ⟨err, mmap_buf, bytes⟩ m1 _ ⟨rfl, hm1⟩
    apply follows_ite
    · intro _
      exact follows_pure ⟨rfl, hm1⟩
    · intro _
      apply follows_store
      apply follows_bind (follows_sys _)
      rintro _ m2 start ⟨rfl, hm2⟩
      apply follows_store
      have hcamera : (m2.set_buffer i { m2.camera.buffers i with start := start.rc }).camera =
          { m.camera with
            buffers := Function.update m.camera.buffers i ⟨start.rc, mmap_buf.length⟩ } := by
        simp [Mem.set_buffer, hm2, hm1]
      apply follows_ite
      · intro _
        exact follows_pure ⟨rfl, hcamera⟩
      · intro _
        have hrest := ih (m := m2.set_buffer i { m2.camera.buffers i with start := start.rc })
          (i + 1)
        rw [hcamera] at hrest
        exact hrest

theorem queue_from_follows (hno : NotInterrupted driver) (fd : Int) (n : Nat) (buf : v4l2_arg_t)
    (i : Nat) :
    Follows Mem.log m (queue_from driver fd buf i n) (vf_camera.queue_from fd buf i n)
      fun err m' err' => err' = err ∧ m'.camera = m.camera := by
  induction n generalizing buf i m with
  | zero => exact follows_pure ⟨rfl, rfl⟩
  | succ n ih =>
    rw [camera_memory.queue_from, vf_camera.queue_from]
    apply follows_bind (follows_ioctl hno _ _ _)
    rintro ⟨err, buf, bytes⟩ m1 _ ⟨rfl, hm1⟩
    apply follows_ite
    · intro _
      exact follows_pure ⟨rfl, hm1⟩
    · intro _
      rw [← hm1]
      exact ih buf (i + 1)

/-! ## The functions -/

/-- The error and the camera that the camera layer returns. -/
def Returned (err : vf_err_t) (m : Mem) (r : vf_err_t × vf_camera_t) : Prop :=
  r = (err, m.camera)

theorem close_fd_follows {camera : vf_camera_t} (h : m.camera = camera) (err : vf_err_t) :
    Follows Mem.log m (close_fd driver err) (vf_camera.close_fd camera err) Returned := by
  subst h
  unfold camera_memory.close_fd vf_camera.close_fd
  apply follows_get
  apply follows_bind (follows_sys _)
  rintro a m1 _ ⟨rfl, hm1⟩
  apply follows_put
  rw [hm1]
  exact follows_pure rfl

theorem unmap_buffers_follows {camera : vf_camera_t} (h : m.camera = camera) (err : vf_err_t) :
    Follows Mem.log m (unmap_buffers driver err) (vf_camera.unmap_buffers camera err) Returned := by
  subst h
  unfold camera_memory.unmap_buffers vf_camera.unmap_buffers
  apply follows_get
  apply follows_bind (unmap_from_follows _ _)
  intro u m1 buffers hm1
  exact close_fd_follows hm1 err

theorem start_follows (hno : NotInterrupted driver) :
    Follows Mem.log m (vf_camera_start driver) (vf_camera.vf_camera_start m.camera) Returned := by
  unfold camera_memory.vf_camera_start vf_camera.vf_camera_start
  apply follows_get
  apply follows_ite
  · intro _
    exact follows_pure rfl
  · intro _
    apply follows_bind (follows_ioctl hno _ _ _)
    rintro ⟨err, -⟩ m1 _ ⟨rfl, hm1⟩
    rw [← hm1]
    apply follows_ite
    · intro _
      exact follows_put (follows_pure rfl)
    · intro _
      exact follows_put (follows_pure rfl)

theorem stop_follows (hno : NotInterrupted driver) :
    Follows Mem.log m (vf_camera_stop driver) (vf_camera.vf_camera_stop m.camera) Returned := by
  unfold camera_memory.vf_camera_stop vf_camera.vf_camera_stop
  apply follows_get
  apply follows_ite
  · intro _
    exact follows_pure rfl
  · intro _
    apply follows_bind (follows_ioctl hno _ _ _)
    rintro ⟨err, -⟩ m1 _ ⟨rfl, hm1⟩
    rw [← hm1]
    apply follows_ite
    · intro _
      exact follows_put (follows_pure rfl)
    · intro _
      exact follows_put (follows_pure rfl)

theorem stop_if_running_follows (hno : NotInterrupted driver) :
    Follows Mem.log m (stop_if_running driver) (vf_camera.stop_if_running m.camera) Returned := by
  unfold camera_memory.stop_if_running vf_camera.stop_if_running
  apply follows_get
  apply follows_ite
  · intro _
    exact stop_follows hno
  · intro _
    exact follows_pure rfl

theorem deinit_follows (hno : NotInterrupted driver) :
    Follows Mem.log m (vf_camera_deinit driver) (vf_camera.vf_camera_deinit m.camera) Returned := by
  unfold camera_memory.vf_camera_deinit vf_camera.vf_camera_deinit
  apply follows_get
  apply follows_ite
  · intro _
    exact follows_pure rfl
  · intro _
    apply follows_bind (stop_if_running_follows hno)
    rintro err m1 _ rfl
    apply follows_ite
    · intro _
      exact follows_pure rfl
    · intro _
      apply follows_get
      apply follows_bind (unmap_from_follows _ _)
      intro u m2 buffers hm2
      apply follows_bind (follows_sys _)
      rintro a m3 _ ⟨rfl, hm3⟩
      apply follows_put
      rw [hm3, hm2]
      exact follows_pure rfl

/-- The frame is the same too. -/
theorem acquire_frame_follows (hno : NotInterrupted driver) (fb : vf_framebuffer_t) :
    Follows Mem.log m (vf_camera_acquire_frame driver fb)
      (vf_camera.vf_camera_acquire_frame m.camera fb)
      fun a m' r => r = (a.1, m'.camera, a.2) := by
  unfold camera_memory.vf_camera_acquire_frame vf_camera.vf_camera_acquire_frame
  apply follows_get
  apply follows_ite
  · intro _
    exact follows_pure rfl
  · intro _
    apply follows_bind (follows_sys _)
    rintro _ m1 ready ⟨rfl, hm1⟩
    rw [← hm1]
    apply follows_ite
    · intro _
      exact follows_pure rfl
    · intro _
      apply follows_ite
      · intro _
        exact follows_pure rfl
      · intro _
        apply follows_bind (follows_ioctl hno _ _ _)
        rintro ⟨err, buf, bytes⟩ m2 _ ⟨rfl, hm2⟩
        rw [← hm2]
        apply follows_ite
        · intro _
          exact follows_pure rfl
        · intro _
          apply follows_load
          apply follows_need_mapped
          apply follows_put
          apply follows_bind (follows_ioctl hno _ _ _)
          rintro ⟨err', -⟩ m3 _ ⟨rfl, hm3⟩
          apply follows_ite
          · intro _
            exact follows_pure (by rw [hm3])
          · intro _
            exact follows_pure (by rw [hm3])

/-- The part of the init from the request for buffers on. -/
theorem request_buffers_follows (hno : NotInterrupted driver) {camera : vf_camera_t}
    (h : m.camera = camera) (cfg : vf_camera_cfg_t) :
    Follows Mem.log m (request_buffers driver camera.fd cfg)
      (do
        let (err, req, _) ← vf_camera.camera_ioctl camera.fd .VIDIOC_REQBUFS
          { v4l2_arg_t.zeroed with count := cfg.buffer_count }
        if err ≠ .VF_SUCCESS then
          vf_camera.close_fd camera err
        else if req.count = 0 then
          vf_camera.close_fd camera .VF_OOM
        else
          let camera := { camera with buffer_count := req.count }
          let (err, buffers) ← vf_camera.map_from camera.fd camera.buffers 0 camera.buffer_count
          let camera := { camera with buffers := buffers }
          if err ≠ .VF_SUCCESS then
            vf_camera.unmap_buffers camera err
          else
            let err ← vf_camera.queue_from camera.fd .zeroed 0 camera.buffer_count
            if err ≠ .VF_SUCCESS then
              vf_camera.unmap_buffers camera err
            else
              return (.VF_SUCCESS, camera)) Returned := by
  subst h
  unfold request_buffers
  apply follows_bind (follows_ioctl hno _ _ _)
  rintro ⟨err, req, -⟩ m1 _ ⟨rfl, hm1⟩
  apply follows_ite
  · intro _
    exact close_fd_follows hm1 _
  · intro _
    apply follows_ite
    · intro _
      exact close_fd_follows hm1 _
    · intro _
      apply follows_put
      unfold map_and_queue
      apply follows_get
      rw [hm1]
      apply follows_bind (map_from_follows hno _ _)
      rintro err m2 ⟨err', buffers⟩ ⟨herr, hm2⟩
      obtain rfl : err' = err := herr
      apply follows_ite
      · intro _
        exact unmap_buffers_follows hm2 _
      · intro _
        apply follows_bind (queue_from_follows hno _ _ _ _)
        rintro err m3 _ ⟨rfl, hm3⟩
        have hcamera := hm3.trans hm2
        apply follows_ite
        · intro _
          exact unmap_buffers_follows hcamera _
        · intro _
          exact follows_pure (by rw [Returned, hcamera])

/-- The init makes the calls of the camera layer, and returns its error and its camera. -/
theorem init_follows (hno : NotInterrupted driver) (cfg : vf_camera_cfg_t) :
    Follows Mem.log m (vf_camera_init driver cfg) (vf_camera.vf_camera_init m.camera cfg)
      Returned := by
  unfold camera_memory.vf_camera_init vf_camera.vf_camera_init
  apply follows_ite
  · intro _
    exact follows_pure rfl
  · intro _
    apply follows_bind (follows_sys _)
    rintro _ m1 fd ⟨rfl, -⟩
    apply follows_put
    apply follows_ite
    · intro _
      exact follows_pure rfl
    · intro _
      apply follows_bind (follows_ioctl hno _ _ _)
      rintro ⟨err, cap, -⟩ m2 _ ⟨rfl, hm2⟩
      apply follows_ite
      · intro _
        exact close_fd_follows hm2 _
      · intro _
        apply follows_ite
        · intro _
          exact close_fd_follows hm2 _
        · intro _
          apply follows_ite
          · intro _
            exact close_fd_follows hm2 _
          · intro _
            apply follows_bind (follows_ioctl hno _ _ _)
            rintro ⟨err, -⟩ m3 _ ⟨rfl, hm3⟩
            have hcamera := hm3.trans hm2
            apply follows_ite
            · intro _
              exact close_fd_follows hcamera _
            · intro _
              exact request_buffers_follows hno hcamera cfg

end
end vision_flow.camera_calls
