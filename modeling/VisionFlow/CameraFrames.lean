-- Where a captured frame lies in its framebuffer. The driver packs the rows tightly, and
-- `vf_camera_acquire_frame` copies them in one piece, but the framebuffer's rows are a
-- stride apart. So the pixels land in their places just where the two agree.
import VisionFlow.CameraReports

namespace vision_flow.vf_camera

open oracle framebuffer

/-! ## The copy -/

/-- Each byte of a tightly packed YUYV frame lies in its row and column. -/
def Lands (fb : vf_framebuffer_t) (w h : Nat) (bytes : Nat → UInt8) : Prop :=
  ∀ d, fb.data = some d → ∀ y < h, ∀ c < 2 * w,
    d (y * fb.plane_stride 0 + c) = bytes (y * (2 * w) + c)

/-- A capture that dequeues a buffer copies it. -/
theorem Capture.copied {camera : vf_camera_t} {fb : vf_framebuffer_t}
    {r : vf_err_t × vf_camera_t × vf_framebuffer_t} {l : List DriverEvent}
    (h : Capture camera fb r l) {q : Dequeue} (hq : dequeues camera l = [q]) :
    r.2.2 = memcpy fb q.bytes
      (if q.bytesused < fb.total_size then q.bytesused else fb.total_size) := by
  cases h with
  | not_ready ready _ => cases hq
  | tried ready a b buf l₁ l₂ _ hd hbuf hqb =>
    rw [capture_dequeues hd hqb] at hq
    by_cases hrc : a.rc = -1
    · rw [if_neg (not_not.mpr hrc)] at hq
      cases hq
    · rw [if_pos hrc] at hq
      rw [if_neg hrc] at hbuf
      cases hq
      rw [hbuf]

/-- A driver with one frame ready: the select, the dequeue and the queueing succeed. -/
def delivering (bytes : Nat → UInt8) (bytesused : Nat) : World Call Answer :=
  let answer := fun (rc : Int) (arg : v4l2_arg_t) => (⟨rc, 0, arg, fun _ => bytes⟩ : Answer)
  ⟨[answer 1 .zeroed, answer 0 { v4l2_arg_t.zeroed with bytesused := bytesused },
    answer 0 .zeroed], []⟩

/-- With this driver, a running camera dequeues the frame. -/
theorem acquire_delivering (camera : vf_camera_t) (fb : vf_framebuffer_t)
    (hs : camera.state = .VF_CAMERA_STATE_RUNNING) (bytes : Nat → UInt8) (bytesused : Nat) :
    ∃ r w, vf_camera_acquire_frame camera fb (delivering bytes bytesused) = some (r, w) ∧
      dequeues camera w.log = [⟨bytes, bytesused⟩] := by
  unfold vf_camera_acquire_frame
  rw [if_neg (not_not.mpr hs)]
  exact ⟨_, _, rfl, rfl⟩

/-! ## The stride of a YUYV frame -/

/-- The stride that the code computes. -/
def yuyv_stride (w : Nat) : Nat := u32 (u32 (w * 16) / 8 + 15) / 16 * 16

theorem yuyv_alloc (fb : vf_framebuffer_t) {w h : Nat} (hw : 1 ≤ w) (hh : 1 ≤ h) :
    (vf_framebuffer_alloc fb ⟨w, h, .VF_PIXEL_FMT_YUYV⟩ true).2.plane_stride 0 = yuyv_stride w ∧
      (vf_framebuffer_alloc fb ⟨w, h, .VF_PIXEL_FMT_YUYV⟩ true).2.total_size =
        u32 (yuyv_stride w * h) := by
  have hdim : ¬ (w = 0 ∨ h = 0) := by omega
  unfold yuyv_stride
  rw [← ALIGN_SIZE.spec]
  unfold vf_framebuffer_alloc
  rw [if_neg hdim]
  exact ⟨rfl, rfl⟩

/-- Without a wrap. -/
theorem yuyv_stride_eq {w : Nat} (hw : w < 2 ^ 28) : yuyv_stride w = (2 * w + 15) / 16 * 16 := by
  have e16 : u32 (w * 16) = w * 16 := u32_of_lt (by omega)
  have e8 : w * 16 / 8 = 2 * w := by omega
  unfold yuyv_stride
  rw [e16, e8, u32_of_lt (by omega)]

/-- A row that wraps has a stride shorter than it needs. -/
theorem yuyv_stride_lt {w : Nat} (hw : 2 ^ 28 ≤ w) :
    yuyv_stride w < 2 * w ∧ yuyv_stride w < 2 ^ 32 := by
  unfold yuyv_stride u32
  omega

/-- The sizes whose rows need no padding, or have no next row. From 2^28 columns on the row
itself wraps. -/
def RowsTouch (w h : Nat) : Prop := w < 2 ^ 28 ∧ (w % 8 = 0 ∨ h = 1)

instance (w h : Nat) : Decidable (RowsTouch w h) := inferInstanceAs (Decidable (_ ∧ _))

/-- For these sizes the stride and the copy are as long as they should be. -/
theorem rows_touch_spec {w h y c : Nat} (ht : RowsTouch w h) (hbytes : 2 * w * h < 2 ^ 32)
    (hy : y < h) (hc : c < 2 * w) :
    y * yuyv_stride w + c = y * (2 * w) + c ∧ y * yuyv_stride w + c < 2 * w * h ∧
      y * yuyv_stride w + c < u32 (yuyv_stride w * h) := by
  obtain ⟨hw, h8⟩ := ht
  have hrow : (y + 1) * (2 * w) ≤ h * (2 * w) := Nat.mul_le_mul_right _ hy
  rw [Nat.succ_mul, Nat.mul_comm h] at hrow
  have hst := yuyv_stride_eq hw
  rcases h8 with h8 | rfl
  · have hexact : yuyv_stride w = 2 * w := by omega
    rw [hexact, u32_of_lt hbytes]
    exact ⟨rfl, by omega, by omega⟩
  · obtain rfl : y = 0 := by omega
    rw [Nat.mul_one, u32_of_lt (by omega)]
    omega

/-- For other sizes there is a byte that the driver delivers and that is not copied to its
place: another one is, or none. -/
theorem rows_apart_spec {w h : Nat} (hw : 1 ≤ w) (hh : 1 ≤ h) (ht : ¬ RowsTouch w h) :
    ∃ y < h, ∃ c < 2 * w, y * yuyv_stride w + c ≠ y * (2 * w) + c ∨
      u32 (yuyv_stride w * h) ≤ y * yuyv_stride w + c := by
  unfold RowsTouch at ht
  by_cases hwrap : w < 2 ^ 28
  · have hst := yuyv_stride_eq hwrap
    refine ⟨1, by omega, 0, by omega, Or.inl ?_⟩
    omega
  · obtain ⟨hlt, hlt32⟩ := yuyv_stride_lt (Nat.le_of_not_lt hwrap)
    rcases Nat.lt_or_ge 1 h with h1 | h1
    · refine ⟨1, h1, 0, by omega, Or.inl ?_⟩
      omega
    · obtain rfl : h = 1 := by omega
      refine ⟨0, by omega, yuyv_stride w, hlt, Or.inr ?_⟩
      rw [Nat.mul_one, u32_of_lt hlt32]
      omega

/-! ## The law -/

/-- For every YUYV size that the allocation takes and a driver can deliver, and every earlier
content of the framebuffer: each delivered frame lands in its place just when the rows
touch. -/
theorem a_frame_lands_just_where_the_rows_touch (fb₀ : vf_framebuffer_t) (w h : Nat)
    (hbytes : 2 * w * h < 2 ^ 32)
    (hok : (vf_framebuffer_alloc fb₀ ⟨w, h, .VF_PIXEL_FMT_YUYV⟩ true).1 = .VF_SUCCESS)
    (d : Nat → UInt8) (camera : vf_camera_t) (hs : camera.state = .VF_CAMERA_STATE_RUNNING) :
    let fb := (vf_framebuffer_alloc fb₀ ⟨w, h, .VF_PIXEL_FMT_YUYV⟩ true).2.holding d
    (∀ driver r after l bytes, vf_camera_acquire_frame camera fb driver = some (r, after) →
        after.log = driver.log ++ l → dequeues camera l = [⟨bytes, 2 * w * h⟩] →
        Lands r.2.2 w h bytes) ↔
      RowsTouch w h := by
  have hdim : 1 ≤ w ∧ 1 ≤ h := by
    rcases Nat.eq_zero_or_pos w with rfl | hw1
    · cases hok
    · rcases Nat.eq_zero_or_pos h with rfl | hh1
      · simp [vf_framebuffer_alloc] at hok
      · exact ⟨hw1, hh1⟩
  obtain ⟨hst, htotal⟩ := yuyv_alloc fb₀ hdim.1 hdim.2
  intro fb
  have hst' : fb.plane_stride 0 = yuyv_stride w := hst
  have htotal' : fb.total_size = u32 (yuyv_stride w * h) := htotal
  have copied : ∀ {driver r after l bytes}, vf_camera_acquire_frame camera fb driver =
      some (r, after) → after.log = driver.log ++ l → dequeues camera l = [⟨bytes, 2 * w * h⟩] →
      r.2.2 = memcpy fb bytes (if 2 * w * h < fb.total_size then 2 * w * h else fb.total_size) := by
    intro driver r after l bytes hrun hlog hq
    obtain ⟨l', hl', hspec⟩ := vf_camera_acquire_frame.spec camera fb driver r after hrun
    have he : l = l' := List.append_cancel_left (hlog.symm.trans hl')
    subst he
    rcases hspec with ⟨hne, -, -⟩ | ⟨-, hc⟩
    · exact absurd hs hne
    · exact hc.copied hq
  constructor
  · intro hall
    by_contra ht
    obtain ⟨y, hy, c, hc, hbad⟩ := rows_apart_spec hdim.1 hdim.2 ht
    -- a frame with another byte there than the framebuffer has in that place
    let place := y * yuyv_stride w + c
    let other : UInt8 := if d place = 0 then 1 else 0
    have hother : other ≠ d place := by
      by_cases h0 : d place = 0
      · simp [other, h0]
      · simp only [other, if_neg h0]
        exact fun h => h0 h.symm
    let bytes : Nat → UInt8 := fun a => if a = y * (2 * w) + c then other else d place
    obtain ⟨r, after, hrun, hq⟩ := acquire_delivering camera fb hs bytes (2 * w * h)
    have hlands := hall _ r after after.log bytes hrun rfl hq
    rw [copied hrun rfl hq] at hlands
    have hbyte : (if place < if 2 * w * h < fb.total_size then 2 * w * h else fb.total_size
        then bytes place else d place) = bytes (y * (2 * w) + c) := by
      rw [← hlands _ rfl y hy c hc]
      have : place = y * fb.plane_stride 0 + c := by rw [hst']
      rw [this]
      rfl
    have hexp : bytes (y * (2 * w) + c) = other := if_pos rfl
    rw [hexp] at hbyte
    rcases hbad with hne | hpast
    · have hplace : bytes place = d place := if_neg hne
      rw [hplace, ite_self] at hbyte
      exact hother hbyte.symm
    · rw [if_neg] at hbyte
      · exact hother hbyte.symm
      · rw [htotal']
        split <;> omega
  · intro ht driver r after l bytes hrun hlog hq
    rw [copied hrun hlog hq]
    intro d' hd' y hy c hc
    obtain ⟨he, h1, h2⟩ := rows_touch_spec ht hbytes hy hc
    cases hd'
    have hcopied : y * yuyv_stride w + c <
        if 2 * w * h < fb.total_size then 2 * w * h else fb.total_size := by
      rw [htotal']
      split
      · exact h1
      · exact h2
    calc (if y * fb.plane_stride 0 + c <
            if 2 * w * h < fb.total_size then 2 * w * h else fb.total_size
          then bytes (y * fb.plane_stride 0 + c) else d (y * fb.plane_stride 0 + c))
        = bytes (y * yuyv_stride w + c) := by rw [hst', if_pos hcopied]
      _ = bytes (y * (2 * w) + c) := by rw [he]

/-- A camera that streams. -/
def streaming_camera : vf_camera_t :=
  { vf_camera_t.zeroed with state := .VF_CAMERA_STATE_RUNNING, fd := 3 }

/-- Frames of 640×480 pixels, as the service takes them. -/
theorem a_service_frame_lands :
    let fb := (vf_framebuffer_alloc zeroed ⟨640, 480, .VF_PIXEL_FMT_YUYV⟩ true).2
    ∃ r after, vf_camera_acquire_frame streaming_camera (fb.holding fun _ => 0)
        (delivering (fun a => a.toUInt8) (2 * 640 * 480)) = some (r, after) ∧
      Lands r.2.2 640 480 fun a => a.toUInt8 := by
  intro fb
  obtain ⟨r, after, hrun, hq⟩ := acquire_delivering streaming_camera (fb.holding fun _ => 0) rfl
    (fun a => a.toUInt8) (2 * 640 * 480)
  refine ⟨r, after, hrun, ?_⟩
  exact (a_frame_lands_just_where_the_rows_touch zeroed 640 480 (by decide) rfl (fun _ => 0)
    streaming_camera rfl).mpr (by decide) _ r after after.log _ hrun rfl hq

/-- A frame of 2×2 pixels: the second row comes from byte 4 and belongs at byte 16, and stays
behind the first row, in the padding. -/
theorem a_small_frame_is_sheared :
    let fb := (vf_framebuffer_alloc zeroed ⟨2, 2, .VF_PIXEL_FMT_YUYV⟩ true).2
    ∃ r after, vf_camera_acquire_frame streaming_camera (fb.holding fun _ => 0)
        (delivering (fun a => a.toUInt8) (2 * 2 * 2)) = some (r, after) ∧
      r.1 = .VF_SUCCESS ∧ fb.plane_stride 0 = 16 ∧
      (r.2.2.data.map fun d => (d 4, d 16)) = some (4, 0) ∧
      ¬ Lands r.2.2 2 2 fun a => a.toUInt8 := by
  refine ⟨_, _, rfl, rfl, by decide, by decide, ?_⟩
  intro hlands
  exact absurd (hlands _ rfl 1 (by decide) 0 (by decide)) (by decide)

end vision_flow.vf_camera
