-- When the layout of a framebuffer is exact. `init_planes` computes in 32 bits, and
-- `vf_framebuffer_alloc` turns down a size of 0 and a format that it does not know, but no
-- size that is too large. So the layout is exact just where nothing wraps.
import VisionFlow.ConversionBounds

namespace vision_flow.framebuffer

open conversion (NoWrap)

/-! ## Exact layouts -/

/-- `fb` is laid out for its parameters as in exact arithmetic, and its memory has each
byte of a row, padding included. -/
structure ExactLayout (fb : vf_framebuffer_t) : Prop where
  num_planes : fb.num_planes = (planes fb.params).length
  line_size : ∀ i < fb.num_planes, fb.plane_line_size i = (plane_at (planes fb.params) i).line_size
  stride : ∀ i < fb.num_planes,
    IsLeast {s | 16 ∣ s ∧ fb.plane_line_size i ≤ s} (fb.plane_stride i)
  size : ∀ i < fb.num_planes, fb.plane_size i = fb.plane_stride i * fb.plane_height i
  total_size : fb.total_size = plane_start fb fb.num_planes
  covers : ∀ i < fb.num_planes, ∀ row < fb.plane_height i, ∀ col < fb.plane_stride i,
    byte_at fb i row col < fb.total_size

theorem Plane.stride_least (p : Plane) : IsLeast {s | 16 ∣ s ∧ p.line_size ≤ s} p.stride := by
  refine ⟨⟨Nat.dvd_mul_left _ _, p.line_le⟩, ?_⟩
  rintro s ⟨⟨k, rfl⟩, hk⟩
  unfold stride
  omega

/-! ## Layouts with exact planes -/

/-- The planes of the parameters, with a sum that fits, are an exact layout. -/
theorem Laid.exact {fb : vf_framebuffer_t} (hl : Laid fb (planes fb.params))
    (hsum : ((planes fb.params).map Plane.size).sum < 2 ^ 32) : ExactLayout fb := by
  have htotal : fb.total_size = plane_start fb fb.num_planes := by
    rw [hl.total_size, u32_of_lt hsum, hl.num_planes, plane_start_length hl.toArrays]
  refine ⟨hl.num_planes, fun i _ => hl.line_size i, ?_, ?_, htotal, ?_⟩
  · intro i _
    rw [hl.stride, hl.line_size]
    exact Plane.stride_least _
  · intro i _
    rw [hl.size_eq, Nat.mul_comm]
  · intro i hi row hrow col hcol
    have hbyte := byte_at_lt hl.toArrays hrow hcol
    have hmono := plane_start_mono fb (show i + 1 ≤ fb.num_planes from hi)
    omega

/-- In an exact layout with the heights of the parameters, the planes have their exact
sizes. -/
theorem ExactLayout.plane_size {fb : vf_framebuffer_t} (he : ExactLayout fb)
    (hheight : ∀ i, fb.plane_height i = (plane_at (planes fb.params) i).height) {i : Nat}
    (hi : i < fb.num_planes) : fb.plane_size i = (plane_at (planes fb.params) i).size := by
  have hst : fb.plane_stride i = (plane_at (planes fb.params) i).stride := by
    have h := he.stride i hi
    rw [he.line_size i hi] at h
    exact h.unique (Plane.stride_least _)
  rw [he.size i hi, hst, hheight, Plane.size]

theorem ExactLayout.total {fb : vf_framebuffer_t} (he : ExactLayout fb)
    (hheight : ∀ i, fb.plane_height i = (plane_at (planes fb.params) i).height) :
    fb.total_size = ((planes fb.params).map Plane.size).sum := by
  rw [he.total_size, plane_start, he.num_planes, ← map_plane_at (planes fb.params) Plane.size]
  congr 1
  apply List.map_congr_left
  intro i hi
  exact he.plane_size hheight (by rw [he.num_planes]; exact List.mem_range.mp hi)

/-! ## What the code computes for any size -/

/-- The rows and the heights of the code's planes, and a total size in 32 bits: these hold
with or without a wrap. -/
theorem init_planes.shape (fb : vf_framebuffer_t) (params : vf_fb_params_t)
    (hacc : Accepted params.format) :
    (init_planes fb params).1 = .VF_SUCCESS ∧ (init_planes fb params).2.params = fb.params ∧
      (∀ i, (init_planes fb params).2.plane_height i = (plane_at (planes params) i).height) ∧
      (init_planes fb params).2.plane_line_size 0 =
        (plane_at (code_planes params) 0).line_size ∧
      (init_planes fb params).2.total_size < 2 ^ 32 := by
  obtain ⟨w, h, format⟩ := params
  cases format with
  | VF_PIXEL_FMT_UNKNOWN => exact absurd rfl hacc.1
  | VF_PIXEL_FMT_MJPEG => exact absurd rfl hacc.2.1
  | VF_PIXEL_FMT_LAST => exact absurd rfl hacc.2.2
  | _ =>
    refine ⟨rfl, rfl, ?_, rfl, u32_lt _⟩
    rintro (_ | _ | _ | i) <;> rfl

theorem vf_framebuffer_alloc.accepted {fb : vf_framebuffer_t} {params : vf_fb_params_t}
    {malloc_ok : Bool} (hok : (vf_framebuffer_alloc fb params malloc_ok).1 = .VF_SUCCESS) :
    Accepted params.format ∧ 1 ≤ params.width ∧ 1 ≤ params.height := by
  obtain ⟨w, h, format⟩ := params
  unfold vf_framebuffer_alloc at hok
  split at hok
  · cases hok
  · rename_i hdim
    split at hok
    · cases hok
    · rename_i hfmt
      have hmjpeg : format ≠ .VF_PIXEL_FMT_MJPEG := by
        rintro rfl
        simp [init_planes] at hok
      refine ⟨⟨fun h => hfmt (Or.inl h), hmjpeg, fun h => hfmt (Or.inr h)⟩, ?_, ?_⟩
      · exact Nat.pos_of_ne_zero fun h => hdim (Or.inl h)
      · exact Nat.pos_of_ne_zero fun h => hdim (Or.inr h)

theorem vf_framebuffer_alloc.shape {fb : vf_framebuffer_t} {params : vf_fb_params_t}
    (hok : (vf_framebuffer_alloc fb params true).1 = .VF_SUCCESS) :
    (vf_framebuffer_alloc fb params true).2.params = params ∧
      (∀ i, (vf_framebuffer_alloc fb params true).2.plane_height i =
        (plane_at (planes params) i).height) ∧
      (vf_framebuffer_alloc fb params true).2.plane_line_size 0 =
        (plane_at (code_planes params) 0).line_size ∧
      (vf_framebuffer_alloc fb params true).2.total_size < 2 ^ 32 := by
  obtain ⟨hacc, hw, hh⟩ := vf_framebuffer_alloc.accepted hok
  obtain ⟨hrc, hp, hheight, hline, htotal⟩ :=
    init_planes.shape { zeroed with params := params } params hacc
  have hdim : ¬ (params.width = 0 ∨ params.height = 0) := by omega
  have hfmt : ¬ (params.format = .VF_PIXEL_FMT_UNKNOWN ∨ params.format = .VF_PIXEL_FMT_LAST) :=
    fun h => h.elim hacc.1 hacc.2.2
  simp only [vf_framebuffer_alloc, hdim, hfmt, hrc, if_false, ne_eq, not_true_eq_false,
    Bool.not_true, Bool.false_eq_true]
  exact ⟨hp, hheight, hline, htotal⟩

/-- A row that wraps is shorter than the exact row. -/
theorem row_no_wrap (params : vf_fb_params_t) (hacc : Accepted params.format)
    (h : (plane_at (code_planes params) 0).line_size =
      (plane_at (planes params) 0).line_size) :
    params.width * vf_pixel_fmt_bpp params.format < 2 ^ 32 := by
  obtain ⟨w, ht, format⟩ := params
  have packed (n : Nat) (hr : u32 (w * (8 * n)) / 8 = w * (8 * n) / 8) :
      w * (8 * n) < 2 ^ 32 := by
    have hlt := u32_lt (w * (8 * n))
    rw [Nat.mul_left_comm] at *
    omega
  cases format with
  | VF_PIXEL_FMT_UNKNOWN => exact absurd rfl hacc.1
  | VF_PIXEL_FMT_MJPEG => exact absurd rfl hacc.2.1
  | VF_PIXEL_FMT_LAST => exact absurd rfl hacc.2.2
  | VF_PIXEL_FMT_YUV420P => exact Nat.two_pow_pos 32
  | VF_PIXEL_FMT_NV12 => exact Nat.two_pow_pos 32
  | VF_PIXEL_FMT_RGB888 => exact packed 3 h
  | VF_PIXEL_FMT_BGR888 => exact packed 3 h
  | VF_PIXEL_FMT_RGBA8888 => exact packed 4 h
  | VF_PIXEL_FMT_RAW8 => exact packed 1 h
  | VF_PIXEL_FMT_YUYV => exact packed 2 h

/-! ## The law -/

/-- Of the sizes that the allocation takes, those without a wrap have an exact layout, and
no others. -/
theorem the_layout_is_exact_just_without_a_wrap (fb : vf_framebuffer_t)
    (params : vf_fb_params_t)
    (hok : (vf_framebuffer_alloc fb params true).1 = .VF_SUCCESS) :
    ExactLayout (vf_framebuffer_alloc fb params true).2 ↔ NoWrap params := by
  obtain ⟨hacc, hw, hh⟩ := vf_framebuffer_alloc.accepted hok
  obtain ⟨hp, hheight, hline, htotal⟩ := vf_framebuffer_alloc.shape hok
  constructor
  · intro he
    have hpos : 0 < (vf_framebuffer_alloc fb params true).2.num_planes := by
      obtain ⟨p, rest, hps, -⟩ := first_plane params hacc
      rw [he.num_planes, hp, hps]
      exact Nat.succ_pos _
    have hrow := he.line_size 0 hpos
    have hsum := he.total (by rwa [hp])
    rw [hp] at hrow hsum
    exact ⟨row_no_wrap params hacc (hline.symm.trans hrow), by rwa [← hsum]⟩
  · rintro ⟨hrow, hsum⟩
    have hfit : PlaneSizesFit params := conversion.NoWrap.fits ⟨hrow, hsum⟩
    obtain ⟨-, -, -, hl⟩ := vf_framebuffer_alloc.spec fb params hacc hw hh hfit
    rw [code_planes_eq params hrow] at hl
    apply Laid.exact
    · rwa [hp]
    · rwa [hp]

/-- A 640×480 YUYV frame, the camera's. -/
theorem a_camera_frame_has_an_exact_layout :
    ExactLayout (vf_framebuffer_alloc zeroed ⟨640, 480, .VF_PIXEL_FMT_YUYV⟩ true).2 := by
  apply (the_layout_is_exact_just_without_a_wrap zeroed ⟨640, 480, .VF_PIXEL_FMT_YUYV⟩ rfl).mpr
  exact ⟨by decide, by decide⟩

/-- A grey frame of 268435472 columns and 16 rows is accepted, and gets 256 bytes. -/
theorem a_large_frame_gets_a_small_memory :
    let fb := (vf_framebuffer_alloc zeroed ⟨268435472, 16, .VF_PIXEL_FMT_RAW8⟩ true).2
    (vf_framebuffer_alloc zeroed ⟨268435472, 16, .VF_PIXEL_FMT_RAW8⟩ true).1 = .VF_SUCCESS ∧
      fb.total_size = 256 ∧ byte_at fb 0 1 0 = 268435472 ∧ ¬ ExactLayout fb := by
  refine ⟨rfl, by decide, by decide, ?_⟩
  intro he
  exact absurd (he.covers 0 (by decide) 1 (by decide) 0 (by decide)) (by decide)

end vision_flow.framebuffer
