-- The framebuffer (vf-framebuffer.c): where the planes of a frame lie in its memory.
-- The code computes the layout in 32 bits. With planes that fit in 32 bits, each row
-- fits in its stride, and each plane ends where the next one begins.
import VisionFlow.Common

namespace vision_flow.framebuffer

/-! ## The code -/

def VF_FB_MAX_PLANE_COUNT : Nat := 4
def VF_FB_STRIDE_ALIGN : Nat := 16

structure vf_fb_params_t where
  width : Nat
  height : Nat
  format : vf_pixel_fmt_t
  deriving DecidableEq

/-- `data` is the memory from the base pointer on, or `none` for NULL. The arrays are
functions of the plane. -/
structure vf_framebuffer_t where
  data : Option (Nat → UInt8)
  total_size : Nat
  owns_memory : Nat
  params : vf_fb_params_t
  num_planes : Nat
  plane_width : Nat → Nat
  plane_height : Nat → Nat
  plane_line_size : Nat → Nat
  plane_stride : Nat → Nat
  plane_size : Nat → Nat
  ref_count : Nat

/-- A framebuffer after the `memset` to 0. -/
def zeroed : vf_framebuffer_t :=
  { data := none, total_size := 0, owns_memory := 0, params := ⟨0, 0, .VF_PIXEL_FMT_UNKNOWN⟩,
    num_planes := 0, plane_width := fun _ => 0, plane_height := fun _ => 0,
    plane_line_size := fun _ => 0, plane_stride := fun _ => 0, plane_size := fun _ => 0,
    ref_count := 0 }

/-- `VF_BPP_INVALID` is 0. -/
def vf_pixel_fmt_bpp : vf_pixel_fmt_t → Nat
  | .VF_PIXEL_FMT_RAW8 => 8
  | .VF_PIXEL_FMT_YUYV => 16
  | .VF_PIXEL_FMT_RGB888 => 24
  | .VF_PIXEL_FMT_BGR888 => 24
  | .VF_PIXEL_FMT_RGBA8888 => 32
  | _ => 0

/-- `(x + (y - 1U)) & ~(y - 1U)`. -/
def ALIGN_SIZE (x y : Nat) : Nat := u32 (x + u32_sub y 1) &&& (2 ^ 32 - 1 - u32_sub y 1)

def reset_plane_info (fb : vf_framebuffer_t) : vf_framebuffer_t :=
  { fb with
    plane_width := fun _ => 0, plane_height := fun _ => 0, plane_line_size := fun _ => 0,
    plane_stride := fun _ => 0, plane_size := fun _ => 0, num_planes := 0, total_size := 0 }

/-- The five lines that fill plane `i`, the same in each layout. -/
def set_plane (fb : vf_framebuffer_t) (i width height line_size : Nat) : vf_framebuffer_t :=
  let stride := ALIGN_SIZE line_size VF_FB_STRIDE_ALIGN
  { fb with
    plane_width := Function.update fb.plane_width i width
    plane_height := Function.update fb.plane_height i height
    plane_line_size := Function.update fb.plane_line_size i line_size
    plane_stride := Function.update fb.plane_stride i stride
    plane_size := Function.update fb.plane_size i (u32 (stride * height)) }

def init_planes_packed (fb : vf_framebuffer_t) (params : vf_fb_params_t) : vf_framebuffer_t :=
  let bpp := vf_pixel_fmt_bpp params.format
  if bpp = 0 then
    fb
  else
    let fb := set_plane { fb with num_planes := 1 } 0 params.width params.height
      (u32 (params.width * bpp) / 8)
    { fb with total_size := fb.plane_size 0 }

def init_planes_yuv420p (fb : vf_framebuffer_t) (params : vf_fb_params_t) : vf_framebuffer_t :=
  let fb := set_plane { fb with num_planes := 3 } 0 params.width params.height params.width
  let fb := set_plane fb 1 (params.width / 2) (params.height / 2) (params.width / 2)
  let fb := set_plane fb 2 (params.width / 2) (params.height / 2) (params.width / 2)
  { fb with total_size := u32 (fb.plane_size 0 + fb.plane_size 1 + fb.plane_size 2) }

def init_planes_nv12 (fb : vf_framebuffer_t) (params : vf_fb_params_t) : vf_framebuffer_t :=
  let fb := set_plane { fb with num_planes := 2 } 0 params.width params.height params.width
  let fb := set_plane fb 1 params.width (params.height / 2) params.width
  { fb with total_size := u32 (fb.plane_size 0 + fb.plane_size 1) }

def init_planes (fb : vf_framebuffer_t) (params : vf_fb_params_t) : vf_err_t × vf_framebuffer_t :=
  let fb := reset_plane_info fb
  match params.format with
  | .VF_PIXEL_FMT_RGB888 => (.VF_SUCCESS, init_planes_packed fb params)
  | .VF_PIXEL_FMT_BGR888 => (.VF_SUCCESS, init_planes_packed fb params)
  | .VF_PIXEL_FMT_RGBA8888 => (.VF_SUCCESS, init_planes_packed fb params)
  | .VF_PIXEL_FMT_RAW8 => (.VF_SUCCESS, init_planes_packed fb params)
  | .VF_PIXEL_FMT_YUYV => (.VF_SUCCESS, init_planes_packed fb params)
  | .VF_PIXEL_FMT_YUV420P => (.VF_SUCCESS, init_planes_yuv420p fb params)
  | .VF_PIXEL_FMT_NV12 => (.VF_SUCCESS, init_planes_nv12 fb params)
  | _ => (.VF_INVALID_PARAMETER, fb)

/-- `malloc_ok` says if `malloc` grants the memory. -/
def vf_framebuffer_alloc (fb : vf_framebuffer_t) (params : vf_fb_params_t) (malloc_ok : Bool) :
    vf_err_t × vf_framebuffer_t :=
  if params.width = 0 ∨ params.height = 0 then
    (.VF_INVALID_PARAMETER, fb)
  else if params.format = .VF_PIXEL_FMT_UNKNOWN ∨ params.format = .VF_PIXEL_FMT_LAST then
    (.VF_INVALID_PARAMETER, fb)
  else
    let (rc, fb) := init_planes { zeroed with params := params } params
    if rc ≠ .VF_SUCCESS then
      (rc, fb)
    else if !malloc_ok then
      (.VF_OOM, fb)
    else
      (.VF_SUCCESS, { fb with data := some fun _ => 0, owns_memory := 1 })

/-- The frame with other bytes. -/
def vf_framebuffer_t.holding (fb : vf_framebuffer_t) (data : Nat → UInt8) : vf_framebuffer_t :=
  { fb with data := some data }

/-! ## The planes of a frame -/

structure Plane where
  width : Nat
  height : Nat
  line_size : Nat

def Plane.stride (p : Plane) : Nat := (p.line_size + 15) / 16 * 16
def Plane.size (p : Plane) : Nat := p.stride * p.height

/-- The planes of a frame, where `cut` is what happens to the bits of a packed row. -/
def planes_with (cut : Nat → Nat) (params : vf_fb_params_t) : List Plane :=
  let w := params.width
  let h := params.height
  match params.format with
  | .VF_PIXEL_FMT_YUV420P => [⟨w, h, w⟩, ⟨w / 2, h / 2, w / 2⟩, ⟨w / 2, h / 2, w / 2⟩]
  | .VF_PIXEL_FMT_NV12 => [⟨w, h, w⟩, ⟨w, h / 2, w⟩]
  | f => if vf_pixel_fmt_bpp f = 0 then [] else [⟨w, h, cut (w * vf_pixel_fmt_bpp f) / 8⟩]

/-- The planes in exact arithmetic. -/
def planes (params : vf_fb_params_t) : List Plane := planes_with id params

/-- Each plane's exact size fits in `uint32_t`. -/
def PlaneSizesFit (params : vf_fb_params_t) : Prop := ∀ p ∈ planes params, p.size < 2 ^ 32

instance (params : vf_fb_params_t) : Decidable (PlaneSizesFit params) :=
  inferInstanceAs (Decidable (∀ p ∈ planes params, p.size < 2 ^ 32))

/-- Plane `i`, or an empty plane past the last one. -/
def plane_at (ps : List Plane) (i : Nat) : Plane := ps[i]?.getD ⟨0, 0, 0⟩

/-- The formats that `init_planes` takes. -/
def Accepted (format : vf_pixel_fmt_t) : Prop :=
  format ≠ .VF_PIXEL_FMT_UNKNOWN ∧ format ≠ .VF_PIXEL_FMT_MJPEG ∧ format ≠ .VF_PIXEL_FMT_LAST

instance (format : vf_pixel_fmt_t) : Decidable (Accepted format) :=
  inferInstanceAs (Decidable (_ ∧ _ ∧ _))

/-- The plane arrays of `fb` are the planes `ps`. -/
structure Arrays (fb : vf_framebuffer_t) (ps : List Plane) : Prop where
  width : ∀ i, fb.plane_width i = (plane_at ps i).width
  height : ∀ i, fb.plane_height i = (plane_at ps i).height
  line_size : ∀ i, fb.plane_line_size i = (plane_at ps i).line_size
  stride : ∀ i, fb.plane_stride i = (plane_at ps i).stride
  size : ∀ i, fb.plane_size i = (plane_at ps i).size

/-- `fb` has the planes `ps`, and their sizes added up in 32 bits. -/
structure Laid (fb : vf_framebuffer_t) (ps : List Plane) : Prop extends Arrays fb ps where
  num_planes : fb.num_planes = ps.length
  total_size : fb.total_size = u32 (ps.map Plane.size).sum

/-! ## Arithmetic of a row -/

theorem ALIGN_SIZE.spec (x : Nat) : ALIGN_SIZE x VF_FB_STRIDE_ALIGN = u32 (x + 15) / 16 * 16 :=
  and_high_bits (u32 (x + 15)) 4 (u32_lt _)

theorem Plane.line_le (p : Plane) : p.line_size ≤ p.stride := by
  unfold Plane.stride
  omega

/-- A stride that fits in 32 bits is what the macro computes. -/
theorem Plane.stride_eq (p : Plane) (h : p.stride < 2 ^ 32) :
    ALIGN_SIZE p.line_size VF_FB_STRIDE_ALIGN = p.stride := by
  have hadd : p.line_size + 15 < 2 ^ 32 := by
    unfold Plane.stride at h
    omega
  rw [ALIGN_SIZE.spec, u32_of_lt hadd, Plane.stride]

/-- A plane with a smaller row is smaller. -/
theorem Plane.stride_mono {p q : Plane} (h : p.line_size ≤ q.line_size) :
    p.stride ≤ q.stride := by
  unfold Plane.stride
  omega

theorem Plane.size_mono {p q : Plane} (hl : p.line_size ≤ q.line_size)
    (hh : p.height ≤ q.height) : p.size ≤ q.size :=
  Nat.mul_le_mul (stride_mono hl) hh

theorem Plane.stride_le_size {p : Plane} (h : 1 ≤ p.height) : p.stride ≤ p.size :=
  Nat.le_mul_of_pos_right _ h

/-! ## The specs -/

theorem plane_at_append (ps : List Plane) (p : Plane) (i : Nat) :
    plane_at (ps ++ [p]) i = if i = ps.length then p else plane_at ps i := by
  unfold plane_at
  by_cases hi : i < ps.length
  · rw [List.getElem?_append_left hi, if_neg (by omega)]
  · by_cases he : i = ps.length
    · simp [he]
    · rw [List.getElem?_append_right (by omega), if_neg he,
        List.getElem?_eq_none (by simp; omega), List.getElem?_eq_none (by omega)]

/-- One more plane, that fits: the code computes it exactly. -/
theorem set_plane.spec {fb : vf_framebuffer_t} {ps : List Plane} (h : Arrays fb ps) (p : Plane)
    (hst : p.stride < 2 ^ 32) (hsz : p.size < 2 ^ 32) :
    Arrays (set_plane fb ps.length p.width p.height p.line_size) (ps ++ [p]) := by
  have hu : u32 (p.stride * p.height) = p.size := u32_of_lt hsz
  have hall : ∀ i, plane_at (ps ++ [p]) i = if i = ps.length then p else plane_at ps i :=
    plane_at_append ps p
  refine ⟨?_, ?_, ?_, ?_, ?_⟩
  · intro i
    by_cases hi : i = ps.length <;> simp [set_plane, hall, hi, h.width]
  · intro i
    by_cases hi : i = ps.length <;> simp [set_plane, hall, hi, h.height]
  · intro i
    by_cases hi : i = ps.length <;> simp [set_plane, hall, hi, h.line_size]
  · intro i
    by_cases hi : i = ps.length <;> simp [set_plane, hall, hi, h.stride, p.stride_eq hst]
  · intro i
    by_cases hi : i = ps.length <;> simp [set_plane, hall, hi, h.size, p.stride_eq hst, hu]

theorem reset_arrays (fb : vf_framebuffer_t) : Arrays (reset_plane_info fb) [] := by
  refine ⟨?_, ?_, ?_, ?_, ?_⟩ <;>
    intro i <;> simp [reset_plane_info, plane_at, Plane.stride, Plane.size]

/-- Arrays do not change with the other fields. -/
theorem Arrays.with_counts {fb : vf_framebuffer_t} {ps : List Plane} (h : Arrays fb ps)
    (n t : Nat) : Arrays { fb with num_planes := n, total_size := t } ps :=
  ⟨h.width, h.height, h.line_size, h.stride, h.size⟩

theorem init_planes_packed.spec (fb : vf_framebuffer_t) (params : vf_fb_params_t)
    (hb : vf_pixel_fmt_bpp params.format ≠ 0) (hh : 1 ≤ params.height)
    (hfit : (⟨params.width, params.height,
      params.width * vf_pixel_fmt_bpp params.format / 8⟩ : Plane).size < 2 ^ 32) :
    Laid (init_planes_packed (reset_plane_info fb) params)
      [⟨params.width, params.height, u32 (params.width * vf_pixel_fmt_bpp params.format) / 8⟩] := by
  let p : Plane :=
    ⟨params.width, params.height, u32 (params.width * vf_pixel_fmt_bpp params.format) / 8⟩
  -- the row that the code computes is at most the exact row
  have hrow : p.line_size ≤ params.width * vf_pixel_fmt_bpp params.format / 8 :=
    Nat.div_le_div_right (u32_le _)
  have hle : p.size ≤ _ := Plane.size_mono (q := ⟨params.width, params.height, _⟩) hrow
    (Nat.le_refl _)
  have hsz : p.size < 2 ^ 32 := Nat.lt_of_le_of_lt hle hfit
  have hst : p.stride < 2 ^ 32 := Nat.lt_of_le_of_lt (Plane.stride_le_size hh) hsz
  have h1 := set_plane.spec ((reset_arrays fb).with_counts 1 0) p hst hsz
  have h0 := h1.size 0
  unfold init_planes_packed
  rw [if_neg hb]
  refine ⟨h1.with_counts _ _, rfl, h0.trans ?_⟩
  simp [plane_at, u32_of_lt hsz, p]

theorem init_planes_yuv420p.spec (fb : vf_framebuffer_t) (params : vf_fb_params_t)
    (hh : 1 ≤ params.height)
    (hfit : ∀ p ∈ [⟨params.width, params.height, params.width⟩,
      ⟨params.width / 2, params.height / 2, params.width / 2⟩,
      (⟨params.width / 2, params.height / 2, params.width / 2⟩ : Plane)], p.size < 2 ^ 32) :
    Laid (init_planes_yuv420p (reset_plane_info fb) params)
      [⟨params.width, params.height, params.width⟩,
        ⟨params.width / 2, params.height / 2, params.width / 2⟩,
        ⟨params.width / 2, params.height / 2, params.width / 2⟩] := by
  let y : Plane := ⟨params.width, params.height, params.width⟩
  let c : Plane := ⟨params.width / 2, params.height / 2, params.width / 2⟩
  have hy : y.size < 2 ^ 32 := hfit y (by simp [y])
  have hc : c.size < 2 ^ 32 := hfit c (by simp [c])
  have hys : y.stride < 2 ^ 32 := Nat.lt_of_le_of_lt (Plane.stride_le_size hh) hy
  have hcs : c.stride < 2 ^ 32 :=
    Nat.lt_of_le_of_lt (Plane.stride_mono (Nat.div_le_self _ _)) hys
  have h1 := set_plane.spec ((reset_arrays fb).with_counts 3 0) y hys hy
  have h2 := set_plane.spec h1 c hcs hc
  have h3 := set_plane.spec h2 c hcs hc
  have hsum := congrArg₂ (· + ·) (congrArg₂ (· + ·) (h3.size 0) (h3.size 1)) (h3.size 2)
  refine ⟨h3.with_counts _ _, rfl, (congrArg u32 hsum).trans ?_⟩
  simp [plane_at, y, c, Nat.add_assoc]

theorem init_planes_nv12.spec (fb : vf_framebuffer_t) (params : vf_fb_params_t)
    (hfit : ∀ p ∈ [⟨params.width, params.height, params.width⟩,
      (⟨params.width, params.height / 2, params.width⟩ : Plane)], p.size < 2 ^ 32)
    (hh : 1 ≤ params.height) :
    Laid (init_planes_nv12 (reset_plane_info fb) params)
      [⟨params.width, params.height, params.width⟩,
        ⟨params.width, params.height / 2, params.width⟩] := by
  let y : Plane := ⟨params.width, params.height, params.width⟩
  let c : Plane := ⟨params.width, params.height / 2, params.width⟩
  have hy : y.size < 2 ^ 32 := hfit y (by simp [y])
  have hc : c.size < 2 ^ 32 := hfit c (by simp [c])
  have hs : y.stride < 2 ^ 32 := Nat.lt_of_le_of_lt (Plane.stride_le_size hh) hy
  have h1 := set_plane.spec ((reset_arrays fb).with_counts 2 0) y hs hy
  have h2 := set_plane.spec h1 c hs hc
  have hsum := congrArg₂ (· + ·) (h2.size 0) (h2.size 1)
  refine ⟨h2.with_counts _ _, rfl, (congrArg u32 hsum).trans ?_⟩
  simp [plane_at, y, c]

/-- The planes that the code lays out for `params`. -/
def code_planes (params : vf_fb_params_t) : List Plane := planes_with u32 params

/-- An accepted format and plane sizes that fit: the layout is the planes of the
parameters. -/
theorem init_planes.spec (fb : vf_framebuffer_t) (params : vf_fb_params_t)
    (hacc : Accepted params.format) (hh : 1 ≤ params.height) (hfit : PlaneSizesFit params) :
    (init_planes fb params).1 = .VF_SUCCESS ∧ (init_planes fb params).2.params = fb.params ∧
      Laid (init_planes fb params).2 (code_planes params) := by
  obtain ⟨w, h, format⟩ := params
  have packed (hb : vf_pixel_fmt_bpp format ≠ 0)
      (hp : planes ⟨w, h, format⟩ = [⟨w, h, w * vf_pixel_fmt_bpp format / 8⟩]) :=
    init_planes_packed.spec fb ⟨w, h, format⟩ hb hh (hfit _ (by simp [hp]))
  cases format with
  | VF_PIXEL_FMT_UNKNOWN => exact absurd rfl hacc.1
  | VF_PIXEL_FMT_MJPEG => exact absurd rfl hacc.2.1
  | VF_PIXEL_FMT_LAST => exact absurd rfl hacc.2.2
  | VF_PIXEL_FMT_YUV420P => exact ⟨rfl, rfl, init_planes_yuv420p.spec fb _ hh hfit⟩
  | VF_PIXEL_FMT_NV12 => exact ⟨rfl, rfl, init_planes_nv12.spec fb _ hfit hh⟩
  | VF_PIXEL_FMT_RGB888 => exact ⟨rfl, rfl, packed (by decide) rfl⟩
  | VF_PIXEL_FMT_BGR888 => exact ⟨rfl, rfl, packed (by decide) rfl⟩
  | VF_PIXEL_FMT_RGBA8888 => exact ⟨rfl, rfl, packed (by decide) rfl⟩
  | VF_PIXEL_FMT_RAW8 => exact ⟨rfl, rfl, packed (by decide) rfl⟩
  | VF_PIXEL_FMT_YUYV => exact ⟨rfl, rfl, packed (by decide) rfl⟩

/-- The allocation is laid out as its parameters say, and its bytes are 0. -/
theorem vf_framebuffer_alloc.spec (fb : vf_framebuffer_t) (params : vf_fb_params_t)
    (hacc : Accepted params.format) (hw : 1 ≤ params.width) (hh : 1 ≤ params.height)
    (hfit : PlaneSizesFit params) :
    (vf_framebuffer_alloc fb params true).1 = .VF_SUCCESS ∧
      (vf_framebuffer_alloc fb params true).2.params = params ∧
      (vf_framebuffer_alloc fb params true).2.data = some (fun _ => 0) ∧
      Laid (vf_framebuffer_alloc fb params true).2 (code_planes params) := by
  obtain ⟨hrc, hp, hl⟩ := init_planes.spec { zeroed with params := params } params hacc hh hfit
  have hdim : ¬ (params.width = 0 ∨ params.height = 0) := by omega
  have hfmt : ¬ (params.format = .VF_PIXEL_FMT_UNKNOWN ∨ params.format = .VF_PIXEL_FMT_LAST) :=
    fun h => h.elim hacc.1 hacc.2.2
  simp only [vf_framebuffer_alloc, hdim, hfmt, hrc, if_false, ne_eq, not_true_eq_false,
    Bool.not_true, Bool.false_eq_true, true_and]
  exact ⟨hp, ⟨hl.width, hl.height, hl.line_size, hl.stride, hl.size⟩, hl.num_planes, hl.total_size⟩

/-- A frame that is allocated has its parameters, bytes, and a counter of 0. -/
theorem vf_framebuffer_alloc.made {params : vf_fb_params_t}
    (h : (vf_framebuffer_alloc zeroed params true).1 = .VF_SUCCESS) :
    (vf_framebuffer_alloc zeroed params true).2.data.isSome ∧
      (vf_framebuffer_alloc zeroed params true).2.params = params ∧
      (vf_framebuffer_alloc zeroed params true).2.ref_count = 0 := by
  have hpacked : ∀ fb : vf_framebuffer_t,
      (init_planes_packed fb params).params = fb.params ∧
        (init_planes_packed fb params).ref_count = fb.ref_count := by
    intro fb
    unfold init_planes_packed
    by_cases hb : vf_pixel_fmt_bpp params.format = 0
    · simp [hb]
    · simp [hb, set_plane]
  have hplanes : ∀ fb : vf_framebuffer_t,
      (init_planes fb params).2.params = fb.params ∧
        (init_planes fb params).2.ref_count = fb.ref_count := by
    intro fb
    unfold init_planes
    split
    all_goals first | exact hpacked _ | exact ⟨rfl, rfl⟩
  unfold vf_framebuffer_alloc at h ⊢
  split at h
  · cases h
  · split at h
    · cases h
    · rename_i hsize hfmt
      rw [if_neg hsize, if_neg hfmt]
      simp only at h ⊢
      split at h
      · rename_i hrc
        exact absurd h hrc
      · rename_i hrc
        rw [if_neg hrc]
        obtain ⟨hp, hr⟩ := hplanes { zeroed with params := params }
        exact ⟨rfl, hp, hr⟩

/-! ## The planes of an allocation -/

/-- Where a packed row does not wrap, the code's planes are the exact ones. -/
theorem code_planes_eq (params : vf_fb_params_t)
    (h : params.width * vf_pixel_fmt_bpp params.format < 2 ^ 32) :
    code_planes params = planes params := by
  obtain ⟨w, ht, format⟩ := params
  have hu : u32 (w * vf_pixel_fmt_bpp format) = w * vf_pixel_fmt_bpp format := u32_of_lt h
  cases format <;> simp only [code_planes, planes, planes_with, hu, id]

/-- A plane is no larger than the one before it. -/
theorem code_planes_shrink (params : vf_fb_params_t) (i : Nat) :
    (plane_at (code_planes params) (i + 1)).line_size ≤
        (plane_at (code_planes params) i).line_size ∧
      (plane_at (code_planes params) (i + 1)).height ≤
        (plane_at (code_planes params) i).height := by
  obtain ⟨w, h, format⟩ := params
  cases format <;> rcases i with _ | _ | _ | i <;>
    simp [code_planes, planes_with, vf_pixel_fmt_bpp, plane_at] <;> omega

/-- After an empty plane comes an empty plane. -/
theorem code_planes_stop (params : vf_fb_params_t) {i : Nat}
    (h : (plane_at (code_planes params) i).size = 0) :
    (plane_at (code_planes params) (i + 1)).size = 0 := by
  have hs := code_planes_shrink params i
  have hle := Plane.size_mono hs.1 hs.2
  omega

/-- The first plane is as high as the frame, and has a byte for each column at least. The
code's row of it is at most the exact one. -/
theorem first_plane (params : vf_fb_params_t) (hacc : Accepted params.format) :
    ∃ p rest, planes params = p :: rest ∧ p.height = params.height ∧
      params.width ≤ p.line_size ∧
      (plane_at (code_planes params) 0).line_size ≤ p.line_size := by
  obtain ⟨w, h, format⟩ := params
  have packed (n : Nat) (hn : 8 ≤ n) : w ≤ w * n / 8 ∧ u32 (w * n) / 8 ≤ w * n / 8 := by
    have := Nat.mul_le_mul_left w hn
    exact ⟨by omega, Nat.div_le_div_right (u32_le _)⟩
  cases format with
  | VF_PIXEL_FMT_UNKNOWN => exact absurd rfl hacc.1
  | VF_PIXEL_FMT_MJPEG => exact absurd rfl hacc.2.1
  | VF_PIXEL_FMT_LAST => exact absurd rfl hacc.2.2
  | VF_PIXEL_FMT_YUV420P => exact ⟨_, _, rfl, rfl, Nat.le_refl _, Nat.le_refl _⟩
  | VF_PIXEL_FMT_NV12 => exact ⟨_, _, rfl, rfl, Nat.le_refl _, Nat.le_refl _⟩
  | VF_PIXEL_FMT_RGB888 => exact ⟨_, _, rfl, rfl, packed 24 (by decide)⟩
  | VF_PIXEL_FMT_BGR888 => exact ⟨_, _, rfl, rfl, packed 24 (by decide)⟩
  | VF_PIXEL_FMT_RGBA8888 => exact ⟨_, _, rfl, rfl, packed 32 (by decide)⟩
  | VF_PIXEL_FMT_RAW8 => exact ⟨_, _, rfl, rfl, packed 8 (by decide)⟩
  | VF_PIXEL_FMT_YUYV => exact ⟨_, _, rfl, rfl, packed 16 (by decide)⟩

/-- No plane of the code has a longer row than the first plane in exact arithmetic. -/
theorem code_planes_line_le (params : vf_fb_params_t) (hacc : Accepted params.format) (i : Nat) :
    (plane_at (code_planes params) i).line_size ≤ (plane_at (planes params) 0).line_size := by
  induction i with
  | zero =>
    obtain ⟨p, rest, hp, -, -, hle⟩ := first_plane params hacc
    rwa [hp]
  | succ i ih => exact Nat.le_trans (code_planes_shrink params i).1 ih

/-! ## The address of a byte -/

/-- Where plane `i` begins. -/
def plane_start (fb : vf_framebuffer_t) (i : Nat) : Nat := ((List.range i).map fb.plane_size).sum

/-- The address of column `x` of row `y` of plane `i`. -/
def byte_at (fb : vf_framebuffer_t) (i y x : Nat) : Nat :=
  plane_start fb i + y * fb.plane_stride i + x

theorem plane_start_succ (fb : vf_framebuffer_t) (i : Nat) :
    plane_start fb (i + 1) = plane_start fb i + fb.plane_size i := by
  simp [plane_start, List.range_succ]

theorem plane_start_mono (fb : vf_framebuffer_t) {i j : Nat} (h : i ≤ j) :
    plane_start fb i ≤ plane_start fb j := by
  induction h with
  | refl => exact Nat.le_refl _
  | step _ ih =>
    rw [plane_start_succ]
    omega

/-- The sum over the planes is the sum over their numbers. -/
theorem map_plane_at {γ : Type} (ps : List Plane) (f : Plane → γ) :
    (List.range ps.length).map (fun i => f (plane_at ps i)) = ps.map f := by
  apply List.ext_getElem
  · simp
  · intro i h1 h2
    have hi : i < ps.length := by simpa using h2
    simp [plane_at, List.getElem?_eq_getElem hi]

/-- Past the last plane is past all sizes. -/
theorem plane_start_length {fb : vf_framebuffer_t} {ps : List Plane} (h : Arrays fb ps) :
    plane_start fb ps.length = (ps.map Plane.size).sum := by
  have hsz : fb.plane_size = fun i => (plane_at ps i).size := funext h.size
  rw [← map_plane_at ps Plane.size, plane_start, hsz]

theorem Arrays.size_eq {fb : vf_framebuffer_t} {ps : List Plane} (h : Arrays fb ps) (i : Nat) :
    fb.plane_size i = fb.plane_height i * fb.plane_stride i := by
  rw [h.size, h.stride, h.height, Plane.size, Nat.mul_comm]

/-- The row after the last row of a plane is the next plane. -/
theorem byte_at_height {fb : vf_framebuffer_t} {ps : List Plane} (h : Arrays fb ps) (i : Nat) :
    byte_at fb i (fb.plane_height i) 0 = plane_start fb (i + 1) := by
  rw [plane_start_succ, h.size_eq, byte_at, Nat.add_zero]

/-- The column after the last column of a row is the next row. -/
theorem byte_at_stride (fb : vf_framebuffer_t) (i row : Nat) :
    byte_at fb i row (fb.plane_stride i) = byte_at fb i (row + 1) 0 := by
  rw [byte_at, byte_at, Nat.succ_mul, Nat.add_zero, Nat.add_assoc]

/-- A byte of a row, padding included, lies in its plane. -/
theorem byte_at_lt {fb : vf_framebuffer_t} {ps : List Plane} (h : Arrays fb ps) {i y x : Nat}
    (hy : y < fb.plane_height i) (hx : x < fb.plane_stride i) :
    byte_at fb i y x < plane_start fb (i + 1) := by
  have hrow : (y + 1) * fb.plane_stride i ≤ fb.plane_height i * fb.plane_stride i :=
    Nat.mul_le_mul_right _ hy
  rw [Nat.succ_mul] at hrow
  rw [plane_start_succ, h.size_eq, byte_at]
  omega

/-- Two bytes at one address are one byte. -/
theorem byte_at_inj {fb : vf_framebuffer_t} {ps : List Plane} (h : Arrays fb ps)
    {i y x i' y' x' : Nat} (hy : y < fb.plane_height i) (hx : x < fb.plane_stride i)
    (hy' : y' < fb.plane_height i') (hx' : x' < fb.plane_stride i')
    (he : byte_at fb i y x = byte_at fb i' y' x') : i = i' ∧ y = y' ∧ x = x' := by
  have h1 := byte_at_lt h hy hx
  have h2 := byte_at_lt h hy' hx'
  have hi : i = i' := by
    -- a plane before ends at or before the start of a plane after it
    rcases Nat.lt_trichotomy i i' with hlt | heq | hgt
    · have := plane_start_mono fb (show i + 1 ≤ i' from hlt)
      simp only [byte_at] at he h1 h2
      omega
    · exact heq
    · have := plane_start_mono fb (show i' + 1 ≤ i from hgt)
      simp only [byte_at] at he h1 h2
      omega
  subst hi
  have hpos : 0 < fb.plane_stride i := by omega
  have hcell : y * fb.plane_stride i + x = y' * fb.plane_stride i + x' := by
    simp only [byte_at] at he
    omega
  have hdiv := congrArg (· / fb.plane_stride i) hcell
  have hmod := congrArg (· % fb.plane_stride i) hcell
  simp only [Nat.mul_comm _ (fb.plane_stride i), Nat.mul_add_div hpos, Nat.div_eq_of_lt hx,
    Nat.div_eq_of_lt hx', Nat.mul_add_mod, Nat.mod_eq_of_lt hx, Nat.mod_eq_of_lt hx'] at hdiv hmod
  exact ⟨rfl, by omega, hmod⟩

end vision_flow.framebuffer
