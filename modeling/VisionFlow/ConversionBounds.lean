-- Where a conversion stays inside its buffers. The chroma planes have half the rows and
-- columns, rounded down, and the loops visit them rounded up. So an odd height leaves the
-- buffer, and an odd width does where the row has no padding left. Inside, each pixel gets
-- its BT.601 value.
import VisionFlow.ConversionMap

open access

namespace vision_flow.conversion

open framebuffer

/-! ## The bounds -/

/-- Each read is below the source's size, each write below the destination's, and a
chroma write is in its plane. -/
def InBounds (accs : List (Access UInt8)) (src dst : vf_framebuffer_t) : Prop :=
  (∀ a, .read a ∈ accs → a < src.total_size) ∧
    ∀ i a v, .write i a v ∈ accs → a < dst.total_size ∧
      (1 ≤ i → plane_start dst i ≤ a ∧ a < plane_start dst (i + 1))

/-- The 32-bit arithmetic of the layout is exact. -/
def NoWrap (params : vf_fb_params_t) : Prop :=
  params.width * vf_pixel_fmt_bpp params.format < 2 ^ 32 ∧
    ((planes params).map Plane.size).sum < 2 ^ 32

/-- The sizes that a pair of formats can take. -/
def SafeSize (src_fmt dst_fmt : vf_pixel_fmt_t) (w h : Nat) : Prop :=
  match src_fmt, dst_fmt with
  | .VF_PIXEL_FMT_RAW8, _ => True
  | .VF_PIXEL_FMT_YUYV, _ => w % 16 ≠ 5
  | .VF_PIXEL_FMT_YUV420P, _ => h % 2 = 0 ∧ w % 32 ≠ 1
  | _, .VF_PIXEL_FMT_YUV420P => h % 2 = 0 ∧ w % 32 ≠ 1
  | _, _ => h % 2 = 0

/-- The bytes of a region lie in the buffer. -/
def Inside (fb : vf_framebuffer_t) (R : Region) : Prop :=
  ∀ i row col, R i row col → byte_at fb i row col < fb.total_size

/-- The chroma bytes of a region lie in their planes. -/
def InPlane (fb : vf_framebuffer_t) (R : Region) : Prop :=
  ∀ i row col, R i row col → 1 ≤ i → byte_at fb i row col < plane_start fb (i + 1)

theorem in_bounds_iff {accs : List (Access UInt8)} {src dst : vf_framebuffer_t} {R W : Region}
    {T : Picture} (hv : Visits accs src dst R W T) :
    InBounds accs src dst ↔ Inside src R ∧ Inside dst W ∧ InPlane dst W := by
  refine ⟨?_, ?_⟩
  · rintro ⟨hr, hw⟩
    refine ⟨?_, ?_, ?_⟩
    · intro i row col hR
      exact hr _ ((hv.reads _).mpr ⟨i, row, col, hR, rfl⟩)
    · intro i row col hW
      exact (hw i _ _ ((hv.writes i _ _).mpr ⟨row, col, hW, rfl, rfl⟩)).1
    · intro i row col hW hi
      exact ((hw i _ _ ((hv.writes i _ _).mpr ⟨row, col, hW, rfl, rfl⟩)).2 hi).2
  · rintro ⟨hr, hw, hp⟩
    refine ⟨?_, ?_⟩
    · intro a ha
      obtain ⟨i, row, col, hR, rfl⟩ := (hv.reads a).mp ha
      exact hr i row col hR
    · intro i a v ha
      obtain ⟨row, col, hW, rfl, -⟩ := (hv.writes i a v).mp ha
      refine ⟨hw i row col hW, fun hi => ⟨?_, hp i row col hW hi⟩⟩
      unfold byte_at
      omega

/-! ## Packed planes -/

/-- A packed region fits just when its row fits in the stride. -/
theorem packed_inside {fb : vf_framebuffer_t} {p : Plane} (hl : Laid fb [p]) {m k : Nat}
    (hk : 0 < m * k) (hh : 1 ≤ p.height) (hsz : p.size < 2 ^ 32) :
    Inside fb (packed m k p.height) ↔ m * k ≤ p.stride := by
  have hst : fb.plane_stride 0 = p.stride := hl.stride 0
  have htotal : fb.total_size = p.height * p.stride := by
    have h1 : fb.total_size = u32 (p.size + 0) := hl.total_size
    rw [h1, Nat.add_zero, u32_of_lt hsz, Plane.size, Nat.mul_comm]
  have hlast : (p.height - 1) * p.stride + p.stride = p.height * p.stride := by
    rw [← Nat.succ_mul]
    congr 1
    omega
  refine ⟨?_, ?_⟩
  · intro hin
    have := hin 0 (p.height - 1) (m * k - 1) ⟨rfl, by omega, by omega⟩
    rw [byte_at_zero, hst, htotal] at this
    omega
  · rintro hle i row col ⟨rfl, hrow, hcol⟩
    have := Nat.mul_le_mul_right p.stride (show row ≤ p.height - 1 by omega)
    rw [byte_at_zero, hst, htotal]
    omega

theorem packed_in_plane (fb : vf_framebuffer_t) (m k h : Nat) : InPlane fb (packed m k h) := by
  rintro i row col ⟨rfl, -, -⟩ hi
  omega

/-- The planes of a packed format with `n` bytes for a pixel. -/
theorem packed_no_wrap {w h n : Nat} {fmt : vf_pixel_fmt_t} (hb : vf_pixel_fmt_bpp fmt = 8 * n)
    (hn : 0 < n) (hfit : PlaneSizesFit ⟨w, h, fmt⟩) :
    code_planes ⟨w, h, fmt⟩ = [⟨w, h, u32 (w * (8 * n)) / 8⟩] ∧
      (⟨w, h, u32 (w * (8 * n)) / 8⟩ : Plane).size < 2 ^ 32 ∧
      (NoWrap ⟨w, h, fmt⟩ ↔ w * (8 * n) < 2 ^ 32) := by
  have hps : ∀ cut, planes_with cut ⟨w, h, fmt⟩ = [⟨w, h, cut (w * (8 * n)) / 8⟩] := by
    intro cut
    have hp : planes_with cut ⟨w, h, fmt⟩ = [⟨w, h, cut (w * vf_pixel_fmt_bpp fmt) / 8⟩] := by
      cases fmt <;> first | rfl | (simp only [vf_pixel_fmt_bpp] at hb; omega)
    rw [hp, hb]
  have hsz : (⟨w, h, w * (8 * n) / 8⟩ : Plane).size < 2 ^ 32 :=
    hfit _ (by rw [planes, hps]; exact List.mem_singleton.mpr rfl)
  refine ⟨hps u32, Nat.lt_of_le_of_lt (Plane.size_mono ?_ (Nat.le_refl h)) hsz, ?_⟩
  · exact Nat.div_le_div_right (u32_le _)
  · simp only [NoWrap, planes, hps, hb, List.map_cons, List.map_nil, List.sum_cons, List.sum_nil]
    refine ⟨?_, ?_⟩
    · exact fun h => h.1
    · exact fun h => ⟨h, by simpa using hsz⟩

/-- A row that wraps is shorter than its pixels. -/
theorem row_fits_iff {w n : Nat} (h1 : 1 ≤ n * w) :
    n * w ≤ (⟨w, 1, u32 (w * (8 * n)) / 8⟩ : Plane).stride ↔ w * (8 * n) < 2 ^ 32 := by
  have he : w * (8 * n) = 8 * (n * w) := by
    rw [Nat.mul_left_comm, Nat.mul_comm w]
  rw [he]
  generalize n * w = c at *
  simp only [Plane.stride, u32]
  omega

/-- Two columns rounded up, of YUYV or of RGB: what a wider row costs. -/
theorem yuyv_row_fits_iff {w : Nat} (hw : 1 ≤ w) :
    4 * ((w + 1) / 2) ≤ (⟨w, 1, u32 (w * (8 * 2)) / 8⟩ : Plane).stride ↔ w * (8 * 2) < 2 ^ 32 := by
  simp only [Plane.stride, u32]
  omega

theorem rgb_pair_fits_iff {w : Nat} (hw : 1 ≤ w) :
    6 * ((w + 1) / 2) ≤ (⟨w, 1, u32 (w * (8 * 3)) / 8⟩ : Plane).stride ↔
      w * (8 * 3) < 2 ^ 32 ∧ w % 16 ≠ 5 := by
  simp only [Plane.stride]
  by_cases hwrap : w * (8 * 3) < 2 ^ 32
  · rw [u32_of_lt hwrap]
    obtain ⟨q, r, hr, rfl⟩ : ∃ q r, r < 16 ∧ w = 16 * q + r :=
      ⟨w / 16, w % 16, by omega, by omega⟩
    interval_cases r <;> omega
  · have hcut : u32 (w * (8 * 3)) + 2 ^ 32 ≤ w * (8 * 3) := by
      unfold u32
      omega
    omega

/-! ## Planar frames -/

/-- The three planes of YUV420P, and the two of NV12. -/
theorem planes_yuv420p (cut : Nat → Nat) (w h : Nat) :
    planes_with cut ⟨w, h, .VF_PIXEL_FMT_YUV420P⟩ =
      [⟨w, h, w⟩, ⟨w / 2, h / 2, w / 2⟩, ⟨w / 2, h / 2, w / 2⟩] := rfl

theorem planes_nv12 (cut : Nat → Nat) (w h : Nat) :
    planes_with cut ⟨w, h, .VF_PIXEL_FMT_NV12⟩ = [⟨w, h, w⟩, ⟨w, h / 2, w⟩] := rfl

/-- Where the sum of the planes wraps, the last luma byte is past the total: the chroma is
no larger than the luma, and all sizes are multiples of 16. -/
theorem luma_past_total {w h chroma : Nat} (hw : 1 ≤ w) (hh : 1 ≤ h) {y : Plane}
    (hy : y = ⟨w, h, w⟩) (hsz : y.size < 2 ^ 32) (hle : chroma ≤ y.size) (h16 : chroma % 16 = 0)
    (hsum : 2 ^ 32 ≤ y.size + chroma) : u32 (y.size + chroma) ≤ (h - 1) * y.stride + (w - 1) := by
  subst hy
  have hst : (⟨w, h, w⟩ : Plane).stride = (w + 15) / 16 * 16 := rfl
  have hlast : (h - 1) * (⟨w, h, w⟩ : Plane).stride + (⟨w, h, w⟩ : Plane).stride =
      (⟨w, h, w⟩ : Plane).size := by
    rw [← Nat.succ_mul, Plane.size, Nat.mul_comm]
    congr 1
    show h - 1 + 1 = h
    omega
  have hs16 : (⟨w, h, w⟩ : Plane).size % 16 = 0 := by
    rw [Plane.size, hst, Nat.mul_right_comm]
    omega
  generalize (⟨w, h, w⟩ : Plane).size = S at *
  generalize (h - 1) * (⟨w, h, w⟩ : Plane).stride = L at *
  simp only [u32]
  omega

/-- A region of whole rows lies in its planes, and in the buffer where the sizes' sum does
not wrap. -/
theorem cells_of_rows {fb : vf_framebuffer_t} {ps : List Plane} (hl : Laid fb ps) {R : Region}
    (hR : ∀ i row col, R i row col →
      i < ps.length ∧ row < fb.plane_height i ∧ col < fb.plane_stride i) :
    InPlane fb R ∧ ((ps.map Plane.size).sum < 2 ^ 32 → Inside fb R) := by
  refine ⟨?_, ?_⟩
  · intro i row col h _
    obtain ⟨-, hrow, hcol⟩ := hR i row col h
    exact byte_at_lt hl.toArrays hrow hcol
  · intro hsum i row col h
    obtain ⟨hi, hrow, hcol⟩ := hR i row col h
    have h1 := byte_at_lt hl.toArrays hrow hcol
    have h2 := plane_start_mono fb (show i + 1 ≤ ps.length from hi)
    have h3 := plane_start_length hl.toArrays
    rw [hl.total_size, u32_of_lt hsum]
    omega

/-- The luma of a planar frame lies in the buffer only where the sum does not wrap. -/
theorem sum_of_inside {fb : vf_framebuffer_t} {w h : Nat} {rest : List Plane} {R : Region}
    (hl : Laid fb (⟨w, h, w⟩ :: rest)) (hw : 1 ≤ w) (hh : 1 ≤ h)
    (hsz : (⟨w, h, w⟩ : Plane).size < 2 ^ 32)
    (hle : (rest.map Plane.size).sum ≤ (⟨w, h, w⟩ : Plane).size)
    (h16 : (rest.map Plane.size).sum % 16 = 0) (hR : R 0 (h - 1) (w - 1)) (hin : Inside fb R) :
    (((⟨w, h, w⟩ : Plane) :: rest).map Plane.size).sum < 2 ^ 32 := by
  by_contra hge
  have hlast := hin _ _ _ hR
  have hst : fb.plane_stride 0 = (⟨w, h, w⟩ : Plane).stride := hl.stride 0
  have hpast := luma_past_total hw hh rfl hsz hle h16 (by simpa using Nat.le_of_not_lt hge)
  rw [byte_at_zero, hl.total_size, hst] at hlast
  simp only [List.map_cons, List.sum_cons] at hlast
  omega

theorem size_mod_16 (p : Plane) : p.size % 16 = 0 := by
  rw [Plane.size, Plane.stride, Nat.mul_right_comm]
  omega

/-- Two half planes are no larger than the whole plane. -/
theorem chroma_le (w h : Nat) :
    (⟨w / 2, h / 2, w / 2⟩ : Plane).size + (⟨w / 2, h / 2, w / 2⟩ : Plane).size ≤
      (⟨w, h, w⟩ : Plane).size := by
  have hst : (⟨w / 2, h / 2, w / 2⟩ : Plane).stride ≤ (⟨w, h, w⟩ : Plane).stride :=
    Plane.stride_mono (Nat.div_le_self w 2)
  have hmul := Nat.mul_le_mul hst (show h / 2 + h / 2 ≤ h by omega)
  rw [Nat.mul_add] at hmul
  exact hmul

theorem no_wrap_yuv420p (w h : Nat) : NoWrap ⟨w, h, .VF_PIXEL_FMT_YUV420P⟩ ↔
    ((code_planes ⟨w, h, .VF_PIXEL_FMT_YUV420P⟩).map Plane.size).sum < 2 ^ 32 :=
  ⟨fun h => h.2, fun h => ⟨by simp [vf_pixel_fmt_bpp], h⟩⟩

theorem no_wrap_nv12 (w h : Nat) : NoWrap ⟨w, h, .VF_PIXEL_FMT_NV12⟩ ↔
    ((code_planes ⟨w, h, .VF_PIXEL_FMT_NV12⟩).map Plane.size).sum < 2 ^ 32 :=
  ⟨fun h => h.2, fun h => ⟨by simp [vf_pixel_fmt_bpp], h⟩⟩

section Yuv420p

variable {fb : vf_framebuffer_t} {w h : Nat}
  (hl : Laid fb (code_planes ⟨w, h, .VF_PIXEL_FMT_YUV420P⟩)) (hw : 1 ≤ w) (hh : 1 ≤ h)
  (hfit : PlaneSizesFit ⟨w, h, .VF_PIXEL_FMT_YUV420P⟩)

include hl hw hh hfit in
/-- A region with the last luma byte shows that the sum does not wrap. -/
theorem yuv420p_no_wrap {R : Region} (hR : R 0 (h - 1) (w - 1)) (hin : Inside fb R) :
    NoWrap ⟨w, h, .VF_PIXEL_FMT_YUV420P⟩ := by
  rw [no_wrap_yuv420p]
  have hle := chroma_le w h
  have h16 := size_mod_16 ⟨w / 2, h / 2, w / 2⟩
  refine sum_of_inside hl hw hh (hfit _ (List.mem_cons_self ..)) ?_ ?_ hR hin
  · simpa using hle
  · simp only [List.map_cons, List.map_nil, List.sum_cons, List.sum_nil]
    omega

include hl hw hh hfit in
theorem yuv420p_safe_of_inside (hin : Inside fb (planar 2 1 w h)) :
    NoWrap ⟨w, h, .VF_PIXEL_FMT_YUV420P⟩ ∧ h % 2 = 0 ∧ w % 32 ≠ 1 := by
  have hno := yuv420p_no_wrap hl hw hh hfit (Or.inl ⟨rfl, by omega, by omega⟩) hin
  have hsum := (no_wrap_yuv420p w h).mp hno
  have hend : plane_start fb 3 = fb.total_size := by
    rw [hl.total_size, u32_of_lt hsum]
    exact plane_start_length hl.toArrays
  have hheight : fb.plane_height 2 = h / 2 := hl.height 2
  have hstride : fb.plane_stride 2 = (w / 2 + 15) / 16 * 16 := hl.stride 2
  refine ⟨hno, ?_, ?_⟩
  · -- an odd height: the row after the last row of V
    by_contra hodd
    have hlast := hin 2 (h / 2) 0 (Or.inr ⟨by decide, by decide, by omega, by omega⟩)
    rw [← hheight, byte_at_height hl.toArrays, hend] at hlast
    omega
  · -- no padding and an odd width: the column after the last column of V
    intro hw1
    by_cases hodd : h % 2 = 0
    · have hlast := hin 2 (h / 2 - 1) (fb.plane_stride 2)
        (Or.inr ⟨by decide, by decide, by omega, by omega⟩)
      have hrow : h / 2 - 1 + 1 = fb.plane_height 2 := by omega
      rw [byte_at_stride, hrow, byte_at_height hl.toArrays, hend] at hlast
      omega
    · have hlast := hin 2 (h / 2) 0 (Or.inr ⟨by decide, by decide, by omega, by omega⟩)
      rw [← hheight, byte_at_height hl.toArrays, hend] at hlast
      omega

include hl in
theorem yuv420p_inside_of_safe (hno : NoWrap ⟨w, h, .VF_PIXEL_FMT_YUV420P⟩) (hh2 : h % 2 = 0)
    (hw1 : w % 32 ≠ 1) : Inside fb (planar 2 1 w h) ∧ InPlane fb (planar 2 1 w h) := by
  have hrows := cells_of_rows hl (R := planar 2 1 w h) ?_
  · exact ⟨hrows.2 ((no_wrap_yuv420p w h).mp hno), hrows.1⟩
  · intro i row col hR
    rw [hl.height, hl.stride]
    rcases hR with ⟨rfl, hrow, hcol⟩ | ⟨h1, h2, hrow, hcol⟩
    · have := Plane.line_le ⟨w, h, w⟩
      exact ⟨by simp [code_planes, planes_yuv420p], hrow, Nat.lt_of_lt_of_le hcol this⟩
    · have hst : (⟨w / 2, h / 2, w / 2⟩ : Plane).stride = (w / 2 + 15) / 16 * 16 := rfl
      rcases (by omega : i = 1 ∨ i = 2) with rfl | rfl <;>
        simp only [code_planes, planes_yuv420p, plane_at, List.length_cons, List.length_nil,
          List.getElem?_cons_succ, List.getElem?_cons_zero, Option.getD_some, hst] <;>
        omega

include hl in
theorem filled_inside_of_no_wrap (hno : NoWrap ⟨w, h, .VF_PIXEL_FMT_YUV420P⟩) :
    Inside fb (filled fb w h) ∧ InPlane fb (filled fb w h) := by
  have hrows := cells_of_rows hl (R := filled fb w h) ?_
  · exact ⟨hrows.2 ((no_wrap_yuv420p w h).mp hno), hrows.1⟩
  · intro i row col hR
    rcases hR with ⟨rfl, hrow, hcol⟩ | ⟨h1, h2, hrow, hcol⟩
    · rw [hl.height, hl.stride]
      have := Plane.line_le ⟨w, h, w⟩
      exact ⟨by simp [code_planes, planes_yuv420p], hrow, Nat.lt_of_lt_of_le hcol this⟩
    · exact ⟨by simp only [code_planes, planes_yuv420p, List.length_cons, List.length_nil]; omega,
        hrow, hcol⟩

end Yuv420p

section Nv12

variable {fb : vf_framebuffer_t} {w h : Nat}
  (hl : Laid fb (code_planes ⟨w, h, .VF_PIXEL_FMT_NV12⟩)) (hw : 1 ≤ w) (hh : 1 ≤ h)
  (hfit : PlaneSizesFit ⟨w, h, .VF_PIXEL_FMT_NV12⟩)

include hl hw hh hfit in
theorem nv12_safe_of_inside (hin : Inside fb (planar 1 2 w h)) :
    NoWrap ⟨w, h, .VF_PIXEL_FMT_NV12⟩ ∧ h % 2 = 0 := by
  have hsum : ((code_planes ⟨w, h, .VF_PIXEL_FMT_NV12⟩).map Plane.size).sum < 2 ^ 32 := by
    have hle : (⟨w, h / 2, w⟩ : Plane).size ≤ (⟨w, h, w⟩ : Plane).size :=
      Plane.size_mono (Nat.le_refl w) (Nat.div_le_self h 2)
    have h16 := size_mod_16 ⟨w, h / 2, w⟩
    refine sum_of_inside (w := w) (h := h) hl hw hh (hfit _ (List.mem_cons_self ..)) ?_ ?_
      (Or.inl ⟨rfl, by omega, by omega⟩) hin
    · simpa using hle
    · simpa using h16
  refine ⟨(no_wrap_nv12 w h).mpr hsum, ?_⟩
  have hend : plane_start fb 2 = fb.total_size := by
    rw [hl.total_size, u32_of_lt hsum]
    exact plane_start_length hl.toArrays
  have hheight : fb.plane_height 1 = h / 2 := hl.height 1
  by_contra hodd
  have hlast := hin 1 (h / 2) 0 (Or.inr ⟨by decide, by decide, by omega, by omega⟩)
  rw [← hheight, byte_at_height hl.toArrays, hend] at hlast
  omega

include hl in
theorem nv12_inside_of_safe (hno : NoWrap ⟨w, h, .VF_PIXEL_FMT_NV12⟩) (hh2 : h % 2 = 0) :
    Inside fb (planar 1 2 w h) ∧ InPlane fb (planar 1 2 w h) := by
  have hrows := cells_of_rows hl (R := planar 1 2 w h) ?_
  · exact ⟨hrows.2 ((no_wrap_nv12 w h).mp hno), hrows.1⟩
  · intro i row col hR
    rw [hl.height, hl.stride]
    rcases hR with ⟨rfl, hrow, hcol⟩ | ⟨h1, h2, hrow, hcol⟩
    · have := Plane.line_le ⟨w, h, w⟩
      exact ⟨by simp [code_planes, planes_nv12], hrow, Nat.lt_of_lt_of_le hcol this⟩
    · obtain rfl : i = 1 := by omega
      have hst : (⟨w, h / 2, w⟩ : Plane).stride = (w + 15) / 16 * 16 := rfl
      simp only [code_planes, planes_nv12, plane_at, List.length_cons, List.length_nil,
        List.getElem?_cons_succ, List.getElem?_cons_zero, Option.getD_some, hst]
      omega

end Nv12

/-! ## The pairs -/

/-- The packed region of the pixels of a format with `n` bytes. -/
theorem packed_format_inside {fb : vf_framebuffer_t} {w h n : Nat} {fmt : vf_pixel_fmt_t}
    (hb : vf_pixel_fmt_bpp fmt = 8 * n) (hn : 0 < n) (hl : Laid fb (code_planes ⟨w, h, fmt⟩))
    (hh : 1 ≤ h) (hfit : PlaneSizesFit ⟨w, h, fmt⟩) {m k : Nat} (hk : 0 < m * k) :
    Inside fb (packed m k h) ↔ m * k ≤ (⟨w, 1, u32 (w * (8 * n)) / 8⟩ : Plane).stride := by
  obtain ⟨hcode, hsz, -⟩ := packed_no_wrap hb hn hfit
  rw [hcode] at hl
  exact packed_inside hl hk hh hsz

theorem packed_pixels_inside {fb : vf_framebuffer_t} {w h n : Nat} {fmt : vf_pixel_fmt_t}
    (hb : vf_pixel_fmt_bpp fmt = 8 * n) (hn : 0 < n) (hl : Laid fb (code_planes ⟨w, h, fmt⟩))
    (hw : 1 ≤ w) (hh : 1 ≤ h) (hfit : PlaneSizesFit ⟨w, h, fmt⟩) :
    Inside fb (packed n w h) ↔ NoWrap ⟨w, h, fmt⟩ := by
  have hpos : 0 < n * w := Nat.mul_pos hn hw
  rw [packed_format_inside hb hn hl hh hfit hpos, row_fits_iff hpos,
    (packed_no_wrap hb hn hfit).2.2]

theorem regions_inside_iff {src_fmt dst_fmt : vf_pixel_fmt_t} (hsup : Supported src_fmt dst_fmt)
    {w h : Nat} (hw : 1 ≤ w) (hh : 1 ≤ h) (hfs : PlaneSizesFit ⟨w, h, src_fmt⟩)
    (hfd : PlaneSizesFit ⟨w, h, dst_fmt⟩) {src dst : vf_framebuffer_t}
    (hls : Laid src (code_planes ⟨w, h, src_fmt⟩)) (hld : Laid dst (code_planes ⟨w, h, dst_fmt⟩)) :
    Inside src (read_region src_fmt w h) ∧ Inside dst (write_region src_fmt dst_fmt dst w h) ∧
        InPlane dst (write_region src_fmt dst_fmt dst w h) ↔
      NoWrap ⟨w, h, src_fmt⟩ ∧ NoWrap ⟨w, h, dst_fmt⟩ ∧ SafeSize src_fmt dst_fmt w h := by
  have hmem := hsup.mem
  simp only [g_conversion_table, List.map_cons, List.map_nil, List.mem_cons, List.not_mem_nil,
    or_false, Prod.mk.injEq] at hmem
  rcases hmem with ⟨rfl, rfl⟩ | ⟨rfl, rfl⟩ | ⟨rfl, rfl⟩ | ⟨rfl, rfl⟩ | ⟨rfl, rfl⟩ | ⟨rfl, rfl⟩ |
    ⟨rfl, rfl⟩ | ⟨rfl, rfl⟩
  · have hsrc := packed_pixels_inside (n := 3) rfl (by decide) hls hw hh hfs
    refine ⟨?_, ?_⟩
    · rintro ⟨h1, h2, -⟩
      exact ⟨hsrc.mp h1, yuv420p_safe_of_inside hld hw hh hfd h2⟩
    · rintro ⟨h1, h2, h3, h4⟩
      exact ⟨hsrc.mpr h1, yuv420p_inside_of_safe hld h2 h3 h4⟩
  · have hsrc := packed_pixels_inside (n := 3) rfl (by decide) hls hw hh hfs
    refine ⟨?_, ?_⟩
    · rintro ⟨h1, h2, -⟩
      exact ⟨hsrc.mp h1, yuv420p_safe_of_inside hld hw hh hfd h2⟩
    · rintro ⟨h1, h2, h3, h4⟩
      exact ⟨hsrc.mpr h1, yuv420p_inside_of_safe hld h2 h3 h4⟩
  · have hdst := packed_pixels_inside (n := 3) rfl (by decide) hld hw hh hfd
    refine ⟨?_, ?_⟩
    · rintro ⟨h1, h2, -⟩
      have hsafe := yuv420p_safe_of_inside hls hw hh hfs h1
      exact ⟨hsafe.1, hdst.mp h2, hsafe.2⟩
    · rintro ⟨h1, h2, h3, h4⟩
      exact ⟨(yuv420p_inside_of_safe hls h1 h3 h4).1, hdst.mpr h2, packed_in_plane _ _ _ _⟩
  · have hsrc := packed_pixels_inside (n := 3) rfl (by decide) hls hw hh hfs
    refine ⟨?_, ?_⟩
    · rintro ⟨h1, h2, -⟩
      exact ⟨hsrc.mp h1, nv12_safe_of_inside hld hw hh hfd h2⟩
    · rintro ⟨h1, h2, h3⟩
      exact ⟨hsrc.mpr h1, nv12_inside_of_safe hld h2 h3⟩
  · have hdst := packed_pixels_inside (n := 3) rfl (by decide) hld hw hh hfd
    refine ⟨?_, ?_⟩
    · rintro ⟨h1, h2, -⟩
      have hsafe := nv12_safe_of_inside hls hw hh hfs h1
      exact ⟨hsafe.1, hdst.mp h2, hsafe.2⟩
    · rintro ⟨h1, h2, h3⟩
      exact ⟨(nv12_inside_of_safe hls h1 h3).1, hdst.mpr h2, packed_in_plane _ _ _ _⟩
  · have hsrc := packed_pixels_inside (n := 1) rfl (by decide) hls hw hh hfs
    have hdst := packed_pixels_inside (n := 3) rfl (by decide) hld hw hh hfd
    refine ⟨?_, ?_⟩
    · rintro ⟨h1, h2, -⟩
      exact ⟨hsrc.mp h1, hdst.mp h2, trivial⟩
    · rintro ⟨h1, h2, -⟩
      exact ⟨hsrc.mpr h1, hdst.mpr h2, packed_in_plane _ _ _ _⟩
  · have hsrc := packed_pixels_inside (n := 1) rfl (by decide) hls hw hh hfs
    refine ⟨?_, ?_⟩
    · rintro ⟨h1, h2, -⟩
      exact ⟨hsrc.mp h1,
        yuv420p_no_wrap hld hw hh hfd (Or.inl ⟨rfl, by omega, by omega⟩) h2, trivial⟩
    · rintro ⟨h1, h2, -⟩
      exact ⟨hsrc.mpr h1, filled_inside_of_no_wrap hld h2⟩
  · -- the loop takes the pixels of a row in pairs
    have hsrc : Inside src (packed 4 ((w + 1) / 2) h) ↔ NoWrap ⟨w, h, .VF_PIXEL_FMT_YUYV⟩ := by
      rw [packed_format_inside (n := 2) rfl (by decide) hls hh hfs (by omega),
        yuyv_row_fits_iff hw, (packed_no_wrap (n := 2) rfl (by decide) hfs).2.2]
    have hdst : Inside dst (packed 6 ((w + 1) / 2) h) ↔
        NoWrap ⟨w, h, .VF_PIXEL_FMT_RGB888⟩ ∧ w % 16 ≠ 5 := by
      rw [packed_format_inside (n := 3) rfl (by decide) hld hh hfd (by omega),
        rgb_pair_fits_iff hw, (packed_no_wrap (n := 3) rfl (by decide) hfd).2.2]
    refine ⟨?_, ?_⟩
    · rintro ⟨h1, h2, -⟩
      exact ⟨hsrc.mp h1, hdst.mp h2⟩
    · rintro ⟨h1, h2⟩
      exact ⟨hsrc.mpr h1, hdst.mpr h2, packed_in_plane _ _ _ _⟩

/-- A layout without a wrap has planes that fit. -/
theorem NoWrap.fits {params : vf_fb_params_t} (h : NoWrap params) : PlaneSizesFit params :=
  fun _ hmem => Nat.lt_of_le_of_lt (List.single_le_sum (by simp) _ (List.mem_map_of_mem hmem)) h.2

/-- Even sizes are safe for each pair. -/
theorem safe_of_even (src_fmt dst_fmt : vf_pixel_fmt_t) {w h : Nat} (ew : w % 2 = 0)
    (eh : h % 2 = 0) : SafeSize src_fmt dst_fmt w h := by
  unfold SafeSize
  split
  · trivial
  · omega
  · omega
  · omega
  · omega

/-- A conversion between two frames of one size stays inside just where nothing wraps and the
size is safe. -/
theorem vf_conversion_process.inside_iff {src_fmt dst_fmt : vf_pixel_fmt_t}
    (hsup : Supported src_fmt dst_fmt) {w h : Nat} (hw : 1 ≤ w) (hh : 1 ≤ h)
    (hfs : PlaneSizesFit ⟨w, h, src_fmt⟩) (hfd : PlaneSizesFit ⟨w, h, dst_fmt⟩)
    {src dst : vf_framebuffer_t} (hps : src.params = ⟨w, h, src_fmt⟩)
    (hpd : dst.params = ⟨w, h, dst_fmt⟩) (hls : Laid src (code_planes ⟨w, h, src_fmt⟩))
    (hld : Laid dst (code_planes ⟨w, h, dst_fmt⟩)) (s d : Nat → UInt8) :
    InBounds (vf_conversion_process (vf_conversion_init src_fmt dst_fmt).2 (src.holding s)
        (dst.holding d)).2.2 src dst ↔
      NoWrap ⟨w, h, src_fmt⟩ ∧ NoWrap ⟨w, h, dst_fmt⟩ ∧ SafeSize src_fmt dst_fmt w h := by
  obtain ⟨accs, hrun, hv⟩ := vf_conversion_process.spec hsup hh hfs hfd hps hpd hls hld s d
  rw [hrun, in_bounds_iff hv]
  exact regions_inside_iff hsup hw hh hfs hfd hls hld

/-! ## The laws -/

/-- For every size whose planes fit in 32 bits, a supported conversion stays in its buffers
just when the layout does not wrap and the size is one that the pair can take. -/
theorem a_conversion_stays_inside_for_the_safe_sizes (src_fmt dst_fmt : vf_pixel_fmt_t)
    (hsup : Supported src_fmt dst_fmt) (w h : Nat) (hw : 1 ≤ w) (hh : 1 ≤ h)
    (hfs : PlaneSizesFit ⟨w, h, src_fmt⟩) (hfd : PlaneSizesFit ⟨w, h, dst_fmt⟩)
    (fb1 fb2 : vf_framebuffer_t) (s d : Nat → UInt8) :
    let src := (vf_framebuffer_alloc fb1 ⟨w, h, src_fmt⟩ true).2
    let dst := (vf_framebuffer_alloc fb2 ⟨w, h, dst_fmt⟩ true).2
    (vf_framebuffer_alloc fb1 ⟨w, h, src_fmt⟩ true).1 = .VF_SUCCESS ∧
      (vf_framebuffer_alloc fb2 ⟨w, h, dst_fmt⟩ true).1 = .VF_SUCCESS ∧
      ∃ d' accs, vf_conversion_process (vf_conversion_init src_fmt dst_fmt).2 (src.holding s)
          (dst.holding d) = (.VF_SUCCESS, dst.holding d', accs) ∧
        (InBounds accs src dst ↔
          NoWrap ⟨w, h, src_fmt⟩ ∧ NoWrap ⟨w, h, dst_fmt⟩ ∧ SafeSize src_fmt dst_fmt w h) := by
  obtain ⟨ha1, ha2⟩ := hsup.accepted
  obtain ⟨hrc1, hp1, -, hl1⟩ := vf_framebuffer_alloc.spec fb1 ⟨w, h, src_fmt⟩ ha1 hw hh hfs
  obtain ⟨hrc2, hp2, -, hl2⟩ := vf_framebuffer_alloc.spec fb2 ⟨w, h, dst_fmt⟩ ha2 hw hh hfd
  generalize (vf_framebuffer_alloc fb1 ⟨w, h, src_fmt⟩ true).2 = src at *
  generalize (vf_framebuffer_alloc fb2 ⟨w, h, dst_fmt⟩ true).2 = dst at *
  obtain ⟨accs, hrun, -⟩ := vf_conversion_process.spec hsup hh hfs hfd hp1 hp2 hl1 hl2 s d
  have hinside := vf_conversion_process.inside_iff hsup hw hh hfs hfd hp1 hp2 hl1 hl2 s d
  rw [hrun] at hinside
  exact ⟨hrc1, hrc2, _, accs, hrun, hinside⟩

/-- A YUYV frame of 3×1 pixels: an odd width with padding to spare. -/
theorem a_yuyv_frame_of_three_pixels_stays_inside :
    let src := (vf_framebuffer_alloc zeroed ⟨3, 1, .VF_PIXEL_FMT_YUYV⟩ true).2
    let dst := (vf_framebuffer_alloc zeroed ⟨3, 1, .VF_PIXEL_FMT_RGB888⟩ true).2
    ∃ d' accs, vf_conversion_process
        (vf_conversion_init .VF_PIXEL_FMT_YUYV .VF_PIXEL_FMT_RGB888).2 (src.holding fun _ => 7)
        (dst.holding fun _ => 9) = (.VF_SUCCESS, dst.holding d', accs) ∧
      InBounds accs src dst := by
  obtain ⟨-, -, d', accs, hrun, hiff⟩ := a_conversion_stays_inside_for_the_safe_sizes
    .VF_PIXEL_FMT_YUYV .VF_PIXEL_FMT_RGB888 (by decide) 3 1 (by decide) (by decide) (by decide)
    (by decide) zeroed zeroed (fun _ => 7) fun _ => 9
  exact ⟨d', accs, hrun, hiff.mpr ⟨⟨by decide, by decide⟩, ⟨by decide, by decide⟩,
    (by decide : 3 % 16 ≠ 5)⟩⟩

/-- An RGB frame of 2×1 pixels: the destination has 16 bytes of luma and no chroma, and the
conversion stores U at byte 16. -/
theorem an_odd_height_leaves_the_buffer :
    let src := (vf_framebuffer_alloc zeroed ⟨2, 1, .VF_PIXEL_FMT_RGB888⟩ true).2
    let dst := (vf_framebuffer_alloc zeroed ⟨2, 1, .VF_PIXEL_FMT_YUV420P⟩ true).2
    PlaneSizesFit src.params ∧ PlaneSizesFit dst.params ∧ dst.total_size = 16 ∧
      ¬ InBounds (vf_conversion_process
        (vf_conversion_init .VF_PIXEL_FMT_RGB888 .VF_PIXEL_FMT_YUV420P).2 src dst).2.2 src dst := by
  refine ⟨by decide, by decide, by decide, fun hin => ?_⟩
  have h16 := (hin.2 1 16 128 (by decide)).1
  exact absurd h16 (by decide)

/-- For even sizes whose layouts do not wrap, each supported conversion succeeds and stays in
its buffers. Each pixel byte of the destination gets its BT.601 value, computed from the
source's pixels. The padding of the destination's rows is what it was, but for the constant
chroma of RAW8 to YUV420P, which fills the padding too. -/
theorem each_pixel_gets_its_bt601_value (src_fmt dst_fmt : vf_pixel_fmt_t)
    (hsup : Supported src_fmt dst_fmt) (w h : Nat) (hw : 1 ≤ w) (hh : 1 ≤ h) (ew : w % 2 = 0)
    (eh : h % 2 = 0) (hns : NoWrap ⟨w, h, src_fmt⟩) (hnd : NoWrap ⟨w, h, dst_fmt⟩)
    (fb1 fb2 : vf_framebuffer_t) (s d : Nat → UInt8) :
    let src := (vf_framebuffer_alloc fb1 ⟨w, h, src_fmt⟩ true).2
    let dst := (vf_framebuffer_alloc fb2 ⟨w, h, dst_fmt⟩ true).2
    (vf_framebuffer_alloc fb1 ⟨w, h, src_fmt⟩ true).1 = .VF_SUCCESS ∧
      (vf_framebuffer_alloc fb2 ⟨w, h, dst_fmt⟩ true).1 = .VF_SUCCESS ∧
      (vf_conversion_init src_fmt dst_fmt).1 = .VF_SUCCESS ∧
      (Laid src (planes ⟨w, h, src_fmt⟩) ∧ Laid dst (planes ⟨w, h, dst_fmt⟩)) ∧
      ∃ d' accs, vf_conversion_process (vf_conversion_init src_fmt dst_fmt).2 (src.holding s)
          (dst.holding d) = (.VF_SUCCESS, dst.holding d', accs) ∧ InBounds accs src dst ∧
        ∀ i < dst.num_planes, ∀ row < dst.plane_height i,
          (∀ col < dst.plane_line_size i, d' (byte_at dst i row col) =
            bt601 src_fmt dst_fmt (picture src s) i row col) ∧
          (∀ col, dst.plane_line_size i ≤ col → col < dst.plane_stride i →
            d' (byte_at dst i row col) =
              if src_fmt = .VF_PIXEL_FMT_RAW8 ∧ dst_fmt = .VF_PIXEL_FMT_YUV420P ∧ i ≠ 0
              then 128 else d (byte_at dst i row col)) := by
  obtain ⟨ha1, ha2⟩ := hsup.accepted
  obtain ⟨hrc1, hp1, -, hl1⟩ := vf_framebuffer_alloc.spec fb1 ⟨w, h, src_fmt⟩ ha1 hw hh hns.fits
  obtain ⟨hrc2, hp2, -, hl2⟩ := vf_framebuffer_alloc.spec fb2 ⟨w, h, dst_fmt⟩ ha2 hw hh hnd.fits
  have hinit : (vf_conversion_init src_fmt dst_fmt).1 = .VF_SUCCESS := by
    obtain ⟨fn, hfn⟩ := Option.isSome_iff_exists.mp hsup
    simp [vf_conversion_init, hfn]
  rw [← code_planes_eq _ hns.1, ← code_planes_eq _ hnd.1]
  refine ⟨hrc1, hrc2, hinit, ⟨hl1, hl2⟩, ?_⟩
  obtain ⟨d', accs, hrun, hpix⟩ := vf_conversion_process.even_spec hsup hh ew eh hns.fits hnd.fits
    hnd.1 hp1 hp2 hl1 hl2 s d
  have hinside := (vf_conversion_process.inside_iff hsup hw hh hns.fits hnd.fits hp1 hp2 hl1 hl2
    s d).mpr ⟨hns, hnd, safe_of_even src_fmt dst_fmt ew eh⟩
  rw [hrun] at hinside
  exact ⟨d', accs, hrun, hinside, hpix⟩

/-- A 2×2 grey frame: the last pixel's luma. -/
theorem a_small_frame_gets_its_bt601_values :
    let src := (vf_framebuffer_alloc zeroed ⟨2, 2, .VF_PIXEL_FMT_RGB888⟩ true).2
    let dst := (vf_framebuffer_alloc zeroed ⟨2, 2, .VF_PIXEL_FMT_NV12⟩ true).2
    ∃ d' accs, vf_conversion_process
        (vf_conversion_init .VF_PIXEL_FMT_RGB888 .VF_PIXEL_FMT_NV12).2 (src.holding fun _ => 7)
        (dst.holding fun _ => 9) = (.VF_SUCCESS, dst.holding d', accs) ∧
      InBounds accs src dst ∧ d' (byte_at dst 0 1 1) = rgb_to_y 7 7 7 := by
  obtain ⟨-, -, -, -, d', accs, hrun, hinside, hpix⟩ := each_pixel_gets_its_bt601_value
    .VF_PIXEL_FMT_RGB888 .VF_PIXEL_FMT_NV12 (by decide) 2 2 (by decide) (by decide) (by decide)
    (by decide) ⟨by decide, by decide⟩ ⟨by decide, by decide⟩ zeroed zeroed (fun _ => 7) fun _ => 9
  exact ⟨d', accs, hrun, hinside, (hpix 0 (by decide) 1 (by decide)).1 1 (by decide)⟩

/-- RAW8 to YUV420P fills the padding of the chroma rows: in a 2×2 frame byte 33 is padding,
and changes from 0 to 128. -/
theorem the_padding_is_filled :
    let src := (vf_framebuffer_alloc zeroed ⟨2, 2, .VF_PIXEL_FMT_RAW8⟩ true).2
    let dst := (vf_framebuffer_alloc zeroed ⟨2, 2, .VF_PIXEL_FMT_YUV420P⟩ true).2
    (dst.plane_line_size 1 ≤ 1 ∧ 1 < dst.plane_stride 1 ∧ byte_at dst 1 0 1 = 33) ∧
      (dst.data.map fun d => d 33) = some 0 ∧
      ((vf_conversion_process (vf_conversion_init .VF_PIXEL_FMT_RAW8 .VF_PIXEL_FMT_YUV420P).2
        src dst).2.1.data.map fun d => d 33) = some 128 := by
  refine ⟨by decide, by decide, by decide⟩

end vision_flow.conversion
