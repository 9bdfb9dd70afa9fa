-- Packed frames: the bytes of a frame's pixels without the padding, plane by plane and row
-- by row, as a file holds them. A file of one frame is a picture, and a frame that is
-- filled from it, converted and written gives the packed BT.601 picture, whatever the two
-- framebuffers held before.
import VisionFlow.ConversionMap
import VisionFlow.FrameFile

open memory

namespace vision_flow.packed_frames

open framebuffer conversion

/-! ## The pure model -/

/-- The plane, row and column of each pixel byte, from plane `i` on, in the order of a file. -/
def pixels_from : Nat → List Plane → List (Nat × Nat × Nat)
  | _, [] => []
  | i, p :: rest =>
    (List.range p.height).flatMap (fun row => (List.range p.line_size).map fun col => (i, row, col))
      ++ pixels_from (i + 1) rest

def pixels (params : vf_fb_params_t) : List (Nat × Nat × Nat) := pixels_from 0 (planes params)

/-- How many bytes a packed frame has. -/
def frame_size (params : vf_fb_params_t) : Nat :=
  ((planes params).map fun p => p.line_size * p.height).sum

/-- The packed bytes of a picture. -/
def pack (params : vf_fb_params_t) (S : Picture) : List UInt8 :=
  (pixels params).map fun c => S c.1 c.2.1 c.2.2

/-- The picture that packed bytes show. -/
def unpack (params : vf_fb_params_t) (bytes : List UInt8) : Picture :=
  fun i row col => bytes[(pixels params).idxOf (i, row, col)]?.getD 0

/-- The packed bytes of the conversion of a packed frame. -/
def converted (src_fmt dst_fmt : vf_pixel_fmt_t) (w h : Nat) (bytes : List UInt8) : List UInt8 :=
  pack ⟨w, h, dst_fmt⟩ (bt601 src_fmt dst_fmt (unpack ⟨w, h, src_fmt⟩ bytes))

/-! ## Pixels -/

theorem mem_pixels_from {i row col n : Nat} {ps : List Plane} :
    (i, row, col) ∈ pixels_from n ps ↔ n ≤ i ∧ i < n + ps.length ∧
      row < (plane_at ps (i - n)).height ∧ col < (plane_at ps (i - n)).line_size := by
  induction ps generalizing n with
  | nil =>
    simp only [pixels_from, List.not_mem_nil, List.length_nil, false_iff]
    omega
  | cons p rest ih =>
    simp only [pixels_from, List.mem_append, List.mem_flatMap, List.mem_range, List.mem_map,
      Prod.mk.injEq, ih, List.length_cons]
    constructor
    · rintro (⟨_, hrow, _, hcol, rfl, rfl, rfl⟩ | ⟨h1, h2, h3⟩)
      · rw [Nat.sub_self]
        exact ⟨Nat.le_refl _, by omega, hrow, hcol⟩
      · have hi : i - n = (i - (n + 1)) + 1 := by omega
        rw [hi]
        exact ⟨by omega, by omega, h3⟩
    · rintro ⟨h1, h2, h3, h4⟩
      by_cases hn : n = i
      · subst hn
        rw [Nat.sub_self] at h3 h4
        exact Or.inl ⟨row, h3, col, h4, rfl, rfl, rfl⟩
      · have hi : i - n = (i - (n + 1)) + 1 := by omega
        rw [hi] at h3 h4
        exact Or.inr ⟨by omega, by omega, h3, h4⟩

theorem mem_pixels {i row col : Nat} {params : vf_fb_params_t} :
    (i, row, col) ∈ pixels params ↔ i < (planes params).length ∧
      row < (plane_at (planes params) i).height ∧
      col < (plane_at (planes params) i).line_size := by
  simp [pixels, mem_pixels_from]

theorem length_pixels_from (n : Nat) (ps : List Plane) :
    (pixels_from n ps).length = (ps.map fun p => p.line_size * p.height).sum := by
  induction ps generalizing n with
  | nil => rfl
  | cons p rest ih => simp [pixels_from, ih, Nat.mul_comm]

theorem length_pixels (params : vf_fb_params_t) : (pixels params).length = frame_size params :=
  length_pixels_from 0 _

@[simp] theorem length_pack (params : vf_fb_params_t) (S : Picture) :
    (pack params S).length = frame_size params := by
  simp [pack, length_pixels]

/-- Two pictures pack to the same bytes just where they agree on the pixels. -/
theorem pack_inj {params : vf_fb_params_t} {S T : Picture} :
    pack params S = pack params T ↔
      ∀ i row col, (i, row, col) ∈ pixels params → S i row col = T i row col := by
  unfold pack
  rw [List.map_inj_left]
  simp only [Prod.forall]

theorem nodup_pixels_from (n : Nat) (ps : List Plane) : (pixels_from n ps).Nodup := by
  induction ps generalizing n with
  | nil => exact List.nodup_nil
  | cons p rest ih =>
    refine List.nodup_append.mpr ⟨?_, ih _, ?_⟩
    · refine List.nodup_flatMap.mpr ⟨?_, ?_⟩
      · intro row _
        exact List.nodup_range.map fun a b hab => by simpa using hab
      · refine List.nodup_range.imp ?_
        intro a b hab c hca hcb
        obtain ⟨_, _, rfl⟩ := List.mem_map.mp hca
        obtain ⟨_, _, he⟩ := List.mem_map.mp hcb
        exact hab (congrArg (fun t => t.2.1) he).symm
    · rintro ⟨i, row, col⟩ ha b hb rfl
      obtain ⟨_, _, hmem⟩ := List.mem_flatMap.mp ha
      obtain ⟨_, _, he⟩ := List.mem_map.mp hmem
      have hi := (mem_pixels_from.mp hb).1
      have : n = i := congrArg Prod.fst he
      omega

/-- The bytes of one frame are the packed bytes of the picture that they show. -/
theorem pack_unpack {params : vf_fb_params_t} {bytes : List UInt8}
    (h : bytes.length = frame_size params) : pack params (unpack params bytes) = bytes := by
  have hlen : (pixels params).length = bytes.length := by rw [length_pixels, h]
  apply List.ext_getElem
  · rw [length_pack, h]
  · intro k h1 h2
    have hk : k < (pixels params).length := by rw [hlen]; exact h2
    have hidx := (nodup_pixels_from 0 (planes params)).idxOf_getElem k hk
    simp only [pack, unpack, List.getElem_map, Prod.mk.eta]
    rw [show (pixels params).idxOf (pixels params)[k] = k from hidx,
      List.getElem?_eq_getElem h2, Option.getD_some]

/-! ## The pixels of a framebuffer -/

theorem row_cells_eq (l s n p : Nat) : row_cells l s n p =
    (List.range n).flatMap fun row => (List.range l).map fun col => p + row * s + col := by
  induction n generalizing p with
  | zero => rfl
  | succ n ih =>
    rw [row_cells, ih, List.range_succ_eq_map, List.flatMap_cons, List.flatMap_map,
      List.range'_eq_map_range]
    congr 1
    · simp
    · apply List.flatMap_congr
      intro row _
      apply List.map_congr_left
      intro col _
      rw [Nat.succ_mul]
      omega

/-- The addresses of a frame's pixels, in the order of a file. -/
theorem cells_eq {fb : vf_framebuffer_t} {ps : List Plane} (ha : Arrays fb ps) :
    cells ps 0 = (pixels_from 0 ps).map fun c => byte_at fb c.1 c.2.1 c.2.2 := by
  have hfrom : ∀ (qs : List Plane) (n : Nat), ps.drop n = qs →
      cells qs (plane_start fb n) =
        (pixels_from n qs).map fun c => byte_at fb c.1 c.2.1 c.2.2 := by
    intro qs
    induction qs with
    | nil =>
      intro n _
      rfl
    | cons p rest ih =>
      intro n hdrop
      have hp : plane_at ps n = p := by
        have h := congrArg (·[0]?) hdrop
        simp only [List.getElem?_drop, Nat.add_zero, List.getElem?_cons_zero] at h
        simp [plane_at, h]
      have hrest := ih (n + 1) (by rw [← List.drop_drop, hdrop, List.drop_one, List.tail_cons])
      rw [plane_start_succ, ha.size, hp] at hrest
      rw [cells, pixels_from, List.map_append, hrest, row_cells_eq, List.map_flatMap]
      simp only [List.map_map, Function.comp_def, byte_at, ha.stride, hp]
  exact hfrom ps 0 rfl

/-! ## Conversions of packed frames -/

section
variable {S T : Picture} {w h : Nat}

/-- Pictures that pack to the same bytes agree on the pixels of a plane. -/
theorem byte_congr {fmt : vf_pixel_fmt_t} {i row col : Nat}
    (hST : pack ⟨w, h, fmt⟩ S = pack ⟨w, h, fmt⟩ T) (hi : i < (planes ⟨w, h, fmt⟩).length)
    (hrow : row < (plane_at (planes ⟨w, h, fmt⟩) i).height)
    (hcol : col < (plane_at (planes ⟨w, h, fmt⟩) i).line_size) : S i row col = T i row col :=
  pack_inj.mp hST i row col (mem_pixels.mpr ⟨hi, hrow, hcol⟩)

theorem rgb888_congr (hST : pack ⟨w, h, .VF_PIXEL_FMT_RGB888⟩ S =
    pack ⟨w, h, .VF_PIXEL_FMT_RGB888⟩ T) {x y : Nat} (hx : x < w) (hy : y < h) :
    rgb888 S x y = rgb888 T x y := by
  have hbyte : ∀ col < w * 24 / 8, S 0 y col = T 0 y col :=
    fun col hcol => byte_congr hST Nat.one_pos hy hcol
  unfold rgb888
  rw [hbyte (3 * x) (by omega), hbyte (3 * x + 1) (by omega), hbyte (3 * x + 2) (by omega)]

theorem bgr888_congr (hST : pack ⟨w, h, .VF_PIXEL_FMT_BGR888⟩ S =
    pack ⟨w, h, .VF_PIXEL_FMT_BGR888⟩ T) {x y : Nat} (hx : x < w) (hy : y < h) :
    bgr888 S x y = bgr888 T x y := by
  have hbyte : ∀ col < w * 24 / 8, S 0 y col = T 0 y col :=
    fun col hcol => byte_congr hST Nat.one_pos hy hcol
  unfold bgr888
  rw [hbyte (3 * x) (by omega), hbyte (3 * x + 1) (by omega), hbyte (3 * x + 2) (by omega)]

theorem raw8_congr (hST : pack ⟨w, h, .VF_PIXEL_FMT_RAW8⟩ S = pack ⟨w, h, .VF_PIXEL_FMT_RAW8⟩ T)
    {x y : Nat} (hx : x < w) (hy : y < h) : S 0 y x = T 0 y x := by
  have hline : x < w * 8 / 8 := by omega
  exact byte_congr hST Nat.one_pos hy hline

theorem yuyv_congr (ew : w % 2 = 0) (hST : pack ⟨w, h, .VF_PIXEL_FMT_YUYV⟩ S =
    pack ⟨w, h, .VF_PIXEL_FMT_YUYV⟩ T) {x y : Nat} (hx : x < w) (hy : y < h) :
    yuyv S x y = yuyv T x y := by
  have hbyte : ∀ col < w * 16 / 8, S 0 y col = T 0 y col :=
    fun col hcol => byte_congr hST Nat.one_pos hy hcol
  unfold yuyv
  rw [hbyte (2 * x) (by omega), hbyte (4 * (x / 2) + 1) (by omega),
    hbyte (4 * (x / 2) + 3) (by omega)]

theorem yuv420p_congr (ew : w % 2 = 0) (eh : h % 2 = 0)
    (hST : pack ⟨w, h, .VF_PIXEL_FMT_YUV420P⟩ S = pack ⟨w, h, .VF_PIXEL_FMT_YUV420P⟩ T)
    {x y : Nat} (hx : x < w) (hy : y < h) : yuv420p S x y = yuv420p T x y := by
  have hluma : S 0 y x = T 0 y x := byte_congr hST (by decide : 0 < 3) hy hx
  have hrow : y / 2 < h / 2 := by omega
  have hcol : x / 2 < w / 2 := by omega
  have hu : S 1 (y / 2) (x / 2) = T 1 (y / 2) (x / 2) :=
    byte_congr hST (by decide : 1 < 3) hrow hcol
  have hv : S 2 (y / 2) (x / 2) = T 2 (y / 2) (x / 2) :=
    byte_congr hST (by decide : 2 < 3) hrow hcol
  unfold yuv420p
  rw [hluma, hu, hv]

theorem nv12_congr (ew : w % 2 = 0) (eh : h % 2 = 0)
    (hST : pack ⟨w, h, .VF_PIXEL_FMT_NV12⟩ S = pack ⟨w, h, .VF_PIXEL_FMT_NV12⟩ T)
    {x y : Nat} (hx : x < w) (hy : y < h) : nv12 S x y = nv12 T x y := by
  have hluma : S 0 y x = T 0 y x := byte_congr hST (by decide : 0 < 2) hy hx
  have hrow : y / 2 < h / 2 := by omega
  have hchroma : ∀ col < w, S 1 (y / 2) col = T 1 (y / 2) col :=
    fun col hcol => byte_congr hST (by decide : 1 < 2) hrow hcol
  unfold nv12
  rw [hluma, hchroma (2 * (x / 2)) (by omega), hchroma (2 * (x / 2) + 1) (by omega)]

/-- Images that agree are stored as the same packed bytes. -/
theorem store_rgb888_congr {I J : Nat → Nat → Rgb} (hIJ : ∀ x < w, ∀ y < h, I x y = J x y) :
    pack ⟨w, h, .VF_PIXEL_FMT_RGB888⟩ (store_rgb888 I) =
      pack ⟨w, h, .VF_PIXEL_FMT_RGB888⟩ (store_rgb888 J) := by
  rw [pack_inj]
  intro i row col hmem
  obtain ⟨hi, hrow, hcol⟩ := mem_pixels.mp hmem
  obtain rfl : i = 0 := Nat.lt_one_iff.mp hi
  have hline : col < w * 24 / 8 := hcol
  unfold store_rgb888
  rw [hIJ (col / 3) (by omega) row hrow]

theorem store_yuv420p_congr {I J : Nat → Nat → Yuv} (hIJ : ∀ x < w, ∀ y < h, I x y = J x y) :
    pack ⟨w, h, .VF_PIXEL_FMT_YUV420P⟩ (store_yuv420p I) =
      pack ⟨w, h, .VF_PIXEL_FMT_YUV420P⟩ (store_yuv420p J) := by
  rw [pack_inj]
  intro i row col hmem
  obtain ⟨hi, hrow, hcol⟩ := mem_pixels.mp hmem
  have hchroma : row < h / 2 → col < w / 2 → I (2 * col) (2 * row) = J (2 * col) (2 * row) :=
    fun hr hc => hIJ _ (by omega) _ (by omega)
  rcases i with _ | _ | _ | i
  · exact congrArg Yuv.y (hIJ col hcol row hrow)
  · exact congrArg Yuv.u (hchroma hrow hcol)
  · exact congrArg Yuv.v (hchroma hrow hcol)
  · have : i + 3 < 3 := hi
    omega

theorem store_nv12_congr (ew : w % 2 = 0) {I J : Nat → Nat → Yuv}
    (hIJ : ∀ x < w, ∀ y < h, I x y = J x y) :
    pack ⟨w, h, .VF_PIXEL_FMT_NV12⟩ (store_nv12 I) =
      pack ⟨w, h, .VF_PIXEL_FMT_NV12⟩ (store_nv12 J) := by
  rw [pack_inj]
  intro i row col hmem
  obtain ⟨hi, hrow, hcol⟩ := mem_pixels.mp hmem
  rcases i with _ | _ | i
  · exact congrArg Yuv.y (hIJ col hcol row hrow)
  · have hr : row < h / 2 := hrow
    have hc : col < w := hcol
    simp only [store_nv12, hIJ (2 * (col / 2)) (by omega) (2 * row) (by omega)]
  · have : i + 2 < 2 := hi
    omega

/-- Where two sources agree on the pixels, their BT.601 pictures do. -/
theorem bt601_congr {src_fmt dst_fmt : vf_pixel_fmt_t} (hsup : Supported src_fmt dst_fmt)
    (ew : w % 2 = 0) (eh : h % 2 = 0)
    (hST : pack ⟨w, h, src_fmt⟩ S = pack ⟨w, h, src_fmt⟩ T) :
    pack ⟨w, h, dst_fmt⟩ (bt601 src_fmt dst_fmt S) =
      pack ⟨w, h, dst_fmt⟩ (bt601 src_fmt dst_fmt T) := by
  have hfmt := hsup.mem
  simp only [g_conversion_table, List.map_cons, List.map_nil, List.mem_cons, List.not_mem_nil,
    or_false, Prod.mk.injEq] at hfmt
  rcases hfmt with ⟨rfl, rfl⟩ | ⟨rfl, rfl⟩ | ⟨rfl, rfl⟩ | ⟨rfl, rfl⟩ | ⟨rfl, rfl⟩ | ⟨rfl, rfl⟩ |
    ⟨rfl, rfl⟩ | ⟨rfl, rfl⟩
  · exact store_yuv420p_congr fun x hx y hy => congrArg Rgb.to_yuv (rgb888_congr hST hx hy)
  · exact store_yuv420p_congr fun x hx y hy => congrArg Rgb.to_yuv (bgr888_congr hST hx hy)
  · exact store_rgb888_congr fun x hx y hy => congrArg Yuv.to_rgb (yuv420p_congr ew eh hST hx hy)
  · exact store_nv12_congr ew fun x hx y hy => congrArg Rgb.to_yuv (rgb888_congr hST hx hy)
  · exact store_rgb888_congr fun x hx y hy => congrArg Yuv.to_rgb (nv12_congr ew eh hST hx hy)
  · exact store_rgb888_congr fun x hx y hy => congrArg grey (raw8_congr hST hx hy)
  · exact store_yuv420p_congr fun x hx y hy =>
      congrArg (fun v => Yuv.mk v 128 128) (raw8_congr hST hx hy)
  · exact store_rgb888_congr fun x hx y hy => congrArg Yuv.to_rgb (yuyv_congr ew hST hx hy)

end

/-! ## A file through two framebuffers -/

/-- The frame with the bytes `d` is written as `out`. -/
def WrittenAs (dst : vf_framebuffer_t) (d : Nat → UInt8) (out : List UInt8) : Prop :=
  ∀ b w, ∃ n, vf_framebuffer_write_to_fptr (dst.holding d) (at_end b) w =
    (.VF_SUCCESS, at_end (b ++ out), n)

/-- The conversion of the frame with the bytes `s` succeeds, and its result is written as an
output that is allowed, whatever the destination held before. -/
def ConvertsTo (src_fmt dst_fmt : vf_pixel_fmt_t) (src dst : vf_framebuffer_t)
    (s : Nat → UInt8) (Out : List UInt8 → Prop) : Prop :=
  ∀ d0 : Nat → UInt8, ∃ d accs out,
    vf_conversion_process (vf_conversion_init src_fmt dst_fmt).2 (src.holding s)
        (dst.holding d0) = (.VF_SUCCESS, dst.holding d, accs) ∧
      WrittenAs dst d out ∧ Out out

/-- A file with these bytes can be read, and converted to an output that is allowed, whatever
the source held before. -/
def TurnsInto (src_fmt dst_fmt : vf_pixel_fmt_t) (src dst : vf_framebuffer_t)
    (bytes : List UInt8) (Out : List UInt8 → Prop) : Prop :=
  ∀ s0 : Nat → UInt8, ∃ s f r,
    vf_framebuffer_read_from_fptr (src.holding s0) ⟨bytes, 0, none⟩ 0 =
        (.VF_SUCCESS, src.holding s, f, r) ∧
      ConvertsTo src_fmt dst_fmt src dst s Out

section
variable {fb : vf_framebuffer_t} {params : vf_fb_params_t}

/-- A frame is written as its pixels. -/
theorem written_as (hl : Laid fb (code_planes params)) (d : Nat → UInt8) :
    WrittenAs fb d ((cells (code_planes params) 0).map d) := by
  intro b w
  have hs : Shrinking (code_planes params) := fun i => code_planes_stop params
  exact ⟨_, vf_framebuffer_write_to_fptr.spec hl.toArrays hs (code_planes_length params) d b w⟩

/-- A file of one frame fills the pixels. -/
theorem read_packed (hl : Laid fb (code_planes params)) (s0 : Nat → UInt8) {bytes : List UInt8}
    (hlen : bytes.length = (cells (code_planes params) 0).length) :
    ∃ s f r, vf_framebuffer_read_from_fptr (fb.holding s0) ⟨bytes, 0, none⟩ 0 =
        (.VF_SUCCESS, fb.holding s, f, r) ∧ (cells (code_planes params) 0).map s = bytes := by
  have hs : Shrinking (code_planes params) := fun i => code_planes_stop params
  have hr := vf_framebuffer_read_from_fptr.spec hl.toArrays hs (code_planes_length params) s0 []
    bytes [] none 0 hlen
  rw [List.append_nil, List.nil_append, List.length_nil] at hr
  exact ⟨_, _, _, hr, map_write_all_zip s0 _ bytes (nodup_cells _ 0) hlen.symm⟩

/-- The pixels of a frame whose rows do not wrap are its packed picture. -/
theorem map_cells (hl : Laid fb (code_planes params))
    (hrow : params.width * vf_pixel_fmt_bpp params.format < 2 ^ 32) (d : Nat → UInt8) :
    (cells (code_planes params) 0).map d = pack params (picture fb d) := by
  rw [cells_eq hl.toArrays, code_planes_eq params hrow, List.map_map]
  rfl

theorem length_cells_eq (params : vf_fb_params_t)
    (hrow : params.width * vf_pixel_fmt_bpp params.format < 2 ^ 32) :
    (cells (code_planes params) 0).length = frame_size params := by
  rw [length_cells, code_planes_eq params hrow, frame_size]

end

section
variable {src_fmt dst_fmt : vf_pixel_fmt_t} {w h : Nat} {src dst : vf_framebuffer_t}

/-- Where no row wraps, a file of one frame becomes its packed conversion. -/
theorem turns_into_converted (hsup : Supported src_fmt dst_fmt) (hh : 1 ≤ h) (ew : w % 2 = 0)
    (eh : h % 2 = 0) (hfs : PlaneSizesFit ⟨w, h, src_fmt⟩) (hfd : PlaneSizesFit ⟨w, h, dst_fmt⟩)
    (hrs : w * vf_pixel_fmt_bpp src_fmt < 2 ^ 32) (hrd : w * vf_pixel_fmt_bpp dst_fmt < 2 ^ 32)
    (hps : src.params = ⟨w, h, src_fmt⟩) (hpd : dst.params = ⟨w, h, dst_fmt⟩)
    (hls : Laid src (code_planes ⟨w, h, src_fmt⟩)) (hld : Laid dst (code_planes ⟨w, h, dst_fmt⟩))
    {bytes : List UInt8} (hlen : bytes.length = frame_size ⟨w, h, src_fmt⟩) :
    TurnsInto src_fmt dst_fmt src dst bytes (· = converted src_fmt dst_fmt w h bytes) := by
  intro s0
  obtain ⟨s, f, r, hread, hs⟩ := read_packed hls s0 (hlen.trans (length_cells_eq _ hrs).symm)
  refine ⟨s, f, r, hread, ?_⟩
  intro d0
  obtain ⟨d, accs, hrun, hd⟩ :=
    vf_conversion_process.even_spec hsup hh ew eh hfs hfd hrd hps hpd hls hld s d0
  refine ⟨d, accs, _, hrun, written_as hld d, ?_⟩
  -- the source shows the file, and the destination its BT.601 picture
  have hsrc : pack ⟨w, h, src_fmt⟩ (picture src s) =
      pack ⟨w, h, src_fmt⟩ (unpack ⟨w, h, src_fmt⟩ bytes) := by
    rw [← map_cells hls hrs, hs, pack_unpack hlen]
  have hdst : pack ⟨w, h, dst_fmt⟩ (picture dst d) =
      pack ⟨w, h, dst_fmt⟩ (bt601 src_fmt dst_fmt (picture src s)) := by
    rw [pack_inj]
    intro i row col hmem
    obtain ⟨hi, hrow, hcol⟩ := mem_pixels.mp hmem
    rw [← code_planes_eq _ hrd] at hi hrow hcol
    exact (hd i (hld.num_planes ▸ hi) row (hld.height i ▸ hrow)).1 col (hld.line_size i ▸ hcol)
  rw [map_cells hld hrd, hdst, bt601_congr hsup ew eh hsrc, converted]

end

end vision_flow.packed_frames
