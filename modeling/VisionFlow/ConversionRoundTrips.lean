-- Two conversions in a row. RGB888 to a planar format and back costs a rounding error in
-- each channel, and stays in its buffers where no layout wraps. RAW8 to RGB888 through
-- YUV420P is not RAW8 to RGB888: the converter stores the grey value as luma, and the
-- decoder takes luma to lie between 16 and 235.
import VisionFlow.ConversionBounds

open access

namespace vision_flow.conversion

open framebuffer

/-! ## The pure model -/

/-- Two bytes are at most `n` apart. -/
def Near (n : Nat) (a b : UInt8) : Prop := a.toNat ≤ b.toNat + n ∧ b.toNat ≤ a.toNat + n

instance (n : Nat) (a b : UInt8) : Decidable (Near n a b) := inferInstanceAs (Decidable (_ ∧ _))

/-- The grey values that are at most 2 away from what the decoder makes of them as luma. -/
def SameInBothRanges (v : UInt8) : Prop :=
  v.toNat ≤ 2 ∨ (99 ≤ v.toNat ∧ v.toNat ≤ 128) ∨ 253 ≤ v.toNat

instance (v : UInt8) : Decidable (SameInBothRanges v) := inferInstanceAs (Decidable (_ ∨ _ ∨ _))

/-- Each aligned 2×2 block of the image has one color. -/
def BlockConstant (w h : Nat) (I : Nat → Nat → Rgb) : Prop :=
  ∀ y < h, ∀ x < w, I x y = I (2 * (x / 2)) (2 * (y / 2))

/-- The conversion from one format to another through a third. -/
def through (src_fmt mid_fmt dst_fmt : vf_pixel_fmt_t) (src mid dst : vf_framebuffer_t) :
    vf_err_t × vf_framebuffer_t :=
  let first := vf_conversion_process (vf_conversion_init src_fmt mid_fmt).2 src mid
  if first.1 ≠ .VF_SUCCESS then
    (first.1, dst)
  else
    let second := vf_conversion_process (vf_conversion_init mid_fmt dst_fmt).2 first.2.1 dst
    (second.1, second.2.1)

/-- Both conversions stay in their buffers. -/
def ThroughInBounds (src_fmt mid_fmt dst_fmt : vf_pixel_fmt_t) (src mid dst : vf_framebuffer_t) :
    Prop :=
  let first := vf_conversion_process (vf_conversion_init src_fmt mid_fmt).2 src mid
  InBounds first.2.2 src mid ∧
    InBounds (vf_conversion_process (vf_conversion_init mid_fmt dst_fmt).2 first.2.1 dst).2.2
      mid dst

/-- The image comes back from YUV420P in bounds and with a small error, and from NV12 in
bounds and as it does from YUV420P. The frames hold `m`, `n`, `d` and `e` before. -/
def LosesLittle (w h : Nat) (src yuv nv dst : vf_framebuffer_t) (s m n d e : Nat → UInt8) : Prop :=
  let original := rgb888 (picture src s)
  ThroughInBounds .VF_PIXEL_FMT_RGB888 .VF_PIXEL_FMT_YUV420P .VF_PIXEL_FMT_RGB888
      (src.holding s) (yuv.holding m) (dst.holding d) ∧
    ThroughInBounds .VF_PIXEL_FMT_RGB888 .VF_PIXEL_FMT_NV12 .VF_PIXEL_FMT_RGB888
      (src.holding s) (nv.holding n) (dst.holding e) ∧
    ∃ d' e', through .VF_PIXEL_FMT_RGB888 .VF_PIXEL_FMT_YUV420P .VF_PIXEL_FMT_RGB888
          (src.holding s) (yuv.holding m) (dst.holding d) = (.VF_SUCCESS, dst.holding d') ∧
      through .VF_PIXEL_FMT_RGB888 .VF_PIXEL_FMT_NV12 .VF_PIXEL_FMT_RGB888
          (src.holding s) (nv.holding n) (dst.holding e) = (.VF_SUCCESS, dst.holding e') ∧
      ∀ y < h, ∀ x < w,
        (Near 2 (rgb888 (picture dst d') x y).r (original x y).r ∧
          Near 2 (rgb888 (picture dst d') x y).g (original x y).g ∧
          Near 3 (rgb888 (picture dst d') x y).b (original x y).b) ∧
        rgb888 (picture dst e') x y = rgb888 (picture dst d') x y

/-- RAW8 to RGB888 alone and through YUV420P: both stay in bounds, and give almost the same
image. -/
def GreyPathsAgree (w h : Nat) (src yuv dst : vf_framebuffer_t) (s m d e : Nat → UInt8) : Prop :=
  let alone := vf_conversion_process
    (vf_conversion_init .VF_PIXEL_FMT_RAW8 .VF_PIXEL_FMT_RGB888).2 (src.holding s) (dst.holding d)
  InBounds alone.2.2 src dst ∧
    ThroughInBounds .VF_PIXEL_FMT_RAW8 .VF_PIXEL_FMT_YUV420P .VF_PIXEL_FMT_RGB888
      (src.holding s) (yuv.holding m) (dst.holding e) ∧
    ∃ d' e' accs, alone = (.VF_SUCCESS, dst.holding d', accs) ∧
      through .VF_PIXEL_FMT_RAW8 .VF_PIXEL_FMT_YUV420P .VF_PIXEL_FMT_RGB888
          (src.holding s) (yuv.holding m) (dst.holding e) = (.VF_SUCCESS, dst.holding e') ∧
      ∀ y < h, ∀ x < w, ∀ k < 3,
        Near 2 (picture dst e' 0 y (3 * x + k)) (picture dst d' 0 y (3 * x + k))

/-! ## Rounding -/

theorem shift_eight (x : Int) : x >>> 8 = x / 256 :=
  (Int.shiftRight_natCast_right x 8).trans (Int.shiftRight_eq_div_pow x 8)

theorem clip_value (x : Int) : ((CLIP_U8 x).toNat : Int) = max 0 (min x 255) := by
  unfold CLIP_U8
  by_cases h0 : x < 0
  · rw [if_pos h0]
    have : ((0 : UInt8).toNat : Int) = 0 := rfl
    omega
  · by_cases h1 : x > 255
    · rw [if_neg h0, if_pos h1]
      have : ((255 : UInt8).toNat : Int) = 255 := rfl
      omega
    · rw [if_neg h0, if_neg h1, UInt8.toNat_ofNat']
      omega

/-- Clipping does not move a value away from a byte. -/
theorem near_clip {n : Nat} {x : Int} {b : UInt8} (h1 : x ≤ b.toNat + n) (h2 : b.toNat ≤ x + n) :
    Near n (CLIP_U8 x) b := by
  have hc := clip_value x
  have hb := b.toNat_lt
  unfold Near
  omega

/-- The encoded values of a color need no clipping. -/
theorem to_yuv_values (p : Rgb) :
    (p.to_yuv.y.toNat : Int) =
        (66 * (p.r.toNat : Int) + 129 * p.g.toNat + 25 * p.b.toNat + 128) / 256 + 16 ∧
      (p.to_yuv.u.toNat : Int) =
        (-38 * (p.r.toNat : Int) - 74 * p.g.toNat + 112 * p.b.toNat + 128) / 256 + 128 ∧
      (p.to_yuv.v.toNat : Int) =
        (112 * (p.r.toNat : Int) - 94 * p.g.toNat - 18 * p.b.toNat + 128) / 256 + 128 := by
  have hr := p.r.toNat_lt
  have hg := p.g.toNat_lt
  have hb := p.b.toNat_lt
  unfold Rgb.to_yuv rgb_to_y rgb_to_u rgb_to_v
  simp only [clip_value, shift_eight]
  omega

/-- A color comes back from its encoding with a rounding error. -/
theorem near_of_round_trip (p : Rgb) :
    Near 2 p.to_yuv.to_rgb.r p.r ∧ Near 2 p.to_yuv.to_rgb.g p.g ∧
      Near 3 p.to_yuv.to_rgb.b p.b := by
  obtain ⟨hy, hu, hv⟩ := to_yuv_values p
  have hr := p.r.toNat_lt
  have hg := p.g.toNat_lt
  have hb := p.b.toNat_lt
  unfold Yuv.to_rgb yuv_to_r yuv_to_g yuv_to_b
  simp only [shift_eight, hy, hu, hv]
  refine ⟨?_, ?_, ?_⟩
  · apply near_clip <;> omega
  · apply near_clip <;> omega
  · apply near_clip <;> omega

/-- What the decoder makes of a grey value as luma. -/
theorem decoded_grey (v : UInt8) (k : Nat) :
    (Yuv.to_rgb ⟨v, 128, 128⟩).channel k =
      CLIP_U8 ((298 * ((v.toNat : Int) - 16) + 128) / 256) := by
  rcases k with _ | _ | k <;>
    simp [Yuv.to_rgb, Rgb.channel, yuv_to_r, yuv_to_g, yuv_to_b, shift_eight]

theorem near_decoded_grey_iff (v : UInt8) (k : Nat) :
    Near 2 ((Yuv.to_rgb ⟨v, 128, 128⟩).channel k) v ↔ SameInBothRanges v := by
  have hc := clip_value ((298 * ((v.toNat : Int) - 16) + 128) / 256)
  have hv := v.toNat_lt
  rw [decoded_grey]
  unfold Near SameInBothRanges
  omega

/-! ## Through a planar frame -/

/-- The pixels that a planar frame of an image shows: the luma of the pixel, the chroma of
the block. -/
theorem yuv420p_of_store {S : Picture} {J : Nat → Nat → Yuv} {fb : vf_framebuffer_t} {w h : Nat}
    (hl : Laid fb (code_planes ⟨w, h, .VF_PIXEL_FMT_YUV420P⟩)) (ew : w % 2 = 0) (eh : h % 2 = 0)
    (hS : ∀ i < fb.num_planes, ∀ row < fb.plane_height i, ∀ col < fb.plane_line_size i,
      S i row col = store_yuv420p J i row col) {x y : Nat} (hx : x < w) (hy : y < h) :
    yuv420p S x y = ⟨(J x y).y, (J (2 * (x / 2)) (2 * (y / 2))).u,
      (J (2 * (x / 2)) (2 * (y / 2))).v⟩ := by
  simp only [hl.num_planes, hl.height, hl.line_size] at hS
  have h0 := hS 0 (by decide : 0 < 3) y hy x hx
  have h1 := hS 1 (by decide : 1 < 3) (y / 2) (show y / 2 < h / 2 by omega) (x / 2)
    (show x / 2 < w / 2 by omega)
  have h2 := hS 2 (by decide : 2 < 3) (y / 2) (show y / 2 < h / 2 by omega) (x / 2)
    (show x / 2 < w / 2 by omega)
  simp only [yuv420p, h0, h1, h2, store_yuv420p]

theorem nv12_of_store {S : Picture} {J : Nat → Nat → Yuv} {fb : vf_framebuffer_t} {w h : Nat}
    (hl : Laid fb (code_planes ⟨w, h, .VF_PIXEL_FMT_NV12⟩)) (ew : w % 2 = 0) (eh : h % 2 = 0)
    (hS : ∀ i < fb.num_planes, ∀ row < fb.plane_height i, ∀ col < fb.plane_line_size i,
      S i row col = store_nv12 J i row col) {x y : Nat} (hx : x < w) (hy : y < h) :
    nv12 S x y = ⟨(J x y).y, (J (2 * (x / 2)) (2 * (y / 2))).u,
      (J (2 * (x / 2)) (2 * (y / 2))).v⟩ := by
  simp only [hl.num_planes, hl.height, hl.line_size] at hS
  have h0 := hS 0 (by decide : 0 < 2) y hy x hx
  have h1 := hS 1 (by decide : 1 < 2) (y / 2) (show y / 2 < h / 2 by omega) (2 * (x / 2))
    (show 2 * (x / 2) < w by omega)
  have h2 := hS 1 (by decide : 1 < 2) (y / 2) (show y / 2 < h / 2 by omega) (2 * (x / 2) + 1)
    (show 2 * (x / 2) + 1 < w by omega)
  have e1 : 2 * (x / 2) % 2 = 0 := by omega
  have e2 : (2 * (x / 2) + 1) % 2 = 1 := by omega
  have e3 : 2 * (x / 2) / 2 = x / 2 := by omega
  have e4 : (2 * (x / 2) + 1) / 2 = x / 2 := by omega
  simp only [nv12, h0, h1, h2, store_nv12, e1, e2, e3, e4, if_true, one_ne_zero, if_false]

/-- The channels of a pixel in a row of an RGB picture. -/
theorem store_rgb888_channel (I : Nat → Nat → Rgb) (x y : Nat) {k : Nat} (hk : k < 3) :
    store_rgb888 I 0 y (3 * x + k) = (I x y).channel k := by
  have h1 : (3 * x + k) / 3 = x := by omega
  have h2 : (3 * x + k) % 3 = k := by omega
  rw [store_rgb888, h1, h2]

/-- The pixel of a picture that stores an image there. -/
theorem rgb888_of_store {S : Picture} {I : Nat → Nat → Rgb} {x y : Nat}
    (hS : ∀ k < 3, S 0 y (3 * x + k) = store_rgb888 I 0 y (3 * x + k)) : rgb888 S x y = I x y := by
  have h0 := (hS 0 (by decide)).trans (store_rgb888_channel I x y (by decide))
  have h1 := (hS 1 (by decide)).trans (store_rgb888_channel I x y (by decide))
  have h2 := (hS 2 (by decide)).trans (store_rgb888_channel I x y (by decide))
  simp only [Nat.add_zero, Rgb.channel] at h0 h1 h2
  rw [rgb888, h0, h1, h2]

section
variable {w h : Nat} {src mid dst : vf_framebuffer_t} {src_fmt mid_fmt dst_fmt : vf_pixel_fmt_t}
  (hfirst : Supported src_fmt mid_fmt) (hsecond : Supported mid_fmt dst_fmt) (hh : 1 ≤ h)
  (ew : w % 2 = 0) (eh : h % 2 = 0) (hps : src.params = ⟨w, h, src_fmt⟩)
  (hpm : mid.params = ⟨w, h, mid_fmt⟩) (hpd : dst.params = ⟨w, h, dst_fmt⟩)
  (hls : Laid src (code_planes ⟨w, h, src_fmt⟩)) (hlm : Laid mid (code_planes ⟨w, h, mid_fmt⟩))
  (hld : Laid dst (code_planes ⟨w, h, dst_fmt⟩)) (s m d : Nat → UInt8)

include hfirst hsecond hh ew eh hps hpm hpd hls hlm hld

/-- Two conversions in a row store the picture of the picture. -/
theorem through.spec (hns : NoWrap ⟨w, h, src_fmt⟩) (hnm : NoWrap ⟨w, h, mid_fmt⟩)
    (hnd : NoWrap ⟨w, h, dst_fmt⟩) :
    ∃ m' d', through src_fmt mid_fmt dst_fmt (src.holding s) (mid.holding m)
        (dst.holding d) = (.VF_SUCCESS, dst.holding d') ∧
      (∀ i < mid.num_planes, ∀ row < mid.plane_height i, ∀ col < mid.plane_line_size i,
        picture mid m' i row col = bt601 src_fmt mid_fmt (picture src s) i row col) ∧
      ∀ i < dst.num_planes, ∀ row < dst.plane_height i, ∀ col < dst.plane_line_size i,
        picture dst d' i row col = bt601 mid_fmt dst_fmt (picture mid m') i row col := by
  obtain ⟨m', accs1, hrun1, hm'⟩ :=
    vf_conversion_process.even_spec hfirst hh ew eh hns.fits hnm.fits hnm.1 hps hpm hls hlm s m
  obtain ⟨d', accs2, hrun2, hd'⟩ :=
    vf_conversion_process.even_spec hsecond hh ew eh hnm.fits hnd.fits hnd.1 hpm hpd hlm hld m' d
  refine ⟨m', d', ?_, fun i hi row hrow => (hm' i hi row hrow).1,
    fun i hi row hrow => (hd' i hi row hrow).1⟩
  unfold through
  simp only [hrun1, hrun2, ne_eq, not_true_eq_false, if_false]

/-- Two conversions in a row stay in bounds just where no layout wraps. -/
theorem through.inside_iff (hw : 1 ≤ w) (hfs : PlaneSizesFit ⟨w, h, src_fmt⟩)
    (hfm : PlaneSizesFit ⟨w, h, mid_fmt⟩) (hfd : PlaneSizesFit ⟨w, h, dst_fmt⟩) :
    ThroughInBounds src_fmt mid_fmt dst_fmt (src.holding s) (mid.holding m) (dst.holding d) ↔
      NoWrap ⟨w, h, src_fmt⟩ ∧ NoWrap ⟨w, h, mid_fmt⟩ ∧ NoWrap ⟨w, h, dst_fmt⟩ := by
  obtain ⟨accs, hrun, -⟩ := vf_conversion_process.spec hfirst hh hfs hfm hps hpm hls hlm s m
  have h1 := vf_conversion_process.inside_iff hfirst hw hh hfs hfm hps hpm hls hlm s m
  have h2 := vf_conversion_process.inside_iff hsecond hw hh hfm hfd hpm hpd hlm hld
    (result m accs) d
  have hsafe1 := safe_of_even src_fmt mid_fmt ew eh
  have hsafe2 := safe_of_even mid_fmt dst_fmt ew eh
  simp only [hsafe1, hsafe2, and_true] at h1 h2
  have hboth : ThroughInBounds src_fmt mid_fmt dst_fmt (src.holding s) (mid.holding m)
      (dst.holding d) ↔ (NoWrap ⟨w, h, src_fmt⟩ ∧ NoWrap ⟨w, h, mid_fmt⟩) ∧
        NoWrap ⟨w, h, mid_fmt⟩ ∧ NoWrap ⟨w, h, dst_fmt⟩ := by
    rw [← h1, ← h2, hrun]
    unfold ThroughInBounds
    rw [hrun]
    rfl
  rw [hboth]
  constructor
  · exact fun h => ⟨h.1.1, h.1.2, h.2.2⟩
  · exact fun h => ⟨⟨h.1, h.2.1⟩, h.2.1, h.2.2⟩

end

/-! ## The laws -/

section
variable {w h : Nat} {src yuv nv dst : vf_framebuffer_t}

/-- A pixel of an RGB frame lies in its plane. -/
theorem rgb888_in_plane (hnd : NoWrap ⟨w, h, .VF_PIXEL_FMT_RGB888⟩)
    (hld : Laid dst (code_planes ⟨w, h, .VF_PIXEL_FMT_RGB888⟩)) {x y k : Nat} (hx : x < w)
    (hy : y < h) (hk : k < 3) :
    0 < dst.num_planes ∧ y < dst.plane_height 0 ∧ 3 * x + k < dst.plane_line_size 0 := by
  rw [code_planes_eq _ hnd.1] at hld
  have hps : planes ⟨w, h, .VF_PIXEL_FMT_RGB888⟩ = [⟨w, h, w * 24 / 8⟩] := rfl
  rw [hld.num_planes, hld.height, hld.line_size, hps]
  simp only [plane_at, List.length_singleton, List.getElem?_cons_zero, Option.getD_some]
  omega

/-- In a block of one color, a planar frame shows each pixel's own encoding. -/
theorem color_through_planar (hns : NoWrap ⟨w, h, .VF_PIXEL_FMT_RGB888⟩)
    {mid : vf_framebuffer_t} {mid_fmt : vf_pixel_fmt_t}
    (hmid : mid_fmt = .VF_PIXEL_FMT_YUV420P ∨ mid_fmt = .VF_PIXEL_FMT_NV12)
    (hnm : NoWrap ⟨w, h, mid_fmt⟩) (hh : 1 ≤ h) (ew : w % 2 = 0) (eh : h % 2 = 0)
    (hps : src.params = ⟨w, h, .VF_PIXEL_FMT_RGB888⟩) (hpm : mid.params = ⟨w, h, mid_fmt⟩)
    (hpd : dst.params = ⟨w, h, .VF_PIXEL_FMT_RGB888⟩)
    (hls : Laid src (code_planes ⟨w, h, .VF_PIXEL_FMT_RGB888⟩))
    (hlm : Laid mid (code_planes ⟨w, h, mid_fmt⟩))
    (hld : Laid dst (code_planes ⟨w, h, .VF_PIXEL_FMT_RGB888⟩)) (s m d : Nat → UInt8)
    (hblock : BlockConstant w h (rgb888 (picture src s))) :
    ∃ d', through .VF_PIXEL_FMT_RGB888 mid_fmt .VF_PIXEL_FMT_RGB888 (src.holding s)
        (mid.holding m) (dst.holding d) = (.VF_SUCCESS, dst.holding d') ∧
      ∀ y < h, ∀ x < w, rgb888 (picture dst d') x y =
        (rgb888 (picture src s) x y).to_yuv.to_rgb := by
  let J := fun x y => (rgb888 (picture src s) x y).to_yuv
  rcases hmid with rfl | rfl
  · obtain ⟨m', d', hrun, hm', hd'⟩ := through.spec (by decide) (by decide) hh ew eh hps hpm hpd
      hls hlm hld s m d hns hnm hns
    refine ⟨d', hrun, fun y hy x hx => ?_⟩
    have hpixel := rgb888_of_store (I := fun x y => (yuv420p (picture mid m') x y).to_rgb)
      fun k hk => by
        obtain ⟨h0, hrow, hcol⟩ := rgb888_in_plane hns hld hx hy hk
        exact hd' 0 h0 y hrow _ hcol
    have hown : yuv420p (picture mid m') x y = J x y := by
      rw [yuv420p_of_store (J := J) hlm ew eh hm' hx hy]
      simp only [J, ← hblock y hy x hx]
    rw [hpixel, hown]
  · obtain ⟨m', d', hrun, hm', hd'⟩ := through.spec (by decide) (by decide) hh ew eh hps hpm hpd
      hls hlm hld s m d hns hnm hns
    refine ⟨d', hrun, fun y hy x hx => ?_⟩
    have hpixel := rgb888_of_store (I := fun x y => (nv12 (picture mid m') x y).to_rgb)
      fun k hk => by
        obtain ⟨h0, hrow, hcol⟩ := rgb888_in_plane hns hld hx hy hk
        exact hd' 0 h0 y hrow _ hcol
    have hown : nv12 (picture mid m') x y = J x y := by
      rw [nv12_of_store (J := J) hlm ew eh hm' hx hy]
      simp only [J, ← hblock y hy x hx]
    rw [hpixel, hown]

end

/-- For every even size whose planes fit in 32 bits and every image of one color in each block:
the round trip of the colors stays in its buffers and loses little just where no layout
wraps. -/
theorem the_color_round_trip_loses_little_just_without_a_wrap (w h : Nat) (hw : 1 ≤ w)
    (hh : 1 ≤ h) (ew : w % 2 = 0) (eh : h % 2 = 0)
    (hfit : ∀ fmt ∈ [.VF_PIXEL_FMT_RGB888, .VF_PIXEL_FMT_YUV420P, .VF_PIXEL_FMT_NV12],
      PlaneSizesFit ⟨w, h, fmt⟩)
    (fb1 fb2 fb3 fb4 : vf_framebuffer_t) (s m n d e : Nat → UInt8) :
    let src := (vf_framebuffer_alloc fb1 ⟨w, h, .VF_PIXEL_FMT_RGB888⟩ true).2
    let yuv := (vf_framebuffer_alloc fb2 ⟨w, h, .VF_PIXEL_FMT_YUV420P⟩ true).2
    let nv := (vf_framebuffer_alloc fb3 ⟨w, h, .VF_PIXEL_FMT_NV12⟩ true).2
    let dst := (vf_framebuffer_alloc fb4 ⟨w, h, .VF_PIXEL_FMT_RGB888⟩ true).2
    BlockConstant w h (rgb888 (picture src s)) →
      (LosesLittle w h src yuv nv dst s m n d e ↔
        ∀ fmt ∈ [.VF_PIXEL_FMT_RGB888, .VF_PIXEL_FMT_YUV420P, .VF_PIXEL_FMT_NV12],
          NoWrap ⟨w, h, fmt⟩) := by
  have hf1 := hfit .VF_PIXEL_FMT_RGB888 (by simp)
  have hf2 := hfit .VF_PIXEL_FMT_YUV420P (by simp)
  have hf3 := hfit .VF_PIXEL_FMT_NV12 (by simp)
  obtain ⟨-, hp1, -, hl1⟩ := vf_framebuffer_alloc.spec fb1 ⟨w, h, .VF_PIXEL_FMT_RGB888⟩
    (by decide : Accepted .VF_PIXEL_FMT_RGB888) hw hh hf1
  obtain ⟨-, hp2, -, hl2⟩ := vf_framebuffer_alloc.spec fb2 ⟨w, h, .VF_PIXEL_FMT_YUV420P⟩
    (by decide : Accepted .VF_PIXEL_FMT_YUV420P) hw hh hf2
  obtain ⟨-, hp3, -, hl3⟩ := vf_framebuffer_alloc.spec fb3 ⟨w, h, .VF_PIXEL_FMT_NV12⟩
    (by decide : Accepted .VF_PIXEL_FMT_NV12) hw hh hf3
  obtain ⟨-, hp4, -, hl4⟩ := vf_framebuffer_alloc.spec fb4 ⟨w, h, .VF_PIXEL_FMT_RGB888⟩
    (by decide : Accepted .VF_PIXEL_FMT_RGB888) hw hh hf1
  intro src yuv nv dst hblock
  have hyuv := through.inside_iff (by decide) (by decide) hh ew eh hp1 hp2 hp4 hl1 hl2 hl4 s m d
    hw hf1 hf2 hf1
  have hnv := through.inside_iff (by decide) (by decide) hh ew eh hp1 hp3 hp4 hl1 hl3 hl4 s n e
    hw hf1 hf3 hf1
  simp only [List.forall_mem_cons, List.not_mem_nil, false_implies, implies_true, and_true]
  constructor
  · rintro ⟨hin1, hin2, -⟩
    exact ⟨(hyuv.mp hin1).1, (hyuv.mp hin1).2.1, (hnv.mp hin2).2.1⟩
  · rintro ⟨h1, h2, h3⟩
    obtain ⟨d', hrun1, hd'⟩ := color_through_planar h1 (Or.inl rfl) h2 hh ew eh hp1 hp2 hp4 hl1
      hl2 hl4 s m d hblock
    obtain ⟨e', hrun2, he'⟩ := color_through_planar h1 (Or.inr rfl) h3 hh ew eh hp1 hp3 hp4 hl1
      hl3 hl4 s n e hblock
    refine ⟨hyuv.mpr ⟨h1, h2, h1⟩, hnv.mpr ⟨h1, h3, h1⟩, d', e', hrun1, hrun2, ?_⟩
    intro y hy x hx
    rw [hd' y hy x hx, he' y hy x hx]
    exact ⟨near_of_round_trip _, rfl⟩

/-- A 2×2 frame of one color. -/
theorem a_red_block_comes_back :
    let src := (vf_framebuffer_alloc zeroed ⟨2, 2, .VF_PIXEL_FMT_RGB888⟩ true).2
    let yuv := (vf_framebuffer_alloc zeroed ⟨2, 2, .VF_PIXEL_FMT_YUV420P⟩ true).2
    let nv := (vf_framebuffer_alloc zeroed ⟨2, 2, .VF_PIXEL_FMT_NV12⟩ true).2
    let red := fun a => if a % 16 % 3 = 0 then (255 : UInt8) else 0
    LosesLittle 2 2 src yuv nv src red (fun _ => 1) (fun _ => 1) (fun _ => 2) fun _ => 2 := by
  refine (the_color_round_trip_loses_little_just_without_a_wrap 2 2 (by decide) (by decide)
    (by decide) (by decide) (by decide) zeroed zeroed zeroed zeroed
    (fun a => if a % 16 % 3 = 0 then 255 else 0) (fun _ => 1) (fun _ => 1) (fun _ => 2)
    (fun _ => 2) (by unfold BlockConstant; decide)).mpr ?_
  simp only [List.forall_mem_cons, List.not_mem_nil, false_implies, implies_true, and_true]
  exact ⟨⟨by decide, by decide⟩, ⟨by decide, by decide⟩, ⟨by decide, by decide⟩⟩

/-- Two columns and 2^27 rows. -/
def tall (fmt : vf_pixel_fmt_t) : vf_fb_params_t := ⟨2, 134217728, fmt⟩

/-- The planes of a black image of this size fit, but their sum wraps to 0: the YUV420P frame
has no byte, and the round trip leaves it. -/
theorem a_tall_image_leaves_its_buffer :
    let src := (vf_framebuffer_alloc zeroed (tall .VF_PIXEL_FMT_RGB888) true).2
    let yuv := (vf_framebuffer_alloc zeroed (tall .VF_PIXEL_FMT_YUV420P) true).2
    let nv := (vf_framebuffer_alloc zeroed (tall .VF_PIXEL_FMT_NV12) true).2
    (∀ fmt ∈ [.VF_PIXEL_FMT_RGB888, .VF_PIXEL_FMT_YUV420P, .VF_PIXEL_FMT_NV12],
        PlaneSizesFit (tall fmt)) ∧
      BlockConstant 2 134217728 (rgb888 (picture src fun _ => 0)) ∧ yuv.total_size = 0 ∧
      ¬ LosesLittle 2 134217728 src yuv nv src (fun _ => 0) (fun _ => 0) (fun _ => 0)
        (fun _ => 0) fun _ => 0 := by
  have hf1 : PlaneSizesFit (tall .VF_PIXEL_FMT_RGB888) := by decide
  have hf2 : PlaneSizesFit (tall .VF_PIXEL_FMT_YUV420P) := by decide
  have hf3 : PlaneSizesFit (tall .VF_PIXEL_FMT_NV12) := by decide
  obtain ⟨-, hp1, -, hl1⟩ := vf_framebuffer_alloc.spec zeroed (tall .VF_PIXEL_FMT_RGB888)
    (by decide) (by decide) (by decide) hf1
  obtain ⟨-, hp2, -, hl2⟩ := vf_framebuffer_alloc.spec zeroed (tall .VF_PIXEL_FMT_YUV420P)
    (by decide) (by decide) (by decide) hf2
  intro src yuv nv
  refine ⟨?_, fun _ _ _ _ => rfl, by decide, ?_⟩
  · simp only [List.forall_mem_cons, List.not_mem_nil, false_implies, implies_true, and_true]
    exact ⟨hf1, hf2, hf3⟩
  · rintro ⟨hin, -⟩
    have hno := (through.inside_iff (by decide) (by decide) (by decide) (by decide) (by decide)
      hp1 hp2 hp1 hl1 hl2 hl1 (fun _ => 0) (fun _ => 0) (fun _ => 0) (by decide) hf1 hf2 hf1).mp hin
    exact absurd hno.2.1.2 (by decide)

/-- The two ways from grey to RGB888 stay in their buffers and agree just where no layout wraps
and luma stands for each grey value of the image too. -/
theorem the_grey_paths_agree_just_on_common_values (w h : Nat) (hw : 1 ≤ w) (hh : 1 ≤ h)
    (ew : w % 2 = 0) (eh : h % 2 = 0) (hfit : ∀ fmt ∈ [.VF_PIXEL_FMT_RAW8,
      .VF_PIXEL_FMT_YUV420P, .VF_PIXEL_FMT_RGB888], PlaneSizesFit ⟨w, h, fmt⟩)
    (fb1 fb2 fb3 : vf_framebuffer_t) (s m d e : Nat → UInt8) :
    let src := (vf_framebuffer_alloc fb1 ⟨w, h, .VF_PIXEL_FMT_RAW8⟩ true).2
    let yuv := (vf_framebuffer_alloc fb2 ⟨w, h, .VF_PIXEL_FMT_YUV420P⟩ true).2
    let dst := (vf_framebuffer_alloc fb3 ⟨w, h, .VF_PIXEL_FMT_RGB888⟩ true).2
    GreyPathsAgree w h src yuv dst s m d e ↔
      (∀ fmt ∈ [.VF_PIXEL_FMT_RAW8, .VF_PIXEL_FMT_YUV420P, .VF_PIXEL_FMT_RGB888],
        NoWrap ⟨w, h, fmt⟩) ∧
      ∀ y < h, ∀ x < w, SameInBothRanges (picture src s 0 y x) := by
  have hf1 := hfit .VF_PIXEL_FMT_RAW8 (by simp)
  have hf2 := hfit .VF_PIXEL_FMT_YUV420P (by simp)
  have hf3 := hfit .VF_PIXEL_FMT_RGB888 (by simp)
  obtain ⟨-, hp1, -, hl1⟩ := vf_framebuffer_alloc.spec fb1 ⟨w, h, .VF_PIXEL_FMT_RAW8⟩
    (by decide : Accepted .VF_PIXEL_FMT_RAW8) hw hh hf1
  obtain ⟨-, hp2, -, hl2⟩ := vf_framebuffer_alloc.spec fb2 ⟨w, h, .VF_PIXEL_FMT_YUV420P⟩
    (by decide : Accepted .VF_PIXEL_FMT_YUV420P) hw hh hf2
  obtain ⟨-, hp3, -, hl3⟩ := vf_framebuffer_alloc.spec fb3 ⟨w, h, .VF_PIXEL_FMT_RGB888⟩
    (by decide : Accepted .VF_PIXEL_FMT_RGB888) hw hh hf3
  intro src yuv dst
  have halone := vf_conversion_process.inside_iff (by decide) hw hh hf1 hf3 hp1 hp3 hl1 hl3 s d
  have hthrough := through.inside_iff (by decide) (by decide) hh ew eh hp1 hp2 hp3 hl1 hl2 hl3 s m
    e hw hf1 hf2 hf3
  simp only [List.forall_mem_cons, List.not_mem_nil, false_implies, implies_true, and_true]
  -- without a wrap each path shows what it makes of a grey value
  have hboth : NoWrap ⟨w, h, .VF_PIXEL_FMT_RAW8⟩ → NoWrap ⟨w, h, .VF_PIXEL_FMT_YUV420P⟩ →
      NoWrap ⟨w, h, .VF_PIXEL_FMT_RGB888⟩ → ∃ d' e' accs,
        vf_conversion_process (vf_conversion_init .VF_PIXEL_FMT_RAW8 .VF_PIXEL_FMT_RGB888).2
            (src.holding s) (dst.holding d) = (.VF_SUCCESS, dst.holding d', accs) ∧
          through .VF_PIXEL_FMT_RAW8 .VF_PIXEL_FMT_YUV420P .VF_PIXEL_FMT_RGB888
            (src.holding s) (yuv.holding m) (dst.holding e) = (.VF_SUCCESS, dst.holding e') ∧
          ∀ y < h, ∀ x < w, ∀ k < 3, picture dst d' 0 y (3 * x + k) = picture src s 0 y x ∧
            picture dst e' 0 y (3 * x + k) =
              (Yuv.to_rgb ⟨picture src s 0 y x, 128, 128⟩).channel k := by
    intro h1 h2 h3
    obtain ⟨d', accs, hrun1, hd'⟩ := vf_conversion_process.even_spec (by decide) hh ew eh h1.fits
      h3.fits h3.1 hp1 hp3 hl1 hl3 s d
    obtain ⟨m', e', hrun2, hm', he'⟩ := through.spec (by decide) (by decide) hh ew eh hp1 hp2 hp3
      hl1 hl2 hl3 s m e h1 h2 h3
    refine ⟨d', e', accs, hrun1, hrun2, fun y hy x hx k hk => ?_⟩
    obtain ⟨h0, hrow, hcol⟩ := rgb888_in_plane h3 hl3 hx hy hk
    refine ⟨((hd' 0 h0 y hrow).1 _ hcol).trans ?_, (he' 0 h0 y hrow _ hcol).trans ?_⟩
    · refine (store_rgb888_channel (fun x y => grey (picture src s 0 y x)) x y hk).trans ?_
      rcases k with _ | _ | k <;> rfl
    · refine (store_rgb888_channel (fun x y => (yuv420p (picture yuv m') x y).to_rgb) x y
        hk).trans ?_
      rw [yuv420p_of_store (J := fun x y => ⟨picture src s 0 y x, 128, 128⟩) hl2 ew eh hm' hx hy]
  constructor
  · rintro ⟨hin1, hin2, d1, e1, accs1, hrun1, hrun2, hnear⟩
    obtain ⟨h1, h2, h3⟩ := hthrough.mp hin2
    refine ⟨⟨h1, h2, h3⟩, fun y hy x hx => ?_⟩
    obtain ⟨d', e', accs, hrun1', hrun2', hpix⟩ := hboth h1 h2 h3
    have hd : picture dst d1 = picture dst d' := by
      have hsame := congrArg (fun r => r.2.1.data) (hrun1.symm.trans hrun1')
      rw [show d1 = d' from Option.some.inj hsame]
    have he : picture dst e1 = picture dst e' := by
      have hsame := congrArg (fun r => r.2.data) (hrun2.symm.trans hrun2')
      rw [show e1 = e' from Option.some.inj hsame]
    have hpixel := hnear y hy x hx 0 (by decide)
    rw [hd, he, (hpix y hy x hx 0 (by decide)).1, (hpix y hy x hx 0 (by decide)).2] at hpixel
    exact (near_decoded_grey_iff _ 0).mp hpixel
  · rintro ⟨⟨h1, h2, h3⟩, hcommon⟩
    obtain ⟨d', e', accs, hrun1, hrun2, hpix⟩ := hboth h1 h2 h3
    refine ⟨halone.mpr ⟨h1, h3, safe_of_even _ _ ew eh⟩, hthrough.mpr ⟨h1, h2, h3⟩, d', e', accs,
      hrun1, hrun2, fun y hy x hx k hk => ?_⟩
    rw [(hpix y hy x hx k hk).1, (hpix y hy x hx k hk).2]
    exact (near_decoded_grey_iff _ k).mpr (hcommon y hy x hx)

/-- A grey frame in the middle of both ranges. -/
theorem a_middle_grey_agrees :
    let src := (vf_framebuffer_alloc zeroed ⟨2, 2, .VF_PIXEL_FMT_RAW8⟩ true).2
    let yuv := (vf_framebuffer_alloc zeroed ⟨2, 2, .VF_PIXEL_FMT_YUV420P⟩ true).2
    let dst := (vf_framebuffer_alloc zeroed ⟨2, 2, .VF_PIXEL_FMT_RGB888⟩ true).2
    GreyPathsAgree 2 2 src yuv dst (fun _ => 110) (fun _ => 0) (fun _ => 0) fun _ => 0 := by
  refine (the_grey_paths_agree_just_on_common_values 2 2 (by decide) (by decide) (by decide)
    (by decide) (by decide) zeroed zeroed zeroed (fun _ => 110) (fun _ => 0) (fun _ => 0)
    fun _ => 0).mpr ⟨?_, fun _ _ _ _ => (by decide : SameInBothRanges 110)⟩
  simp only [List.forall_mem_cons, List.not_mem_nil, false_implies, implies_true, and_true]
  exact ⟨⟨by decide, by decide⟩, ⟨by decide, by decide⟩, ⟨by decide, by decide⟩⟩

/-- A light grey, 200, comes back as 214 on the way through YUV420P. -/
theorem a_light_grey_changes :
    let src := (vf_framebuffer_alloc zeroed ⟨2, 2, .VF_PIXEL_FMT_RAW8⟩ true).2
    let yuv := (vf_framebuffer_alloc zeroed ⟨2, 2, .VF_PIXEL_FMT_YUV420P⟩ true).2
    let dst := (vf_framebuffer_alloc zeroed ⟨2, 2, .VF_PIXEL_FMT_RGB888⟩ true).2
    ((vf_conversion_process (vf_conversion_init .VF_PIXEL_FMT_RAW8 .VF_PIXEL_FMT_RGB888).2
        (src.holding fun _ => 200) dst).2.1.data.map fun d => d 0) = some 200 ∧
      ((through .VF_PIXEL_FMT_RAW8 .VF_PIXEL_FMT_YUV420P .VF_PIXEL_FMT_RGB888
        (src.holding fun _ => 200) yuv dst).2.data.map fun d => d 0) = some 214 ∧
      ¬ Near 2 214 200 := by
  refine ⟨by decide, by decide, by decide⟩

end vision_flow.conversion
