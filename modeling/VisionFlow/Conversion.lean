-- The conversion library (vf-conversion.c): BT.601 in integers, eight loops over the
-- pixels, and the table that finds one by its formats. Each converter gives its error
-- code, the destination, and the accesses that it made, in order.
import VisionFlow.Lib.Access
import VisionFlow.Framebuffer

open access

namespace vision_flow.conversion

open framebuffer

/-! ## The code -/

def CLIP_U8 (x : Int) : UInt8 :=
  if x < 0 then 0 else if x > 255 then 255 else UInt8.ofNat x.toNat

def rgb_to_y (r g b : UInt8) : UInt8 :=
  CLIP_U8 (((66 * (r.toNat : Int) + 129 * (g.toNat : Int) + 25 * (b.toNat : Int) + 128) >>> 8) + 16)

def rgb_to_u (r g b : UInt8) : UInt8 :=
  CLIP_U8
    (((-38 * (r.toNat : Int) - 74 * (g.toNat : Int) + 112 * (b.toNat : Int) + 128) >>> 8) + 128)

def rgb_to_v (r g b : UInt8) : UInt8 :=
  CLIP_U8
    (((112 * (r.toNat : Int) - 94 * (g.toNat : Int) - 18 * (b.toNat : Int) + 128) >>> 8) + 128)

def yuv_to_r (c e : Int) : UInt8 := CLIP_U8 ((298 * c + 409 * e + 128) >>> 8)

def yuv_to_g (c d e : Int) : UInt8 := CLIP_U8 ((298 * c - 100 * d - 208 * e + 128) >>> 8)

def yuv_to_b (c d : Int) : UInt8 := CLIP_U8 ((298 * c + 516 * d + 128) >>> 8)

/-- `IS_UV_SAMPLE_POINT`. -/
abbrev IS_UV_SAMPLE_POINT (x y : Nat) : Prop := y &&& 1 = 0 ∧ x &&& 1 = 0

abbrev Bytes := Prog UInt8

/-- 0, or -1 where the two do not fit. -/
def validate_framebuffers (src dst : vf_framebuffer_t) : Int :=
  if src.data.isNone ∨ dst.data.isNone then -1
  else if src.params.width ≠ dst.params.width ∨ src.params.height ≠ dst.params.height then -1
  else 0

abbrev Converted := vf_err_t × vf_framebuffer_t × List (Access UInt8)

/-- The frame of each converter: the validation, then its loops. -/
def convert (body : vf_framebuffer_t → vf_framebuffer_t → Bytes Unit)
    (src dst : vf_framebuffer_t) : Converted :=
  if validate_framebuffers src dst ≠ 0 then
    (.VF_CONV_PROCESSING_ERR, dst, [])
  else
    match src.data, dst.data with
    | some s, some d =>
      let accesses := log (body src dst) s
      (.VF_SUCCESS, { dst with data := some (result d accesses) }, accesses)
    | _, _ => (.VF_CONV_PROCESSING_ERR, dst, [])

/-- The three stores of an RGB pixel at index `x` of a row. -/
def put_rgb (dst_row x : Nat) (r g b : UInt8) : Bytes Unit := do
  write 0 (dst_row + u32 (u32 (x * 3) + 0)) r
  write 0 (dst_row + u32 (u32 (x * 3) + 1)) g
  write 0 (dst_row + u32 (u32 (x * 3) + 2)) b

/-- The loops of the three encoders. `order` gives red, green and blue from the three
bytes of a pixel, and `put_uv` stores the chroma at a sample point. -/
def encode (order : UInt8 → UInt8 → UInt8 → UInt8 × UInt8 × UInt8)
    (put_uv : vf_framebuffer_t → Nat → Nat → UInt8 → UInt8 → Bytes Unit)
    (src dst : vf_framebuffer_t) : Bytes Unit := do
  let width := src.params.width
  let height := src.params.height
  for_each height fun y => do
    let src_row := u32 (y * src.plane_stride 0)
    let y_row := u32 (y * dst.plane_stride 0)
    for_each width fun x => do
      let p0 ← read (src_row + u32 (u32 (x * 3) + 0))
      let p1 ← read (src_row + u32 (u32 (x * 3) + 1))
      let p2 ← read (src_row + u32 (u32 (x * 3) + 2))
      let (r, g, b) := order p0 p1 p2
      write 0 (y_row + x) (rgb_to_y r g b)
      if IS_UV_SAMPLE_POINT x y then
        put_uv dst x y (rgb_to_u r g b) (rgb_to_v r g b)

/-- The loops of the two planar decoders. `get_uv` reads the chroma of a pixel. -/
def decode (get_uv : vf_framebuffer_t → Nat → Nat → Bytes (UInt8 × UInt8))
    (src dst : vf_framebuffer_t) : Bytes Unit := do
  let width := src.params.width
  let height := src.params.height
  for_each height fun y => do
    let dst_row := u32 (y * dst.plane_stride 0)
    for_each width fun x => do
      let yv ← read (u32 (u32 (y * src.plane_stride 0) + x))
      let (u, v) ← get_uv src x y
      let c := (yv.toNat : Int) - 16
      let d := (u.toNat : Int) - 128
      let e := (v.toNat : Int) - 128
      put_rgb dst_row x (yuv_to_r c e) (yuv_to_g c d e) (yuv_to_b c d)

def rgb_order (p0 p1 p2 : UInt8) : UInt8 × UInt8 × UInt8 := (p0, p1, p2)
def bgr_order (p0 p1 p2 : UInt8) : UInt8 × UInt8 × UInt8 := (p2, p1, p0)

def put_uv_yuv420p (dst : vf_framebuffer_t) (x y : Nat) (u v : UInt8) : Bytes Unit := do
  let u_plane := dst.plane_size 0
  let v_plane := u_plane + dst.plane_size 1
  let uv_x := x / 2
  let uv_y := y / 2
  write 1 (u_plane + u32 (u32 (uv_y * dst.plane_stride 1) + uv_x)) u
  write 2 (v_plane + u32 (u32 (uv_y * dst.plane_stride 2) + uv_x)) v

def put_uv_nv12 (dst : vf_framebuffer_t) (x y : Nat) (u v : UInt8) : Bytes Unit := do
  let uv_plane := dst.plane_size 0
  let uv_x := x
  let uv_y := y / 2
  write 1 (uv_plane + u32 (u32 (uv_y * dst.plane_stride 1) + uv_x + 0)) u
  write 1 (uv_plane + u32 (u32 (uv_y * dst.plane_stride 1) + uv_x + 1)) v

def get_uv_yuv420p (src : vf_framebuffer_t) (x y : Nat) : Bytes (UInt8 × UInt8) := do
  let u_plane := src.plane_size 0
  let v_plane := u_plane + src.plane_size 1
  let uv_x := x / 2
  let uv_y := y / 2
  let u ← read (u_plane + u32 (u32 (uv_y * src.plane_stride 1) + uv_x))
  let v ← read (v_plane + u32 (u32 (uv_y * src.plane_stride 2) + uv_x))
  pure (u, v)

/-- `x & ~1U` is the even column. -/
def get_uv_nv12 (src : vf_framebuffer_t) (x y : Nat) : Bytes (UInt8 × UInt8) := do
  let uv_plane := src.plane_size 0
  let uv_y := y / 2
  let uv_x := x &&& (2 ^ 32 - 1 - 1)
  let u ← read (uv_plane + u32 (u32 (uv_y * src.plane_stride 1) + uv_x + 0))
  let v ← read (uv_plane + u32 (u32 (uv_y * src.plane_stride 1) + uv_x + 1))
  pure (u, v)

def raw8_to_rgb888_loops (src dst : vf_framebuffer_t) : Bytes Unit := do
  let width := src.params.width
  let height := src.params.height
  for_each height fun y => do
    let src_row := u32 (y * src.plane_stride 0)
    let dst_row := u32 (y * dst.plane_stride 0)
    for_each width fun x => do
      let pixel ← read (src_row + x)
      put_rgb dst_row x pixel pixel pixel

def convert_raw8_to_rgb888 : vf_framebuffer_t → vf_framebuffer_t → Converted :=
  convert raw8_to_rgb888_loops

def raw8_to_yuv420p_loops (src dst : vf_framebuffer_t) : Bytes Unit := do
  let width := src.params.width
  let height := src.params.height
  let u_plane := dst.plane_size 0
  let v_plane := u_plane + dst.plane_size 1
  -- the two calls of memset
  for_each (dst.plane_size 1) fun i => write 1 (u_plane + i) 128
  for_each (dst.plane_size 2) fun i => write 2 (v_plane + i) 128
  for_each height fun y => do
    let src_row := u32 (y * src.plane_stride 0)
    let y_row := u32 (y * dst.plane_stride 0)
    for_each width fun x => do
      let pixel ← read (src_row + x)
      write 0 (y_row + x) pixel

def convert_raw8_to_yuv420p : vf_framebuffer_t → vf_framebuffer_t → Converted :=
  convert raw8_to_yuv420p_loops

def convert_rgb888_to_yuv420p : vf_framebuffer_t → vf_framebuffer_t → Converted :=
  convert (encode rgb_order put_uv_yuv420p)

def convert_bgr888_to_yuv420p : vf_framebuffer_t → vf_framebuffer_t → Converted :=
  convert (encode bgr_order put_uv_yuv420p)

def convert_yuv420p_to_rgb888 : vf_framebuffer_t → vf_framebuffer_t → Converted :=
  convert (decode get_uv_yuv420p)

def convert_rgb888_to_nv12 : vf_framebuffer_t → vf_framebuffer_t → Converted :=
  convert (encode rgb_order put_uv_nv12)

def convert_nv12_to_rgb888 : vf_framebuffer_t → vf_framebuffer_t → Converted :=
  convert (decode get_uv_nv12)

/-- `x` takes the even values below `width`: the loop counts the pairs of pixels. (With
`width = 2^32 - 1` the code's `x += 2U` would wrap and never end.) -/
def yuyv_to_rgb888_loops (src dst : vf_framebuffer_t) : Bytes Unit := do
  let width := src.params.width
  let height := src.params.height
  for_each height fun y => do
    let src_row := u32 (y * src.plane_stride 0)
    let dst_row := u32 (y * dst.plane_stride 0)
    for_each ((width + 1) / 2) fun k => do
      let x := 2 * k
      let y0 ← read (src_row + u32 (u32 (x * 2) + 0))
      let u ← read (src_row + u32 (u32 (x * 2) + 1))
      let y1 ← read (src_row + u32 (u32 (x * 2) + 2))
      let v ← read (src_row + u32 (u32 (x * 2) + 3))
      let c := (y0.toNat : Int) - 16
      let d := (u.toNat : Int) - 128
      let e := (v.toNat : Int) - 128
      put_rgb dst_row x (yuv_to_r c e) (yuv_to_g c d e) (yuv_to_b c d)
      let c := (y1.toNat : Int) - 16
      put_rgb dst_row (u32 (x + 1)) (yuv_to_r c e) (yuv_to_g c d e) (yuv_to_b c d)

def convert_yuyv_to_rgb888 : vf_framebuffer_t → vf_framebuffer_t → Converted :=
  convert yuyv_to_rgb888_loops

structure vf_conversion_entry_t where
  src_fmt : vf_pixel_fmt_t
  dst_fmt : vf_pixel_fmt_t
  fn : vf_framebuffer_t → vf_framebuffer_t → Converted

def g_conversion_table : List vf_conversion_entry_t :=
  [⟨.VF_PIXEL_FMT_RGB888, .VF_PIXEL_FMT_YUV420P, convert_rgb888_to_yuv420p⟩,
    ⟨.VF_PIXEL_FMT_BGR888, .VF_PIXEL_FMT_YUV420P, convert_bgr888_to_yuv420p⟩,
    ⟨.VF_PIXEL_FMT_YUV420P, .VF_PIXEL_FMT_RGB888, convert_yuv420p_to_rgb888⟩,
    ⟨.VF_PIXEL_FMT_RGB888, .VF_PIXEL_FMT_NV12, convert_rgb888_to_nv12⟩,
    ⟨.VF_PIXEL_FMT_NV12, .VF_PIXEL_FMT_RGB888, convert_nv12_to_rgb888⟩,
    ⟨.VF_PIXEL_FMT_RAW8, .VF_PIXEL_FMT_RGB888, convert_raw8_to_rgb888⟩,
    ⟨.VF_PIXEL_FMT_RAW8, .VF_PIXEL_FMT_YUV420P, convert_raw8_to_yuv420p⟩,
    ⟨.VF_PIXEL_FMT_YUYV, .VF_PIXEL_FMT_RGB888, convert_yuyv_to_rgb888⟩]

/-- `none` for NULL. -/
def lookup_convert_fn (src_fmt dst_fmt : vf_pixel_fmt_t) :
    Option (vf_framebuffer_t → vf_framebuffer_t → Converted) :=
  (g_conversion_table.find? fun e => e.src_fmt = src_fmt ∧ e.dst_fmt = dst_fmt).map (·.fn)

structure vf_conversion_ctx_t where
  src_fmt : vf_pixel_fmt_t
  dst_fmt : vf_pixel_fmt_t
  convert_fn : Option (vf_framebuffer_t → vf_framebuffer_t → Converted)
  initialized : Int

/-- The context after the `memset` to 0. -/
def vf_conversion_ctx_t.zeroed : vf_conversion_ctx_t :=
  ⟨.VF_PIXEL_FMT_UNKNOWN, .VF_PIXEL_FMT_UNKNOWN, none, 0⟩

def vf_conversion_init (src_fmt dst_fmt : vf_pixel_fmt_t) : vf_err_t × vf_conversion_ctx_t :=
  match lookup_convert_fn src_fmt dst_fmt with
  | none => (.VF_CONV_INIT_ERR, .zeroed)
  | some fn => (.VF_SUCCESS, ⟨src_fmt, dst_fmt, some fn, 1⟩)

/-- An initialized context has a converter: the call through NULL does not happen. -/
def vf_conversion_process (ctx : vf_conversion_ctx_t) (src dst : vf_framebuffer_t) : Converted :=
  if ctx.initialized = 0 then
    (.VF_CONV_PROCESSING_ERR, dst, [])
  else if src.params.format ≠ ctx.src_fmt then
    (.VF_CONV_PROCESSING_ERR, dst, [])
  else if dst.params.format ≠ ctx.dst_fmt then
    (.VF_CONV_PROCESSING_ERR, dst, [])
  else
    match ctx.convert_fn with
    | some fn => fn src dst
    | none => (.VF_CONV_PROCESSING_ERR, dst, [])

end vision_flow.conversion
