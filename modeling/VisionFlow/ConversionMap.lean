-- A conversion as a map of pictures. A picture is a byte for each plane, row and column.
-- Each converter reads one region of the source picture and stores the BT.601 picture on
-- one region of the destination. For even sizes the second region is the destination's
-- pixels.
import VisionFlow.Conversion

open access

namespace vision_flow.conversion

open framebuffer

/-! ## The pure model -/

structure Rgb where
  r : UInt8
  g : UInt8
  b : UInt8
  deriving DecidableEq

structure Yuv where
  y : UInt8
  u : UInt8
  v : UInt8

def Rgb.to_yuv (p : Rgb) : Yuv := ⟨rgb_to_y p.r p.g p.b, rgb_to_u p.r p.g p.b, rgb_to_v p.r p.g p.b⟩

def Yuv.to_rgb (p : Yuv) : Rgb :=
  let c := (p.y.toNat : Int) - 16
  let d := (p.u.toNat : Int) - 128
  let e := (p.v.toNat : Int) - 128
  ⟨yuv_to_r c e, yuv_to_g c d e, yuv_to_b c d⟩

/-- Byte `k` of a stored RGB pixel. -/
def Rgb.channel (p : Rgb) : Nat → UInt8
  | 0 => p.r
  | 1 => p.g
  | _ => p.b

/-- A byte for each plane, row and column. -/
abbrev Picture := Nat → Nat → Nat → UInt8

/-- The picture that a frame's bytes show. -/
def picture (fb : vf_framebuffer_t) (data : Nat → UInt8) : Picture :=
  fun i row col => data (byte_at fb i row col)

/-- The pixel at column `x` of row `y`, by the format. -/
def rgb888 (S : Picture) (x y : Nat) : Rgb := ⟨S 0 y (3 * x), S 0 y (3 * x + 1), S 0 y (3 * x + 2)⟩
def bgr888 (S : Picture) (x y : Nat) : Rgb := ⟨S 0 y (3 * x + 2), S 0 y (3 * x + 1), S 0 y (3 * x)⟩
def yuv420p (S : Picture) (x y : Nat) : Yuv := ⟨S 0 y x, S 1 (y / 2) (x / 2), S 2 (y / 2) (x / 2)⟩
def nv12 (S : Picture) (x y : Nat) : Yuv :=
  ⟨S 0 y x, S 1 (y / 2) (2 * (x / 2)), S 1 (y / 2) (2 * (x / 2) + 1)⟩
def yuyv (S : Picture) (x y : Nat) : Yuv :=
  ⟨S 0 y (2 * x), S 0 y (4 * (x / 2) + 1), S 0 y (4 * (x / 2) + 3)⟩

/-- The picture of an image, by the format. The chroma is that of the even pixels of the
even rows. -/
def store_rgb888 (I : Nat → Nat → Rgb) : Picture :=
  fun _ row col => (I (col / 3) row).channel (col % 3)
def store_yuv420p (I : Nat → Nat → Yuv) : Picture
  | 0, row, col => (I col row).y
  | 1, row, col => (I (2 * col) (2 * row)).u
  | _, row, col => (I (2 * col) (2 * row)).v
def store_nv12 (I : Nat → Nat → Yuv) : Picture
  | 0, row, col => (I col row).y
  | _, row, col =>
    if col % 2 = 0 then (I (2 * (col / 2)) (2 * row)).u else (I (2 * (col / 2)) (2 * row)).v

/-- The picture that a conversion stands for. -/
def bt601 (src_fmt dst_fmt : vf_pixel_fmt_t) (S : Picture) : Picture :=
  match src_fmt, dst_fmt with
  | .VF_PIXEL_FMT_RGB888, .VF_PIXEL_FMT_YUV420P => store_yuv420p fun x y => (rgb888 S x y).to_yuv
  | .VF_PIXEL_FMT_BGR888, .VF_PIXEL_FMT_YUV420P => store_yuv420p fun x y => (bgr888 S x y).to_yuv
  | .VF_PIXEL_FMT_RGB888, .VF_PIXEL_FMT_NV12 => store_nv12 fun x y => (rgb888 S x y).to_yuv
  | .VF_PIXEL_FMT_YUV420P, .VF_PIXEL_FMT_RGB888 => store_rgb888 fun x y => (yuv420p S x y).to_rgb
  | .VF_PIXEL_FMT_NV12, .VF_PIXEL_FMT_RGB888 => store_rgb888 fun x y => (nv12 S x y).to_rgb
  | .VF_PIXEL_FMT_YUYV, .VF_PIXEL_FMT_RGB888 => store_rgb888 fun x y => (yuyv S x y).to_rgb
  | .VF_PIXEL_FMT_RAW8, .VF_PIXEL_FMT_RGB888 =>
    store_rgb888 fun x y => ⟨S 0 y x, S 0 y x, S 0 y x⟩
  | .VF_PIXEL_FMT_RAW8, .VF_PIXEL_FMT_YUV420P => store_yuv420p fun x y => ⟨S 0 y x, 128, 128⟩
  | _, _ => S

/-! ## Regions -/

/-- A set of planes, rows and columns. -/
abbrev Region := Nat → Nat → Nat → Prop

/-- `n` bytes for each of `w` pixels in `h` rows of plane 0. -/
def packed (n w h : Nat) : Region := fun i row col => i = 0 ∧ row < h ∧ col < n * w

/-- A luma plane, and chroma of `n` bytes for two columns and two rows, rounded up, in
the planes up to `last`. -/
def planar (last n w h : Nat) : Region := fun i row col =>
  (i = 0 ∧ row < h ∧ col < w) ∨
    (1 ≤ i ∧ i ≤ last ∧ row < (h + 1) / 2 ∧ col < n * ((w + 1) / 2))

/-- A luma plane, and the whole of the chroma planes, padding included. -/
def filled (dst : vf_framebuffer_t) (w h : Nat) : Region := fun i row col =>
  (i = 0 ∧ row < h ∧ col < w) ∨
    (1 ≤ i ∧ i ≤ 2 ∧ row < dst.plane_height i ∧ col < dst.plane_stride i)

/-- What a conversion reads of its source. -/
def read_region (src_fmt : vf_pixel_fmt_t) (w h : Nat) : Region :=
  match src_fmt with
  | .VF_PIXEL_FMT_YUV420P => planar 2 1 w h
  | .VF_PIXEL_FMT_NV12 => planar 1 2 w h
  | .VF_PIXEL_FMT_YUYV => packed 4 ((w + 1) / 2) h
  | .VF_PIXEL_FMT_RAW8 => packed 1 w h
  | _ => packed 3 w h

/-- What a conversion stores of its destination. -/
def write_region (src_fmt dst_fmt : vf_pixel_fmt_t) (dst : vf_framebuffer_t) (w h : Nat) : Region :=
  match src_fmt, dst_fmt with
  | .VF_PIXEL_FMT_YUYV, _ => packed 6 ((w + 1) / 2) h
  | .VF_PIXEL_FMT_RAW8, .VF_PIXEL_FMT_YUV420P => filled dst w h
  | _, .VF_PIXEL_FMT_YUV420P => planar 2 1 w h
  | _, .VF_PIXEL_FMT_NV12 => planar 1 2 w h
  | _, _ => packed 3 w h

/-- The accesses read the source on `R`, and store the picture `T` on `W`. -/
structure Visits (l : List (Access UInt8)) (src dst : vf_framebuffer_t) (R W : Region)
    (T : Picture) : Prop where
  reads : ∀ a, .read a ∈ l ↔ ∃ i row col, R i row col ∧ a = byte_at src i row col
  writes : ∀ i a v, .write i a v ∈ l ↔
    ∃ row col, W i row col ∧ a = byte_at dst i row col ∧ v = T i row col

/-! ## Addresses without wrap -/

/-- The strides are at most `A`, and `h` rows of `A` bytes fit in 32 bits. -/
structure RowsFit (fb : vf_framebuffer_t) (w h A : Nat) : Prop where
  stride_le : ∀ i, fb.plane_stride i ≤ A
  width_le : w ≤ A
  fit : A * h < 2 ^ 32

theorem RowsFit.offset_lt {fb : vf_framebuffer_t} {w h A : Nat} (hf : RowsFit fb w h A)
    (i : Nat) {y x : Nat} (hy : y < h) (hx : x ≤ A) : y * fb.plane_stride i + x < 2 ^ 32 := by
  have h1 : y * fb.plane_stride i ≤ y * A := Nat.mul_le_mul_left y (hf.stride_le i)
  have h2 : (y + 1) * A ≤ h * A := Nat.mul_le_mul_right A hy
  have h3 := hf.fit
  rw [Nat.succ_mul] at h2
  rw [Nat.mul_comm] at h3
  omega

/-- The index of a byte in a plane, as the code computes it. -/
theorem RowsFit.u32_offset {fb : vf_framebuffer_t} {w h A : Nat} (hf : RowsFit fb w h A)
    (i : Nat) {y x : Nat} (hy : y < h) (hx : x ≤ A) :
    u32 (u32 (y * fb.plane_stride i) + x) = y * fb.plane_stride i + x := by
  have h0 : y * fb.plane_stride i < 2 ^ 32 := hf.offset_lt i hy (Nat.zero_le A)
  rw [u32_of_lt h0, u32_of_lt (hf.offset_lt i hy hx)]

theorem RowsFit.u32_row {fb : vf_framebuffer_t} {w h A : Nat} (hf : RowsFit fb w h A)
    (i : Nat) {y : Nat} (hy : y < h) : u32 (y * fb.plane_stride i) = y * fb.plane_stride i :=
  u32_of_lt (hf.offset_lt i hy (Nat.zero_le A))

theorem u32_index {x n k : Nat} (h : x * n + k < 2 ^ 32) : u32 (u32 (x * n) + k) = n * x + k := by
  rw [u32_of_lt (by omega : x * n < 2 ^ 32), u32_of_lt h, Nat.mul_comm]

theorem byte_at_zero (fb : vf_framebuffer_t) (y x : Nat) :
    byte_at fb 0 y x = y * fb.plane_stride 0 + x := by
  simp [byte_at, plane_start]

theorem byte_at_one (fb : vf_framebuffer_t) (y x : Nat) :
    byte_at fb 1 y x = fb.plane_size 0 + (y * fb.plane_stride 1 + x) := by
  simp [byte_at, plane_start, Nat.add_assoc]

theorem byte_at_two (fb : vf_framebuffer_t) (y x : Nat) :
    byte_at fb 2 y x = fb.plane_size 0 + fb.plane_size 1 + (y * fb.plane_stride 2 + x) := by
  simp [byte_at, plane_start, List.range_succ, Nat.add_assoc]

theorem and_one_eq (n : Nat) : n &&& 1 = n % 2 := Nat.and_one_is_mod n

/-- `x & ~1U` clears the last bit. -/
theorem and_even (x : Nat) (h : x < 2 ^ 32) : x &&& (2 ^ 32 - 1 - 1) = 2 * (x / 2) := by
  have hbits : x &&& (2 ^ 32 - 1 - 1) = x / 2 ^ 1 * 2 ^ 1 := and_high_bits x 1 h
  omega

/-! ## The specs -/

theorem exists_lt_three {P : Nat → Prop} : (∃ k < 3, P k) ↔ P 0 ∨ P 1 ∨ P 2 := by
  refine ⟨?_, ?_⟩
  · rintro ⟨k, hk, h⟩
    rcases k with _ | _ | _ | k
    · exact Or.inl h
    · exact Or.inr (Or.inl h)
    · exact Or.inr (Or.inr h)
    · omega
  · rintro (h | h | h)
    · exact ⟨0, by decide, h⟩
    · exact ⟨1, by decide, h⟩
    · exact ⟨2, by decide, h⟩

theorem exists_lt_four {P : Nat → Prop} : (∃ k < 4, P k) ↔ P 0 ∨ P 1 ∨ P 2 ∨ P 3 := by
  refine ⟨?_, ?_⟩
  · rintro ⟨k, hk, h⟩
    by_cases h3 : k < 3
    · have := exists_lt_three.mp ⟨k, h3, h⟩
      tauto
    · obtain rfl : k = 3 := by omega
      exact Or.inr (Or.inr (Or.inr h))
  · rintro (h | h | h | h)
    · exact ⟨0, by decide, h⟩
    · exact ⟨1, by decide, h⟩
    · exact ⟨2, by decide, h⟩
    · exact ⟨3, by decide, h⟩

theorem mem_put_rgb (row x : Nat) (h : x * 3 + 2 < 2 ^ 32) (p : Rgb) (m : Nat → UInt8)
    (acc : Access UInt8) :
    acc ∈ log (put_rgb row x p.r p.g p.b) m ↔
      ∃ k < 3, acc = .write 0 (row + (3 * x + k)) (p.channel k) := by
  have h0 := u32_index (x := x) (n := 3) (k := 0) (by omega)
  have h1 := u32_index (x := x) (n := 3) (k := 1) (by omega)
  have h2 := u32_index (x := x) (n := 3) (k := 2) h
  simp only [put_rgb, log_bind, log_write, h0, h1, h2, List.mem_append, List.mem_singleton,
    exists_lt_three, Rgb.channel]

theorem mem_encode {src dst : vf_framebuffer_t} {w h A B : Nat} (hw : src.params.width = w)
    (hh : src.params.height = h) (hs : RowsFit src w h A) (hd : RowsFit dst w h B)
    (h3 : 3 * w + 2 < 2 ^ 32) (order : UInt8 → UInt8 → UInt8 → UInt8 × UInt8 × UInt8)
    (put_uv : vf_framebuffer_t → Nat → Nat → UInt8 → UInt8 → Bytes Unit)
    (s : Nat → UInt8) (I : Nat → Nat → Rgb)
    (hI : ∀ x y, order (picture src s 0 y (3 * x)) (picture src s 0 y (3 * x + 1))
      (picture src s 0 y (3 * x + 2)) = ((I x y).r, (I x y).g, (I x y).b))
    (acc : Access UInt8) :
    acc ∈ log (encode order put_uv src dst) s ↔ ∃ y < h, ∃ x < w,
      (∃ k < 3, acc = .read (byte_at src 0 y (3 * x + k))) ∨
      acc = .write 0 (byte_at dst 0 y x) (I x y).to_yuv.y ∨
      (y % 2 = 0 ∧ x % 2 = 0 ∧
        acc ∈ log (put_uv dst x y (I x y).to_yuv.u (I x y).to_yuv.v) s) := by
  simp only [encode, mem_log_for_each, hw, hh]
  refine exists_congr fun y => and_congr_right fun hy => exists_congr fun x =>
    and_congr_right fun hx => ?_
  have i0 := u32_index (x := x) (n := 3) (k := 0) (by omega)
  have i1 := u32_index (x := x) (n := 3) (k := 1) (by omega)
  have i2 := u32_index (x := x) (n := 3) (k := 2) (by omega)
  have hIxy : order (s (y * src.plane_stride 0 + (3 * x + 0)))
      (s (y * src.plane_stride 0 + (3 * x + 1))) (s (y * src.plane_stride 0 + (3 * x + 2))) =
      ((I x y).r, (I x y).g, (I x y).b) := by
    simpa only [picture, byte_at_zero, Nat.add_zero] using hI x y
  have hpt : IS_UV_SAMPLE_POINT x y ↔ y % 2 = 0 ∧ x % 2 = 0 := by
    simp only [IS_UV_SAMPLE_POINT, and_one_eq]
  simp only [log_bind, log_read, value_read, log_write, hs.u32_row 0 hy, hd.u32_row 0 hy, i0, i1,
    i2, hIxy, List.mem_append, List.mem_singleton, exists_lt_three, byte_at_zero, or_assoc]
  by_cases hc : y % 2 = 0 ∧ x % 2 = 0
  · simp [hpt, hc, Rgb.to_yuv]
  · simp [hpt, hc, Rgb.to_yuv, ← and_assoc]

/-- One row of the planar decoders' loops. -/
def decode_row (get_uv : vf_framebuffer_t → Nat → Nat → Bytes (UInt8 × UInt8))
    (src dst : vf_framebuffer_t) (y : Nat) : Bytes Unit := do
  let dst_row := u32 (y * dst.plane_stride 0)
  for_each src.params.width fun x => do
    let yv ← read (u32 (u32 (y * src.plane_stride 0) + x))
    let (u, v) ← get_uv src x y
    let c := (yv.toNat : Int) - 16
    let d := (u.toNat : Int) - 128
    let e := (v.toNat : Int) - 128
    put_rgb dst_row x (yuv_to_r c e) (yuv_to_g c d e) (yuv_to_b c d)

theorem decode_eq (get_uv : vf_framebuffer_t → Nat → Nat → Bytes (UInt8 × UInt8))
    (src dst : vf_framebuffer_t) :
    decode get_uv src dst = for_each src.params.height (decode_row get_uv src dst) := rfl

theorem mem_decode_row {src dst : vf_framebuffer_t} {w h A B : Nat} (hw : src.params.width = w)
    (hs : RowsFit src w h A) (hd : RowsFit dst w h B) (h3 : 3 * w + 2 < 2 ^ 32)
    (get_uv : vf_framebuffer_t → Nat → Nat → Bytes (UInt8 × UInt8))
    (s : Nat → UInt8) (I : Nat → Nat → Yuv) (hI : ∀ x y, (I x y).y = picture src s 0 y x)
    {y : Nat} (hyh : y < h) (huv : ∀ x < w, value (get_uv src x y) s = ((I x y).u, (I x y).v))
    (acc : Access UInt8) :
    acc ∈ log (decode_row get_uv src dst y) s ↔ ∃ x < w,
      acc = .read (byte_at src 0 y x) ∨ acc ∈ log (get_uv src x y) s ∨
      ∃ k < 3, acc = .write 0 (byte_at dst 0 y (3 * x + k)) ((I x y).to_rgb.channel k) := by
  simp only [decode_row, mem_log_for_each, hw]
  refine exists_congr fun x => and_congr_right fun hxw => ?_
  have hrow : u32 (u32 (y * src.plane_stride 0) + x) = y * src.plane_stride 0 + x :=
    hs.u32_offset 0 hyh (Nat.le_trans (Nat.le_of_lt hxw) hs.width_le)
  have hval : s (y * src.plane_stride 0 + x) = (I x y).y := by
    rw [hI, picture, byte_at_zero]
  have hput := mem_put_rgb (y * dst.plane_stride 0) x (by omega) (I x y).to_rgb s acc
  simp only [Yuv.to_rgb] at hput
  simp only [log_bind, log_read, value_read, hrow, hval, huv x hxw, hd.u32_row 0 hyh,
    List.mem_append, List.mem_singleton, byte_at_zero, Yuv.to_rgb, hput]

theorem mem_decode {src dst : vf_framebuffer_t} {w h A B : Nat} (hw : src.params.width = w)
    (hh : src.params.height = h) (hs : RowsFit src w h A) (hd : RowsFit dst w h B)
    (h3 : 3 * w + 2 < 2 ^ 32) (get_uv : vf_framebuffer_t → Nat → Nat → Bytes (UInt8 × UInt8))
    (s : Nat → UInt8) (I : Nat → Nat → Yuv)
    (hy : ∀ x y, (I x y).y = picture src s 0 y x)
    (huv : ∀ y < h, ∀ x < w, value (get_uv src x y) s = ((I x y).u, (I x y).v))
    (acc : Access UInt8) :
    acc ∈ log (decode get_uv src dst) s ↔ ∃ y < h, ∃ x < w,
      acc = .read (byte_at src 0 y x) ∨ acc ∈ log (get_uv src x y) s ∨
      ∃ k < 3, acc = .write 0 (byte_at dst 0 y (3 * x + k)) ((I x y).to_rgb.channel k) := by
  rw [decode_eq, mem_log_for_each, hh]
  refine exists_congr fun y => and_congr_right fun hyh => ?_
  exact mem_decode_row hw hs hd h3 get_uv s I hy hyh (huv y hyh) acc

theorem mem_put_uv_yuv420p {dst : vf_framebuffer_t} {w h B x y : Nat} (hd : RowsFit dst w h B)
    (hy : y < h) (hx : x < w) (u v : UInt8) (s : Nat → UInt8) (acc : Access UInt8) :
    acc ∈ log (put_uv_yuv420p dst x y u v) s ↔
      acc = .write 1 (byte_at dst 1 (y / 2) (x / 2)) u ∨
        acc = .write 2 (byte_at dst 2 (y / 2) (x / 2)) v := by
  have hyh : y / 2 < h := by omega
  have hxB : x / 2 ≤ B := by
    have := hd.width_le
    omega
  simp only [put_uv_yuv420p, log_bind, log_write, hd.u32_offset 1 hyh hxB,
    hd.u32_offset 2 hyh hxB, byte_at_one, byte_at_two, List.mem_append, List.mem_singleton]

theorem mem_put_uv_nv12 {dst : vf_framebuffer_t} {w h B x y : Nat} (hd : RowsFit dst w h B)
    (hy : y < h) (hx : x < w) (u v : UInt8) (s : Nat → UInt8) (acc : Access UInt8) :
    acc ∈ log (put_uv_nv12 dst x y u v) s ↔
      acc = .write 1 (byte_at dst 1 (y / 2) (x + 0)) u ∨
        acc = .write 1 (byte_at dst 1 (y / 2) (x + 1)) v := by
  have hyh : y / 2 < h := by omega
  have hB := hd.width_le
  have h0 := hd.u32_offset 1 hyh (x := x + 0) (by omega)
  have h1 := hd.u32_offset 1 hyh (x := x + 1) (by omega)
  simp only [put_uv_nv12, log_bind, log_write, Nat.add_assoc, h0, h1, byte_at_one,
    List.mem_append, List.mem_singleton]

theorem get_uv_yuv420p.spec {src : vf_framebuffer_t} {w h A x y : Nat} (hs : RowsFit src w h A)
    (hy : y < h) (hx : x < w) (s : Nat → UInt8) :
    value (get_uv_yuv420p src x y) s = ((yuv420p (picture src s) x y).u,
        (yuv420p (picture src s) x y).v) ∧
      log (get_uv_yuv420p src x y) s = [.read (byte_at src 1 (y / 2) (x / 2)),
        .read (byte_at src 2 (y / 2) (x / 2))] := by
  have hyh : y / 2 < h := by omega
  have hxA : x / 2 ≤ A := by
    have := hs.width_le
    omega
  simp only [get_uv_yuv420p, value_bind, value_read, value_pure, log_bind, log_read, log_pure,
    hs.u32_offset 1 hyh hxA, hs.u32_offset 2 hyh hxA, yuv420p, picture, byte_at_one, byte_at_two]
  exact ⟨trivial, rfl⟩

theorem get_uv_nv12.spec {src : vf_framebuffer_t} {w h A x y : Nat} (hs : RowsFit src w h A)
    (hy : y < h) (hx : x < w) (hw : w < 2 ^ 32) (s : Nat → UInt8) :
    value (get_uv_nv12 src x y) s = ((nv12 (picture src s) x y).u,
        (nv12 (picture src s) x y).v) ∧
      log (get_uv_nv12 src x y) s = [.read (byte_at src 1 (y / 2) (2 * (x / 2))),
        .read (byte_at src 1 (y / 2) (2 * (x / 2) + 1))] := by
  have hyh : y / 2 < h := by omega
  have hA := hs.width_le
  have h0 := hs.u32_offset 1 hyh (x := 2 * (x / 2) + 0) (by omega)
  have h1 := hs.u32_offset 1 hyh (x := 2 * (x / 2) + 1) (by omega)
  have heven := and_even x (by omega)
  simp only [get_uv_nv12, value_bind, value_read, value_pure, log_bind, log_read, log_pure, heven,
    Nat.add_assoc, h0, h1, nv12, picture, byte_at_one]
  exact ⟨rfl, rfl⟩

/-- The bytes of the pixels of the rows are the bytes of the region. -/
theorem exists_pixel_byte_iff {n w h : Nat} (hn : 0 < n) {P : Nat → Nat → Nat → Nat → Prop} :
    (∃ y < h, ∃ x < w, ∃ k < n, P y x k (n * x + k)) ↔
      ∃ i row col, packed n w h i row col ∧ P row (col / n) (col % n) col := by
  refine ⟨?_, ?_⟩
  · rintro ⟨y, hy, x, hx, k, hk, hP⟩
    have hcol : n * x + k < n * w := by
      have := Nat.mul_le_mul_left n hx
      rw [Nat.mul_succ] at this
      omega
    refine ⟨0, y, n * x + k, ⟨rfl, hy, hcol⟩, ?_⟩
    rwa [Nat.mul_add_div hn, Nat.div_eq_of_lt hk, Nat.add_zero, Nat.mul_add_mod,
      Nat.mod_eq_of_lt hk]
  · rintro ⟨i, row, col, ⟨-, hrow, hcol⟩, hP⟩
    refine ⟨row, hrow, col / n, Nat.div_lt_of_lt_mul hcol, col % n, Nat.mod_lt _ hn, ?_⟩
    rwa [Nat.div_add_mod]

theorem packed_reads_iff {n w h : Nat} (hn : 0 < n) (src : vf_framebuffer_t) (a : Nat) :
    (∃ y < h, ∃ x < w, ∃ k < n, (.read a : Access UInt8) = .read (byte_at src 0 y (n * x + k))) ↔
      ∃ i row col, packed n w h i row col ∧ a = byte_at src i row col := by
  rw [exists_pixel_byte_iff hn
    (P := fun y _ _ c => (.read a : Access UInt8) = .read (byte_at src 0 y c))]
  refine exists_congr fun i => exists_congr fun row => exists_congr fun col =>
    and_congr_right fun hR => ?_
  rw [hR.1, Access.read.injEq]

theorem rgb_writes_iff {w h : Nat} (dst : vf_framebuffer_t) (I : Nat → Nat → Rgb) (i a : Nat)
    (v : UInt8) :
    (∃ y < h, ∃ x < w, ∃ k < 3,
        Access.write i a v = .write 0 (byte_at dst 0 y (3 * x + k)) ((I x y).channel k)) ↔
      ∃ row col, packed 3 w h i row col ∧ a = byte_at dst i row col ∧
        v = store_rgb888 I i row col := by
  rw [exists_pixel_byte_iff (by decide : 0 < 3)
    (P := fun y x k c => Access.write i a v = .write 0 (byte_at dst 0 y c) ((I x y).channel k))]
  refine ⟨?_, ?_⟩
  · rintro ⟨i', row, col, hR, he⟩
    obtain ⟨rfl, rfl, rfl⟩ := Access.write.inj he
    exact ⟨row, col, ⟨rfl, hR.2⟩, rfl, rfl⟩
  · rintro ⟨row, col, hR, rfl, rfl⟩
    exact ⟨i, row, col, hR, by rw [hR.1]; rfl⟩

/-- An encoder, from what it stores of the chroma. -/
theorem visits_encode {src dst : vf_framebuffer_t} {w h A B : Nat}
    (hw : src.params.width = w) (hh : src.params.height = h) (hs : RowsFit src w h A)
    (hd : RowsFit dst w h B) (h3 : 3 * w + 2 < 2 ^ 32)
    {order : UInt8 → UInt8 → UInt8 → UInt8 × UInt8 × UInt8}
    {put_uv : vf_framebuffer_t → Nat → Nat → UInt8 → UInt8 → Bytes Unit} {s : Nat → UInt8}
    {I : Nat → Nat → Rgb}
    (hI : ∀ x y, order (picture src s 0 y (3 * x)) (picture src s 0 y (3 * x + 1))
      (picture src s 0 y (3 * x + 2)) = ((I x y).r, (I x y).g, (I x y).b))
    {last n : Nat} {T : Picture} (hT : ∀ row col, T 0 row col = (I col row).to_yuv.y)
    (hput : ∀ acc, (∃ y < h, ∃ x < w, (y % 2 = 0 ∧ x % 2 = 0) ∧
        acc ∈ log (put_uv dst x y (I x y).to_yuv.u (I x y).to_yuv.v) s) ↔
      ∃ i row col, (1 ≤ i ∧ i ≤ last ∧ row < (h + 1) / 2 ∧ col < n * ((w + 1) / 2)) ∧
        acc = .write i (byte_at dst i row col) (T i row col)) :
    Visits (log (encode order put_uv src dst) s) src dst (packed 3 w h) (planar last n w h) T := by
  have hmem := mem_encode hw hh hs hd h3 order put_uv s I hI
  refine ⟨?_, ?_⟩
  · intro a
    rw [hmem]
    refine ⟨?_, ?_⟩
    · rintro ⟨y, hy, x, hx, ⟨k, hk, he⟩ | he | ⟨h1, h2, he⟩⟩
      · exact (packed_reads_iff (by decide) src a).mp ⟨y, hy, x, hx, k, hk, he⟩
      · cases he
      · obtain ⟨i, row, col, -, he⟩ := (hput _).mp ⟨y, hy, x, hx, ⟨h1, h2⟩, he⟩
        cases he
    · intro hR
      obtain ⟨y, hy, x, hx, hk⟩ := (packed_reads_iff (by decide) src a).mpr hR
      exact ⟨y, hy, x, hx, Or.inl hk⟩
  · intro i a v
    rw [hmem]
    refine ⟨?_, ?_⟩
    · rintro ⟨y, hy, x, hx, ⟨k, hk, he⟩ | he | ⟨h1, h2, he⟩⟩
      · cases he
      · obtain ⟨rfl, rfl, rfl⟩ := Access.write.inj he
        exact ⟨y, x, Or.inl ⟨rfl, hy, hx⟩, rfl, (hT y x).symm⟩
      · obtain ⟨i', row, col, hR, he⟩ := (hput _).mp ⟨y, hy, x, hx, ⟨h1, h2⟩, he⟩
        obtain ⟨rfl, rfl, rfl⟩ := Access.write.inj he
        exact ⟨row, col, Or.inr hR, rfl, rfl⟩
    · rintro ⟨row, col, ⟨rfl, hrow, hcol⟩ | hR, rfl, rfl⟩
      · exact ⟨row, hrow, col, hcol, Or.inr (Or.inl (by rw [hT]))⟩
      · obtain ⟨y, hy, x, hx, ⟨h1, h2⟩, he⟩ := (hput _).mpr ⟨i, row, col, hR, rfl⟩
        exact ⟨y, hy, x, hx, Or.inr (Or.inr ⟨h1, h2, he⟩)⟩

theorem visits_encode_yuv420p {src dst : vf_framebuffer_t} {w h A B : Nat}
    (hw : src.params.width = w) (hh : src.params.height = h) (hs : RowsFit src w h A)
    (hd : RowsFit dst w h B) (h3 : 3 * w + 2 < 2 ^ 32)
    {order : UInt8 → UInt8 → UInt8 → UInt8 × UInt8 × UInt8} {s : Nat → UInt8}
    {I : Nat → Nat → Rgb}
    (hI : ∀ x y, order (picture src s 0 y (3 * x)) (picture src s 0 y (3 * x + 1))
      (picture src s 0 y (3 * x + 2)) = ((I x y).r, (I x y).g, (I x y).b)) :
    Visits (log (encode order put_uv_yuv420p src dst) s) src dst (packed 3 w h) (planar 2 1 w h)
      (store_yuv420p fun x y => (I x y).to_yuv) := by
  refine visits_encode hw hh hs hd h3 hI (fun _ _ => rfl) fun acc => ?_
  refine ⟨?_, ?_⟩
  · rintro ⟨y, hy, x, hx, ⟨h1, h2⟩, hacc⟩
    have ey : 2 * (y / 2) = y := by omega
    have ex : 2 * (x / 2) = x := by omega
    rcases (mem_put_uv_yuv420p hd hy hx _ _ s acc).mp hacc with rfl | rfl
    · exact ⟨1, y / 2, x / 2, by omega, by simp only [store_yuv420p, ex, ey]⟩
    · exact ⟨2, y / 2, x / 2, by omega, by simp only [store_yuv420p, ex, ey]⟩
  · rintro ⟨i, row, col, ⟨hi1, hi2, hrow, hcol⟩, rfl⟩
    refine ⟨2 * row, by omega, 2 * col, by omega, by omega, ?_⟩
    rw [mem_put_uv_yuv420p hd (by omega) (by omega)]
    have ey : 2 * row / 2 = row := by omega
    have ex : 2 * col / 2 = col := by omega
    rcases (by omega : i = 1 ∨ i = 2) with rfl | rfl
    · exact Or.inl (by simp only [store_yuv420p, ex, ey])
    · exact Or.inr (by simp only [store_yuv420p, ex, ey])

theorem visits_encode_nv12 {src dst : vf_framebuffer_t} {w h A B : Nat}
    (hw : src.params.width = w) (hh : src.params.height = h) (hs : RowsFit src w h A)
    (hd : RowsFit dst w h B) (h3 : 3 * w + 2 < 2 ^ 32)
    {order : UInt8 → UInt8 → UInt8 → UInt8 × UInt8 × UInt8} {s : Nat → UInt8}
    {I : Nat → Nat → Rgb}
    (hI : ∀ x y, order (picture src s 0 y (3 * x)) (picture src s 0 y (3 * x + 1))
      (picture src s 0 y (3 * x + 2)) = ((I x y).r, (I x y).g, (I x y).b)) :
    Visits (log (encode order put_uv_nv12 src dst) s) src dst (packed 3 w h) (planar 1 2 w h)
      (store_nv12 fun x y => (I x y).to_yuv) := by
  refine visits_encode hw hh hs hd h3 hI (fun _ _ => rfl) fun acc => ?_
  refine ⟨?_, ?_⟩
  · rintro ⟨y, hy, x, hx, ⟨h1, h2⟩, hacc⟩
    have ey : 2 * (y / 2) = y := by omega
    have ex : 2 * (x / 2) = x := by omega
    have ex1 : 2 * ((x + 1) / 2) = x := by omega
    have odd : (x + 1) % 2 ≠ 0 := by omega
    rcases (mem_put_uv_nv12 hd hy hx _ _ s acc).mp hacc with rfl | rfl
    · exact ⟨1, y / 2, x, by omega, by simp only [store_nv12, ex, ey, h2, if_true, Nat.add_zero]⟩
    · exact ⟨1, y / 2, x + 1, by omega, by simp only [store_nv12, ex1, ey, odd, if_false]⟩
  · rintro ⟨i, row, col, ⟨hi1, hi2, hrow, hcol⟩, rfl⟩
    obtain rfl : i = 1 := by omega
    refine ⟨2 * row, by omega, 2 * (col / 2), by omega, by omega, ?_⟩
    rw [mem_put_uv_nv12 hd (by omega) (by omega)]
    have ey : 2 * row / 2 = row := by omega
    rcases Nat.mod_two_eq_zero_or_one col with h2 | h2
    · have ex : 2 * (col / 2) = col := by omega
      exact Or.inl (by simp only [store_nv12, ex, ey, h2, if_true, Nat.add_zero])
    · have ex : 2 * (col / 2) + 1 = col := by omega
      exact Or.inr (by simp only [store_nv12, ex, ey, h2, Nat.one_ne_zero, if_false])

/-- A decoder of planes, from what it reads of the chroma. -/
theorem visits_decode {src dst : vf_framebuffer_t} {w h A B : Nat}
    (hw : src.params.width = w) (hh : src.params.height = h) (hs : RowsFit src w h A)
    (hd : RowsFit dst w h B) (h3 : 3 * w + 2 < 2 ^ 32)
    {get_uv : vf_framebuffer_t → Nat → Nat → Bytes (UInt8 × UInt8)} {s : Nat → UInt8}
    {I : Nat → Nat → Yuv} (hy : ∀ x y, (I x y).y = picture src s 0 y x)
    (huv : ∀ y < h, ∀ x < w, value (get_uv src x y) s = ((I x y).u, (I x y).v))
    {last n : Nat}
    (hget : ∀ acc, (∃ y < h, ∃ x < w, acc ∈ log (get_uv src x y) s) ↔
      ∃ i row col, (1 ≤ i ∧ i ≤ last ∧ row < (h + 1) / 2 ∧ col < n * ((w + 1) / 2)) ∧
        acc = .read (byte_at src i row col)) :
    Visits (log (decode get_uv src dst) s) src dst (planar last n w h) (packed 3 w h)
      (store_rgb888 fun x y => (I x y).to_rgb) := by
  have hmem := mem_decode hw hh hs hd h3 get_uv s I hy huv
  refine ⟨?_, ?_⟩
  · intro a
    rw [hmem]
    refine ⟨?_, ?_⟩
    · rintro ⟨y, hy, x, hx, he | he | ⟨k, hk, he⟩⟩
      · exact ⟨0, y, x, Or.inl ⟨rfl, hy, hx⟩, Access.read.inj he⟩
      · obtain ⟨i, row, col, hR, he⟩ := (hget _).mp ⟨y, hy, x, hx, he⟩
        exact ⟨i, row, col, Or.inr hR, Access.read.inj he⟩
      · cases he
    · rintro ⟨i, row, col, ⟨rfl, hrow, hcol⟩ | hR, rfl⟩
      · exact ⟨row, hrow, col, hcol, Or.inl rfl⟩
      · obtain ⟨y, hy, x, hx, he⟩ := (hget _).mpr ⟨i, row, col, hR, rfl⟩
        exact ⟨y, hy, x, hx, Or.inr (Or.inl he)⟩
  · intro i a v
    rw [hmem]
    refine ⟨?_, ?_⟩
    · rintro ⟨y, hy, x, hx, he | he | ⟨k, hk, he⟩⟩
      · cases he
      · obtain ⟨i, row, col, -, he⟩ := (hget _).mp ⟨y, hy, x, hx, he⟩
        cases he
      · exact (rgb_writes_iff dst (fun x y => (I x y).to_rgb) i a v).mp ⟨y, hy, x, hx, k, hk, he⟩
    · intro hR
      obtain ⟨y, hy, x, hx, hk⟩ := (rgb_writes_iff dst (fun x y => (I x y).to_rgb) i a v).mpr hR
      exact ⟨y, hy, x, hx, Or.inr (Or.inr hk)⟩

theorem visits_decode_yuv420p {src dst : vf_framebuffer_t} {w h A B : Nat}
    (hw : src.params.width = w) (hh : src.params.height = h) (hs : RowsFit src w h A)
    (hd : RowsFit dst w h B) (h3 : 3 * w + 2 < 2 ^ 32) (s : Nat → UInt8) :
    Visits (log (decode get_uv_yuv420p src dst) s) src dst (planar 2 1 w h) (packed 3 w h)
      (store_rgb888 fun x y => (yuv420p (picture src s) x y).to_rgb) := by
  refine visits_decode hw hh hs hd h3 (fun _ _ => rfl)
    (fun y hy x hx => (get_uv_yuv420p.spec hs hy hx s).1) fun acc => ?_
  refine ⟨?_, ?_⟩
  · rintro ⟨y, hy, x, hx, hacc⟩
    rw [(get_uv_yuv420p.spec hs hy hx s).2] at hacc
    simp only [List.mem_cons, List.not_mem_nil, or_false] at hacc
    rcases hacc with rfl | rfl
    · exact ⟨1, y / 2, x / 2, by omega, rfl⟩
    · exact ⟨2, y / 2, x / 2, by omega, rfl⟩
  · rintro ⟨i, row, col, ⟨hi1, hi2, hrow, hcol⟩, rfl⟩
    refine ⟨2 * row, by omega, 2 * col, by omega, ?_⟩
    have ey : 2 * row / 2 = row := by omega
    have ex : 2 * col / 2 = col := by omega
    rw [(get_uv_yuv420p.spec hs (by omega) (by omega) s).2, ey, ex]
    rcases (by omega : i = 1 ∨ i = 2) with rfl | rfl <;> simp

theorem visits_decode_nv12 {src dst : vf_framebuffer_t} {w h A B : Nat}
    (hw : src.params.width = w) (hh : src.params.height = h) (hs : RowsFit src w h A)
    (hd : RowsFit dst w h B) (h3 : 3 * w + 2 < 2 ^ 32) (s : Nat → UInt8) :
    Visits (log (decode get_uv_nv12 src dst) s) src dst (planar 1 2 w h) (packed 3 w h)
      (store_rgb888 fun x y => (nv12 (picture src s) x y).to_rgb) := by
  have hget := fun y (hy : y < h) x (hx : x < w) => get_uv_nv12.spec hs hy hx (by omega) s
  refine visits_decode hw hh hs hd h3 (fun _ _ => rfl)
    (fun y hy x hx => (hget y hy x hx).1) fun acc => ?_
  refine ⟨?_, ?_⟩
  · rintro ⟨y, hy, x, hx, hacc⟩
    rw [(hget y hy x hx).2] at hacc
    simp only [List.mem_cons, List.not_mem_nil, or_false] at hacc
    rcases hacc with rfl | rfl
    · exact ⟨1, y / 2, 2 * (x / 2), by omega, rfl⟩
    · exact ⟨1, y / 2, 2 * (x / 2) + 1, by omega, rfl⟩
  · rintro ⟨i, row, col, ⟨hi1, hi2, hrow, hcol⟩, rfl⟩
    obtain rfl : i = 1 := by omega
    refine ⟨2 * row, by omega, 2 * (col / 2), by omega, ?_⟩
    have ey : 2 * row / 2 = row := by omega
    have ex : 2 * (2 * (col / 2) / 2) = 2 * (col / 2) := by omega
    rw [(hget _ (by omega) _ (by omega)).2, ey, ex]
    rcases (by omega : col = 2 * (col / 2) ∨ col = 2 * (col / 2) + 1) with hc | hc <;>
      rw [← hc] <;> simp

/-- One row of the loop of `convert_raw8_to_rgb888`. -/
def raw8_to_rgb888_row (src dst : vf_framebuffer_t) (y : Nat) : Bytes Unit := do
  let src_row := u32 (y * src.plane_stride 0)
  let dst_row := u32 (y * dst.plane_stride 0)
  for_each src.params.width fun x => do
    let pixel ← read (src_row + x)
    put_rgb dst_row x pixel pixel pixel

theorem raw8_to_rgb888_loops_eq (src dst : vf_framebuffer_t) :
    raw8_to_rgb888_loops src dst =
      for_each src.params.height (raw8_to_rgb888_row src dst) := rfl

/-- A grey pixel. -/
def grey (v : UInt8) : Rgb := ⟨v, v, v⟩

theorem mem_raw8_to_rgb888_row {src dst : vf_framebuffer_t} {w h A B : Nat}
    (hw : src.params.width = w) (hs : RowsFit src w h A) (hd : RowsFit dst w h B)
    (h3 : 3 * w + 2 < 2 ^ 32) (s : Nat → UInt8) {y : Nat} (hy : y < h) (acc : Access UInt8) :
    acc ∈ log (raw8_to_rgb888_row src dst y) s ↔ ∃ x < w,
      acc = .read (byte_at src 0 y x) ∨
        ∃ k < 3, acc = .write 0 (byte_at dst 0 y (3 * x + k))
          ((grey (picture src s 0 y x)).channel k) := by
  simp only [raw8_to_rgb888_row, mem_log_for_each, hw]
  refine exists_congr fun x => and_congr_right fun hx => ?_
  have hput := mem_put_rgb (y * dst.plane_stride 0) x (by omega) (grey (picture src s 0 y x)) s acc
  simp only [grey, picture, byte_at_zero] at hput
  simp only [log_bind, log_read, value_read, hs.u32_row 0 hy, hd.u32_row 0 hy, List.mem_append,
    List.mem_singleton, hput, grey, picture, byte_at_zero]

theorem visits_raw8_to_rgb888 {src dst : vf_framebuffer_t} {w h A B : Nat}
    (hw : src.params.width = w) (hh : src.params.height = h) (hs : RowsFit src w h A)
    (hd : RowsFit dst w h B) (h3 : 3 * w + 2 < 2 ^ 32) (s : Nat → UInt8) :
    Visits (log (raw8_to_rgb888_loops src dst) s) src dst (packed 1 w h) (packed 3 w h)
      (store_rgb888 fun x y =>
        ⟨picture src s 0 y x, picture src s 0 y x, picture src s 0 y x⟩) := by
  have hmem : ∀ acc, acc ∈ log (raw8_to_rgb888_loops src dst) s ↔ ∃ y < h, ∃ x < w,
      acc = .read (byte_at src 0 y x) ∨
        ∃ k < 3, acc = .write 0 (byte_at dst 0 y (3 * x + k))
          ((grey (picture src s 0 y x)).channel k) := by
    intro acc
    rw [raw8_to_rgb888_loops_eq, mem_log_for_each, hh]
    refine exists_congr fun y => and_congr_right fun hy => ?_
    exact mem_raw8_to_rgb888_row hw hs hd h3 s hy acc
  refine ⟨?_, ?_⟩
  · intro a
    rw [← packed_reads_iff (by decide), hmem]
    simp
  · intro i a v
    rw [← rgb_writes_iff, hmem]
    simp only [reduceCtorEq, false_or, grey]

/-- The bytes of the rows of a plane, padding included, are the bytes of the plane. -/
theorem exists_cell_iff {st h : Nat} {P : Nat → Prop} :
    (∃ k < st * h, P k) ↔ ∃ row < h, ∃ col < st, P (row * st + col) := by
  refine ⟨?_, ?_⟩
  · rintro ⟨k, hk, hP⟩
    have hpos : 0 < st := by
      rcases Nat.eq_zero_or_pos st with h0 | h0
      · simp [h0] at hk
      · exact h0
    refine ⟨k / st, Nat.div_lt_of_lt_mul hk, k % st, Nat.mod_lt _ hpos, ?_⟩
    rwa [Nat.div_add_mod']
  · rintro ⟨row, hrow, col, hcol, hP⟩
    have hle := Nat.mul_le_mul_right st hrow
    rw [Nat.succ_mul, Nat.mul_comm h] at hle
    exact ⟨row * st + col, by omega, hP⟩

theorem visits_raw8_to_yuv420p {src dst : vf_framebuffer_t} {w h A B : Nat} {ps : List Plane}
    (hw : src.params.width = w) (hh : src.params.height = h) (hs : RowsFit src w h A)
    (hd : RowsFit dst w h B) (ha : Arrays dst ps) (s : Nat → UInt8) :
    Visits (log (raw8_to_yuv420p_loops src dst) s) src dst (packed 1 w h) (filled dst w h)
      (store_yuv420p fun x y => ⟨picture src s 0 y x, 128, 128⟩) := by
  have hsize : ∀ i, dst.plane_size i = dst.plane_stride i * dst.plane_height i := fun i => by
    rw [ha.size, ha.stride, ha.height, Plane.size]
  have hmem : ∀ acc, acc ∈ log (raw8_to_yuv420p_loops src dst) s ↔
      (∃ row < dst.plane_height 1, ∃ col < dst.plane_stride 1,
        acc = .write 1 (byte_at dst 1 row col) 128) ∨
      (∃ row < dst.plane_height 2, ∃ col < dst.plane_stride 2,
        acc = .write 2 (byte_at dst 2 row col) 128) ∨
      ∃ y < h, ∃ x < w, acc = .read (byte_at src 0 y x) ∨
        acc = .write 0 (byte_at dst 0 y x) (picture src s 0 y x) := by
    intro acc
    simp only [raw8_to_yuv420p_loops, log_bind, List.mem_append, mem_log_for_each, log_write,
      List.mem_singleton, hw, hh]
    refine or_congr ?_ (or_congr ?_ ?_)
    · rw [hsize 1, exists_cell_iff (P := fun k => acc = .write 1 (dst.plane_size 0 + k) 128)]
      simp only [byte_at_one]
    · rw [hsize 2, exists_cell_iff
        (P := fun k => acc = .write 2 (dst.plane_size 0 + dst.plane_size 1 + k) 128)]
      simp only [byte_at_two]
    · refine exists_congr fun y => and_congr_right fun hy => exists_congr fun x =>
        and_congr_right fun hx => ?_
      simp only [log_read, value_read, hs.u32_row 0 hy, hd.u32_row 0 hy, List.mem_singleton,
        picture, byte_at_zero]
  refine ⟨?_, ?_⟩
  · intro a
    rw [← packed_reads_iff (by decide), hmem]
    simp
  · intro i a v
    rw [hmem]
    refine ⟨?_, ?_⟩
    · rintro (⟨row, hr, col, hc, he⟩ | ⟨row, hr, col, hc, he⟩ | ⟨y, hy, x, hx, he | he⟩)
      · obtain ⟨rfl, rfl, rfl⟩ := Access.write.inj he
        exact ⟨row, col, Or.inr ⟨by decide, by decide, hr, hc⟩, rfl, rfl⟩
      · obtain ⟨rfl, rfl, rfl⟩ := Access.write.inj he
        exact ⟨row, col, Or.inr ⟨by decide, by decide, hr, hc⟩, rfl, rfl⟩
      · cases he
      · obtain ⟨rfl, rfl, rfl⟩ := Access.write.inj he
        exact ⟨y, x, Or.inl ⟨rfl, hy, hx⟩, rfl, rfl⟩
    · rintro ⟨row, col, ⟨rfl, hrow, hcol⟩ | ⟨h1, h2, hrow, hcol⟩, rfl, rfl⟩
      · exact Or.inr (Or.inr ⟨row, hrow, col, hcol, Or.inr rfl⟩)
      · rcases (by omega : i = 1 ∨ i = 2) with rfl | rfl
        · exact Or.inl ⟨row, hrow, col, hcol, rfl⟩
        · exact Or.inr (Or.inl ⟨row, hrow, col, hcol, rfl⟩)

theorem visits_yuyv_to_rgb888 {src dst : vf_framebuffer_t} {w h A B : Nat}
    (hw : src.params.width = w) (hh : src.params.height = h) (hs : RowsFit src w h A)
    (hd : RowsFit dst w h B) (h3 : 3 * w + 2 < 2 ^ 32) (s : Nat → UInt8) :
    Visits (log (yuyv_to_rgb888_loops src dst) s) src dst (packed 4 ((w + 1) / 2) h)
      (packed 6 ((w + 1) / 2) h) (store_rgb888 fun x y => (yuyv (picture src s) x y).to_rgb) := by
  let I : Nat → Nat → Rgb := fun x y => (yuyv (picture src s) x y).to_rgb
  have hmem : ∀ acc, acc ∈ log (yuyv_to_rgb888_loops src dst) s ↔
      ∃ y < h, ∃ k < (w + 1) / 2, (∃ j < 4, acc = .read (byte_at src 0 y (4 * k + j))) ∨
        (∃ j < 3, acc = .write 0 (byte_at dst 0 y (3 * (2 * k) + j)) ((I (2 * k) y).channel j)) ∨
        ∃ j < 3, acc = .write 0 (byte_at dst 0 y (3 * (2 * k + 1) + j))
          ((I (2 * k + 1) y).channel j) := by
    intro acc
    simp only [yuyv_to_rgb888_loops, mem_log_for_each, hw, hh]
    refine exists_congr fun y => and_congr_right fun hy => exists_congr fun k =>
      and_congr_right fun hk => ?_
    have index : ∀ j < 4, u32 (u32 (2 * k * 2) + j) = 4 * k + j := by
      intro j hj
      rw [u32_index (by omega)]
      omega
    have hnext : u32 (2 * k + 1) = 2 * k + 1 := u32_of_lt (by omega)
    let S := picture src s
    have even : I (2 * k) y =
        (⟨S 0 y (4 * k + 0), S 0 y (4 * k + 1), S 0 y (4 * k + 3)⟩ : Yuv).to_rgb := by
      have h1 : 2 * (2 * k) = 4 * k + 0 := by omega
      have h2 : 2 * k / 2 = k := by omega
      simp only [I, yuyv, h1, h2, S]
    have odd : I (2 * k + 1) y =
        (⟨S 0 y (4 * k + 2), S 0 y (4 * k + 1), S 0 y (4 * k + 3)⟩ : Yuv).to_rgb := by
      have h1 : 2 * (2 * k + 1) = 4 * k + 2 := by omega
      have h2 : (2 * k + 1) / 2 = k := by omega
      simp only [I, yuyv, h1, h2, S]
    have put0 := mem_put_rgb (y * dst.plane_stride 0) (2 * k) (by omega)
      (I (2 * k) y) s acc
    have put1 := mem_put_rgb (y * dst.plane_stride 0) (2 * k + 1) (by omega)
      (I (2 * k + 1) y) s acc
    rw [exists_lt_four]
    simp only [even, odd, Yuv.to_rgb, S, picture, byte_at_zero] at put0 put1 ⊢
    simp only [log_bind, log_read, value_read, hs.u32_row 0 hy, hd.u32_row 0 hy,
      index 0 (by decide), index 1 (by decide), index 2 (by decide), index 3 (by decide), hnext,
      List.mem_append, List.mem_singleton, put0, put1, or_assoc]
  refine ⟨?_, ?_⟩
  · intro a
    rw [← packed_reads_iff (by decide), hmem]
    simp
  · intro i a v
    have hregion : packed 6 ((w + 1) / 2) h = packed 3 (2 * ((w + 1) / 2)) h := by
      unfold packed
      rw [← Nat.mul_assoc]
    rw [hregion, ← rgb_writes_iff, hmem]
    refine exists_congr fun y => and_congr_right fun hy => ?_
    refine ⟨?_, ?_⟩
    · rintro ⟨k, hk, ⟨j, hj, he⟩ | he | he⟩
      · cases he
      · exact ⟨2 * k, by omega, he⟩
      · exact ⟨2 * k + 1, by omega, he⟩
    · rintro ⟨x, hx, he⟩
      refine ⟨x / 2, by omega, Or.inr ?_⟩
      rcases (by omega : 2 * (x / 2) = x ∨ 2 * (x / 2) + 1 = x) with hxe | hxo
      · exact Or.inl (by rw [hxe]; exact he)
      · exact Or.inr (by rw [hxo]; exact he)

/-- The strides of an allocation are at most its exact first stride. -/
theorem rows_fit {fb : vf_framebuffer_t} {params : vf_fb_params_t}
    (hl : Laid fb (code_planes params)) (hacc : Accepted params.format)
    (hfit : PlaneSizesFit params) :
    RowsFit fb params.width params.height (plane_at (planes params) 0).stride := by
  obtain ⟨p, rest, hp, hheight, hwidth, -⟩ := first_plane params hacc
  refine ⟨?_, ?_, ?_⟩
  · intro i
    rw [hl.stride]
    exact Plane.stride_mono (code_planes_line_le params hacc i)
  · rw [hp]
    exact Nat.le_trans hwidth p.line_le
  · have := hfit p (by simp [hp])
    rw [hp]
    rwa [Plane.size, hheight] at this

/-! ## The conversion of a pair of formats -/

/-- The table has a converter for the formats. -/
def Supported (src_fmt dst_fmt : vf_pixel_fmt_t) : Prop :=
  (lookup_convert_fn src_fmt dst_fmt).isSome

instance (src_fmt dst_fmt : vf_pixel_fmt_t) : Decidable (Supported src_fmt dst_fmt) :=
  inferInstanceAs (Decidable (_ = true))

theorem Supported.mem {src_fmt dst_fmt : vf_pixel_fmt_t} (h : Supported src_fmt dst_fmt) :
    (src_fmt, dst_fmt) ∈ g_conversion_table.map fun e => (e.src_fmt, e.dst_fmt) := by
  simp only [Supported, lookup_convert_fn, Option.isSome_map, List.find?_isSome] at h
  obtain ⟨e, he, hfmt⟩ := h
  simp only [decide_eq_true_eq] at hfmt
  exact List.mem_map.mpr ⟨e, he, by rw [hfmt.1, hfmt.2]⟩

theorem Supported.accepted {src_fmt dst_fmt : vf_pixel_fmt_t} (h : Supported src_fmt dst_fmt) :
    Accepted src_fmt ∧ Accepted dst_fmt := by
  have hall : ∀ e ∈ g_conversion_table.map fun e => (e.src_fmt, e.dst_fmt),
      Accepted e.1 ∧ Accepted e.2 := by decide
  exact hall _ h.mem

theorem convert.spec (body : vf_framebuffer_t → vf_framebuffer_t → Bytes Unit)
    (src dst : vf_framebuffer_t) (s d : Nat → UInt8) (hw : src.params.width = dst.params.width)
    (hh : src.params.height = dst.params.height) :
    convert body (src.holding s) (dst.holding d) =
      (.VF_SUCCESS, dst.holding (result d (log (body (src.holding s) (dst.holding d)) s)),
        log (body (src.holding s) (dst.holding d)) s) := by
  simp [convert, validate_framebuffers, vf_framebuffer_t.holding, hw, hh]

/-- What a frame holds does not move its bytes. -/
theorem Visits.of_holding {l : List (Access UInt8)} {src dst : vf_framebuffer_t} {R W : Region}
    {T : Picture} {s d : Nat → UInt8} (h : Visits l (src.holding s) (dst.holding d) R W T) :
    Visits l src dst R W T :=
  ⟨h.reads, h.writes⟩

theorem RowsFit.holding {fb : vf_framebuffer_t} {w h A : Nat} (hf : RowsFit fb w h A)
    (data : Nat → UInt8) : RowsFit (fb.holding data) w h A :=
  ⟨hf.stride_le, hf.width_le, hf.fit⟩

/-- The rows of an RGB frame leave room for one more pixel index. -/
theorem wide_enough {w h : Nat} {fmt : vf_pixel_fmt_t} (hb : vf_pixel_fmt_bpp fmt = 24)
    (hh : 1 ≤ h) (hfit : PlaneSizesFit ⟨w, h, fmt⟩) : 3 * w + 2 < 2 ^ 32 := by
  have hp : planes ⟨w, h, fmt⟩ = [⟨w, h, w * 24 / 8⟩] := by
    cases fmt <;> simp [vf_pixel_fmt_bpp] at hb <;> rfl
  have hsz := hfit ⟨w, h, w * 24 / 8⟩ (by simp [hp])
  have hst := Nat.lt_of_le_of_lt (Plane.stride_le_size (p := ⟨w, h, w * 24 / 8⟩) hh) hsz
  simp only [Plane.stride] at hst
  omega

theorem process_eq {src_fmt dst_fmt : vf_pixel_fmt_t}
    {fn : vf_framebuffer_t → vf_framebuffer_t → Converted}
    (hfn : lookup_convert_fn src_fmt dst_fmt = some fn) (src dst : vf_framebuffer_t)
    (hs : src.params.format = src_fmt) (hd : dst.params.format = dst_fmt) :
    vf_conversion_process (vf_conversion_init src_fmt dst_fmt).2 src dst = fn src dst := by
  simp [vf_conversion_process, vf_conversion_init, hfn, hs, hd]

/-- A conversion between two frames of one size reads its region of the source, and
stores the picture on its region of the destination. -/
theorem vf_conversion_process.spec {src_fmt dst_fmt : vf_pixel_fmt_t}
    (hsup : Supported src_fmt dst_fmt) {w h : Nat} (hh : 1 ≤ h)
    (hfs : PlaneSizesFit ⟨w, h, src_fmt⟩) (hfd : PlaneSizesFit ⟨w, h, dst_fmt⟩)
    {src dst : vf_framebuffer_t} (hps : src.params = ⟨w, h, src_fmt⟩)
    (hpd : dst.params = ⟨w, h, dst_fmt⟩) (hls : Laid src (code_planes ⟨w, h, src_fmt⟩))
    (hld : Laid dst (code_planes ⟨w, h, dst_fmt⟩)) (s d : Nat → UInt8) :
    ∃ accs, vf_conversion_process (vf_conversion_init src_fmt dst_fmt).2 (src.holding s)
        (dst.holding d) = (.VF_SUCCESS, dst.holding (result d accs), accs) ∧
      Visits accs src dst (read_region src_fmt w h) (write_region src_fmt dst_fmt dst w h)
        (bt601 src_fmt dst_fmt (picture src s)) := by
  have hacc := hsup.accepted
  have hrs := (rows_fit hls hacc.1 hfs).holding s
  have hrd := (rows_fit hld hacc.2 hfd).holding d
  have hsw : (src.holding s).params.width = w := by simp [vf_framebuffer_t.holding, hps]
  have hsh : (src.holding s).params.height = h := by simp [vf_framebuffer_t.holding, hps]
  have run : ∀ (body : vf_framebuffer_t → vf_framebuffer_t → Bytes Unit),
      lookup_convert_fn src_fmt dst_fmt = some (convert body) →
      vf_conversion_process (vf_conversion_init src_fmt dst_fmt).2 (src.holding s)
        (dst.holding d) = (.VF_SUCCESS,
          dst.holding (result d (log (body (src.holding s) (dst.holding d)) s)),
          log (body (src.holding s) (dst.holding d)) s) := by
    intro body hfn
    rw [process_eq hfn _ _ (by simp [vf_framebuffer_t.holding, hps])
      (by simp [vf_framebuffer_t.holding, hpd]),
      convert.spec body src dst s d (by simp [hps, hpd]) (by simp [hps, hpd])]
  let S := picture src s
  have hmem := hsup.mem
  simp only [g_conversion_table, List.map_cons, List.map_nil, List.mem_cons, List.not_mem_nil,
    or_false, Prod.mk.injEq] at hmem
  rcases hmem with ⟨rfl, rfl⟩ | ⟨rfl, rfl⟩ | ⟨rfl, rfl⟩ | ⟨rfl, rfl⟩ | ⟨rfl, rfl⟩ | ⟨rfl, rfl⟩ |
    ⟨rfl, rfl⟩ | ⟨rfl, rfl⟩
  · exact ⟨_, run _ rfl, (visits_encode_yuv420p hsw hsh hrs hrd (wide_enough rfl hh hfs)
      (I := rgb888 S) fun _ _ => rfl).of_holding⟩
  · exact ⟨_, run _ rfl, (visits_encode_yuv420p hsw hsh hrs hrd (wide_enough rfl hh hfs)
      (I := bgr888 S) fun _ _ => rfl).of_holding⟩
  · exact ⟨_, run _ rfl,
      (visits_decode_yuv420p hsw hsh hrs hrd (wide_enough rfl hh hfd) s).of_holding⟩
  · exact ⟨_, run _ rfl, (visits_encode_nv12 hsw hsh hrs hrd (wide_enough rfl hh hfs)
      (I := rgb888 S) fun _ _ => rfl).of_holding⟩
  · exact ⟨_, run _ rfl,
      (visits_decode_nv12 hsw hsh hrs hrd (wide_enough rfl hh hfd) s).of_holding⟩
  · exact ⟨_, run _ rfl,
      (visits_raw8_to_rgb888 hsw hsh hrs hrd (wide_enough rfl hh hfd) s).of_holding⟩
  · have harr : Arrays (dst.holding d) _ :=
      ⟨hld.width, hld.height, hld.line_size, hld.stride, hld.size⟩
    exact ⟨_, run _ rfl, (visits_raw8_to_yuv420p hsw hsh hrs hrd harr s).of_holding⟩
  · exact ⟨_, run _ rfl,
      (visits_yuyv_to_rgb888 hsw hsh hrs hrd (wide_enough rfl hh hfd) s).of_holding⟩

/-- Where the writes are bytes of rows, padding included, each has its value at the end,
and nothing else changes. -/
theorem Visits.result {accs : List (Access UInt8)} {src dst : vf_framebuffer_t} {R W : Region}
    {T : Picture} {ps : List Plane} (hv : Visits accs src dst R W T) (ha : Arrays dst ps)
    (hW : ∀ i row col, W i row col → row < dst.plane_height i ∧ col < dst.plane_stride i)
    (d : Nat → UInt8) {i row col : Nat} (hrow : row < dst.plane_height i)
    (hcol : col < dst.plane_stride i) :
    (W i row col → result d accs (byte_at dst i row col) = T i row col) ∧
      (¬ W i row col → result d accs (byte_at dst i row col) = d (byte_at dst i row col)) := by
  have uniq : ∀ i' v, .write i' (byte_at dst i row col) v ∈ accs →
      W i row col ∧ v = T i row col := by
    intro i' v hmem
    obtain ⟨row', col', hW', he, rfl⟩ := (hv.writes i' _ v).mp hmem
    obtain ⟨hr', hc'⟩ := hW i' row' col' hW'
    obtain ⟨rfl, rfl, rfl⟩ := byte_at_inj ha hrow hcol hr' hc' he
    exact ⟨hW', rfl⟩
  refine ⟨?_, ?_⟩
  · intro hw
    apply result_of_agree
    · exact ⟨i, (hv.writes i _ _).mpr ⟨row, col, hw, rfl, rfl⟩⟩
    · exact fun i' v h => (uniq i' v h).2
  · intro hw
    apply result_of_not_written
    exact fun i' v h => hw (uniq i' v h).1

/-- The regions for even sizes, where the rows do not wrap: the pixels of the destination,
and for the constant chroma the padding too. -/
theorem write_region_even {src_fmt dst_fmt : vf_pixel_fmt_t} (hsup : Supported src_fmt dst_fmt)
    {w h : Nat} (ew : w % 2 = 0) (eh : h % 2 = 0)
    (hrow : w * vf_pixel_fmt_bpp dst_fmt < 2 ^ 32) {dst : vf_framebuffer_t}
    (hl : Laid dst (code_planes ⟨w, h, dst_fmt⟩)) {i row col : Nat} :
    write_region src_fmt dst_fmt dst w h i row col ↔ i < dst.num_planes ∧
      row < dst.plane_height i ∧ (col < dst.plane_line_size i ∨
        (src_fmt = .VF_PIXEL_FMT_RAW8 ∧ dst_fmt = .VF_PIXEL_FMT_YUV420P ∧ i ≠ 0 ∧
          col < dst.plane_stride i)) := by
  have hmem := hsup.mem
  simp only [g_conversion_table, List.map_cons, List.map_nil, List.mem_cons, List.not_mem_nil,
    or_false, Prod.mk.injEq] at hmem
  have hcode := code_planes_eq ⟨w, h, dst_fmt⟩ hrow
  rcases hmem with ⟨rfl, rfl⟩ | ⟨rfl, rfl⟩ | ⟨rfl, rfl⟩ | ⟨rfl, rfl⟩ | ⟨rfl, rfl⟩ | ⟨rfl, rfl⟩ |
    ⟨rfl, rfl⟩ | ⟨rfl, rfl⟩
  all_goals
    rcases i with _ | _ | _ | i <;>
      simp [write_region, packed, planar, filled, hl.num_planes, hl.height, hl.line_size,
        hl.stride, hcode, planes, planes_with, plane_at, vf_pixel_fmt_bpp, Plane.stride] <;>
      omega

/-- A conversion between two frames of one even size, whose destination rows do not wrap:
the pixels of the destination are the picture, and its padding is what it was or, for the
constant chroma, 128. -/
theorem vf_conversion_process.even_spec {src_fmt dst_fmt : vf_pixel_fmt_t}
    (hsup : Supported src_fmt dst_fmt) {w h : Nat} (hh : 1 ≤ h) (ew : w % 2 = 0)
    (eh : h % 2 = 0) (hfs : PlaneSizesFit ⟨w, h, src_fmt⟩) (hfd : PlaneSizesFit ⟨w, h, dst_fmt⟩)
    (hrd : w * vf_pixel_fmt_bpp dst_fmt < 2 ^ 32) {src dst : vf_framebuffer_t}
    (hps : src.params = ⟨w, h, src_fmt⟩) (hpd : dst.params = ⟨w, h, dst_fmt⟩)
    (hls : Laid src (code_planes ⟨w, h, src_fmt⟩)) (hld : Laid dst (code_planes ⟨w, h, dst_fmt⟩))
    (s d : Nat → UInt8) :
    ∃ d' accs, vf_conversion_process (vf_conversion_init src_fmt dst_fmt).2 (src.holding s)
        (dst.holding d) = (.VF_SUCCESS, dst.holding d', accs) ∧
      ∀ i < dst.num_planes, ∀ row < dst.plane_height i,
        (∀ col < dst.plane_line_size i, d' (byte_at dst i row col) =
          bt601 src_fmt dst_fmt (picture src s) i row col) ∧
        (∀ col, dst.plane_line_size i ≤ col → col < dst.plane_stride i →
          d' (byte_at dst i row col) =
            if src_fmt = .VF_PIXEL_FMT_RAW8 ∧ dst_fmt = .VF_PIXEL_FMT_YUV420P ∧ i ≠ 0
            then 128 else d (byte_at dst i row col)) := by
  obtain ⟨accs, hrun, hv⟩ := vf_conversion_process.spec hsup hh hfs hfd hps hpd hls hld s d
  have hreg : ∀ i row col, write_region src_fmt dst_fmt dst w h i row col ↔ _ :=
    fun i row col => write_region_even hsup ew eh hrd hld
  have hline : ∀ i, dst.plane_line_size i ≤ dst.plane_stride i := fun i => by
    rw [hld.line_size, hld.stride]
    exact Plane.line_le _
  have hW : ∀ i row col, write_region src_fmt dst_fmt dst w h i row col →
      row < dst.plane_height i ∧ col < dst.plane_stride i := by
    intro i row col hR
    obtain ⟨-, hrow, hcol⟩ := (hreg i row col).mp hR
    have := hline i
    exact ⟨hrow, hcol.elim (fun h => by omega) fun h => h.2.2.2⟩
  refine ⟨_, accs, hrun, ?_⟩
  intro i hi row hrow
  refine ⟨?_, ?_⟩
  · intro col hcol
    have := hline i
    exact (hv.result hld.toArrays hW d hrow (by omega)).1
      ((hreg i row col).mpr ⟨hi, hrow, Or.inl hcol⟩)
  · intro col hcol hst
    have hres := hv.result hld.toArrays hW d hrow hst
    by_cases hraw : src_fmt = .VF_PIXEL_FMT_RAW8 ∧ dst_fmt = .VF_PIXEL_FMT_YUV420P ∧ i ≠ 0
    · obtain ⟨rfl, rfl, hi0⟩ := hraw
      rw [if_pos ⟨rfl, rfl, hi0⟩,
        hres.1 ((hreg i row col).mpr ⟨hi, hrow, Or.inr ⟨rfl, rfl, hi0, hst⟩⟩)]
      rcases i with _ | _ | i
      · exact absurd rfl hi0
      · rfl
      · rfl
    · rw [if_neg hraw]
      refine hres.2 fun hR => ?_
      obtain ⟨-, -, hc⟩ := (hreg i row col).mp hR
      exact hc.elim (fun h => by omega) fun h => hraw ⟨h.1, h.2.1, h.2.2.1⟩

end vision_flow.conversion
