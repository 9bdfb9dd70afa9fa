-- What every module of the service shares: the error codes, the pixel formats, and
-- the 32-bit arithmetic of the C code.
import Mathlib

namespace vision_flow

/-! ## Error codes (vf-error.h) -/

inductive vf_err_t
  | VF_SUCCESS
  | VF_INVALID_PARAMETER
  | VF_OOM
  | VF_SYNC_ERROR
  | VF_INIT_FAILED
  | VF_FILE_ERR
  | VF_CAMERA_INIT_ERR
  | VF_CAMERA_START_ERR
  | VF_CAMERA_STOP_ERR
  | VF_CAMERA_CAPTURE_FRAME_FAILED
  | VF_CAMERA_DEINIT_ERR
  | VF_CONV_INIT_ERR
  | VF_CONV_PROCESSING_ERR
  | VF_QUEUE_SHUTDOWN
  deriving DecidableEq, Repr

/-- `VF_ERROR_MIN` and `VF_SUCCESS` are both 0 in the enum of vf-error.h. -/
@[match_pattern] abbrev vf_err_t.VF_ERROR_MIN : vf_err_t := .VF_SUCCESS

/-! ## Pixel formats (vf-pixel-fmt.h) -/

inductive vf_pixel_fmt_t
  | VF_PIXEL_FMT_UNKNOWN
  | VF_PIXEL_FMT_RGB888
  | VF_PIXEL_FMT_BGR888
  | VF_PIXEL_FMT_RGBA8888
  | VF_PIXEL_FMT_YUV420P
  | VF_PIXEL_FMT_NV12
  | VF_PIXEL_FMT_RAW8
  | VF_PIXEL_FMT_YUYV
  | VF_PIXEL_FMT_MJPEG
  | VF_PIXEL_FMT_LAST
  deriving DecidableEq, Repr

/-! ## `uint32_t` -/

/-- A value cut to `uint32_t`. -/
def u32 (n : Nat) : Nat := n % 2 ^ 32

/-- A `uint32_t` difference: it wraps below 0. -/
def u32_sub (a b : Nat) : Nat := u32 (a + (2 ^ 32 - b))

theorem u32_of_lt {n : Nat} (h : n < 2 ^ 32) : u32 n = n := Nat.mod_eq_of_lt h

theorem u32_lt (n : Nat) : u32 n < 2 ^ 32 := Nat.mod_lt n (by decide)

theorem u32_le (n : Nat) : u32 n ≤ n := Nat.mod_le n _

theorem u32_sub_of_le {a b : Nat} (h : b ≤ a) (ha : a < 2 ^ 32) : u32_sub a b = a - b := by
  unfold u32_sub u32
  omega

/-- A mask that keeps the bits of a `uint32_t` from bit `k` on. -/
theorem and_high_bits (n k : Nat) (h : n < 2 ^ 32) :
    n &&& ((2 ^ (32 - k) - 1) * 2 ^ k) = n / 2 ^ k * 2 ^ k := by
  apply Nat.eq_of_testBit_eq
  intro i
  rw [Nat.testBit_and, Nat.testBit_mul_two_pow, Nat.testBit_mul_two_pow,
    Nat.testBit_div_two_pow, Nat.testBit_two_pow_sub_one]
  by_cases hk : k ≤ i
  · by_cases h32 : i < 32
    · have : i - k < 32 - k := by omega
      have : i - k + k = i := by omega
      simp [*]
    · have hlt : n < 2 ^ i := Nat.lt_of_lt_of_le h (Nat.pow_le_pow_right (by decide) (by omega))
      have : i - k + k = i := by omega
      simp [*, Nat.testBit_lt_two_pow hlt]
  · simp [hk]

end vision_flow
