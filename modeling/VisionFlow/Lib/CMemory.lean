-- C functions over a memory whose accesses are checked: a run stops with `none` at an access
-- that is not allowed. The blocks of the heap, and the strings in arrays of characters.
import Mathlib

namespace c_memory

/-! ## Checked runs -/

variable {σ α β : Type}

/-- `none` is an access that is not allowed, or a loop without end. -/
abbrev Checked (σ α : Type) := StateT σ Option α

def fault : Checked σ α := fun _ => none

/-- A read that is allowed where `read` gives a value. -/
def reads (read : σ → Option α) : Checked σ α := fun s => (read s).map fun a => (a, s)

/-- A write that is allowed where `write` gives the new memory. -/
def writes (write : σ → Option σ) : Checked σ Unit := fun s => (write s).map fun s' => ((), s')

@[simp] theorem run_pure (a : α) (s : σ) : (pure a : Checked σ α) s = some (a, s) := rfl

theorem run_bind (p : Checked σ α) (f : α → Checked σ β) (s : σ) :
    (p >>= f) s = (p s).bind fun r => f r.1 r.2 := rfl

/-- A part of a run that is known. -/
theorem run_bind_of {p : Checked σ α} {f : α → Checked σ β} {s s' : σ} {a : α}
    (h : p s = some (a, s')) : (p >>= f) s = f a s' := by
  rw [run_bind, h]
  rfl

theorem reads_of {read : σ → Option α} {s : σ} {a : α} (h : read s = some a) :
    reads read s = some (a, s) := by
  simp [reads, h]

theorem writes_of {write : σ → Option σ} {s s' : σ} (h : write s = some s') :
    writes write s = some ((), s') := by
  simp [writes, h]

/-! ## Blocks -/

/-- Each block is allocated at most once. -/
inductive Block
  | unused
  | live
  | freed
  deriving DecidableEq

section
variable {B : Type} [DecidableEq B]

/-- `free(p)`. It is allowed for NULL, and for a block that is live. -/
def release (p : Option B) (block : B → Block) : Option (B → Block) :=
  match p with
  | none => some block
  | some b => if block b = .live then some (Function.update block b .freed) else none

theorem release_live {b : B} {block : B → Block} (h : block b = .live) :
    release (some b) block = some (Function.update block b .freed) := by
  simp [release, h]

end

/-! ## Strings in arrays -/

/-- The string at the start of an array. -/
def cstr (a : List Char) : List Char := a.takeWhile (· ≠ '\x00')

/-- The characters `s` are stored from the index `i` on. -/
def store (a : List Char) (i : Nat) (s : List Char) : Option (List Char) :=
  if i + s.length ≤ a.length then some (a.take i ++ s ++ a.drop (i + s.length)) else none

/-- The string with NULs up to the size of its array. -/
def padded (size : Nat) (s : List Char) : List Char :=
  s ++ List.replicate (size - s.length) '\x00'

section
variable {size : Nat} {s : List Char}

theorem length_padded (h : s.length ≤ size) : (padded size s).length = size := by
  simp only [padded, List.length_append, List.length_replicate]
  omega

theorem padded_nil : padded size [] = List.replicate size '\x00' := by
  simp [padded]

theorem store_string (h : s.length ≤ size) : store (padded size []) 0 s = some (padded size s) := by
  unfold store
  rw [if_pos (by rw [length_padded (Nat.zero_le _)]; omega), padded_nil]
  simp [padded]

/-- The NUL behind the string is there already. -/
theorem store_nul (h : s.length < size) :
    store (padded size s) s.length ['\x00'] = some (padded size s) := by
  obtain ⟨n, rfl⟩ : ∃ n, size = s.length + 1 + n := ⟨size - s.length - 1, by omega⟩
  unfold store
  rw [if_pos (by rw [length_padded (by omega)]; simp)]
  have hrest : s.length + 1 + n - s.length = n + 1 := by omega
  simp [padded, hrest, List.replicate_succ]

/-- The string is stored with its NUL. -/
theorem store_terminated (h : s.length < size) :
    store (padded size []) 0 (s ++ ['\x00']) = some (padded size s) := by
  obtain ⟨n, rfl⟩ : ∃ n, size = s.length + 1 + n := ⟨size - s.length - 1, by omega⟩
  have hrest : s.length + 1 + n - s.length = n + 1 := by omega
  have hsame : padded (s.length + 1 + n) (s ++ ['\x00']) = padded (s.length + 1 + n) s := by
    simp [padded, hrest, List.replicate_succ]
  rw [store_string (by simp), hsame]

theorem nul_mem_padded (h : s.length < size) : '\x00' ∈ padded size s := by
  unfold padded
  refine List.mem_append_right _ (List.mem_replicate.mpr ⟨?_, rfl⟩)
  omega

/-- What stands behind a NUL is not part of the string. -/
theorem cstr_terminated (s t : List Char) : cstr (s ++ '\x00' :: t) = cstr s := by
  unfold cstr
  rw [List.takeWhile_append]
  split
  · rename_i hall
    have hself : s.takeWhile (· ≠ '\x00') = s := (List.takeWhile_prefix _).eq_of_length hall
    rw [hself]
    simp
  · rfl

theorem cstr_eq_self (hs : '\x00' ∉ s) : cstr s = s := by
  unfold cstr
  rw [List.takeWhile_eq_self_iff]
  intro c hc
  have hne : c ≠ '\x00' := fun heq => hs (heq ▸ hc)
  simpa using hne

theorem cstr_padded (hs : '\x00' ∉ s) (h : s.length < size) : cstr (padded size s) = s := by
  obtain ⟨n, hn⟩ : ∃ n, size - s.length = n + 1 := ⟨size - s.length - 1, by omega⟩
  unfold padded
  rw [hn, List.replicate_succ, cstr_terminated, cstr_eq_self hs]

/-- A string is stored at the start of an array, and a NUL behind it. -/
theorem store_ended {a : List Char} (h : s.length < a.length) : ∃ a₁ t, store a 0 s = some a₁ ∧
    store a₁ s.length ['\x00'] = some (s ++ '\x00' :: t) ∧ s.length + 1 + t.length = a.length := by
  refine ⟨s ++ a.drop s.length, a.drop (s.length + 1), ?_, ?_, ?_⟩
  · unfold store
    rw [if_pos (by omega)]
    simp
  · unfold store
    rw [if_pos (by simp only [List.length_append, List.length_drop, List.length_singleton]; omega)]
    simp [List.drop_append]
  · rw [List.length_drop]
    omega

theorem no_nul_cstr (a : List Char) : '\x00' ∉ cstr a := by
  intro h
  simpa using List.mem_takeWhile_imp h

end

end c_memory
