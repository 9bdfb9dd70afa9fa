-- The buffer pool (vf-buff-pool.c): a flag for each slot, and a counter of the free
-- slots. For any sequence of calls, also with double releases and pointers of no slot,
-- the counter is the number of free slots, and a slot is handed out to one caller at a
-- time. The pthread calls succeed, and a call is one critical section.
import VisionFlow.Common

namespace vision_flow.buf_pool

/-! ## The code -/

def VF_BUF_POOL_MAX_SLOTS : Nat := 16

/-- The address `&pool->slots[idx]`: which pool, and which slot of its array. -/
structure SlotPtr (ι : Type) where
  pool : ι
  idx : Nat
  deriving DecidableEq

/-- `self` says where the pool lies in memory. A pointer to a framebuffer is an
`Option (SlotPtr ι)`: `none` is NULL. -/
structure vf_buf_pool_t (ι : Type) where
  self : ι
  in_use : Nat → Nat
  capacity : Nat
  available : Nat
  initialized : Nat
  shutdown : Bool

variable {ι : Type}

/-- The pool after the `memset` to 0. -/
def zeroed (self : ι) : vf_buf_pool_t ι :=
  { self := self, in_use := fun _ => 0, capacity := 0, available := 0, initialized := 0,
    shutdown := false }

/-- What an init or a deinit makes and gives back. -/
inductive Resource
  | mutex_init
  | mutex_destroy
  | cond_init
  | cond_destroy
  | slot_alloc (i : Nat)
  | slot_free (i : Nat)
  deriving DecidableEq

/-- The loop of `vf_framebuffer_alloc` over `n` slots from slot `i` on: the first error
and its slot, or success. `alloc i` is the result for slot `i`. -/
def alloc_slots (alloc : Nat → vf_err_t) : Nat → Nat → vf_err_t × Nat
  | i, 0 => (.VF_SUCCESS, i)
  | i, n + 1 =>
    if alloc i = .VF_SUCCESS then alloc_slots alloc (i + 1) n else (alloc i, i)

/-- `mutex_ok` and `cond_ok` say if the two pthread inits succeed. The list is what the
call makes and gives back, in order. -/
def vf_buf_pool_init (pool : vf_buf_pool_t ι) (alloc : Nat → vf_err_t) (slot_count : Nat)
    (mutex_ok cond_ok : Bool) : vf_err_t × vf_buf_pool_t ι × List Resource :=
  if slot_count = 0 ∨ slot_count > VF_BUF_POOL_MAX_SLOTS then
    (.VF_INVALID_PARAMETER, pool, [])
  else if !mutex_ok then
    (.VF_SYNC_ERROR, zeroed pool.self, [])
  else if !cond_ok then
    (.VF_SYNC_ERROR, zeroed pool.self, [.mutex_init, .mutex_destroy])
  else
    let (err, i) := alloc_slots alloc 0 slot_count
    let made := [.mutex_init, .cond_init] ++ (List.range i).map .slot_alloc
    if err ≠ .VF_SUCCESS then
      (err, zeroed pool.self, made ++ (List.range i).reverse.map .slot_free ++ [.mutex_destroy])
    else
      (.VF_SUCCESS, { zeroed pool.self with
        capacity := slot_count, available := slot_count, initialized := 1 }, made)

/-- The loop that looks for a free slot, over `n` slots from slot `i` on. -/
def find_free (in_use : Nat → Nat) : Nat → Nat → Option Nat
  | _, 0 => none
  | i, n + 1 => if in_use i = 0 then some i else find_free in_use (i + 1) n

/-- The end of both acquires: the first free slot is taken. With no free slot,
`*out_fb` stays NULL. -/
def take_slot (pool : vf_buf_pool_t ι) : Option (SlotPtr ι) × vf_buf_pool_t ι :=
  match find_free pool.in_use 0 pool.capacity with
  | some i => (some ⟨pool.self, i⟩, { pool with
      in_use := Function.update pool.in_use i 1, available := u32_sub pool.available 1 })
  | none => (none, pool)

/-- The value of `*out_fb` goes in, and comes out after the return code. -/
def vf_buf_pool_acquire (pool : vf_buf_pool_t ι) (out_fb : Option (SlotPtr ι)) :
    vf_err_t × Option (SlotPtr ι) × vf_buf_pool_t ι :=
  if pool.initialized = 0 then
    (.VF_INIT_FAILED, out_fb, pool)
  else if pool.available = 0 then
    (.VF_OOM, none, pool)
  else
    (.VF_SUCCESS, take_slot pool)

/-- `none`: the caller waits in `pthread_cond_wait`. -/
def vf_buf_pool_acquire_blocking (pool : vf_buf_pool_t ι) (out_fb : Option (SlotPtr ι)) :
    Option (vf_err_t × Option (SlotPtr ι) × vf_buf_pool_t ι) :=
  if pool.initialized = 0 then
    some (.VF_INIT_FAILED, out_fb, pool)
  else if pool.available = 0 then
    if pool.shutdown then some (.VF_QUEUE_SHUTDOWN, none, pool) else none
  else
    some (.VF_SUCCESS, take_slot pool)

def vf_buf_pool_shutdown (pool : vf_buf_pool_t ι) : vf_buf_pool_t ι :=
  { pool with shutdown := true }

/-- The loop that looks for the slot of a pointer, over `n` slots from slot `i` on. -/
def find_slot [DecidableEq ι] (self : ι) (fb : SlotPtr ι) : Nat → Nat → Option Nat
  | _, 0 => none
  | i, n + 1 => if fb = ⟨self, i⟩ then some i else find_slot self fb (i + 1) n

/-- The `Bool` says if the call signals `slot_available`. -/
def vf_buf_pool_release [DecidableEq ι] (pool : vf_buf_pool_t ι) (fb : Option (SlotPtr ι)) :
    vf_err_t × vf_buf_pool_t ι × Bool :=
  match fb with
  | none => (.VF_INVALID_PARAMETER, pool, false)
  | some fb =>
    if pool.initialized = 0 then
      (.VF_INIT_FAILED, pool, false)
    else
      match find_slot pool.self fb 0 pool.capacity with
      | none => (.VF_INVALID_PARAMETER, pool, false)
      | some i =>
        if pool.in_use i = 0 then
          (.VF_SUCCESS, pool, false)
        else
          (.VF_SUCCESS, { pool with
            in_use := Function.update pool.in_use i 0
            available := u32 (pool.available + 1) }, true)

def vf_buf_pool_reset (pool : vf_buf_pool_t ι) : vf_buf_pool_t ι :=
  { pool with shutdown := false }

def vf_buf_pool_deinit (pool : vf_buf_pool_t ι) : vf_buf_pool_t ι × List Resource :=
  if pool.initialized = 0 then (pool, [])
  else (zeroed pool.self,
    (List.range pool.capacity).map .slot_free ++ [.mutex_destroy, .cond_destroy])

def vf_buf_pool_available (pool : vf_buf_pool_t ι) : Nat :=
  if pool.initialized = 0 then 0 else pool.available

/-! ## The invariant -/

/-- The free slots. -/
def free (pool : vf_buf_pool_t ι) : Finset Nat :=
  (Finset.range pool.capacity).filter fun i => pool.in_use i = 0

/-- The slots that are handed out. -/
def held (pool : vf_buf_pool_t ι) : Finset Nat :=
  (Finset.range pool.capacity).filter fun i => pool.in_use i ≠ 0

theorem mem_held {pool : vf_buf_pool_t ι} {i : Nat} :
    i ∈ held pool ↔ i < pool.capacity ∧ pool.in_use i ≠ 0 := by
  simp [held]

/-- The counter is the number of free slots, and a flag is 0 or 1. -/
structure Accounted (pool : vf_buf_pool_t ι) : Prop where
  initialized : pool.initialized = 1
  cap_le : pool.capacity ≤ VF_BUF_POOL_MAX_SLOTS
  flag : ∀ i, pool.in_use i ≤ 1
  beyond : ∀ i, pool.capacity ≤ i → pool.in_use i = 0
  counter : pool.available = (free pool).card

theorem free_card_le (pool : vf_buf_pool_t ι) : (free pool).card ≤ pool.capacity := by
  have h := Finset.card_filter_le (Finset.range pool.capacity) fun i => pool.in_use i = 0
  rwa [Finset.card_range] at h

theorem held_card (pool : vf_buf_pool_t ι) :
    (free pool).card + (held pool).card = pool.capacity := by
  simpa [free, held] using
    Finset.card_filter_add_card_filter_not (s := Finset.range pool.capacity)
      (p := fun i => pool.in_use i = 0)

/-- A counter of free slots never passes the capacity, so it never wraps. -/
theorem Accounted.available_le {pool : vf_buf_pool_t ι} (h : Accounted pool) :
    pool.available ≤ pool.capacity := by
  rw [h.counter]
  exact free_card_le pool

theorem find_free_some {in_use : Nat → Nat} {i n k : Nat} (h : find_free in_use i n = some k) :
    i ≤ k ∧ k < i + n ∧ in_use k = 0 := by
  induction n generalizing i with
  | zero => simp [find_free] at h
  | succ n ih =>
    simp only [find_free] at h
    split at h
    · cases h
      exact ⟨Nat.le_refl _, by omega, ‹_›⟩
    · obtain ⟨h1, h2, h3⟩ := ih h
      exact ⟨by omega, by omega, h3⟩

theorem find_free_none {in_use : Nat → Nat} {i n : Nat} (h : find_free in_use i n = none) :
    ∀ k, i ≤ k → k < i + n → in_use k ≠ 0 := by
  induction n generalizing i with
  | zero =>
    intro k h1 h2
    omega
  | succ n ih =>
    simp only [find_free] at h
    split at h
    · cases h
    · intro k h1 h2
      by_cases hk : k = i
      · rw [hk]
        assumption
      · exact ih h k (by omega) (by omega)

/-- The counter and the flags agree, so an acquire that sees a free slot in the counter
finds one. -/
theorem take_slot.spec {pool : vf_buf_pool_t ι} (h : Accounted pool) (ha : pool.available ≠ 0) :
    ∃ i, i < pool.capacity ∧ pool.in_use i = 0 ∧
      (take_slot pool).1 = some ⟨pool.self, i⟩ ∧
      (take_slot pool).2.in_use = Function.update pool.in_use i 1 ∧
      (take_slot pool).2.self = pool.self ∧ (take_slot pool).2.capacity = pool.capacity ∧
      (take_slot pool).2.shutdown = pool.shutdown ∧ Accounted (take_slot pool).2 := by
  rcases hf : find_free pool.in_use 0 pool.capacity with _ | i
  · exfalso
    apply ha
    rw [h.counter, Finset.card_eq_zero, free, Finset.filter_eq_empty_iff]
    intro k hk
    exact find_free_none hf k (Nat.zero_le _) (by simpa using hk)
  · obtain ⟨-, hi, hfree⟩ := find_free_some hf
    have hmem : i ∈ free pool := by simpa [free, hfree] using hi
    have hle := h.available_le
    have hcap := h.cap_le
    have hcap' : pool.capacity ≤ 16 := hcap
    have herase : free { pool with
        in_use := Function.update pool.in_use i 1, available := u32_sub pool.available 1 } =
        (free pool).erase i := by
      ext k
      by_cases hk : k = i <;> simp [free, hk]
    refine ⟨i, by omega, hfree, ?_⟩
    simp only [take_slot, hf, true_and]
    refine ⟨h.initialized, hcap, ?_, ?_, ?_⟩
    · intro k
      by_cases hk : k = i
      · simp [hk]
      · simpa [hk] using h.flag k
    · intro k hk
      have hki : k ≠ i := by
        simp only at hk
        omega
      simpa [hki] using h.beyond k hk
    · rw [herase, Finset.card_erase_of_mem hmem, ← h.counter]
      exact u32_sub_of_le (by omega) (by omega)

theorem find_slot_eq [DecidableEq ι] (self : ι) (fb : SlotPtr ι) (i n : Nat) :
    find_slot self fb i n =
      if fb.pool = self ∧ i ≤ fb.idx ∧ fb.idx < i + n then some fb.idx else none := by
  induction n generalizing i with
  | zero =>
    rw [if_neg (by omega)]
    rfl
  | succ n ih =>
    obtain ⟨p, k⟩ := fb
    simp only [find_slot, ih, SlotPtr.mk.injEq]
    by_cases hp : p = self
    · by_cases hk : k = i
      · simp [hp, hk]
      · have hiff : (i + 1 ≤ k ∧ k < i + 1 + n) ↔ (i ≤ k ∧ k < i + (n + 1)) := by omega
        simp only [hp, hk, and_false, if_false, true_and, hiff]
    · simp [hp]

/-- A held slot that is released is free, and no other slot changes. -/
theorem release_held [DecidableEq ι] {pool : vf_buf_pool_t ι} (h : Accounted pool) {i : Nat}
    (hi : i ∈ held pool) :
    vf_buf_pool_release pool (some ⟨pool.self, i⟩) = (.VF_SUCCESS, { pool with
      in_use := Function.update pool.in_use i 0, available := pool.available + 1 }, true) := by
  obtain ⟨hlt, huse⟩ : i < pool.capacity ∧ pool.in_use i ≠ 0 := by simpa [held] using hi
  have hle := h.available_le
  have hcap : pool.capacity ≤ 16 := h.cap_le
  have hwrap : u32 (pool.available + 1) = pool.available + 1 := u32_of_lt (by omega)
  simp [vf_buf_pool_release, h.initialized, find_slot_eq, hlt, huse, hwrap]

/-- A pointer to a free slot, or to no slot of the pool, changes nothing. -/
theorem release_not_held [DecidableEq ι] {pool : vf_buf_pool_t ι} (h : Accounted pool)
    (p : SlotPtr ι) (hp : p.pool = pool.self → p.idx ∉ held pool) :
    vf_buf_pool_release pool (some p) =
      (if p.pool = pool.self ∧ p.idx < pool.capacity then .VF_SUCCESS else .VF_INVALID_PARAMETER,
        pool, false) := by
  by_cases hin : p.pool = pool.self ∧ p.idx < pool.capacity
  · have huse : pool.in_use p.idx = 0 := by
      have := hp hin.1
      simpa [held, hin.2] using this
    simp [vf_buf_pool_release, h.initialized, find_slot_eq, hin, huse]
  · simp [vf_buf_pool_release, h.initialized, find_slot_eq, hin]

theorem accounted_release {pool : vf_buf_pool_t ι} (h : Accounted pool) {i : Nat}
    (hi : i ∈ held pool) :
    Accounted { pool with
      in_use := Function.update pool.in_use i 0, available := pool.available + 1 } := by
  obtain ⟨hlt, huse⟩ : i < pool.capacity ∧ pool.in_use i ≠ 0 := by simpa [held] using hi
  have hins : free { pool with
      in_use := Function.update pool.in_use i 0, available := pool.available + 1 } =
      insert i (free pool) := by
    ext k
    by_cases hk : k = i <;> simp [free, hk, hlt]
  refine ⟨h.initialized, h.cap_le, ?_, ?_, ?_⟩
  · intro k
    by_cases hk : k = i
    · simp [hk]
    · simpa [hk] using h.flag k
  · intro k hkc
    by_cases hk : k = i
    · simp [hk]
    · simpa [hk] using h.beyond k hkc
  · rw [hins, Finset.card_insert_of_notMem (by simp [free, huse]), ← h.counter]

/-! ## Calls, and the ledger of their answers -/

inductive Call (ι : Type)
  | acquire (out_fb : Option (SlotPtr ι))
  | acquire_blocking (out_fb : Option (SlotPtr ι))
  | release (fb : Option (SlotPtr ι))
  | shutdown
  | reset
  | available

inductive Answer (ι : Type)
  | acquired (e : vf_err_t) (out_fb : Option (SlotPtr ι))
  | released (e : vf_err_t)
  | num (n : Nat)
  | unit

/-- A call on the pool, with its answer. `none`: the call waits. -/
def call [DecidableEq ι] (pool : vf_buf_pool_t ι) : Call ι → Option (Answer ι × vf_buf_pool_t ι)
  | .acquire out => let r := vf_buf_pool_acquire pool out; some (.acquired r.1 r.2.1, r.2.2)
  | .acquire_blocking out =>
    (vf_buf_pool_acquire_blocking pool out).map fun r => (.acquired r.1 r.2.1, r.2.2)
  | .release fb => let r := vf_buf_pool_release pool fb; some (.released r.1, r.2.1)
  | .shutdown => some (.unit, vf_buf_pool_shutdown pool)
  | .reset => some (.unit, vf_buf_pool_reset pool)
  | .available => some (.num (vf_buf_pool_available pool), pool)

/-- The calls and answers of a sequence, and the pool at its end. -/
def calls [DecidableEq ι] (pool : vf_buf_pool_t ι) :
    List (Call ι) → Option (List (Call ι × Answer ι) × vf_buf_pool_t ι)
  | [] => some ([], pool)
  | c :: rest => (call pool c).bind fun r =>
      (calls r.2 rest).map fun t => ((c, r.1) :: t.1, t.2)

/-- What the callers know: the slots handed out and not released since, and whether the
pool was shut down and not reset since. -/
structure Ledger where
  held : Finset Nat
  down : Bool

/-- The ledger after one more call and its answer. -/
def Ledger.note [DecidableEq ι] (base : ι) (l : Ledger) : Call ι × Answer ι → Ledger
  | (_, .acquired .VF_SUCCESS (some p)) => { l with held := insert p.idx l.held }
  | (.release (some p), _) => if p.pool = base then { l with held := l.held.erase p.idx } else l
  | (.shutdown, _) => { l with down := true }
  | (.reset, _) => { l with down := false }
  | _ => l

/-- A success hands out a slot that nobody holds. -/
def Fresh (base : ι) (capacity : Nat) (l : Ledger) (out : Option (SlotPtr ι)) : Prop :=
  ∃ i < capacity, i ∉ l.held ∧ out = some ⟨base, i⟩

/-- The answer that the ledger allows a call. -/
def Lawful (base : ι) (capacity : Nat) (l : Ledger) : Call ι × Answer ι → Prop
  | (.acquire _, .acquired e out) =>
    (e = .VF_SUCCESS ∧ Fresh base capacity l out) ∨
      (e = .VF_OOM ∧ out = none ∧ l.held = Finset.range capacity)
  | (.acquire_blocking _, .acquired e out) =>
    (e = .VF_SUCCESS ∧ Fresh base capacity l out) ∨
      (e = .VF_QUEUE_SHUTDOWN ∧ out = none ∧ l.held = Finset.range capacity ∧ l.down = true)
  | (.release fb, .released e) =>
    ((∃ i < capacity, fb = some ⟨base, i⟩) ∧ e = .VF_SUCCESS) ∨
      ((¬ ∃ i < capacity, fb = some ⟨base, i⟩) ∧ e = .VF_INVALID_PARAMETER)
  | (.available, .num n) => n + l.held.card = capacity
  | (.shutdown, .unit) => True
  | (.reset, .unit) => True
  | _ => False

def LawfulAll [DecidableEq ι] (base : ι) (capacity : Nat) :
    Ledger → List (Call ι × Answer ι) → Prop
  | _, [] => True
  | l, ca :: rest => Lawful base capacity l ca ∧ LawfulAll base capacity (l.note base ca) rest

/-- The ledger after a sequence of calls and answers. -/
def Ledger.after [DecidableEq ι] (base : ι) (l : Ledger) (cas : List (Call ι × Answer ι)) :
    Ledger :=
  cas.foldl (Ledger.note base) l

/-- The pool is as the ledger says. -/
structure Kept (base : ι) (capacity : Nat) (pool : vf_buf_pool_t ι) (l : Ledger) : Prop where
  accounted : Accounted pool
  at_base : pool.self = base
  capacity : pool.capacity = capacity
  held : held pool = l.held
  down : pool.shutdown = l.down

theorem available_zero_iff {base : ι} {capacity : Nat} {pool : vf_buf_pool_t ι} {l : Ledger}
    (h : Kept base capacity pool l) :
    pool.available = 0 ↔ l.held = Finset.range capacity := by
  have hsum := held_card pool
  have hsub : held pool ⊆ Finset.range pool.capacity := Finset.filter_subset _ _
  rw [h.accounted.counter, ← h.held, ← h.capacity]
  constructor
  · intro h0
    exact Finset.eq_of_subset_of_card_le hsub (by simp; omega)
  · intro hall
    rw [hall, Finset.card_range] at hsum
    omega

/-- Where nobody holds a slot, each slot is free. -/
theorem none_held {base : ι} {capacity : Nat} {pool : vf_buf_pool_t ι} {down : Bool}
    (h : Kept base capacity pool ⟨∅, down⟩) :
    vf_buf_pool_available pool = capacity ∧ ∀ i < capacity, pool.in_use i = 0 := by
  have hsum := held_card pool
  rw [h.held, Finset.card_empty, Nat.add_zero] at hsum
  refine ⟨?_, ?_⟩
  · simp [vf_buf_pool_available, h.accounted.initialized, h.accounted.counter, hsum, h.capacity]
  · intro i hi
    by_contra huse
    have hmem : i ∈ held pool := by simp [held, huse, h.capacity, hi]
    simp [h.held] at hmem

/-- A slot taken from a kept pool was in nobody's hands, and is in the ledger now. -/
theorem take_slot_kept {base : ι} {capacity : Nat} {pool : vf_buf_pool_t ι} {l : Ledger}
    (h : Kept base capacity pool l) (ha : pool.available ≠ 0) :
    ∃ i, i < capacity ∧ i ∉ l.held ∧ (take_slot pool).1 = some ⟨base, i⟩ ∧
      Kept base capacity (take_slot pool).2 { l with held := insert i l.held } := by
  obtain ⟨i, hi, hfree, hout, huse, hself, hcap, hdown, hacc⟩ := take_slot.spec h.accounted ha
  have hnot : i ∉ l.held := by simp [← h.held, held, hfree]
  refine ⟨i, h.capacity ▸ hi, hnot, h.at_base ▸ hout, hacc, hself.trans h.at_base,
    hcap.trans h.capacity, ?_, hdown.trans h.down⟩
  rw [← h.held]
  ext k
  by_cases hk : k = i <;> simp [held, huse, hcap, hk, hi]

theorem release_kept [DecidableEq ι] {base : ι} {capacity : Nat} {pool : vf_buf_pool_t ι}
    {l : Ledger} (h : Kept base capacity pool l) (fb : Option (SlotPtr ι)) (e : vf_err_t) :
    Kept base capacity (vf_buf_pool_release pool fb).2.1
      (l.note base (.release fb, .released e)) := by
  cases fb with
  | none => exact h
  | some p =>
    simp only [Ledger.note]
    by_cases hp : p.pool = base
    · by_cases hin : p.idx ∈ held pool
      · have hrel := release_held h.accounted hin
        have hacc := accounted_release h.accounted hin
        have hpe : p = ⟨pool.self, p.idx⟩ := by rw [h.at_base, ← hp]
        rw [← hpe] at hrel
        simp only [hrel, hp, if_true]
        refine ⟨hacc, h.at_base, h.capacity, ?_, h.down⟩
        rw [← h.held]
        ext k
        by_cases hk : k = p.idx <;> simp [held, hk]
      · rw [release_not_held h.accounted p fun _ => hin, if_pos hp,
          Finset.erase_eq_of_notMem (by rwa [← h.held])]
        exact h
    · rw [release_not_held h.accounted p fun hs => absurd (hs.trans h.at_base) hp, if_neg hp]
      exact h

theorem release_lawful [DecidableEq ι] {base : ι} {capacity : Nat} {pool : vf_buf_pool_t ι}
    {l : Ledger} (h : Kept base capacity pool l) (fb : Option (SlotPtr ι)) :
    Lawful base capacity l (.release fb, .released (vf_buf_pool_release pool fb).1) := by
  cases fb with
  | none => exact Or.inr ⟨by simp, rfl⟩
  | some p =>
    have hslot : (∃ i < capacity, some p = some ⟨base, i⟩) ↔
        p.pool = pool.self ∧ p.idx < pool.capacity := by
      obtain ⟨q, k⟩ := p
      simp [h.at_base, h.capacity, and_comm]
    simp only [Lawful, hslot]
    by_cases hin : p.pool = pool.self ∧ p.idx ∈ held pool
    · have hrel := release_held h.accounted hin.2
      have hlt : p.idx < pool.capacity := by
        have := hin.2
        simp only [held, Finset.mem_filter, Finset.mem_range] at this
        exact this.1
      rw [← hin.1] at hrel
      left
      exact ⟨⟨hin.1, hlt⟩, congrArg Prod.fst hrel⟩
    · rw [release_not_held h.accounted p fun hs hmem => hin ⟨hs, hmem⟩]
      by_cases hs : p.pool = pool.self ∧ p.idx < pool.capacity <;> simp [hs]

/-- One call: a lawful answer, and a pool as the ledger says. -/
theorem call_kept [DecidableEq ι] {base : ι} {capacity : Nat} {pool : vf_buf_pool_t ι}
    {l : Ledger} (h : Kept base capacity pool l) (c : Call ι) (a : Answer ι)
    (pool' : vf_buf_pool_t ι)
    (hc : call pool c = some (a, pool')) :
    Lawful base capacity l (c, a) ∧ Kept base capacity pool' (l.note base (c, a)) := by
  have hinit := h.accounted.initialized
  cases c with
  | acquire out =>
    simp only [call, vf_buf_pool_acquire, hinit, one_ne_zero, if_false] at hc
    by_cases ha : pool.available = 0
    · simp only [ha, if_true, Option.some.injEq, Prod.mk.injEq] at hc
      obtain ⟨rfl, rfl⟩ := hc
      exact ⟨Or.inr ⟨rfl, rfl, (available_zero_iff h).mp ha⟩, h⟩
    · obtain ⟨i, hi, hnot, hout, hk⟩ := take_slot_kept h ha
      simp only [ha, if_false, Option.some.injEq, Prod.mk.injEq] at hc
      obtain ⟨rfl, rfl⟩ := hc
      rw [hout]
      exact ⟨Or.inl ⟨rfl, i, hi, hnot, rfl⟩, hk⟩
  | acquire_blocking out =>
    simp only [call, vf_buf_pool_acquire_blocking, hinit, one_ne_zero, if_false] at hc
    by_cases ha : pool.available = 0
    · cases hd : pool.shutdown with
      | false => simp [ha, hd] at hc
      | true =>
        simp only [ha, hd, if_true, Option.map_some, Option.some.injEq, Prod.mk.injEq] at hc
        obtain ⟨rfl, rfl⟩ := hc
        exact ⟨Or.inr ⟨rfl, rfl, (available_zero_iff h).mp ha, h.down ▸ hd⟩, h⟩
    · obtain ⟨i, hi, hnot, hout, hk⟩ := take_slot_kept h ha
      simp only [ha, if_false, Option.map_some, Option.some.injEq, Prod.mk.injEq] at hc
      obtain ⟨rfl, rfl⟩ := hc
      rw [hout]
      exact ⟨Or.inl ⟨rfl, i, hi, hnot, rfl⟩, hk⟩
  | release fb =>
    simp only [call, Option.some.injEq, Prod.mk.injEq] at hc
    obtain ⟨rfl, rfl⟩ := hc
    exact ⟨release_lawful h fb, release_kept h fb _⟩
  | shutdown =>
    simp only [call, Option.some.injEq, Prod.mk.injEq] at hc
    obtain ⟨rfl, rfl⟩ := hc
    obtain ⟨⟨h1, h2, h3, h4, h5⟩, h6, h7, h8, -⟩ := h
    exact ⟨trivial, ⟨h1, h2, h3, h4, h5⟩, h6, h7, h8, rfl⟩
  | reset =>
    simp only [call, Option.some.injEq, Prod.mk.injEq] at hc
    obtain ⟨rfl, rfl⟩ := hc
    obtain ⟨⟨h1, h2, h3, h4, h5⟩, h6, h7, h8, -⟩ := h
    exact ⟨trivial, ⟨h1, h2, h3, h4, h5⟩, h6, h7, h8, rfl⟩
  | available =>
    simp only [call, vf_buf_pool_available, hinit, one_ne_zero, if_false, Option.some.injEq,
      Prod.mk.injEq] at hc
    obtain ⟨rfl, rfl⟩ := hc
    refine ⟨?_, h⟩
    have hsum := held_card pool
    simp only [Lawful, ← h.held, ← h.capacity, h.accounted.counter]
    exact hsum

theorem calls_kept [DecidableEq ι] {base : ι} {capacity : Nat} {pool : vf_buf_pool_t ι}
    {l : Ledger} (h : Kept base capacity pool l) (cs : List (Call ι))
    (cas : List (Call ι × Answer ι))
    (pool' : vf_buf_pool_t ι) (hc : calls pool cs = some (cas, pool')) :
    LawfulAll base capacity l cas ∧ Kept base capacity pool' (l.after base cas) := by
  induction cs generalizing pool l cas with
  | nil =>
    simp only [calls, Option.some.injEq, Prod.mk.injEq] at hc
    obtain ⟨rfl, rfl⟩ := hc
    exact ⟨trivial, h⟩
  | cons c rest ih =>
    simp only [calls, Option.bind_eq_some_iff, Option.map_eq_some_iff, Prod.exists,
      Prod.mk.injEq] at hc
    obtain ⟨a, p1, h1, cas', p2, h2, rfl, rfl⟩ := hc
    obtain ⟨hl, hk⟩ := call_kept h c a p1 h1
    obtain ⟨hls, hks⟩ := ih hk cas' h2
    exact ⟨⟨hl, hls⟩, hks⟩

/-- A successful init leaves a pool with every slot free. -/
theorem vf_buf_pool_init.spec (pool : vf_buf_pool_t ι) (alloc : Nat → vf_err_t)
    (slot_count : Nat) (mutex_ok cond_ok : Bool)
    (h : (vf_buf_pool_init pool alloc slot_count mutex_ok cond_ok).1 = .VF_SUCCESS) :
    1 ≤ slot_count ∧ slot_count ≤ VF_BUF_POOL_MAX_SLOTS ∧
      (vf_buf_pool_init pool alloc slot_count mutex_ok cond_ok).2.1 =
        { zeroed pool.self with
          capacity := slot_count, available := slot_count, initialized := 1 } := by
  unfold vf_buf_pool_init at h ⊢
  by_cases hbad : slot_count = 0 ∨ slot_count > VF_BUF_POOL_MAX_SLOTS
  · simp [hbad] at h
  · cases mutex_ok <;> cases cond_ok <;> simp only [hbad, if_false, Bool.not_true,
      Bool.not_false, Bool.false_eq_true, if_true] at h ⊢
    · cases h
    · cases h
    · cases h
    · by_cases he : (alloc_slots alloc 0 slot_count).1 = .VF_SUCCESS
      · simp only [he, ne_eq, not_true_eq_false, if_false, and_true]
        omega
      · simp [he] at h

/-- A pool is only made when its first slot is. -/
theorem vf_buf_pool_init.first_slot {pool : vf_buf_pool_t ι} {alloc : Nat → vf_err_t}
    {slot_count : Nat} {mutex_ok cond_ok : Bool}
    (h : (vf_buf_pool_init pool alloc slot_count mutex_ok cond_ok).1 = .VF_SUCCESS) :
    alloc 0 = .VF_SUCCESS := by
  obtain ⟨hn, -, -⟩ := vf_buf_pool_init.spec pool alloc slot_count mutex_ok cond_ok h
  by_contra he
  obtain ⟨k, rfl⟩ : ∃ k, slot_count = k + 1 := ⟨slot_count - 1, by omega⟩
  have hslots : alloc_slots alloc 0 (k + 1) = (alloc 0, 0) := by
    simp [alloc_slots, he]
  unfold vf_buf_pool_init at h
  split at h
  · cases h
  · split at h
    · cases h
    · split at h
      · cases h
      · simp [hslots, he] at h

theorem fresh_kept (base : ι) (slot_count : Nat) (h : slot_count ≤ VF_BUF_POOL_MAX_SLOTS) :
    Kept base slot_count { zeroed base with
      capacity := slot_count, available := slot_count, initialized := 1 } ⟨∅, false⟩ := by
  refine ⟨⟨rfl, h, fun _ => Nat.zero_le _, fun _ _ => rfl, ?_⟩, rfl, rfl, ?_, rfl⟩
  · simp [free, zeroed]
  · simp [held, zeroed]

/-! ## The law -/

/-- After a successful init, for any sequence of calls: each answer is lawful for the
slots handed out and not released before it. The counter is the number of free slots,
and is at most the capacity. A blocking acquire waits just when every slot is held and
the pool is not shut down. A release of a pointer that is no held slot leaves the pool
as it is, and a release of a held slot frees just that slot. -/
theorem a_slot_has_one_holder_and_the_counter_is_exact [DecidableEq ι] (pool : vf_buf_pool_t ι)
    (alloc : Nat → vf_err_t) (slot_count : Nat) (mutex_ok cond_ok : Bool)
    (hinit : (vf_buf_pool_init pool alloc slot_count mutex_ok cond_ok).1 = .VF_SUCCESS)
    (cs : List (Call ι)) (cas : List (Call ι × Answer ι)) (pool' : vf_buf_pool_t ι)
    (hc : calls (vf_buf_pool_init pool alloc slot_count mutex_ok cond_ok).2.1 cs =
      some (cas, pool')) :
    let l := Ledger.after pool.self ⟨∅, false⟩ cas
    LawfulAll pool.self slot_count ⟨∅, false⟩ cas ∧
      pool'.available = ((Finset.range slot_count).filter fun i => pool'.in_use i = 0).card ∧
      pool'.available ≤ slot_count ∧
      (∀ i < slot_count, pool'.in_use i = if i ∈ l.held then 1 else 0) ∧
      (∀ out, vf_buf_pool_acquire_blocking pool' out = none ↔
        l.held = Finset.range slot_count ∧ l.down = false) ∧
      (∀ p : SlotPtr ι, (p.pool = pool.self → p.idx ∉ l.held) →
        (vf_buf_pool_release pool' (some p)).2.1 = pool') ∧
      (∀ i ∈ l.held, (vf_buf_pool_release pool' (some ⟨pool.self, i⟩)).2.1 = { pool' with
        in_use := Function.update pool'.in_use i 0, available := pool'.available + 1 }) := by
  obtain ⟨-, h16, hpool⟩ := vf_buf_pool_init.spec pool alloc slot_count mutex_ok cond_ok hinit
  rw [hpool] at hc
  obtain ⟨hlaw, hk⟩ := calls_kept (fresh_kept pool.self slot_count h16) cs cas pool' hc
  have hcap := hk.capacity
  refine ⟨hlaw, ?_, ?_, ?_, ?_, ?_, ?_⟩
  · rw [hk.accounted.counter, free, hcap]
  · rw [← hcap]
    exact hk.accounted.available_le
  · intro i hi
    have hflag := hk.accounted.flag i
    by_cases h0 : pool'.in_use i = 0
    · simp [← hk.held, held, h0]
    · have h1 : pool'.in_use i = 1 := by omega
      simp [← hk.held, held, h1, hcap, hi]
  · intro out
    rw [← available_zero_iff hk, ← hk.down]
    simp only [vf_buf_pool_acquire_blocking, hk.accounted.initialized, one_ne_zero, if_false]
    by_cases ha : pool'.available = 0 <;> cases pool'.shutdown <;> simp [ha]
  · intro p hp
    rw [release_not_held hk.accounted p]
    intro hs
    rw [hk.held]
    exact hp (hs.trans hk.at_base)
  · intro i hi
    rw [← hk.at_base, release_held hk.accounted (by rwa [hk.held])]

/-- Two slots: both are taken, one is given back twice, a foreign pointer is given back,
and a third acquire takes the freed slot again. -/
theorem two_slots_have_one_holder_each :
    ∃ cas pool', calls (vf_buf_pool_init (zeroed ()) (fun _ => .VF_SUCCESS) 2 true true).2.1
        [.acquire none, .acquire_blocking none, .acquire none, .release (some ⟨(), 0⟩),
          .release (some ⟨(), 0⟩), .release (some ⟨(), 7⟩), .acquire none, .available] =
        some (cas, pool') ∧
      LawfulAll () 2 ⟨∅, false⟩ cas ∧ pool'.available ≤ 2 := by
  have h := a_slot_has_one_holder_and_the_counter_is_exact (zeroed ()) (fun _ => .VF_SUCCESS) 2
    true true (by decide)
    [.acquire none, .acquire_blocking none, .acquire none, .release (some ⟨(), 0⟩),
      .release (some ⟨(), 0⟩), .release (some ⟨(), 7⟩), .acquire none, .available] _ _ rfl
  exact ⟨_, _, rfl, h.1, h.2.2.1⟩

end vision_flow.buf_pool
