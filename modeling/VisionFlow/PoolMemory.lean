-- What the buffer pool (vf-buff-pool.c) makes: its mutex, its condition variable, and the
-- memory of its slots. An init that gets no memory for a slot gives back the slots and the
-- mutex and keeps the condition variable. Each other init makes all of it, or keeps nothing.
import VisionFlow.BufPool
import VisionFlow.Framebuffer
import VisionFlow.Lib.CMemory

namespace vision_flow.pool_memory

open c_memory
open buf_pool (vf_buf_pool_t VF_BUF_POOL_MAX_SLOTS)
open framebuffer (vf_fb_params_t vf_framebuffer_t Accepted)

/-! ## The memory -/

/-- What an init makes. `data i` is the memory of the slot `i`. -/
inductive Made
  | lock
  | slot_available
  | data (i : Nat)
  deriving DecidableEq

/-- The pool, with its array `slots`. -/
structure Mem (ι : Type) where
  block : Made → Block
  pool : vf_buf_pool_t ι
  slots : Nat → vf_framebuffer_t

variable {ι : Type}

/-- Nothing is made in the memory of the pool, and it holds anything. -/
def Mem.start (pool : vf_buf_pool_t ι) (slots : Nat → vf_framebuffer_t) : Mem ι :=
  ⟨fun _ => .unused, pool, slots⟩

abbrev Code (ι α : Type) := Checked (Mem ι) α

/-! ## The code -/

section
variable (can : Made → Bool)

/-- `can` says which calls that make something succeed. -/
def make (r : Made) : Code ι Bool := fun m =>
  if m.block r ≠ .unused then none
  else if can r then some (true, { m with block := Function.update m.block r .live })
  else some (false, m)

def destroy (r : Made) : Code ι Unit :=
  writes fun m => (release (some r) m.block).map fun block => { m with block := block }

def pthread_mutex_init : Code ι Bool := make can .lock
def pthread_cond_init : Code ι Bool := make can .slot_available
def pthread_mutex_destroy : Code ι Unit := destroy .lock
def pthread_cond_destroy : Code ι Unit := destroy .slot_available

/-- The fields of the pool that are set. -/
def put (f : vf_buf_pool_t ι → vf_buf_pool_t ι) : Code ι Unit :=
  writes fun m => some { m with pool := f m.pool }

def memset_pool : Code ι Unit :=
  writes fun m =>
    some { m with pool := buf_pool.zeroed m.pool.self, slots := fun _ => framebuffer.zeroed }

/-- `vf_framebuffer_alloc(&pool->slots[i], params)`. -/
def vf_framebuffer_alloc (params : vf_fb_params_t) (i : Nat) : Code ι vf_err_t := fun m =>
  let (rc, fb) := framebuffer.vf_framebuffer_alloc (m.slots i) params (can (.data i))
  let m := { m with slots := Function.update m.slots i fb }
  if rc ≠ .VF_SUCCESS then some (rc, m) else (make can (.data i) m).map fun r => (rc, r.2)

/-- `vf_framebuffer_free(&pool->slots[i])`. -/
def vf_framebuffer_free (i : Nat) : Code ι Unit := do
  let fb ← reads fun m => some (m.slots i)
  if fb.data.isSome ∧ fb.owns_memory = 1 then
    destroy (.data i)
  writes fun m => some { m with
    slots := Function.update m.slots i <| framebuffer.reset_plane_info { fb with
      data := none, total_size := 0, owns_memory := 0, params := ⟨0, 0, .VF_PIXEL_FMT_UNKNOWN⟩ } }

/-- The loop over `n` slots from the slot `i` on: the first error and its slot, or success. -/
def alloc_slots (params : vf_fb_params_t) : Nat → Nat → Code ι (vf_err_t × Nat)
  | i, 0 => return (.VF_SUCCESS, i)
  | i, n + 1 => do
    let err ← vf_framebuffer_alloc can params i
    if err ≠ .VF_SUCCESS then
      return (err, i)
    else
      put fun pool => { pool with in_use := Function.update pool.in_use i 0 }
      alloc_slots params (i + 1) n

/-- The loops that free slots, each with its order. -/
def free_slots : List Nat → Code ι Unit
  | [] => return ()
  | i :: rest => do
    vf_framebuffer_free i
    free_slots rest

def vf_buf_pool_init (params : Option vf_fb_params_t) (slot_count : Nat) : Code ι vf_err_t := do
  let some params := params | return .VF_INVALID_PARAMETER
  if slot_count = 0 ∨ slot_count > VF_BUF_POOL_MAX_SLOTS then
    return .VF_INVALID_PARAMETER
  memset_pool
  if !(← pthread_mutex_init can) then
    return .VF_SYNC_ERROR
  if !(← pthread_cond_init can) then
    pthread_mutex_destroy
    return .VF_SYNC_ERROR
  let (err, i) ← alloc_slots can params 0 slot_count
  if err ≠ .VF_SUCCESS then
    free_slots (List.range i).reverse
    pthread_mutex_destroy
    return err
  put fun pool => { pool with capacity := slot_count, available := slot_count, initialized := 1 }
  return .VF_SUCCESS

def vf_buf_pool_deinit : Code ι Unit := do
  let pool ← reads fun m => some m.pool
  if pool.initialized = 0 then
    return ()
  free_slots (List.range pool.capacity)
  pthread_mutex_destroy
  pthread_cond_destroy
  memset_pool

end

/-! ## All or nothing -/

/-- Nothing that was made is left. -/
def NothingHeld (m : Mem ι) : Prop := ∀ r, m.block r ≠ .live

/-- A frame with memory of its own. -/
def Owned (fb : vf_framebuffer_t) : Prop := fb.data.isSome ∧ fb.owns_memory = 1

/-- The first `n` slots have memory, and no memory was made for the others. -/
structure Filled (n : Nat) (m : Mem ι) : Prop where
  filled : ∀ i < n, m.block (.data i) = .live ∧ Owned (m.slots i)
  rest : ∀ i, n ≤ i → m.block (.data i) = .unused

/-- Everything is made. -/
structure AllHeld (slot_count : Nat) (m : Mem ι) : Prop extends Filled slot_count m where
  lock : m.block .lock = .live
  slot_available : m.block .slot_available = .live
  initialized : m.pool.initialized = 1
  capacity : m.pool.capacity = slot_count

/-- All slots are free. -/
def AllFree (slot_count : Nat) (m : Mem ι) : Prop :=
  m.pool.available = slot_count ∧ ∀ i, m.pool.in_use i = 0

/-- Everything that was made is released, and it was released once. -/
structure AllReleased (slot_count : Nat) (m : Mem ι) : Prop where
  lock : m.block .lock = .freed
  slot_available : m.block .slot_available = .freed
  data : ∀ i < slot_count, m.block (.data i) = .freed
  rest : ∀ i, slot_count ≤ i → m.block (.data i) = .unused

/-- The pool after any calls of its users, which also write to its frames. -/
structure Used [DecidableEq ι] (m m' : Mem ι) : Prop where
  calls : ∃ cs log, buf_pool.calls m.pool cs = some (log, m'.pool)
  block : m'.block = m.block
  owned : ∀ i, Owned (m.slots i) → Owned (m'.slots i)

/-- An init that returns an error keeps nothing, and after one that succeeds the next deinit
releases everything. No call releases what is not held. -/
def AllOrNothing [DecidableEq ι] (can : Made → Bool) (params : Option vf_fb_params_t)
    (slot_count : Nat) (m : Mem ι) : Prop :=
  ∃ err m', vf_buf_pool_init can params slot_count m = some (err, m') ∧
    (err ≠ .VF_SUCCESS → NothingHeld m' ∧ m'.pool.initialized = 0) ∧
    (err = .VF_SUCCESS → AllHeld slot_count m' ∧ AllFree slot_count m' ∧ ∀ used, Used m' used →
      ∃ after, vf_buf_pool_deinit used = some ((), after) ∧ AllReleased slot_count after)

/-- The arguments that an init turns down. -/
def Rejected (params : Option vf_fb_params_t) (slot_count : Nat) : Prop :=
  params = none ∨ slot_count = 0 ∨ slot_count > VF_BUF_POOL_MAX_SLOTS

/-- The slot `i` gets its memory. -/
def Granted (can : Made → Bool) (params : vf_fb_params_t) (i : Nat) : Prop :=
  params.width ≠ 0 ∧ params.height ≠ 0 ∧ Accepted params.format ∧ can (.data i)

/-! ## What a call makes and destroys -/

section
variable {can : Made → Bool} {m : Mem ι}

theorem make.spec {r : Made} (h : m.block r = .unused) (hcan : can r = true) :
    make can r m = some (true, { m with block := Function.update m.block r .live }) := by
  simp [make, h, hcan]

theorem make.failed {r : Made} (h : m.block r = .unused) (hcan : can r = false) :
    make can r m = some (false, m) := by
  simp [make, h, hcan]

theorem destroy.spec {r : Made} (h : m.block r = .live) :
    destroy r m = some ((), { m with block := Function.update m.block r .freed }) := by
  unfold destroy
  apply writes_of
  rw [release_live h]
  rfl

end

/-! ## The frame of a slot -/

/-- The layout takes the accepted formats. -/
theorem init_planes_success (fb : vf_framebuffer_t) (params : vf_fb_params_t)
    (h : params.format ≠ .VF_PIXEL_FMT_UNKNOWN ∧ params.format ≠ .VF_PIXEL_FMT_LAST) :
    (framebuffer.init_planes fb params).1 = .VF_SUCCESS ↔ Accepted params.format := by
  obtain ⟨w, ht, format⟩ := params
  cases format <;> simp_all [framebuffer.init_planes, Accepted]

/-- An allocation succeeds just if the slot gets its memory. -/
theorem alloc_success (fb : vf_framebuffer_t) (params : vf_fb_params_t) (i : Nat)
    (can : Made → Bool) :
    (framebuffer.vf_framebuffer_alloc fb params (can (.data i))).1 = .VF_SUCCESS ↔
      Granted can params i := by
  unfold framebuffer.vf_framebuffer_alloc Granted
  by_cases hsize : params.width = 0 ∨ params.height = 0
  · rw [if_pos hsize]
    refine iff_of_false nofun fun h => ?_
    exact hsize.elim h.1 h.2.1
  · by_cases hfmt : params.format = .VF_PIXEL_FMT_UNKNOWN ∨ params.format = .VF_PIXEL_FMT_LAST
    · rw [if_neg hsize, if_pos hfmt]
      refine iff_of_false nofun fun h => ?_
      exact hfmt.elim h.2.2.1.1 h.2.2.1.2.2
    · rw [if_neg hsize, if_neg hfmt]
      push Not at hsize hfmt
      have hplanes :=
        init_planes_success { framebuffer.zeroed with params := params } params hfmt
      simp only
      split
      · rename_i hrc
        exact iff_of_false hrc fun h => hrc (hplanes.mpr h.2.2.1)
      · rename_i hrc
        have hacc := hplanes.mp (Decidable.not_not.mp hrc)
        cases hcan : can (.data i) <;> simp [hsize, hacc]

/-- What an allocation that succeeds leaves in the slot. -/
theorem alloc_owned {fb : vf_framebuffer_t} {params : vf_fb_params_t} {ok : Bool}
    (h : (framebuffer.vf_framebuffer_alloc fb params ok).1 = .VF_SUCCESS) :
    Owned (framebuffer.vf_framebuffer_alloc fb params ok).2 := by
  unfold framebuffer.vf_framebuffer_alloc at h ⊢
  split at h
  · cases h
  · rename_i hsize
    rw [if_neg hsize]
    split at h
    · cases h
    · rename_i hfmt
      rw [if_neg hfmt]
      simp only at h ⊢
      split at h
      · contradiction
      · rename_i hrc
        rw [if_neg hrc]
        split at h
        · cases h
        · rename_i hok
          rw [if_neg hok]
          exact ⟨rfl, rfl⟩

/-! ## One slot -/

/-- Nothing changes but the slots and their memory. -/
structure SlotsOnly (m m' : Mem ι) : Prop where
  pool : m'.pool = m.pool
  lock : m'.block .lock = m.block .lock
  slot_available : m'.block .slot_available = m.block .slot_available

theorem SlotsOnly.refl (m : Mem ι) : SlotsOnly m m := ⟨rfl, rfl, rfl⟩

theorem SlotsOnly.trans {a b c : Mem ι} (h : SlotsOnly a b) (h' : SlotsOnly b c) :
    SlotsOnly a c :=
  ⟨h'.pool.trans h.pool, h'.lock.trans h.lock, h'.slot_available.trans h.slot_available⟩

section
variable (can : Made → Bool) (params : vf_fb_params_t)

/-- What `vf_framebuffer_alloc` returns on the slot `i`, as it is after the `memset`. -/
def answer (i : Nat) : vf_err_t :=
  (framebuffer.vf_framebuffer_alloc framebuffer.zeroed params (can (.data i))).1

theorem answer_success (i : Nat) : answer can params i = .VF_SUCCESS ↔ Granted can params i :=
  alloc_success framebuffer.zeroed params i can

theorem vf_framebuffer_alloc.spec {m : Mem ι} {i : Nat} (hm : Filled i m)
    (hz : m.slots i = framebuffer.zeroed) :
    ∃ m', vf_framebuffer_alloc can params i m = some (answer can params i, m') ∧
      SlotsOnly m m' ∧ (∀ j, j ≠ i → m'.slots j = m.slots j) ∧
      Filled (if answer can params i = .VF_SUCCESS then i + 1 else i) m' := by
  rcases hr : framebuffer.vf_framebuffer_alloc framebuffer.zeroed params (can (.data i))
    with ⟨rc, fb⟩
  have hanswer : answer can params i = rc := congrArg Prod.fst hr
  unfold vf_framebuffer_alloc
  rw [hz, hr, hanswer]
  simp only
  by_cases hrc : rc = .VF_SUCCESS
  · have hcan : can (.data i) = true :=
      ((answer_success can params i).mp (hanswer.trans hrc)).2.2.2
    have howned : Owned fb := by
      have := alloc_owned (hanswer.trans hrc)
      rwa [hr] at this
    have hmake := make.spec (m := { m with slots := Function.update m.slots i fb })
      (hm.rest i (Nat.le_refl i)) hcan
    rw [if_neg (not_not.mpr hrc), if_pos hrc, hmake]
    refine ⟨_, rfl, ⟨rfl, by simp, by simp⟩, fun j hj => by simp [hj], ?_, ?_⟩
    · intro j hj
      by_cases hji : j = i
      · simpa [hji] using howned
      · simpa [hji] using hm.filled j (by omega)
    · intro j hj
      have hji : j ≠ i := by omega
      simpa [hji] using hm.rest j (by omega)
  · rw [if_pos hrc, if_neg hrc]
    refine ⟨_, rfl, ⟨rfl, rfl, rfl⟩, fun j hj => by simp [hj], ?_, hm.rest⟩
    intro j hj
    have hji : j ≠ i := by omega
    simpa [hji] using hm.filled j hj

end

theorem vf_framebuffer_free.spec {m : Mem ι} {i : Nat} (hlive : m.block (.data i) = .live)
    (howned : Owned (m.slots i)) :
    ∃ m', vf_framebuffer_free i m = some ((), m') ∧ SlotsOnly m m' ∧
      m'.block = Function.update m.block (.data i) .freed ∧
      ∀ j, j ≠ i → m'.slots j = m.slots j := by
  have hfb : reads (fun m : Mem ι => some (m.slots i)) m = some (m.slots i, m) := reads_of rfl
  unfold vf_framebuffer_free
  rw [run_bind_of hfb]
  simp only
  rw [if_pos (And.intro howned.1 howned.2), run_bind_of (destroy.spec hlive)]
  exact ⟨_, rfl, ⟨rfl, by simp, by simp⟩, rfl, fun j hj => by simp [hj]⟩

/-! ## The loops -/

/-- The slots before the one without memory are filled. -/
theorem alloc_slots.spec (can : Made → Bool) (params : vf_fb_params_t) (n : Nat) :
    ∀ (i : Nat) (m : Mem ι), Filled i m → (∀ j, i ≤ j → m.slots j = framebuffer.zeroed) →
      m.pool.in_use = (fun _ => 0) →
    ∃ m', alloc_slots can params i n m =
        some (buf_pool.alloc_slots (answer can params) i n, m') ∧
      SlotsOnly m m' ∧ Filled (buf_pool.alloc_slots (answer can params) i n).2 m' := by
  induction n with
  | zero =>
    intro i m hm _ _
    exact ⟨m, rfl, .refl m, hm⟩
  | succ n ih =>
    intro i m hm hz huse
    obtain ⟨m', hrun, honly, hslots, hfilled⟩ :=
      vf_framebuffer_alloc.spec can params hm (hz i (Nat.le_refl i))
    unfold alloc_slots buf_pool.alloc_slots
    rw [run_bind_of hrun]
    by_cases hrc : answer can params i = .VF_SUCCESS
    · rw [if_neg (not_not.mpr hrc), if_pos hrc]
      rw [if_pos hrc] at hfilled
      -- the flag is 0 already
      have hflag : Function.update m'.pool.in_use i 0 = m'.pool.in_use := by
        rw [honly.pool, huse]
        exact Function.update_eq_self i _
      have hput : put (fun pool => { pool with in_use := Function.update pool.in_use i 0 }) m' =
          some ((), m') := by
        apply writes_of
        simp only [hflag]
      rw [run_bind_of hput]
      have hzero : ∀ j, i + 1 ≤ j → m'.slots j = framebuffer.zeroed := by
        intro j hj
        rw [hslots j (by omega), hz j (by omega)]
      obtain ⟨last, hrest, honly', hlast⟩ :=
        ih (i + 1) m' hfilled hzero (by rw [honly.pool, huse])
      exact ⟨last, hrest, honly.trans honly', hlast⟩
    · rw [if_pos hrc, if_neg hrc]
      rw [if_neg hrc] at hfilled
      exact ⟨m', rfl, honly, hfilled⟩

theorem free_slots.spec (is : List Nat) : ∀ m : Mem ι, is.Nodup →
    (∀ i ∈ is, m.block (.data i) = .live ∧ Owned (m.slots i)) →
    ∃ m', free_slots is m = some ((), m') ∧ SlotsOnly m m' ∧
      (∀ i ∈ is, m'.block (.data i) = .freed) ∧
      ∀ i, i ∉ is → m'.block (.data i) = m.block (.data i) := by
  induction is with
  | nil =>
    intro m _ _
    exact ⟨m, rfl, .refl m, nofun, fun _ _ => rfl⟩
  | cons i is ih =>
    intro m hnd hheld
    obtain ⟨hi, hnd⟩ := List.nodup_cons.mp hnd
    have hfirst := hheld i List.mem_cons_self
    obtain ⟨m', hrun, honly, hblock, hslots⟩ := vf_framebuffer_free.spec hfirst.1 hfirst.2
    have hne : ∀ j ∈ is, j ≠ i := fun j hj heq => hi (heq ▸ hj)
    have hheld' : ∀ j ∈ is, m'.block (.data j) = .live ∧ Owned (m'.slots j) := by
      intro j hj
      rw [hblock, hslots j (hne j hj), Function.update_of_ne (by simpa using hne j hj)]
      exact hheld j (List.mem_cons_of_mem _ hj)
    obtain ⟨last, hrest, honly', hfreed, hkept⟩ := ih m' hnd hheld'
    unfold free_slots
    rw [run_bind_of hrun]
    refine ⟨last, hrest, honly.trans honly', ?_, ?_⟩
    · intro j hj
      by_cases hin : j ∈ is
      · exact hfreed j hin
      · have hji : j = i := (List.mem_cons.mp hj).resolve_right hin
        rw [hkept j hin, hblock, hji, Function.update_self]
    · intro j hj
      obtain ⟨hji, hin⟩ := not_or.mp (List.mem_cons.not.mp hj)
      rw [hkept j hin, hblock, Function.update_of_ne (by simpa using hji)]

/-- The loop succeeds just if each allocation does. -/
theorem alloc_slots_success (alloc : Nat → vf_err_t) (i n : Nat) :
    (buf_pool.alloc_slots alloc i n).1 = .VF_SUCCESS ↔
      ∀ j, i ≤ j → j < i + n → alloc j = .VF_SUCCESS := by
  induction n generalizing i with
  | zero => exact iff_of_true rfl fun j h1 h2 => absurd h2 (by omega)
  | succ n ih =>
    unfold buf_pool.alloc_slots
    by_cases hi : alloc i = .VF_SUCCESS
    · rw [if_pos hi, ih]
      constructor
      · intro h j h1 h2
        by_cases hji : j = i
        · rw [hji, hi]
        · exact h j (by omega) (by omega)
      · intro h j h1 h2
        exact h j (by omega) (by omega)
    · rw [if_neg hi]
      exact iff_of_false hi fun h => hi (h i (Nat.le_refl i) (by omega))

theorem alloc_slots_end {alloc : Nat → vf_err_t} {i n : Nat}
    (h : (buf_pool.alloc_slots alloc i n).1 = .VF_SUCCESS) :
    (buf_pool.alloc_slots alloc i n).2 = i + n := by
  induction n generalizing i with
  | zero => rfl
  | succ n ih =>
    unfold buf_pool.alloc_slots at h ⊢
    split at h
    · rename_i hi
      rw [if_pos hi, ih h]
      omega
    · contradiction

/-! ## The exits of the init -/

section
variable {can : Made → Bool} {params : vf_fb_params_t} {slot_count : Nat}
  (pool : vf_buf_pool_t ι) (slots : Nat → vf_framebuffer_t)

/-- The memory after the `memset`. -/
def cleared (pool : vf_buf_pool_t ι) : Mem ι :=
  Mem.start (buf_pool.zeroed pool.self) fun _ => framebuffer.zeroed

theorem init_rejected {params : Option vf_fb_params_t} (h : Rejected params slot_count)
    (m : Mem ι) :
    vf_buf_pool_init can params slot_count m = some (.VF_INVALID_PARAMETER, m) := by
  unfold vf_buf_pool_init
  cases params with
  | none => rfl
  | some params =>
    have hcount := h.resolve_left nofun
    simp only
    rw [if_pos hcount]
    rfl

theorem memset_pool.spec : memset_pool (Mem.start pool slots) = some ((), cleared pool) := rfl

/-- Without a mutex nothing is made. -/
theorem init_without_lock (hcount : ¬ (slot_count = 0 ∨ slot_count > VF_BUF_POOL_MAX_SLOTS))
    (hlock : can .lock = false) :
    vf_buf_pool_init can (some params) slot_count (Mem.start pool slots) =
      some (.VF_SYNC_ERROR, cleared pool) := by
  have hmake : pthread_mutex_init can (cleared pool) = some (false, cleared pool) :=
    make.failed rfl hlock
  unfold vf_buf_pool_init
  simp only
  rw [if_neg hcount, run_bind_of (memset_pool.spec pool slots), run_bind_of hmake]
  rfl

/-- The memory with the mutex made, and the condition variable. -/
def locked (pool : vf_buf_pool_t ι) : Mem ι :=
  { cleared pool with block := Function.update (cleared pool).block .lock .live }

def both (pool : vf_buf_pool_t ι) : Mem ι :=
  { locked pool with block := Function.update (locked pool).block .slot_available .live }

theorem locked.spec (hlock : can .lock = true) :
    pthread_mutex_init can (cleared pool) = some (true, locked pool) :=
  make.spec rfl hlock

/-- Without a condition variable the mutex is destroyed. -/
theorem init_without_cond (hcount : ¬ (slot_count = 0 ∨ slot_count > VF_BUF_POOL_MAX_SLOTS))
    (hlock : can .lock = true) (hcond : can .slot_available = false) :
    ∃ m, vf_buf_pool_init can (some params) slot_count (Mem.start pool slots) =
        some (.VF_SYNC_ERROR, m) ∧ m.pool = buf_pool.zeroed pool.self ∧ NothingHeld m := by
  have hmake : pthread_cond_init can (locked pool) = some (false, locked pool) :=
    make.failed rfl hcond
  have hdestroy := destroy.spec (m := locked pool) (r := .lock) rfl
  unfold vf_buf_pool_init
  simp only
  rw [if_neg hcount, run_bind_of (memset_pool.spec pool slots),
    run_bind_of (locked.spec pool hlock), if_neg (by simp), run_bind_of hmake, if_pos (by simp)]
  refine ⟨_, (run_bind_of hdestroy).trans rfl, rfl, ?_⟩
  intro r
  cases r <;> simp [locked, cleared, Mem.start]

theorem both.spec (hcond : can .slot_available = true) :
    pthread_cond_init can (locked pool) = some (true, both pool) :=
  make.spec rfl hcond

/-- The end of an init that has made both. -/
theorem init_with_both (hcount : ¬ (slot_count = 0 ∨ slot_count > VF_BUF_POOL_MAX_SLOTS))
    (hlock : can .lock = true) (hcond : can .slot_available = true)
    {r : vf_err_t × Nat}
    (hr : buf_pool.alloc_slots (answer can params) 0 slot_count = r) :
    ∃ m, SlotsOnly (both pool) m ∧ Filled r.2 m ∧
      vf_buf_pool_init can (some params) slot_count (Mem.start pool slots) =
        (if r.1 ≠ .VF_SUCCESS then do
          free_slots (List.range r.2).reverse
          pthread_mutex_destroy
          return r.1
        else do
          put fun pool =>
            { pool with capacity := slot_count, available := slot_count, initialized := 1 }
          return .VF_SUCCESS : Code ι vf_err_t) m := by
  have hempty : Filled 0 (both pool) := ⟨fun i hi => absurd hi (by omega), fun i _ => rfl⟩
  obtain ⟨m, hrun, honly, hfilled⟩ := alloc_slots.spec can params slot_count 0 (both pool)
    hempty (fun _ _ => rfl) rfl
  rw [hr] at hrun hfilled
  refine ⟨m, honly, hfilled, ?_⟩
  unfold vf_buf_pool_init
  simp only
  rw [if_neg hcount, run_bind_of (memset_pool.spec pool slots),
    run_bind_of (locked.spec pool hlock), if_neg (by simp), run_bind_of (both.spec pool hcond),
    if_neg (by simp), run_bind_of hrun]

/-- Without the memory of a slot, the condition variable is all that is left. -/
theorem init_without_slot (hcount : ¬ (slot_count = 0 ∨ slot_count > VF_BUF_POOL_MAX_SLOTS))
    (hlock : can .lock = true) (hcond : can .slot_available = true)
    (herr : (buf_pool.alloc_slots (answer can params) 0 slot_count).1 ≠ .VF_SUCCESS) :
    ∃ m, vf_buf_pool_init can (some params) slot_count (Mem.start pool slots) =
        some ((buf_pool.alloc_slots (answer can params) 0 slot_count).1, m) ∧
      m.pool = buf_pool.zeroed pool.self ∧ ∀ r, m.block r = .live ↔ r = .slot_available := by
  obtain ⟨m, honly, hfilled, hinit⟩ := init_with_both pool slots hcount hlock hcond rfl
  rcases hr : buf_pool.alloc_slots (answer can params) 0 slot_count with ⟨err, k⟩
  rw [hr] at herr hfilled hinit
  obtain ⟨m', hfree, honly', hfreed, hkept⟩ := free_slots.spec (List.range k).reverse m
    (List.nodup_reverse.mpr List.nodup_range)
    (fun i hi => hfilled.filled i (by simpa using hi))
  have hsame := honly.trans honly'
  have hdestroy := destroy.spec (m := m') (r := .lock) hsame.lock
  rw [hinit, if_pos herr, run_bind_of hfree]
  refine ⟨_, (run_bind_of hdestroy).trans rfl, hsame.pool, ?_⟩
  intro r
  cases r with
  | lock => simp
  | slot_available =>
    have hkeeps : m'.block .slot_available = .live := hsame.slot_available
    simpa using hkeeps
  | data i =>
    by_cases hi : i < k
    · simp [hfreed i (by simpa using hi)]
    · simp [hkept i (by simpa using hi), hfilled.rest i (by omega)]

/-- With the memory of each slot, the init holds everything. -/
theorem init_with_slots (hcount : ¬ (slot_count = 0 ∨ slot_count > VF_BUF_POOL_MAX_SLOTS))
    (hlock : can .lock = true) (hcond : can .slot_available = true)
    (herr : (buf_pool.alloc_slots (answer can params) 0 slot_count).1 = .VF_SUCCESS) :
    ∃ m, vf_buf_pool_init can (some params) slot_count (Mem.start pool slots) =
        some (.VF_SUCCESS, m) ∧ AllHeld slot_count m ∧
      m.pool = { buf_pool.zeroed pool.self with
        capacity := slot_count, available := slot_count, initialized := 1 } := by
  obtain ⟨m, honly, hfilled, hinit⟩ := init_with_both pool slots hcount hlock hcond rfl
  have hend := alloc_slots_end herr
  rw [Nat.zero_add] at hend
  rw [hend] at hfilled
  rw [hinit, if_neg (not_not.mpr herr)]
  refine ⟨_, rfl, ⟨⟨hfilled.filled, hfilled.rest⟩, honly.lock, honly.slot_available, rfl, rfl⟩, ?_⟩
  simp only [honly.pool]
  rfl

end

/-! ## The deinit -/

/-- A deinit releases what the init made. -/
theorem vf_buf_pool_deinit.spec {slot_count : Nat} {m : Mem ι} (h : AllHeld slot_count m) :
    ∃ m', vf_buf_pool_deinit m = some ((), m') ∧ AllReleased slot_count m' := by
  obtain ⟨m₁, hfree, honly, hfreed, hkept⟩ := free_slots.spec (List.range slot_count) m
    List.nodup_range (fun i hi => h.filled i (by simpa using hi))
  have hpool : reads (fun m : Mem ι => some m.pool) m = some (m.pool, m) := reads_of rfl
  have hlock := destroy.spec (m := m₁) (r := .lock) (honly.lock.trans h.lock)
  have hcond := destroy.spec (r := .slot_available)
    (m := { m₁ with block := Function.update m₁.block .lock .freed })
    (by simpa using honly.slot_available.trans h.slot_available)
  unfold vf_buf_pool_deinit
  rw [run_bind_of hpool, if_neg (by rw [h.initialized]; decide), h.capacity, run_bind_of hfree]
  refine ⟨_, (run_bind_of hlock).trans ((run_bind_of hcond).trans rfl), ?_, ?_, ?_, ?_⟩
  · simp
  · simp
  · intro i hi
    simpa using hfreed i (by simpa using hi)
  · intro i hi
    have hnone := h.rest i hi
    rw [← hkept i (by simpa using hi)] at hnone
    simpa using hnone

/-- The users of a pool keep what it holds. -/
theorem used_held [DecidableEq ι] {slot_count : Nat} {m used : Mem ι} (h : AllHeld slot_count m)
    {self : ι} (hpool : m.pool = { buf_pool.zeroed self with
      capacity := slot_count, available := slot_count, initialized := 1 })
    (hcount : slot_count ≤ VF_BUF_POOL_MAX_SLOTS) (hused : Used m used) :
    AllHeld slot_count used := by
  obtain ⟨cs, log, hcalls⟩ := hused.calls
  rw [hpool] at hcalls
  have hkept := (buf_pool.calls_kept (buf_pool.fresh_kept self slot_count hcount) cs log _ hcalls).2
  refine ⟨⟨?_, ?_⟩, ?_, ?_, hkept.accounted.initialized, hkept.capacity⟩
  · intro i hi
    rw [hused.block]
    exact ⟨(h.filled i hi).1, hused.owned i (h.filled i hi).2⟩
  · intro i hi
    rw [hused.block]
    exact h.rest i hi
  · rw [hused.block]
    exact h.lock
  · rw [hused.block]
    exact h.slot_available

/-! ## The law -/

/-- The init returns what the pool without its memory returns, and leaves the same fields. -/
theorem init_follows_the_pool (can : Made → Bool) (params : vf_fb_params_t) (slot_count : Nat)
    (pool : vf_buf_pool_t ι) (slots : Nat → vf_framebuffer_t) :
    ∃ m, vf_buf_pool_init can (some params) slot_count (Mem.start pool slots) =
        some ((buf_pool.vf_buf_pool_init pool (answer can params) slot_count (can .lock)
          (can .slot_available)).1, m) ∧
      m.pool = (buf_pool.vf_buf_pool_init pool (answer can params) slot_count (can .lock)
        (can .slot_available)).2.1 := by
  unfold buf_pool.vf_buf_pool_init
  by_cases hcount : slot_count = 0 ∨ slot_count > VF_BUF_POOL_MAX_SLOTS
  · rw [if_pos hcount, init_rejected (Or.inr hcount)]
    exact ⟨_, rfl, rfl⟩
  · rw [if_neg hcount]
    cases hlock : can .lock with
    | false =>
      rw [init_without_lock pool slots hcount hlock]
      exact ⟨_, rfl, rfl⟩
    | true =>
      cases hcond : can .slot_available with
      | false =>
        obtain ⟨m, hinit, hpool, -⟩ := init_without_cond pool slots hcount hlock hcond
        exact ⟨m, hinit, hpool⟩
      | true =>
        by_cases herr : (buf_pool.alloc_slots (answer can params) 0 slot_count).1 = .VF_SUCCESS
        · obtain ⟨m, hinit, -, hpool⟩ := init_with_slots pool slots hcount hlock hcond herr
          refine ⟨m, ?_, ?_⟩
          · simpa [herr] using hinit
          · simpa [herr] using hpool
        · obtain ⟨m, hinit, hpool, -⟩ := init_without_slot pool slots hcount hlock hcond herr
          refine ⟨m, ?_, ?_⟩
          · simpa [herr] using hinit
          · simpa [herr] using hpool

/-- The init is all or nothing just if arguments that it turns down come with a pool that is
not initialized, and each slot gets its memory where the mutex and the condition variable are
made. -/
theorem an_init_keeps_all_or_nothing_just_if_each_slot_gets_memory [DecidableEq ι]
    (can : Made → Bool) (params : Option vf_fb_params_t) (slot_count : Nat)
    (pool : vf_buf_pool_t ι) (slots : Nat → vf_framebuffer_t) :
    AllOrNothing can params slot_count (Mem.start pool slots) ↔
      (Rejected params slot_count → pool.initialized = 0) ∧
        (¬ Rejected params slot_count → can .lock = true → can .slot_available = true →
          ∀ p ∈ params, ∀ i < slot_count, Granted can p i) := by
  by_cases hrej : Rejected params slot_count
  · simp only [hrej, true_imp_iff, not_true_eq_false, false_imp_iff, and_true]
    have hinit : vf_buf_pool_init can params slot_count (Mem.start pool slots) = _ :=
      init_rejected hrej _
    constructor
    · rintro ⟨err, m, hrun, herr, -⟩
      rw [hinit] at hrun
      cases hrun
      exact (herr nofun).2
    · intro hzero
      exact ⟨_, _, hinit, fun _ => ⟨nofun, hzero⟩, nofun⟩
  · simp only [hrej, false_imp_iff, not_false_eq_true, true_imp_iff, true_and]
    obtain ⟨hsome, hcount⟩ := not_or.mp hrej
    obtain ⟨p, rfl⟩ := Option.ne_none_iff_exists'.mp hsome
    simp only [Option.mem_def, Option.some.injEq, forall_eq']
    cases hlock : can .lock with
    | false =>
      simp only [Bool.false_eq_true, false_imp_iff, iff_true]
      exact ⟨_, _, init_without_lock pool slots hcount hlock, fun _ => ⟨nofun, rfl⟩, nofun⟩
    | true =>
      cases hcond : can .slot_available with
      | false =>
        simp only [Bool.false_eq_true, false_imp_iff, imp_true_iff, iff_true]
        obtain ⟨m, hinit, hpool, hnone⟩ := init_without_cond pool slots hcount hlock hcond
        exact ⟨_, _, hinit, fun _ => ⟨hnone, congrArg (·.initialized) hpool⟩, nofun⟩
      | true =>
        simp only [true_imp_iff]
        have hgranted : (∀ i < slot_count, Granted can p i) ↔
            (buf_pool.alloc_slots (answer can p) 0 slot_count).1 = .VF_SUCCESS := by
          rw [alloc_slots_success]
          simp only [Nat.zero_le, true_imp_iff, Nat.zero_add, answer_success]
        rw [hgranted]
        constructor
        · rintro ⟨err, m, hrun, herr, -⟩
          by_contra hfail
          obtain ⟨m', hinit, -, hlive⟩ := init_without_slot pool slots hcount hlock hcond hfail
          rw [hinit] at hrun
          cases hrun
          exact (herr hfail).1 .slot_available ((hlive _).mpr rfl)
        · intro hok
          obtain ⟨m, hinit, hheld, hpool⟩ := init_with_slots pool slots hcount hlock hcond hok
          refine ⟨_, m, hinit, fun h => absurd rfl h, fun _ => ⟨hheld, ?_, ?_⟩⟩
          · rw [AllFree, hpool]
            exact ⟨rfl, fun _ => rfl⟩
          · intro used hused
            exact vf_buf_pool_deinit.spec (used_held hheld hpool (by omega) hused)

/-- There is no memory for the second slot of two. The condition variable is left. -/
theorem a_failed_init_keeps_its_condition_variable :
    ¬ AllOrNothing (fun r => r ≠ .data 1) (some ⟨640, 480, .VF_PIXEL_FMT_NV12⟩) 2
      (Mem.start (buf_pool.zeroed ()) fun _ => framebuffer.zeroed) := by
  rintro ⟨err, m, hrun, herr, -⟩
  have hfail : (buf_pool.alloc_slots
      (answer (fun r => r ≠ .data 1) ⟨640, 480, .VF_PIXEL_FMT_NV12⟩) 0 2).1 ≠ .VF_SUCCESS := by
    rw [ne_eq, alloc_slots_success]
    intro h
    have hone := (answer_success _ _ 1).mp (h 1 (by decide) (by decide))
    exact absurd hone.2.2.2 (by decide)
  obtain ⟨m', hinit, -, hlive⟩ := init_without_slot (buf_pool.zeroed ())
    (fun _ => framebuffer.zeroed) (by decide) (by decide) (by decide) hfail
  rw [hinit] at hrun
  cases hrun
  exact (herr hfail).1 .slot_available ((hlive _).mpr rfl)

end vision_flow.pool_memory
