-- The frames of the camera service. A slot in use is owned by one unit or lies in one
-- queue, its counter is as its place says, and the pictures are in the pipeline in the
-- order in which they came in. Each change of the memory that a command makes keeps this.
import VisionFlow.ConversionMap
import VisionFlow.Lib.Places
import VisionFlow.Service
import VisionFlow.UnitSpecs

namespace vision_flow.service

open programs units places
open buf_pool (vf_buf_pool_t)
open buf_queue (vf_buf_queue_t Fifo Sim)
open framebuffer (vf_framebuffer_t)

/-! ## Queues -/

/-- A ring of 16 frames that holds a list. -/
def Ring (queue : vf_buf_queue_t Frame) : Prop :=
  ∃ f : Fifo Frame, Sim queue f ∧ f.capacity = buf_queue.VF_BUF_QUEUE_MAX_CAPACITY

theorem entries_eq {queue : vf_buf_queue_t Frame} {f : Fifo Frame} (h : Sim queue f) :
    entries queue = f.items := by
  unfold entries
  rw [h.items, List.filterMap_map]
  simp

theorem Ring.initialized {queue : vf_buf_queue_t Frame} (h : Ring queue) :
    queue.initialized = 1 := by
  obtain ⟨f, hsim, -⟩ := h
  exact hsim.initialized

/-- A frame that finds room is the last entry after its push. -/
theorem ring_push {queue : vf_buf_queue_t Frame} (h : Ring queue) (x : Frame)
    (hroom : (entries queue).length < 16) :
    ∃ queue', buf_queue.vf_buf_queue_push queue (some x) = (.VF_SUCCESS, queue') ∧
      Ring queue' ∧ entries queue' = entries queue ++ [x] ∧ queue'.shutdown = queue.shutdown := by
  obtain ⟨f, hsim, hcap⟩ := h
  have hitems := entries_eq hsim
  have hlt : f.items.length < f.capacity := by
    rw [hcap, ← hitems]
    exact hroom
  obtain ⟨herr, hsim'⟩ := buf_queue.vf_buf_queue_push.spec hsim x
  have hpush : f.push x = (.VF_SUCCESS, { f with
      items := f.items ++ [x], fits := by simp; omega }) := by
    simp only [Fifo.push, hlt, dif_pos]
  rw [hpush] at herr hsim'
  refine ⟨_, Prod.ext herr rfl, ⟨_, hsim', hcap⟩, ?_, ?_⟩
  · rw [entries_eq hsim', hitems]
  · rw [hsim'.shutdown, hsim.shutdown]

/-- A blocking pop waits on an empty queue, or says that the queue is shut down, or takes
the first entry. -/
theorem ring_pop {queue : vf_buf_queue_t Frame} (h : Ring queue) (out : Option Frame) :
    (buf_queue.vf_buf_queue_pop_blocking queue out = none ∧ queue.shutdown = false) ∨
      buf_queue.vf_buf_queue_pop_blocking queue out = some (.VF_QUEUE_SHUTDOWN, none, queue) ∨
      ∃ x queue', buf_queue.vf_buf_queue_pop_blocking queue out =
          some (.VF_SUCCESS, some x, queue') ∧
        Ring queue' ∧ entries queue = x :: entries queue' ∧
        queue'.shutdown = queue.shutdown := by
  obtain ⟨f, hsim, hcap⟩ := h
  have hcount := hsim.count
  unfold buf_queue.vf_buf_queue_pop_blocking
  simp only [hsim.initialized, one_ne_zero, if_false]
  rcases hitems : f.items with _ | ⟨x, rest⟩
  · have h0 : queue.count = 0 := by simp [hcount, hitems]
    simp only [h0, if_true]
    cases queue.shutdown <;> simp
  · have h0 : queue.count ≠ 0 := by simp [hcount, hitems]
    have hfit : rest.length ≤ f.capacity := by
      have := f.fits
      rw [hitems, List.length_cons] at this
      omega
    obtain ⟨hout, hsim'⟩ := buf_queue.take_head.spec hsim x rest hitems hfit
    right
    right
    refine ⟨x, (buf_queue.take_head queue).2, ?_, ⟨_, hsim', hcap⟩, ?_, ?_⟩
    · simp only [h0, if_false]
      rw [← hout]
    · rw [entries_eq hsim, entries_eq hsim', hitems]
    · rw [hsim'.shutdown, hsim.shutdown]

/-- The shutdown flag is apart from the entries. -/
theorem ring_flag {queue : vf_buf_queue_t Frame} (h : Ring queue) (b : Bool) :
    Ring { queue with shutdown := b } ∧ entries { queue with shutdown := b } = entries queue := by
  obtain ⟨f, hsim, hcap⟩ := h
  exact ⟨⟨{ f with shutdown := b }, { hsim with shutdown := rfl }, hcap⟩, rfl⟩

/-! ## Pools -/

/-- A blocking acquire waits for a slot, or says that the pool is shut down, or takes a
free slot. -/
theorem pool_acquire {pool : vf_buf_pool_t PoolId} (h : buf_pool.Accounted pool)
    (out : Option Frame) :
    (buf_pool.vf_buf_pool_acquire_blocking pool out = none ∧ pool.shutdown = false) ∨
      buf_pool.vf_buf_pool_acquire_blocking pool out = some (.VF_QUEUE_SHUTDOWN, none, pool) ∨
      ∃ i pool', buf_pool.vf_buf_pool_acquire_blocking pool out =
          some (.VF_SUCCESS, some ⟨pool.self, i⟩, pool') ∧
        buf_pool.Accounted pool' ∧ pool.in_use i = 0 ∧
        pool'.in_use = Function.update pool.in_use i 1 ∧ pool'.self = pool.self ∧
        pool'.capacity = pool.capacity ∧ pool'.shutdown = pool.shutdown := by
  unfold buf_pool.vf_buf_pool_acquire_blocking
  simp only [h.initialized, one_ne_zero, if_false]
  by_cases ha : pool.available = 0
  · simp only [ha, if_true]
    cases pool.shutdown <;> simp
  · obtain ⟨i, -, hfree, hout, huse, hself, hcap, hdown, hacc⟩ :=
      buf_pool.take_slot.spec h ha
    right
    right
    refine ⟨i, (buf_pool.take_slot pool).2, ?_, hacc, hfree, huse, hself, hcap, hdown⟩
    simp only [ha, if_false]
    rw [← hout]

theorem accounted_flag {pool : vf_buf_pool_t PoolId} (h : buf_pool.Accounted pool) (b : Bool) :
    buf_pool.Accounted { pool with shutdown := b } :=
  ⟨h.initialized, h.cap_le, h.flag, h.beyond, h.counter⟩

/-- A slot in use is a slot of its pool. -/
theorem in_use_lt {pool : vf_buf_pool_t PoolId} (h : buf_pool.Accounted pool) {i : Nat}
    (hi : pool.in_use i ≠ 0) : i < pool.capacity := by
  by_contra hge
  exact hi (h.beyond i (by omega))

/-! ## Updates -/

/-- The entries of the queues, with one queue changed. -/
theorem entries_set (g : QueueId → vf_buf_queue_t Frame) (q : QueueId)
    (queue : vf_buf_queue_t Frame) :
    (fun q' => entries (Function.update g q queue q')) =
      Function.update (fun q' => entries (g q')) q (entries queue) :=
  funext (Function.apply_update (fun _ => entries) g q queue)

/-! ## The invariant -/

/-- The flag of a slot: 1 while it is in use. -/
def Mem.in_use (m : Mem) (f : Frame) : Nat := (m.pool f.pool).in_use f.idx

/-- How many units and queue entries hold the frame. -/
def Mem.holders (m : Mem) (f : Frame) : Nat :=
  total m.owned f + total m.dropped f + total (fun q => entries (m.queue q)) f

/-- The pictures in the pipeline, the oldest first: what the file unit carries, queue 2,
what the conversion unit carries, and so on. -/
def Mem.in_flight (m : Mem) : List Nat :=
  (m.carry .file_out).toList ++ m.numbers .queue2 ++ (m.carry .conversion).toList ++
    m.numbers .queue1 ++ (m.carry .stream_provider).toList ++ m.numbers .queue0

/-- The pictures that the camera unit pushed, and the one that it is about to push. -/
def Mem.taken (m : Mem) : List Nat := m.pushed ++ (m.carry .camera).toList

/-- What a unit sees of the memory. -/
def Mem.view (m : Mem) (u : UnitId) : View :=
  ⟨m.ptr u, (m.owned u).map fun f => ⟨f, (m.fb f).ref_count, m.number f⟩, m.carry u⟩

structure Frames (cfg : vf_service_cfg_t) (m : Mem) : Prop where
  supported : conversion.Supported cfg.src_fmt cfg.dst_fmt
  initialized : ∀ o, m.initialized o = true
  accounted : ∀ p, buf_pool.Accounted (m.pool p)
  at_base : ∀ p, (m.pool p).self = p
  ring : ∀ q, Ring (m.queue q)
  holders : ∀ f, m.holders f = m.in_use f
  queued : ∀ q, ∀ f ∈ entries (m.queue q), f.pool = q.pool ∧ (m.fb f).ref_count = q.ref
  dropped : ∀ u, ∀ f ∈ m.dropped u,
    u = .conversion ∧ f.pool = .pool_in ∧ (m.fb f).ref_count = 1
  unused : ∀ f, m.in_use f = 0 → (m.fb f).ref_count = 0
  recorded : ∀ u, ∀ f ∈ m.owned u, ∃ p ∈ u.fields, m.ptr u p = some f
  shaped : ∀ f, f.idx < (m.pool f.pool).capacity →
    (m.fb f).data.isSome ∧ (m.fb f).params = cfg.params f.pool
  conv_ctx : m.conv_ctx = (conversion.vf_conversion_init cfg.src_fmt cfg.dst_fmt).2
  flow : m.consumed ++ m.in_flight = m.before ++ m.pushed
  order : m.taken.Pairwise (· < ·) ∧ ∀ n ∈ m.taken, n < m.captured

/-- What a step of a unit leaves: the invariant, the views of the other units, and the
shutdown flags. -/
structure Kept (cfg : vf_service_cfg_t) (u : UnitId) (m m' : Mem) : Prop where
  frames : Frames cfg m'
  others : ∀ v, v ≠ u → m'.view v = m.view v
  pool_down : ∀ p, (m'.pool p).shutdown = (m.pool p).shutdown
  queue_down : ∀ q, (m'.queue q).shutdown = (m.queue q).shutdown

theorem Kept.refl {cfg : vf_service_cfg_t} {u : UnitId} {m : Mem} (h : Frames cfg m) :
    Kept cfg u m m :=
  ⟨h, fun _ _ => rfl, fun _ => rfl, fun _ => rfl⟩

section
variable {cfg : vf_service_cfg_t} {m : Mem} {u : UnitId} {f : Frame}

theorem Kept.trans {m' m'' : Mem} (h : Kept cfg u m m') (h' : Kept cfg u m' m'') :
    Kept cfg u m m'' :=
  ⟨h'.frames, fun v hv => (h'.others v hv).trans (h.others v hv),
    fun p => (h'.pool_down p).trans (h.pool_down p),
    fun q => (h'.queue_down q).trans (h.queue_down q)⟩

/-! ## One holder -/

theorem Frames.holders_le (h : Frames cfg m) (f : Frame) : m.holders f ≤ 1 := by
  rw [h.holders]
  exact (h.accounted f.pool).flag f.idx

/-- A frame that a unit owns is in use, and nobody else holds it. -/
structure Sole (m : Mem) (u : UnitId) (f : Frame) : Prop where
  used : m.in_use f = 1
  once : (m.owned u).count f = 1
  others : ∀ v, v ≠ u → f ∉ m.owned v
  dropped : ∀ v, f ∉ m.dropped v
  queued : ∀ q, f ∉ entries (m.queue q)

theorem Frames.sole (h : Frames cfg m) (hf : f ∈ m.owned u) : Sole m u f := by
  have h1 := h.holders_le f
  have hpos := List.count_pos_iff.mpr hf
  have hle := count_le_total m.owned u f
  unfold Mem.holders at h1
  refine ⟨?_, by omega, ?_, ?_, ?_⟩
  · rw [← h.holders, Mem.holders]
    omega
  · intro v hv
    exact only_place (by omega) hf hv.symm
  · intro v hv
    have := total_pos hv
    omega
  · intro q hq
    have : 0 < total (fun q => entries (m.queue q)) f := total_pos hq
    omega

/-- A frame in a queue is in use, and nobody else holds it. -/
theorem Frames.queued_alone (h : Frames cfg m) {q : QueueId} (hf : f ∈ entries (m.queue q)) :
    m.in_use f = 1 ∧ (entries (m.queue q)).count f = 1 ∧
      (∀ v, f ∉ m.owned v) ∧ (∀ v, f ∉ m.dropped v) := by
  have h1 := h.holders_le f
  have hpos := List.count_pos_iff.mpr hf
  have hle : (entries (m.queue q)).count f ≤ total (fun q => entries (m.queue q)) f :=
    count_le_total (fun q => entries (m.queue q)) q f
  unfold Mem.holders at h1
  refine ⟨?_, by omega, ?_, ?_⟩
  · rw [← h.holders, Mem.holders]
    omega
  · intro v hv
    have := total_pos hv
    omega
  · intro v hv
    have := total_pos hv
    omega

/-- A free frame is held by nobody. -/
theorem Frames.free_alone (h : Frames cfg m) (hf : m.in_use f = 0) :
    (∀ v, f ∉ m.owned v) ∧ (∀ v, f ∉ m.dropped v) ∧ ∀ q, f ∉ entries (m.queue q) := by
  have h0 : m.holders f = 0 := (h.holders f).trans hf
  unfold Mem.holders at h0
  refine ⟨?_, ?_, ?_⟩
  · intro v hv
    have := total_pos hv
    omega
  · intro v hv
    have := total_pos hv
    omega
  · intro q hq
    have : 0 < total (fun q => entries (m.queue q)) f := total_pos hq
    omega

/-- The frames in a queue and one that a unit is about to push are different slots of one
pool, so there is room in the queue. -/
theorem Frames.room (h : Frames cfg m) {q : QueueId} (hf : f ∈ m.owned u)
    (hp : f.pool = q.pool) : (entries (m.queue q)).length < 16 := by
  have hsole := h.sole hf
  have hnodup : (f :: entries (m.queue q)).Nodup := by
    rw [List.nodup_cons]
    refine ⟨hsole.queued q, List.nodup_iff_count_le_one.mpr fun g => ?_⟩
    by_cases hg : g ∈ entries (m.queue q)
    · exact (h.queued_alone hg).2.1.le
    · rw [List.count_eq_zero_of_not_mem hg]
      exact Nat.zero_le _
  have hpool : ∀ g ∈ f :: entries (m.queue q), g.pool = q.pool ∧ g.idx < 16 := by
    intro g hg
    have hcap : (m.pool g.pool).capacity ≤ 16 := (h.accounted g.pool).cap_le
    rcases List.mem_cons.mp hg with rfl | hg
    · have := in_use_lt (h.accounted g.pool) (i := g.idx) (by
        have := hsole.used
        unfold Mem.in_use at this
        omega)
      exact ⟨hp, by omega⟩
    · have := in_use_lt (h.accounted g.pool) (i := g.idx) (by
        have := (h.queued_alone hg).1
        unfold Mem.in_use at this
        omega)
      exact ⟨(h.queued q g hg).1, by omega⟩
  have hidx : ((f :: entries (m.queue q)).map (·.idx)).Nodup := by
    refine List.Nodup.map_on ?_ hnodup
    intro a ha b hb hab
    have hpa := (hpool a ha).1
    have hpb := (hpool b hb).1
    cases a
    cases b
    simp_all
  have hsub : (f :: entries (m.queue q)).map (·.idx) ⊆ List.range 16 := by
    intro i hi
    obtain ⟨g, hg, rfl⟩ := List.mem_map.mp hi
    exact List.mem_range.mpr (hpool g hg).2
  have hlen := (List.subperm_of_subset hidx hsub).length_le
  simpa using hlen

/-! ## Views -/

theorem mem_cells {x : Cell} (hx : x ∈ (m.view u).cells) :
    x.frame ∈ m.owned u ∧ x.ref = (m.fb x.frame).ref_count ∧ x.number = m.number x.frame := by
  obtain ⟨f, hf, rfl⟩ := List.mem_map.mp hx
  exact ⟨hf, rfl, rfl⟩

theorem cell_mem (hf : f ∈ m.owned u) :
    (⟨f, (m.fb f).ref_count, m.number f⟩ : Cell) ∈ (m.view u).cells :=
  List.mem_map.mpr ⟨f, hf, rfl⟩

theorem view_put (m : Mem) (u : UnitId) (p : Field) (o : Option Frame) :
    (m.put u p o).view u = (m.view u).put p o := by
  simp [Mem.view, Mem.put, View.put]

theorem view_put_of_ne (m : Mem) {u v : UnitId} (hv : v ≠ u) (p : Field) (o : Option Frame) :
    (m.put u p o).view v = m.view v := by
  simp [Mem.view, Mem.put, hv]

/-! ## A pointer set to NULL -/

theorem loose_iff {p : Field} : (m.view u).Loose p ↔ ∀ f ∈ m.owned u, m.ptr u p ≠ some f := by
  constructor
  · intro h f hf
    exact h _ (cell_mem hf)
  · intro h x hx
    exact h _ (mem_cells hx).1

theorem kept_put (h : Frames cfg m) {p : Field} (hl : (m.view u).Loose p) :
    Kept cfg u m (m.put u p none) := by
  refine ⟨{ h with recorded := ?_ }, fun v hv => view_put_of_ne m hv p none, fun _ => rfl,
    fun _ => rfl⟩
  intro v g hg
  obtain ⟨p', hmem, hp'⟩ := h.recorded v g hg
  refine ⟨p', hmem, ?_⟩
  by_cases hv : v = u
  · subst hv
    have hne : p' ≠ p := fun he => loose_iff.mp hl g hg (he ▸ hp')
    simp [Mem.put, hne, hp']
  · simp [Mem.put, hv, hp']

/-! ## A frame of the unit changed -/

/-- The frame is another one, with another picture. -/
def Mem.touch (m : Mem) (f : Frame) (fb : vf_framebuffer_t) (n : Nat) : Mem :=
  { m with fb := Function.update m.fb f fb, number := Function.update m.number f n }

theorem numbers_touch (h : Frames cfg m) (hf : f ∈ m.owned u) (fb : vf_framebuffer_t) (n : Nat)
    (q : QueueId) : (m.touch f fb n).numbers q = m.numbers q := by
  unfold Mem.numbers
  apply List.map_congr_left
  intro g hg
  have hne : g ≠ f := fun he => (h.sole hf).queued q (he ▸ hg)
  simp [Mem.touch, hne]

theorem frames_touch (h : Frames cfg m) (hf : f ∈ m.owned u) (fb : vf_framebuffer_t) (n : Nat)
    (hd : fb.data.isSome) (hp : fb.params = (m.fb f).params) :
    Frames cfg (m.touch f fb n) := by
  have hsole := h.sole hf
  have hnum := numbers_touch h hf fb n
  refine { h with queued := ?_, dropped := ?_, unused := ?_, shaped := ?_, flow := ?_ }
  · intro q g hg
    have hne : g ≠ f := fun he => hsole.queued q (he ▸ hg)
    simpa [Mem.touch, hne] using h.queued q g hg
  · intro v g hg
    have hne : g ≠ f := fun he => hsole.dropped v (he ▸ hg)
    simpa [Mem.touch, hne] using h.dropped v g hg
  · intro g hg
    have hne : g ≠ f := fun he => by
      have := hsole.used
      rw [he] at hg
      unfold Mem.in_use at hg this
      simp only [Mem.touch] at hg
      omega
    simpa [Mem.touch, hne] using h.unused g hg
  · intro g hg
    have hshape := h.shaped g hg
    by_cases hgf : g = f
    · subst hgf
      simp [Mem.touch, hd, hp, hshape.2]
    · simpa [Mem.touch, hgf] using hshape
  · have hflow := h.flow
    unfold Mem.in_flight at hflow ⊢
    simp only [hnum]
    exact hflow

theorem view_touch (m : Mem) (u : UnitId) (f : Frame) (fb : vf_framebuffer_t) (n : Nat) :
    (m.touch f fb n).view u = (m.view u).change f fun _ => ⟨f, fb.ref_count, n⟩ := by
  simp only [Mem.view, View.change, Mem.touch, List.map_map, View.mk.injEq, true_and, and_true]
  apply List.map_congr_left
  intro g _
  by_cases hg : g = f
  · simp [hg]
  · simp [hg]

theorem view_touch_of_ne (h : Frames cfg m) (hf : f ∈ m.owned u) (fb : vf_framebuffer_t) (n : Nat)
    {v : UnitId} (hv : v ≠ u) : (m.touch f fb n).view v = m.view v := by
  simp only [Mem.view, Mem.touch, View.mk.injEq, true_and, and_true]
  apply List.map_congr_left
  intro g hg
  have hne : g ≠ f := fun he => (h.sole hf).others v hv (he ▸ hg)
  simp [hne]

theorem kept_touch (h : Frames cfg m) (hf : f ∈ m.owned u) (fb : vf_framebuffer_t) (n : Nat)
    (hd : fb.data.isSome) (hp : fb.params = (m.fb f).params) :
    Kept cfg u m (m.touch f fb n) :=
  ⟨frames_touch h hf fb n hd hp, fun _ hv => view_touch_of_ne h hf fb n hv, fun _ => rfl,
    fun _ => rfl⟩

/-- The unit does not see the bytes of a frame. -/
theorem view_set_fb (m : Mem) (u : UnitId) (f : Frame) (fb : vf_framebuffer_t)
    (href : fb.ref_count = (m.fb f).ref_count) : (m.set_fb f fb).view u = m.view u := by
  simp only [Mem.view, Mem.set_fb, View.mk.injEq, true_and, and_true]
  apply List.map_congr_left
  intro g _
  by_cases hg : g = f
  · simp [hg, href]
  · simp [hg]

/-- A change of the cell that only looks at the cell of this frame. -/
theorem change_congr {L : View} {g g' : Cell → Cell}
    (h : ∀ x ∈ L.cells, x.frame = f → g x = g' x) : L.change f g = L.change f g' := by
  unfold View.change
  congr 1
  apply List.map_congr_left
  intro x hx
  by_cases hxf : x.frame = f
  · simp [hxf, h x hx hxf]
  · simp [hxf]

/-- A frame of a unit has bytes, and the size and format of its pool. -/
theorem Frames.shape (h : Frames cfg m) (hf : f ∈ m.owned u) :
    (m.fb f).data.isSome ∧ (m.fb f).params = cfg.params f.pool := by
  apply h.shaped f
  apply in_use_lt (h.accounted f.pool)
  have := (h.sole hf).used
  unfold Mem.in_use at this
  omega

/-! ## A pointer forgotten -/

theorem forget_loose {p : Field} (hl : (m.view u).Loose p) : m.forget u p = m.put u p none := by
  have hkeep : (m.owned u).filter (some · ≠ m.ptr u p) = m.owned u := by
    apply List.filter_eq_self.mpr
    intro f hf
    simpa using (loose_iff.mp hl f hf).symm
  have hdrop : (m.owned u).filter (some · = m.ptr u p) = [] := by
    apply List.filter_eq_nil_iff.mpr
    intro f hf
    simpa using (loose_iff.mp hl f hf).symm
  simp only [Mem.forget, hkeep, hdrop, List.nil_append, Function.update_eq_self]
  rfl

theorem view_forget (m : Mem) (u : UnitId) (p : Field) :
    (m.forget u p).view u = (m.view u).forget p := by
  simp only [Mem.view, Mem.forget, Mem.put, View.forget, View.put, Function.update_self,
    List.filter_map, View.mk.injEq, true_and, and_true]
  rfl

theorem count_split (l : List Frame) (o : Option Frame) (g : Frame) :
    (l.filter (some · ≠ o)).count g + (l.filter (some · = o)).count g = l.count g := by
  by_cases hg : some g = o
  · rw [List.count_filter (p := (some · = o)) (by simpa using hg),
      List.count_eq_zero_of_not_mem (l := l.filter (some · ≠ o)) (by simp [hg]), Nat.zero_add]
  · rw [List.count_filter (p := (some · ≠ o)) (by simpa using hg),
      List.count_eq_zero_of_not_mem (l := l.filter (some · = o)) (by simp [hg]), Nat.add_zero]

/-- Only the conversion unit may forget a frame that it owns. -/
theorem kept_forget (h : Frames cfg m) {p : Field}
    (hp : ∀ f ∈ m.owned u, m.ptr u p = some f →
      u = .conversion ∧ f.pool = .pool_in ∧ (m.fb f).ref_count = 1) :
    Kept cfg u m (m.forget u p) := by
  refine ⟨{ h with holders := ?_, dropped := ?_, recorded := ?_ }, ?_, fun _ => rfl, fun _ => rfl⟩
  · intro g
    have hold := h.holders g
    have h1 := total_update m.owned u ((m.owned u).filter (some · ≠ m.ptr u p)) g
    have h2 := total_update m.dropped u
      ((m.owned u).filter (some · = m.ptr u p) ++ m.dropped u) g
    have h3 := count_split (m.owned u) (m.ptr u p) g
    rw [List.count_append] at h2
    unfold Mem.holders at hold ⊢
    have hsame : (m.forget u p).in_use g = m.in_use g := rfl
    rw [hsame, ← hold]
    simp only [Mem.forget, Mem.put] at *
    omega
  · intro v g hg
    by_cases hv : v = u
    · subst hv
      simp only [Mem.forget, Function.update_self, List.mem_append, List.mem_filter,
        decide_eq_true_eq] at hg
      rcases hg with ⟨hg, hpg⟩ | hg
      · exact hp g hg hpg.symm
      · exact h.dropped v g hg
    · simp only [Mem.forget, Function.update_of_ne hv] at hg
      exact h.dropped v g hg
  · intro v g hg
    by_cases hv : v = u
    · subst hv
      simp only [Mem.forget, Function.update_self, List.mem_filter, decide_eq_true_eq] at hg
      obtain ⟨p', hmem, hp'⟩ := h.recorded v g hg.1
      have hne : p' ≠ p := fun he => hg.2 (by rw [← he, hp'])
      exact ⟨p', hmem, by simp [Mem.forget, Mem.put, hne, hp']⟩
    · simp only [Mem.forget, Function.update_of_ne hv] at hg
      obtain ⟨p', hmem, hp'⟩ := h.recorded v g hg
      exact ⟨p', hmem, by simp [Mem.forget, Mem.put, hv, hp']⟩
  · intro v hv
    simp [Mem.view, Mem.forget, Mem.put, hv]

/-! ## A frame taken -/

/-- A pool that is changed in its slots only. -/
theorem pools_set (h : Frames cfg m) {p : PoolId} {pool : vf_buf_pool_t PoolId}
    (hacc : buf_pool.Accounted pool) (hself : pool.self = (m.pool p).self)
    (hcap : pool.capacity = (m.pool p).capacity) :
    ∀ p', buf_pool.Accounted ((m.set_pool p pool).pool p') ∧
      ((m.set_pool p pool).pool p').self = p' ∧
      ((m.set_pool p pool).pool p').capacity = (m.pool p').capacity := by
  intro p'
  by_cases hp : p' = p
  · subst hp
    simpa [Mem.set_pool, hacc, hcap] using hself.trans (h.at_base p')
  · simpa [Mem.set_pool, hp] using ⟨h.accounted p', h.at_base p'⟩

theorem pool_flags_set (m : Mem) {p : PoolId} {pool : vf_buf_pool_t PoolId}
    (hdown : pool.shutdown = (m.pool p).shutdown) (p' : PoolId) :
    ((m.set_pool p pool).pool p').shutdown = (m.pool p').shutdown := by
  by_cases hp : p' = p
  · subst hp
    simpa [Mem.set_pool] using hdown
  · simp [Mem.set_pool, hp]

theorem rings_set (h : Frames cfg m) {q : QueueId} {queue : vf_buf_queue_t Frame}
    (hring : Ring queue) (q' : QueueId) : Ring ((m.set_queue q queue).queue q') := by
  by_cases hq : q' = q
  · subst hq
    simpa [Mem.set_queue] using hring
  · simpa [Mem.set_queue, hq] using h.ring q'

theorem queue_flags_set (m : Mem) {q : QueueId} {queue : vf_buf_queue_t Frame}
    (hdown : queue.shutdown = (m.queue q).shutdown) (q' : QueueId) :
    ((m.set_queue q queue).queue q').shutdown = (m.queue q').shutdown := by
  by_cases hq : q' = q
  · subst hq
    simpa [Mem.set_queue] using hdown
  · simp [Mem.set_queue, hq]

theorem in_use_set_pool (m : Mem) (p : PoolId) {pool : vf_buf_pool_t PoolId} {i v : Nat}
    (huse : pool.in_use = Function.update (m.pool p).in_use i v) (g : Frame) :
    (m.set_pool p pool).in_use g = if g = ⟨p, i⟩ then v else m.in_use g := by
  obtain ⟨gp, gi⟩ := g
  unfold Mem.in_use Mem.set_pool
  by_cases hp : gp = p
  · subst hp
    by_cases hi : gi = i
    · simp [huse, hi]
    · simp [huse, hi]
  · simp [hp]

theorem view_take (m : Mem) (u : UnitId) (fd : Field) (f : Frame) :
    ((m.put u fd (some f)).take u f).view u =
      ((m.view u).put fd (some f)).add ⟨f, (m.fb f).ref_count, m.number f⟩ := by
  simp [Mem.view, Mem.put, Mem.take, View.put, View.add]

/-- What a unit points to, with one more frame that a NULL pointer is set to. -/
theorem recorded_take (h : Frames cfg m) {fd : Field} (hfd : fd ∈ u.fields)
    (hnull : m.ptr u fd = none) (f : Frame) :
    ∀ v, ∀ g ∈ ((m.put u fd (some f)).take u f).owned v,
      ∃ p ∈ v.fields, ((m.put u fd (some f)).take u f).ptr v p = some g := by
  intro v g hg
  by_cases hv : v = u
  · subst hv
    simp only [Mem.take, Mem.put, Function.update_self, List.mem_cons] at hg
    rcases hg with rfl | hg
    · exact ⟨fd, hfd, by simp [Mem.take, Mem.put]⟩
    · obtain ⟨p, hmem, hp⟩ := h.recorded v g hg
      have hne : p ≠ fd := fun he => by simp [← he, hp] at hnull
      exact ⟨p, hmem, by simp [Mem.take, Mem.put, hne, hp]⟩
  · simp only [Mem.take, Mem.put, Function.update_of_ne hv] at hg
    obtain ⟨p, hmem, hp⟩ := h.recorded v g hg
    exact ⟨p, hmem, by simp [Mem.take, Mem.put, hv, hp]⟩

/-- A free slot is taken from its pool. -/
theorem kept_acquire (h : Frames cfg m) {p : PoolId} {fd : Field} {i : Nat}
    {pool : vf_buf_pool_t PoolId} (hfd : fd ∈ u.fields) (hnull : m.ptr u fd = none)
    (hfree : (m.pool p).in_use i = 0)
    (hacc : buf_pool.Accounted pool)
    (huse : pool.in_use = Function.update (m.pool p).in_use i 1)
    (hself : pool.self = (m.pool p).self) (hcap : pool.capacity = (m.pool p).capacity)
    (hdown : pool.shutdown = (m.pool p).shutdown) :
    Kept cfg u m (((m.set_pool p pool).put u fd (some ⟨p, i⟩)).take u ⟨p, i⟩) := by
  have hin : ∀ g, (((m.set_pool p pool).put u fd (some ⟨p, i⟩)).take u ⟨p, i⟩).in_use g =
      if g = ⟨p, i⟩ then 1 else m.in_use g := in_use_set_pool m p huse
  refine ⟨{ h with
    accounted := ?_, at_base := ?_, holders := ?_, unused := ?_
    recorded := recorded_take h hfd hnull _, shaped := ?_ }, ?_, ?_, fun _ => rfl⟩
  · exact fun p' => (pools_set h hacc hself hcap p').1
  · exact fun p' => (pools_set h hacc hself hcap p').2.1
  · intro g
    have hold := h.holders g
    have hmove := total_update m.owned u (⟨p, i⟩ :: m.owned u) g
    rw [List.count_cons] at hmove
    rw [hin]
    unfold Mem.holders at hold ⊢
    simp only [Mem.set_pool, Mem.put, Mem.take]
    by_cases hg : g = ⟨p, i⟩
    · have h0 : m.in_use g = 0 := by rw [hg]; exact hfree
      simp only [hg, beq_self_eq_true, if_true] at *
      omega
    · have hne : ((⟨p, i⟩ : Frame) == g) = false := by simpa using Ne.symm hg
      simp only [hne, hg, Bool.false_eq_true, if_false] at *
      omega
  · intro g hg
    rw [hin] at hg
    split at hg
    · cases hg
    · exact h.unused g hg
  · intro g hg
    exact h.shaped g ((pools_set h hacc hself hcap g.pool).2.2 ▸ hg)
  · intro v hv
    simp [Mem.view, Mem.set_pool, Mem.put, Mem.take, hv]
  · exact pool_flags_set m hdown

/-- The first entry of a unit's queue is taken. -/
theorem kept_pop (h : Frames cfg m) {q : QueueId} {fd : Field} {f : Frame}
    {queue : vf_buf_queue_t Frame} (hfd : fd ∈ u.fields) (hq : u.unit.in_queue = some q)
    (hnull : m.ptr u fd = none) (hcarry : m.carry u = none) (hring : Ring queue)
    (hitems : entries (m.queue q) = f :: entries queue)
    (hdown : queue.shutdown = (m.queue q).shutdown) :
    Kept cfg u m (((m.set_queue q queue).put u fd (some f)).receive u f) := by
  have hent := entries_set m.queue q queue
  have hsub : ∀ q', ∀ g ∈ entries (Function.update m.queue q queue q'),
      g ∈ entries (m.queue q') := by
    intro q' g hg
    by_cases hq' : q' = q
    · subst hq'
      rw [Function.update_self] at hg
      rw [hitems]
      exact List.mem_cons_of_mem _ hg
    · rwa [Function.update_of_ne hq'] at hg
  refine ⟨{ h with
    ring := ?_, holders := ?_, queued := ?_, recorded := recorded_take h hfd hnull _, flow := ?_
    order := ?_ }, ?_, fun _ => rfl, ?_⟩
  · exact rings_set h hring
  · intro g
    have hold := h.holders g
    have hmove := total_update m.owned u (f :: m.owned u) g
    have hleave := total_update (fun q' => entries (m.queue q')) q (entries queue) g
    simp only [hitems, List.count_cons] at hmove hleave
    unfold Mem.holders at hold ⊢
    have hsame : (((m.set_queue q queue).put u fd (some f)).receive u f).in_use g =
        m.in_use g := rfl
    rw [hsame, ← hold]
    simp only [Mem.set_queue, Mem.put, Mem.take, Mem.receive, hent]
    omega
  · intro q' g hg
    exact h.queued q' g (hsub q' g hg)
  · have hflow := h.flow
    have hnum : m.numbers q = m.number f :: (entries queue).map m.number := by
      simp [Mem.numbers, hitems]
    cases u <;> simp only [UnitId.unit, reduceCtorEq, Option.some.injEq] at hq <;> subst hq <;>
      simpa [Mem.in_flight, Mem.numbers, Mem.set_queue, Mem.put, Mem.take, Mem.receive, hcarry,
        hitems] using hflow
  · have horder := h.order
    cases u <;> simp only [UnitId.unit, reduceCtorEq] at hq <;>
      simpa [Mem.taken, Mem.set_queue, Mem.put, Mem.take, Mem.receive] using horder
  · intro v hv
    simp [Mem.view, Mem.set_queue, Mem.put, Mem.take, Mem.receive, hv]
  · exact queue_flags_set m hdown

/-! ## A frame handed on or given back -/

theorem view_part_with (m : Mem) (u : UnitId) (f : Frame) :
    (m.part_with u f).view u = ((m.view u).without f).carrying none := by
  simp only [Mem.view, Mem.part_with, View.without, View.carrying, Function.update_self,
    List.filter_map, View.mk.injEq, true_and, and_true]
  rfl

theorem recorded_part_with (h : Frames cfg m) (f : Frame) :
    ∀ v, ∀ g ∈ (m.part_with u f).owned v, ∃ p ∈ v.fields, (m.part_with u f).ptr v p = some g := by
  intro v g hg
  by_cases hv : v = u
  · subst hv
    simp only [Mem.part_with, Function.update_self, List.mem_filter] at hg
    exact h.recorded v g hg.1
  · simp only [Mem.part_with, Function.update_of_ne hv] at hg
    exact h.recorded v g hg

/-- The frame leaves the unit, and no other frame does. -/
theorem total_part_with (h : Frames cfg m) (hf : f ∈ m.owned u) (g : Frame) :
    total (m.part_with u f).owned g + (if g = f then 1 else 0) = total m.owned g := by
  have hmove := total_update m.owned u ((m.owned u).filter (· ≠ f)) g
  simp only [Mem.part_with]
  by_cases hg : g = f
  · subst hg
    have hone := (h.sole hf).once
    have hnone : ((m.owned u).filter (· ≠ g)).count g = 0 :=
      List.count_eq_zero_of_not_mem (by simp)
    simp only [if_true]
    omega
  · rw [List.count_filter (by simpa using hg)] at hmove
    simp only [hg, if_false]
    omega

/-- The frame is the last entry of the unit's queue. -/
theorem kept_push (h : Frames cfg m) {q : QueueId} {queue : vf_buf_queue_t Frame}
    (hf : f ∈ m.owned u) (hq : u.unit.out_queue = some q) (hpool : f.pool = q.pool)
    (href : (m.fb f).ref_count = q.ref) (hcarry : m.carry u = some (m.number f))
    (hring : Ring queue) (hitems : entries queue = entries (m.queue q) ++ [f])
    (hdown : queue.shutdown = (m.queue q).shutdown) :
    Kept cfg u m ((m.set_queue q queue).hand_on u f) := by
  have hent := entries_set m.queue q queue
  refine ⟨{ h with
    ring := ?_, holders := ?_, queued := ?_, recorded := recorded_part_with h f, flow := ?_
    order := ?_ }, ?_, fun _ => rfl, ?_⟩
  · exact rings_set h hring
  · intro g
    have hold := h.holders g
    have hmove := total_part_with h hf g
    have hcome := total_update (fun q' => entries (m.queue q')) q (entries queue) g
    simp only [hitems, List.count_append, List.count_singleton] at hcome
    unfold Mem.holders at hold ⊢
    have hsame : ((m.set_queue q queue).hand_on u f).in_use g = m.in_use g := rfl
    rw [hsame, ← hold]
    simp only [Mem.set_queue, Mem.hand_on, Mem.part_with, hent] at hmove ⊢
    by_cases hg : g = f
    · simp only [hg, beq_self_eq_true, if_true, hitems] at *
      omega
    · have hne : (f == g) = false := by simpa using Ne.symm hg
      simp only [hne, hg, Bool.false_eq_true, if_false, hitems] at *
      omega
  · intro q' g hg
    by_cases hq' : q' = q
    · subst hq'
      simp only [Mem.set_queue, Mem.hand_on, Mem.part_with, Function.update_self, hitems,
        List.mem_append, List.mem_singleton] at hg
      rcases hg with hg | rfl
      · exact h.queued q' g hg
      · exact ⟨hpool, href⟩
    · simp only [Mem.set_queue, Mem.hand_on, Mem.part_with, Function.update_of_ne hq'] at hg
      exact h.queued q' g hg
  · have hflow := h.flow
    cases u <;> simp only [UnitId.unit, reduceCtorEq, Option.some.injEq] at hq <;> subst hq <;>
      simp [Mem.in_flight, Mem.numbers, Mem.set_queue, Mem.hand_on, Mem.part_with, hcarry,
        hitems] at hflow ⊢
    · rw [← List.append_assoc m.before, ← hflow]
      simp
    · exact hflow
    · exact hflow
  · have horder := h.order
    cases u <;> simpa [Mem.taken, Mem.set_queue, Mem.hand_on, Mem.part_with, hcarry] using horder
  · intro v hv
    simp [Mem.view, Mem.set_queue, Mem.hand_on, Mem.part_with, hv]
  · exact queue_flags_set m hdown

/-- The frame is a free slot of its pool again. -/
theorem kept_release (h : Frames cfg m) {p : PoolId} {pool : vf_buf_pool_t PoolId}
    (hf : f ∈ m.owned u) (hp : f.pool = p) (href : (m.fb f).ref_count = 0)
    (hcarry : m.carry u = if u = .file_out then some (m.number f) else none)
    (hacc : buf_pool.Accounted pool)
    (huse : pool.in_use = Function.update (m.pool p).in_use f.idx 0)
    (hself : pool.self = (m.pool p).self) (hcap : pool.capacity = (m.pool p).capacity)
    (hdown : pool.shutdown = (m.pool p).shutdown) :
    Kept cfg u m ((m.set_pool p pool).give_back u f) := by
  have hfe : (⟨p, f.idx⟩ : Frame) = f := by rw [← hp]
  have hin : ∀ g, ((m.set_pool p pool).give_back u f).in_use g =
      if g = f then 0 else m.in_use g := by
    intro g
    rw [← hfe]
    exact in_use_set_pool m p huse g
  refine ⟨{ h with
    accounted := ?_, at_base := ?_, holders := ?_, unused := ?_
    recorded := recorded_part_with h f, shaped := ?_, flow := ?_, order := ?_ }, ?_, ?_,
    fun _ => rfl⟩
  · exact fun p' => (pools_set h hacc hself hcap p').1
  · exact fun p' => (pools_set h hacc hself hcap p').2.1
  · intro g
    have hold := h.holders g
    have hmove := total_part_with h hf g
    have hone := (h.sole hf).used
    rw [hin]
    unfold Mem.holders at hold ⊢
    simp only [Mem.set_pool, Mem.give_back, Mem.part_with] at hmove ⊢
    by_cases hg : g = f
    · simp only [hg, if_true] at *
      omega
    · simp only [hg, if_false] at *
      omega
  · intro g hg
    rw [hin] at hg
    by_cases hgf : g = f
    · rw [hgf]
      exact href
    · rw [if_neg hgf] at hg
      exact h.unused g hg
  · intro g hg
    exact h.shaped g ((pools_set h hacc hself hcap g.pool).2.2 ▸ hg)
  · have hflow := h.flow
    cases u <;> simpa [Mem.in_flight, Mem.numbers, Mem.set_pool, Mem.give_back, Mem.part_with,
      hcarry] using hflow
  · have horder := h.order
    cases u <;> simpa [Mem.taken, Mem.set_pool, Mem.give_back, Mem.part_with, hcarry] using horder
  · intro v hv
    simp [Mem.view, Mem.set_pool, Mem.give_back, Mem.part_with, hv]
  · exact pool_flags_set m hdown

/-- A picture comes into a frame of the camera unit. -/
theorem kept_capture (h : Frames cfg m) (hu : u = .camera) (hf : f ∈ m.owned u)
    (hcarry : m.carry u = none) {fb : vf_framebuffer_t} (hd : fb.data.isSome)
    (hp : fb.params = (m.fb f).params) :
    Kept cfg u m ((m.set_fb f fb).capture u f) := by
  have ht := frames_touch h hf fb m.captured hd hp
  subst hu
  refine ⟨{ ht with flow := ?_, order := ?_ }, ?_, fun _ => rfl, fun _ => rfl⟩
  · simpa [Mem.in_flight, Mem.numbers, Mem.touch, Mem.set_fb, Mem.capture] using ht.flow
  · have horder := h.order
    simp only [Mem.taken, hcarry, Option.toList_none, List.append_nil] at horder
    simp only [Mem.taken, Mem.set_fb, Mem.capture, Function.update_self, Option.toList_some,
      List.pairwise_append, List.mem_singleton, List.mem_append]
    refine ⟨⟨horder.1, by simp, ?_⟩, ?_⟩
    · rintro n hn _ rfl
      exact horder.2 n hn
    · rintro n (hn | rfl)
      · exact Nat.lt_succ_of_lt (horder.2 n hn)
      · exact Nat.lt_succ_self _
  · intro v hv
    have hview := view_touch_of_ne h hf fb m.captured hv
    simpa [Mem.view, Mem.touch, Mem.set_fb, Mem.capture, hv] using hview

/-! ## Shutdown flags -/

/-- The pool or queue of a condition is shut down. -/
def Mem.down (m : Mem) : Cond → Bool
  | .not_empty q => (m.queue q).shutdown
  | .slot_available p => (m.pool p).shutdown

def Mem.set_down (m : Mem) : Cond → Bool → Mem
  | .not_empty q, b => m.set_queue q { m.queue q with shutdown := b }
  | .slot_available p, b => m.set_pool p { m.pool p with shutdown := b }

/-- The shutdown flag of a pool is apart from the frames. -/
theorem frames_pool_flag (h : Frames cfg m) (p : PoolId) (b : Bool) :
    Frames cfg (m.set_pool p { m.pool p with shutdown := b }) := by
  have hpools := pools_set h (accounted_flag (h.accounted p) b) rfl rfl
  have hsame : ∀ f, (m.set_pool p { m.pool p with shutdown := b }).in_use f = m.in_use f := by
    intro f
    unfold Mem.in_use Mem.set_pool
    by_cases hp : f.pool = p
    · simp [hp]
    · simp [hp]
  refine { h with
    accounted := fun p' => (hpools p').1, at_base := fun p' => (hpools p').2.1, holders := ?_
    unused := ?_, shaped := ?_ }
  · intro f
    rw [hsame]
    exact h.holders f
  · intro f hf
    rw [hsame] at hf
    exact h.unused f hf
  · intro f hf
    exact h.shaped f ((hpools f.pool).2.2 ▸ hf)

/-- The shutdown flag of a queue is apart from the frames. -/
theorem frames_queue_flag (h : Frames cfg m) (q : QueueId) (b : Bool) :
    Frames cfg (m.set_queue q { m.queue q with shutdown := b }) := by
  obtain ⟨hring, hitems⟩ := ring_flag (h.ring q) b
  have hsame : ∀ q', entries ((m.set_queue q { m.queue q with shutdown := b }).queue q') =
      entries (m.queue q') := by
    intro q'
    refine (congrFun (entries_set m.queue q _) q').trans ?_
    rw [hitems, Function.update_eq_self]
  refine { h with ring := rings_set h hring, holders := ?_, queued := ?_, flow := ?_ }
  · intro f
    have hf := h.holders f
    unfold Mem.holders at hf ⊢
    simp only [hsame]
    exact hf
  · intro q' f hf
    exact h.queued q' f (hsame q' ▸ hf)
  · have hflow := h.flow
    unfold Mem.in_flight Mem.numbers at hflow ⊢
    simp only [hsame]
    exact hflow

theorem Frames.set_down (h : Frames cfg m) (on : Cond) (b : Bool) :
    Frames cfg (m.set_down on b) := by
  cases on with
  | not_empty q => exact frames_queue_flag h q b
  | slot_available p => exact frames_pool_flag h p b

theorem view_set_down (m : Mem) (on : Cond) (b : Bool) (u : UnitId) :
    (m.set_down on b).view u = m.view u := by
  cases on <;> rfl

theorem shutdown_pool_flag (m : Mem) (p : PoolId) (b : Bool) :
    (fun p' => ((m.set_pool p { m.pool p with shutdown := b }).pool p').shutdown) =
      Function.update (fun p' => (m.pool p').shutdown) p b := by
  funext p'
  by_cases hp : p' = p
  · subst hp
    simp [Mem.set_pool]
  · simp [Mem.set_pool, hp]

theorem shutdown_queue_flag (m : Mem) (q : QueueId) (b : Bool) :
    (fun q' => ((m.set_queue q { m.queue q with shutdown := b }).queue q').shutdown) =
      Function.update (fun q' => (m.queue q').shutdown) q b := by
  funext q'
  by_cases hq : q' = q
  · subst hq
    simp [Mem.set_queue]
  · simp [Mem.set_queue, hq]

/-- Only the flag of the condition itself is set. -/
theorem down_set_down (m : Mem) (on on' : Cond) (b : Bool) :
    (m.set_down on b).down on' = if on' = on then b else m.down on' := by
  cases on with
  | not_empty q =>
    cases on' with
    | slot_available p => rfl
    | not_empty q' =>
      refine (congrFun (shutdown_queue_flag m q b) q').trans ?_
      by_cases hq : q' = q
      · simp [hq]
      · simp [hq, Mem.down]
  | slot_available p =>
    cases on' with
    | not_empty q => rfl
    | slot_available p' =>
      refine (congrFun (shutdown_pool_flag m p b) p').trans ?_
      by_cases hp : p' = p
      · simp [hp]
      · simp [hp, Mem.down]

end

end vision_flow.service
