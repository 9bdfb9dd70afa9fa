-- The references of the stream provider (vf-stream-provider-unit.c), for any number of
-- consumers that its init accepts. It counts a frame once for each consumer, but hands it
-- on once, so that the count comes back to 0 just with one consumer.
import VisionFlow.Units
import VisionFlow.Lib.Runs

namespace vision_flow.stream_references

open programs units runs
open buf_pool (vf_buf_pool_t)

/-! ## The unit -/

def VF_STREAM_PROVIDER_MAX_CONSUMERS : Nat := 4

structure vf_stream_provider_cfg_t where
  consumer_count : Nat
  src_pool : Option PoolId

structure vf_stream_provider_data_t where
  consumer_count : Nat
  src_pool : Option PoolId
  current_fb : Option Frame

/-- `calloc_ok` says if the allocation succeeds. -/
def vf_stream_provider_unit_init (cfg : vf_stream_provider_cfg_t) (calloc_ok : Bool) :
    Except vf_err_t vf_stream_provider_data_t :=
  if cfg.consumer_count = 0 ∨ cfg.consumer_count > VF_STREAM_PROVIDER_MAX_CONSUMERS then
    .error .VF_INVALID_PARAMETER
  else if cfg.src_pool = none then
    .error .VF_INVALID_PARAMETER
  else if !calloc_ok then
    .error .VF_OOM
  else
    .ok ⟨cfg.consumer_count, cfg.src_pool, none⟩

/-- The queues of the unit. `connected` says if it has an `out_queue`. -/
def provider_unit (connected : Bool) : vf_unit_t :=
  ⟨some .queue0, if connected then some .queue1 else none⟩

/-- A run of the unit. -/
def provider_run (connected : Bool) (data : vf_stream_provider_data_t) : Code vf_err_t :=
  vf_unit_run (vf_stream_provider_unit_get_data (provider_unit connected) data.consumer_count)
    vf_stream_provider_unit_process_data
    (vf_stream_provider_unit_send_data (provider_unit connected) data.src_pool)

/-- What the unit behind does with each frame: one `vf_framebuffer_unref`. -/
def consumer_run (src_pool : Option PoolId) : Code vf_err_t := do
  let err ← pop_blocking .queue1 .in_fb
  if err ≠ .VF_SUCCESS then
    return err
  vf_framebuffer_unref .in_fb src_pool

/-! ## Steps -/

inductive Who
  | provider
  | consumer
  deriving DecidableEq

/-- `pc` is what is left of a thread's run, or `none` between two runs. The last three fields
are history: the frame that a thread popped and neither passed on nor released in this run,
and how often the provider popped a frame, and the two threads released it. -/
structure St where
  pool : vf_buf_pool_t PoolId
  ref : Frame → Nat
  queue : QueueId → List Frame
  ptr : Who → Option Frame
  pc : Who → Option (Code vf_err_t)
  holds : Who → Option Frame
  popped : Frame → Nat
  released : Frame → Nat

def St.init (pool : vf_buf_pool_t PoolId) : St :=
  { pool := pool, ref := fun _ => 0, queue := fun _ => [], ptr := fun _ => none
    pc := fun _ => none, holds := fun _ => none, popped := fun _ => 0, released := fun _ => 0 }

/-- A thread's pointer, and the frame that it holds from now on. -/
def St.point (s : St) (w : Who) (ptr holds : Option Frame) : St :=
  { s with ptr := Function.update s.ptr w ptr, holds := Function.update s.holds w holds }

def St.set_ref (s : St) (f : Frame) (n : Nat) : St :=
  { s with ref := Function.update s.ref f n }

/-- A command of a thread. `err` is the result of a queue's operation, whatever the reason.
`none`: the thread waits, or the command is no command of the two. -/
def act (s : St) (w : Who) (err : vf_err_t) : (c : UnitCmd) → Option (c.Res × St)
  | .initialized => some (true, s)
  | .load _ => some (s.ptr w, s)
  | .set_null _ => some ((), s.point w none (s.holds w))
  | .pop_blocking q _ =>
    if err = .VF_SUCCESS then
      match s.queue q with
      | [] => none
      | f :: rest =>
        let s := { s with queue := Function.update s.queue q rest }
        let s := s.point w (some f) (some f)
        some (.VF_SUCCESS, if w = .provider then
          { s with popped := Function.update s.popped f (s.popped f + 1) } else s)
    else some (err, s.point w none (s.holds w))
  | .push q _ =>
    match s.ptr w with
    | none => some (.VF_INVALID_PARAMETER, s)
    | some f =>
      if err = .VF_SUCCESS then
        some (.VF_SUCCESS, { s with queue := Function.update s.queue q (s.queue q ++ [f]) }.point
          w (some f) none)
      else some (err, s)
  | .fetch_add _ =>
    match s.ptr w with
    | none => some (none, s)
    | some f => some (some (s.ref f), s.set_ref f (u32 (s.ref f + 1)))
  | .fetch_sub _ =>
    match s.ptr w with
    | none => some (none, s)
    | some f => some (some (s.ref f), s.set_ref f (u32_sub (s.ref f) 1))
  | .release _ _ =>
    match s.ptr w with
    | none => some (.VF_INVALID_PARAMETER, s)
    | some f =>
      let (err, pool, _) := buf_pool.vf_buf_pool_release s.pool (some f)
      some (err, { s with
        pool := pool, released := Function.update s.released f (s.released f + 1) }.point
          w (some f) none)
  | _ => none

inductive Act
  /-- The unit before takes a slot of the pool and pushes it. -/
  | feed
  /-- A thread goes on. -/
  | go (w : Who) (err : vf_err_t)

def St.code (connected : Bool) (data : vf_stream_provider_data_t) : Who → Code vf_err_t
  | .provider => provider_run connected data
  | .consumer => consumer_run data.src_pool

/-- `none`: the step does not happen in this state. -/
def step (connected : Bool) (data : vf_stream_provider_data_t) (s : St) : Act → Option St
  | .feed =>
    match buf_pool.vf_buf_pool_acquire s.pool none with
    | (_, some f, pool) => some { s with
        pool := pool, queue := Function.update s.queue .queue0 (s.queue .queue0 ++ [f]) }
    | (_, none, _) => none
  | .go w err =>
    match s.pc w with
    | none => some { s with pc := Function.update s.pc w (some (St.code connected data w)) }
    | some (.ret _) => some { s.point w (s.ptr w) none with pc := Function.update s.pc w none }
    | some (.op c k) =>
      (act s w err c).map fun r => { r.2 with pc := Function.update r.2.pc w (some (k r.1)) }

/-! ## Balance -/

/-- How many hold the frame since the provider popped it: a thread, or the output queue. -/
def pending (s : St) (f : Frame) : Nat :=
  (s.queue .queue1).count f + (if s.holds .provider = some f then 1 else 0) +
    (if s.holds .consumer = some f then 1 else 0)

/-- Each frame that the provider popped is pending, or was released once and counts 0. -/
def Balanced (s : St) : Prop :=
  ∀ f, pending s f ≤ 1 ∧ s.popped f = s.released f + pending s f ∧ (pending s f = 0 → s.ref f = 0)

/-! ## A thread's view, for one consumer -/

/-- The thread's pointer, and the frame that it holds with its reference count. -/
structure View where
  ptr : Option Frame
  own : Option (Frame × Nat)

def view (s : St) (w : Who) : View := ⟨s.ptr w, (s.holds w).map fun f => (f, s.ref f)⟩

/-- Where a thread pops its frames, and what they count there. -/
def Who.input : Who → QueueId × Nat
  | .provider => (.queue0, 0)
  | .consumer => (.queue1, 1)

/-- The command is one that the thread may do, and each outcome of it leads to `Q`. -/
def Does (w : Who) : (c : UnitCmd) → (c.Res → View → Prop) → View → Prop
  | .initialized, Q, v => Q true v
  | .load _, Q, v => Q v.ptr v
  | .set_null _, Q, v => Q () { v with ptr := none }
  | .pop_blocking q _, Q, v =>
    q = w.input.1 ∧ v.own = none ∧
      (∀ f, Q .VF_SUCCESS ⟨some f, some (f, w.input.2)⟩) ∧
      ∀ err, err ≠ .VF_SUCCESS → Q err ⟨none, none⟩
  | .push q _, Q, v =>
    w = .provider ∧ q = .queue1 ∧ ∃ f, v = ⟨some f, some (f, 1)⟩ ∧
      Q .VF_SUCCESS ⟨some f, none⟩ ∧ ∀ err, err ≠ .VF_SUCCESS → Q err v
  | .fetch_add _, Q, v =>
    ∃ f n, v = ⟨some f, some (f, n)⟩ ∧ Q (some n) ⟨some f, some (f, u32 (n + 1))⟩
  | .fetch_sub _, Q, v =>
    ∃ f n, v = ⟨some f, some (f, n)⟩ ∧ Q (some n) ⟨some f, some (f, u32_sub n 1)⟩
  | .release _ _, Q, v =>
    ∃ f, v = ⟨some f, some (f, 0)⟩ ∧ Q .VF_SUCCESS ⟨some f, none⟩
  | _, _, _ => False

/-- The thread holds no frame. -/
def EmptyHanded (_ : vf_err_t) (v : View) : Prop := v.own = none

theorem unref_one {w : Who} {p : Field} {pool : PoolId} {f : Frame}
    {Q : vf_err_t → View → Prop} (hQ : Q .VF_SUCCESS ⟨some f, none⟩) :
    wp (Does w) (vf_framebuffer_unref p (some pool)) Q ⟨some f, some (f, 1)⟩ := by
  have hzero : u32_sub 1 1 = 0 := u32_sub_of_le (Nat.le_refl 1) (by decide)
  unfold vf_framebuffer_unref
  simp only [wp_bind, wp_perform, Does]
  refine ⟨f, 1, rfl, ?_⟩
  simp only [one_ne_zero, if_false, if_true, hzero]
  exact ⟨f, rfl, hQ⟩

theorem consumer_runs {v : View} (h : v.own = none) (pool : PoolId) :
    wp (Does .consumer) (consumer_run (some pool)) EmptyHanded v := by
  unfold consumer_run
  simp only [wp_bind, wp_ite, wp_pure, wp_perform, Does]
  refine ⟨rfl, h, fun f => ?_, fun err herr => ?_⟩
  · rw [if_neg (by decide)]
    exact unref_one rfl
  · rw [if_pos herr]
    rfl

theorem send_data_runs (connected : Bool) (pool : PoolId) (f : Frame) :
    wp (Does .provider)
      (vf_stream_provider_unit_send_data (provider_unit connected) (some pool)) EmptyHanded
      ⟨some f, some (f, 1)⟩ := by
  unfold vf_stream_provider_unit_send_data
  simp only [wp_bind, wp_ite, wp_pure, wp_perform, Does, reduceCtorEq, if_false]
  rcases connected with _ | _
  · simp only [provider_unit, Bool.false_eq_true, if_false, if_true]
    exact unref_one rfl
  · simp only [provider_unit, if_true, reduceCtorEq, if_false, push, wp_perform, Does]
    refine ⟨trivial, trivial, f, rfl, ?_, fun err herr => ?_⟩
    · rw [if_neg (by decide)]
      rfl
    · rw [if_pos herr]
      exact unref_one rfl

theorem provider_runs {v : View} (h : v.own = none) (connected : Bool)
    {data : vf_stream_provider_data_t} (hcount : data.consumer_count = 1) {pool : PoolId}
    (hpool : data.src_pool = some pool) :
    wp (Does .provider) (provider_run connected data) EmptyHanded v := by
  unfold provider_run vf_unit_run vf_stream_provider_unit_get_data
    vf_stream_provider_unit_process_data
  rw [hcount, hpool]
  simp only [wp_bind, wp_ite, wp_pure, wp_perform, Does, Bool.not_true, Bool.false_eq_true,
    if_false, provider_unit, ref_each, vf_framebuffer_ref]
  refine ⟨rfl, h, fun f => ?_, fun err herr => ?_⟩
  · simp only [ne_eq, not_true_eq_false, if_false, Who.input]
    refine ⟨f, 0, rfl, ?_⟩
    have hend : (fun err L => if err ≠ vf_err_t.VF_SUCCESS then EmptyHanded err L
        else EmptyHanded .VF_SUCCESS L) = EmptyHanded := by
      funext err L
      simp [EmptyHanded]
    have hsend := send_data_runs connected pool f
    simp only [ne_eq] at hend
    rw [hend]
    exact hsend
  · simp only [herr, ne_eq, not_false_eq_true, if_true]
    rfl

/-! ## The invariant -/

/-- How many places hold the frame. -/
def places (s : St) (f : Frame) : Nat := (s.queue .queue0).count f + pending s f

structure Core (s : St) : Prop where
  accounted : buf_pool.Accounted s.pool
  place : ∀ f, places s f ≤ 1
  used : ∀ f, places s f ≠ 0 → f.pool = s.pool.self ∧ f.idx ∈ buf_pool.held s.pool
  waiting : ∀ f ∈ s.queue .queue0, s.ref f = 0
  sent : ∀ f ∈ s.queue .queue1, s.ref f = 1
  rest : ∀ f, places s f = 0 → s.ref f = 0
  count : ∀ f, s.popped f = s.released f + pending s f

/-- What is left of a thread's run fits its view. -/
def Fits (s : St) (w : Who) : Prop :=
  match s.pc w with
  | none => s.holds w = none
  | some p => wp (Does w) p EmptyHanded (view s w)

structure Inv (s : St) : Prop where
  core : Core s
  fits : ∀ w, Fits s w

theorem Core.balanced {s : St} (h : Core s) : Balanced s := by
  intro f
  have hplace := h.place f
  unfold places at hplace
  refine ⟨by omega, h.count f, fun hp => ?_⟩
  by_cases hq : f ∈ s.queue .queue0
  · exact h.waiting f hq
  · apply h.rest f
    unfold places
    rw [hp, List.count_eq_zero_of_not_mem hq]

/-- A frame that a thread holds is in no other place. -/
theorem Core.alone {s : St} (h : Core s) {w : Who} {f : Frame} (hw : s.holds w = some f) :
    f ∉ s.queue .queue0 ∧ f ∉ s.queue .queue1 ∧ (∀ v, v ≠ w → s.holds v ≠ some f) ∧
      places s f = 1 := by
  have hplace := h.place f
  unfold places pending at hplace
  have h0 : f ∈ s.queue .queue0 → 1 ≤ (s.queue .queue0).count f := List.one_le_count_iff.mpr
  have h1 : f ∈ s.queue .queue1 → 1 ≤ (s.queue .queue1).count f := List.one_le_count_iff.mpr
  have hone : 1 ≤ places s f := by
    unfold places pending
    cases w <;> simp only [hw, if_true] <;> omega
  have hle := h.place f
  refine ⟨fun hm => ?_, fun hm => ?_, fun v hv hvf => ?_, by omega⟩
  · have := h0 hm
    cases w <;> simp only [hw, if_true] at hplace <;> omega
  · have := h1 hm
    cases w <;> simp only [hw, if_true] at hplace <;> omega
  · cases w <;> cases v <;> simp_all <;> omega

/-- Frames change their places, but not in number, and their counts stay. -/
theorem Core.moved {s t : St} (h : Core s) (hpool : t.pool = s.pool) (href : t.ref = s.ref)
    (hplaces : ∀ f, places t f = places s f) (hwaiting : ∀ f ∈ t.queue .queue0, s.ref f = 0)
    (hsent : ∀ f ∈ t.queue .queue1, s.ref f = 1)
    (hcount : ∀ f, t.popped f = t.released f + pending t f) : Core t := by
  refine ⟨hpool ▸ h.accounted, fun f => ?_, fun f hf => ?_, href ▸ hwaiting, href ▸ hsent,
    fun f hf => ?_, hcount⟩
  · rw [hplaces]
    exact h.place f
  · rw [hplaces] at hf
    rw [hpool]
    exact h.used f hf
  · rw [hplaces] at hf
    rw [href]
    exact h.rest f hf

/-- Two states that agree on all but the threads. -/
theorem Core.congr {s t : St} (h : Core s) (hpool : t.pool = s.pool) (href : t.ref = s.ref)
    (hqueue : t.queue = s.queue) (hholds : t.holds = s.holds) (hpopped : t.popped = s.popped)
    (hreleased : t.released = s.released) : Core t := by
  have hpending : pending t = pending s := by
    unfold pending
    rw [hqueue, hholds]
  have hplaces : places t = places s := by
    unfold places
    rw [hqueue, hpending]
  apply h.moved hpool href (congrFun hplaces)
  · rw [hqueue]
    exact h.waiting
  · rw [hqueue]
    exact h.sent
  · rw [hpopped, hreleased, hpending]
    exact h.count

/-- A thread with no frame takes one. -/
theorem pending_taken {s : St} {w : Who} (hw : s.holds w = none) (ptr : Option Frame)
    (f g : Frame) :
    pending (s.point w ptr (some f)) g = (if g = f then 1 else 0) + pending s g := by
  have hcomm : f = g ↔ g = f := eq_comm
  cases w <;> simp [pending, St.point, hw, hcomm] <;> omega

/-- A thread lets go of its frame. -/
theorem pending_dropped {s : St} {w : Who} {f : Frame} (hw : s.holds w = some f)
    (ptr : Option Frame) (g : Frame) :
    pending s g = (if g = f then 1 else 0) + pending (s.point w ptr none) g := by
  have hcomm : f = g ↔ g = f := eq_comm
  cases w <;> simp [pending, St.point, hw, hcomm] <;> omega

theorem view_holds {s : St} {w : Who} {f : Frame} {n : Nat}
    (h : view s w = ⟨some f, some (f, n)⟩) :
    s.ptr w = some f ∧ s.holds w = some f ∧ s.ref f = n := by
  have hptr : s.ptr w = some f := congrArg View.ptr h
  have hown : (s.holds w).map (fun f => (f, s.ref f)) = some (f, n) := congrArg View.own h
  obtain ⟨g, hg, hgf⟩ := Option.map_eq_some_iff.mp hown
  obtain ⟨rfl, hn⟩ := Prod.mk.inj hgf
  exact ⟨hptr, hg, hn⟩

/-- What a command of a thread keeps, and what it does to the two views. -/
def Kept (w : Who) (t s' : St) (v : View) : Prop :=
  Core s' ∧ view s' w = v ∧ (∀ x, x ≠ w → view s' x = view t x) ∧ s'.pc = t.pc

theorem point_none_kept {s : St} (h : Core s) (w : Who) :
    Kept w s (s.point w none (s.holds w)) { view s w with ptr := none } := by
  have hholds : (s.point w none (s.holds w)).holds = s.holds := Function.update_eq_self w s.holds
  refine ⟨h.congr rfl rfl rfl hholds rfl rfl, ?_, fun x hx => ?_, rfl⟩
  · simp [view, St.point]
  · simp [view, St.point, hx]

/-- The count of a frame that a thread holds changes. -/
theorem set_ref_kept {s : St} (h : Core s) {w : Who} {f : Frame} (hptr : s.ptr w = some f)
    (hw : s.holds w = some f) (n : Nat) :
    Kept w s (s.set_ref f n) ⟨some f, some (f, n)⟩ := by
  obtain ⟨h0, h1, hothers, hone⟩ := h.alone hw
  have hpending : pending (s.set_ref f n) = pending s := rfl
  have hplaces : places (s.set_ref f n) = places s := rfl
  have hother : ∀ g, g ≠ f → (s.set_ref f n).ref g = s.ref g := fun g hg => by
    simp [St.set_ref, hg]
  refine ⟨⟨h.accounted, h.place, h.used, ?_, ?_, ?_, h.count⟩, ?_, fun x hx => ?_, rfl⟩
  · intro g hg
    rw [hother g fun he => h0 (he ▸ hg)]
    exact h.waiting g hg
  · intro g hg
    rw [hother g fun he => h1 (he ▸ hg)]
    exact h.sent g hg
  · intro g hg
    rw [hplaces] at hg
    rw [hother g fun he => by rw [he, hone] at hg; cases hg]
    exact h.rest g hg
  · simp [view, St.set_ref, hptr, hw]
  · unfold view
    have hsame : (s.holds x).map (fun g => (g, (s.set_ref f n).ref g)) =
        (s.holds x).map fun g => (g, s.ref g) := by
      rcases hg : s.holds x with _ | g
      · rfl
      · have hgf : g ≠ f := fun he => hothers x hx (he ▸ hg)
        simp [hother g hgf]
    exact congrArg (View.mk (s.ptr x)) hsame

/-- The provider takes a frame that waits. -/
theorem provider_pop_kept {s : St} (h : Core s) (hw : s.holds .provider = none) {f : Frame}
    {rest : List Frame} (hq : s.queue .queue0 = f :: rest) :
    Kept .provider s
      { { s with queue := Function.update s.queue .queue0 rest }.point .provider (some f) (some f)
        with popped := Function.update s.popped f (s.popped f + 1) }
      ⟨some f, some (f, 0)⟩ := by
  have href : s.ref f = 0 := h.waiting f (by simp [hq])
  generalize hs' : ({ { s with queue := Function.update s.queue .queue0 rest }.point .provider
    (some f) (some f) with popped := Function.update s.popped f (s.popped f + 1) } : St) = s'
  have hpending : ∀ g, pending s' g = (if g = f then 1 else 0) + pending s g := by
    subst hs'
    exact pending_taken (w := .provider) hw (some f) f
  have hplaces : ∀ g, places s' g = places s g := by
    intro g
    unfold places
    rw [hpending g, hq, List.count_cons]
    subst hs'
    simp only [St.point, Function.update_self, beq_iff_eq, eq_comm (a := f)]
    omega
  subst hs'
  refine ⟨h.moved rfl rfl hplaces (fun g hg => ?_) (fun g hg => ?_) fun g => ?_, ?_,
    fun x hx => ?_, rfl⟩
  · apply h.waiting g
    rw [hq]
    simp only [St.point, Function.update_self] at hg
    exact List.mem_cons_of_mem f hg
  · exact h.sent g (by simpa [St.point] using hg)
  · rw [hpending g]
    have := h.count g
    by_cases hg : g = f
    · subst hg
      simp only [St.point, Function.update_self, if_true]
      omega
    · simp only [St.point, Function.update_of_ne hg, hg, if_false]
      omega
  · simp [view, St.point, href]
  · simp [view, St.point, hx]

/-- The consumer takes a frame that was sent. -/
theorem consumer_pop_kept {s : St} (h : Core s) (hw : s.holds .consumer = none) {f : Frame}
    {rest : List Frame} (hq : s.queue .queue1 = f :: rest) :
    Kept .consumer s
      ({ s with queue := Function.update s.queue .queue1 rest }.point .consumer (some f) (some f))
      ⟨some f, some (f, 1)⟩ := by
  have href : s.ref f = 1 := h.sent f (by simp [hq])
  have hpending : ∀ g, pending ({ s with queue := Function.update s.queue .queue1 rest }.point
      .consumer (some f) (some f)) g = pending s g := by
    intro g
    have htaken := pending_taken (s := { s with queue := Function.update s.queue .queue1 rest }) hw
    rw [htaken (some f) f g]
    simp only [pending, hq, Function.update_self, List.count_cons, beq_iff_eq, eq_comm (a := f)]
    omega
  refine ⟨h.moved rfl rfl (fun g => ?_) (fun g hg => ?_) (fun g hg => ?_) fun g => ?_, ?_,
    fun x hx => ?_, rfl⟩
  · unfold places
    rw [hpending g]
    simp [St.point]
  · exact h.waiting g (by simpa [St.point] using hg)
  · apply h.sent g
    rw [hq]
    simp only [St.point, Function.update_self] at hg
    exact List.mem_cons_of_mem f hg
  · rw [hpending g]
    exact h.count g
  · simp [view, St.point, href]
  · simp [view, St.point, hx]

/-- The provider hands its frame on. -/
theorem push_kept {s : St} (h : Core s) {f : Frame} (hw : s.holds .provider = some f)
    (href : s.ref f = 1) :
    Kept .provider s
      ({ s with queue := Function.update s.queue .queue1 (s.queue .queue1 ++ [f]) }.point .provider
        (some f) none) ⟨some f, none⟩ := by
  have hpending : ∀ g, pending
      ({ s with queue := Function.update s.queue .queue1 (s.queue .queue1 ++ [f]) }.point .provider
        (some f) none) g = pending s g := by
    intro g
    rw [pending_dropped hw (some f) g]
    simp [pending, St.point, List.count_singleton, eq_comm (a := f)]
    omega
  refine ⟨h.moved rfl rfl (fun g => ?_) (fun g hg => ?_) (fun g hg => ?_) fun g => ?_, ?_,
    fun x hx => ?_, rfl⟩
  · unfold places
    rw [hpending g]
    simp [St.point]
  · exact h.waiting g (by simpa [St.point] using hg)
  · simp only [St.point, Function.update_self] at hg
    rcases List.mem_append.mp hg with hg | hg
    · exact h.sent g hg
    · rw [List.mem_singleton.mp hg]
      exact href
  · rw [hpending g]
    exact h.count g
  · simp [view, St.point]
  · simp [view, St.point, hx]

/-- A thread gives its frame back to the pool, when nobody counts it any more. -/
theorem release_kept {s : St} (h : Core s) {w : Who} {f : Frame} (hw : s.holds w = some f)
    (href : s.ref f = 0) :
    (buf_pool.vf_buf_pool_release s.pool (some f)).1 = .VF_SUCCESS ∧
      Kept w s ({ s with
        pool := (buf_pool.vf_buf_pool_release s.pool (some f)).2.1
        released := Function.update s.released f (s.released f + 1) }.point w (some f) none)
        ⟨some f, none⟩ := by
  obtain ⟨h0, h1, hothers, hone⟩ := h.alone hw
  obtain ⟨hself, hheld⟩ := h.used f (by rw [hone]; decide)
  have hf : f = ⟨s.pool.self, f.idx⟩ := by rw [← hself]
  have hrelease := buf_pool.release_held h.accounted hheld
  rw [← hf] at hrelease
  rw [hrelease]
  refine ⟨rfl, ?_⟩
  generalize hs' : ({ s with
    pool := { s.pool with
      in_use := Function.update s.pool.in_use f.idx 0, available := s.pool.available + 1 }
    released := Function.update s.released f (s.released f + 1) } : St).point w (some f) none = s'
  have hpending : ∀ g, pending s g = (if g = f then 1 else 0) + pending s' g := by
    subst hs'
    exact pending_dropped hw (some f)
  have hplaces : ∀ g, places s g = (if g = f then 1 else 0) + places s' g := by
    intro g
    unfold places
    rw [hpending g]
    subst hs'
    simp only [St.point]
    omega
  subst hs'
  refine ⟨⟨buf_pool.accounted_release h.accounted hheld, fun g => ?_, fun g hg => ?_, h.waiting,
    h.sent, fun g hg => ?_, fun g => ?_⟩, ?_, fun x hx => ?_, rfl⟩
  · have := h.place g
    have := hplaces g
    omega
  · have hp := hplaces g
    obtain ⟨hgself, hgheld⟩ := h.used g (by omega)
    obtain ⟨hlt, huse⟩ := buf_pool.mem_held.mp hgheld
    refine ⟨hgself, buf_pool.mem_held.mpr ⟨hlt, ?_⟩⟩
    have hgf : g ≠ f := fun he => by
      subst he
      rw [if_pos rfl] at hp
      omega
    have hidx : g.idx ≠ f.idx := fun he => hgf (by
      cases g
      cases f
      simp_all)
    change Function.update s.pool.in_use f.idx 0 g.idx ≠ 0
    rwa [Function.update_of_ne hidx]
  · by_cases hgf : g = f
    · rw [hgf]
      exact href
    · apply h.rest g
      rw [hplaces g, if_neg hgf, hg]
  · have := h.count g
    have := hpending g
    by_cases hgf : g = f
    · subst hgf
      simp only [St.point, Function.update_self, if_true] at *
      omega
    · simp only [St.point, Function.update_of_ne hgf, hgf, if_false] at *
      omega
  · simp [view, St.point]
  · simp [view, St.point, hx]

/-! ## Steps keep the invariant -/

theorem act.keeps {s s' : St} (h : Core s) {w : Who} {err : vf_err_t} {c : UnitCmd} {r : c.Res}
    {Q : c.Res → View → Prop} (hdoes : Does w c Q (view s w))
    (hact : act s w err c = some (r, s')) :
    Core s' ∧ Q r (view s' w) ∧ (∀ x, x ≠ w → view s' x = view s x) ∧ s'.pc = s.pc := by
  have done : ∀ {t v} {r' : c.Res}, Kept w s t v → Q r' v → (r', t) = (r, s') →
      Core s' ∧ Q r (view s' w) ∧ (∀ x, x ≠ w → view s' x = view s x) ∧ s'.pc = s.pc := by
    rintro t v r' ⟨hcore, hview, hothers, hpc⟩ hQ heq
    obtain ⟨rfl, rfl⟩ := Prod.mk.inj heq
    exact ⟨hcore, hview ▸ hQ, hothers, hpc⟩
  have same : Kept w s s (view s w) := ⟨h, rfl, fun _ _ => rfl, rfl⟩
  cases c with
  | initialized => exact done same hdoes (Option.some.inj hact)
  | load p => exact done same hdoes (Option.some.inj hact)
  | set_null p => exact done (point_none_kept h w) hdoes (Option.some.inj hact)
  | pop_blocking q p =>
    obtain ⟨rfl, hown, hok, hfail⟩ := hdoes
    have hholds : s.holds w = none := Option.map_eq_none_iff.mp hown
    simp only [act] at hact
    by_cases herr : err = .VF_SUCCESS
    · rw [if_pos herr] at hact
      rcases hq : s.queue w.input.1 with _ | ⟨f, rest⟩
      · rw [hq] at hact
        cases hact
      · rw [hq] at hact
        cases w with
        | provider => exact done (provider_pop_kept h hholds hq) (hok f) (Option.some.inj hact)
        | consumer => exact done (consumer_pop_kept h hholds hq) (hok f) (Option.some.inj hact)
    · rw [if_neg herr] at hact
      have hv : ({ view s w with ptr := none } : View) = ⟨none, none⟩ :=
        congrArg (View.mk none) hown
      exact done (point_none_kept h w) (hv ▸ hfail err herr) (Option.some.inj hact)
  | push q p =>
    obtain ⟨rfl, rfl, f, hv, hok, hfail⟩ := hdoes
    obtain ⟨hptr, hholds, href⟩ := view_holds hv
    simp only [act, hptr] at hact
    by_cases herr : err = .VF_SUCCESS
    · rw [if_pos herr] at hact
      exact done (push_kept h hholds href) hok (Option.some.inj hact)
    · rw [if_neg herr] at hact
      exact done same (hfail err herr) (Option.some.inj hact)
  | fetch_add p =>
    obtain ⟨f, n, hv, hQ⟩ := hdoes
    obtain ⟨hptr, hholds, rfl⟩ := view_holds hv
    simp only [act, hptr] at hact
    exact done (set_ref_kept h hptr hholds _) hQ (Option.some.inj hact)
  | fetch_sub p =>
    obtain ⟨f, n, hv, hQ⟩ := hdoes
    obtain ⟨hptr, hholds, rfl⟩ := view_holds hv
    simp only [act, hptr] at hact
    exact done (set_ref_kept h hptr hholds _) hQ (Option.some.inj hact)
  | release pool p =>
    obtain ⟨f, hv, hQ⟩ := hdoes
    obtain ⟨hptr, hholds, href⟩ := view_holds hv
    obtain ⟨hsuccess, hkept⟩ := release_kept h hholds href
    simp only [act, hptr] at hact
    rw [← hsuccess] at hQ
    exact done hkept hQ (Option.some.inj hact)
  | _ => cases hact

/-- The unit before takes a slot that nobody holds. -/
theorem feed_keeps {s : St} (h : Core s) {err : vf_err_t} {f : Frame} {pool : vf_buf_pool_t PoolId}
    (hacquire : buf_pool.vf_buf_pool_acquire s.pool none = (err, some f, pool)) :
    Core { s with
      pool := pool, queue := Function.update s.queue .queue0 (s.queue .queue0 ++ [f]) } := by
  have hinit := h.accounted.initialized
  unfold buf_pool.vf_buf_pool_acquire at hacquire
  rw [if_neg (by simp [hinit])] at hacquire
  by_cases havail : s.pool.available = 0
  · simp [havail] at hacquire
  · rw [if_neg havail] at hacquire
    obtain ⟨i, hi, hfree, hout, huse, hself, hcap, -, hacc⟩ :=
      buf_pool.take_slot.spec h.accounted havail
    obtain ⟨-, htake⟩ := Prod.mk.inj hacquire
    rw [htake] at hout huse hself hcap hacc
    obtain rfl : f = ⟨s.pool.self, i⟩ := Option.some.inj hout
    -- a free slot is in no place
    have hnone : places s ⟨s.pool.self, i⟩ = 0 := by
      by_contra hne
      have := (h.used _ hne).2
      simp [buf_pool.held, hfree] at this
    have hplaces : ∀ g, places { s with
        pool := pool
        queue := Function.update s.queue .queue0 (s.queue .queue0 ++ [⟨s.pool.self, i⟩]) } g =
        (if g = ⟨s.pool.self, i⟩ then 1 else 0) + places s g := by
      intro g
      by_cases hg : g = ⟨s.pool.self, i⟩
      · simp [places, pending, hg]
        omega
      · have hfg : ¬ (⟨s.pool.self, i⟩ : Frame) = g := fun he => hg he.symm
        simp [places, pending, hg, hfg]
    refine ⟨hacc, fun g => ?_, fun g hg => ?_, fun g hg => ?_, h.sent, fun g hg => ?_, h.count⟩
    · rw [hplaces g]
      by_cases hg : g = ⟨s.pool.self, i⟩
      · rw [if_pos hg, hg, hnone]
      · rw [if_neg hg, Nat.zero_add]
        exact h.place g
    · rw [hplaces g] at hg
      change g.pool = pool.self ∧ g.idx ∈ buf_pool.held pool
      rw [hself]
      unfold buf_pool.held
      rw [huse, hcap]
      by_cases hgi : g = ⟨s.pool.self, i⟩
      · subst hgi
        simp [hi]
      · rw [if_neg hgi, Nat.zero_add] at hg
        obtain ⟨hgself, hgheld⟩ := h.used g hg
        have hidx : g.idx ≠ i := fun he => hgi (by
          cases g
          simp_all)
        refine ⟨hgself, ?_⟩
        simpa [buf_pool.held, hidx] using hgheld
    · simp only [Function.update_self] at hg
      rcases List.mem_append.mp hg with hg | hg
      · exact h.waiting g hg
      · rw [List.mem_singleton.mp hg]
        exact h.rest _ hnone
    · rw [hplaces g] at hg
      exact h.rest g (by omega)

theorem Fits.congr {s t : St} {w : Who} (h : Fits s w) (hpc : t.pc w = s.pc w)
    (hview : view t w = view s w) : Fits t w := by
  have hholds : s.holds w = none → t.holds w = none := fun hs => by
    have hown : (t.holds w).map _ = (s.holds w).map _ := congrArg View.own hview
    rw [hs] at hown
    exact Option.map_eq_none_iff.mp hown
  unfold Fits at h ⊢
  rw [hpc, hview]
  rcases hp : s.pc w with _ | p
  · rw [hp] at h
    exact hholds h
  · rw [hp] at h
    exact h

theorem step_keeps {connected : Bool} {data : vf_stream_provider_data_t} {pool : PoolId}
    (hcount : data.consumer_count = 1) (hpool : data.src_pool = some pool) {s s' : St} {a : Act}
    (h : Inv s) (hstep : step connected data s a = some s') : Inv s' := by
  cases a with
  | feed =>
    simp only [step] at hstep
    split at hstep
    · cases hstep
      exact ⟨feed_keeps h.core ‹_›, fun w => (h.fits w).congr rfl rfl⟩
    · cases hstep
  | go w err =>
    have hfits := h.fits w
    unfold Fits at hfits
    simp only [step] at hstep
    rcases hpc : s.pc w with _ | ⟨err' | ⟨c, k⟩⟩
    · -- the thread begins a run
      rw [hpc] at hstep hfits
      cases hstep
      refine ⟨h.core.congr rfl rfl rfl rfl rfl rfl, fun x => ?_⟩
      by_cases hx : x = w
      · subst hx
        have hown : (view s x).own = none := by
          simp only [view, show s.holds x = none from hfits, Option.map_none]
        unfold Fits
        simp only [Function.update_self]
        cases x with
        | provider => exact provider_runs hown connected hcount hpool
        | consumer =>
          unfold St.code
          rw [hpool]
          exact consumer_runs hown pool
      · exact (h.fits x).congr (Function.update_of_ne hx _ _) rfl
    · -- it ends its run, with no frame
      rw [hpc] at hstep hfits
      cases hstep
      have hholds : s.holds w = none := Option.map_eq_none_iff.mp hfits
      have hsame : Function.update s.holds w none = s.holds := by
        rw [← hholds]
        exact Function.update_eq_self w s.holds
      refine ⟨h.core.congr rfl rfl rfl hsame rfl rfl, fun x => ?_⟩
      by_cases hx : x = w
      · subst hx
        unfold Fits
        simp [St.point]
      · exact (h.fits x).congr (Function.update_of_ne hx _ _) (by simp [view, St.point, hx])
    · -- it does a command
      rw [hpc] at hstep hfits
      obtain ⟨⟨r, t⟩, hact, rfl⟩ := Option.map_eq_some_iff.mp hstep
      obtain ⟨hcore, hnext, hothers, hpcs⟩ := act.keeps h.core hfits hact
      refine ⟨hcore.congr rfl rfl rfl rfl rfl rfl, fun x => ?_⟩
      by_cases hx : x = w
      · subst hx
        unfold Fits
        simp only [Function.update_self]
        exact hnext
      · exact (h.fits x).congr (by simp [hx, hpcs]) (hothers x hx)

theorem init_inv {pool : vf_buf_pool_t PoolId} (h : buf_pool.Accounted pool) :
    Inv (St.init pool) := by
  have hplaces : ∀ f, places (St.init pool) f = 0 := fun _ => rfl
  refine ⟨⟨h, fun f => by simp [hplaces f], fun f hf => absurd (hplaces f) hf, ?_, ?_,
    fun _ _ => rfl, fun _ => rfl⟩, fun _ => rfl⟩
  · intro f hf
    cases hf
  · intro f hf
    cases hf

/-! ## The law -/

/-- In a run over a new pool, whatever the queues answer, every frame is balanced. -/
def AlwaysBalanced (data : vf_stream_provider_data_t) : Prop :=
  ∀ (connected : Bool) (pool : vf_buf_pool_t PoolId) (alloc : Nat → vf_err_t)
    (slot_count : Nat) (acts : List Act) (s : St),
    (buf_pool.vf_buf_pool_init pool alloc slot_count true true).1 = .VF_SUCCESS →
    run (step connected data)
      (St.init (buf_pool.vf_buf_pool_init pool alloc slot_count true true).2.1) acts = some s →
    Balanced s

theorem balanced_for_one {data : vf_stream_provider_data_t} {pool : PoolId}
    (hcount : data.consumer_count = 1) (hpool : data.src_pool = some pool) :
    AlwaysBalanced data := by
  intro connected p alloc slot_count acts s hinit hrun
  obtain ⟨-, hmax, hp⟩ := buf_pool.vf_buf_pool_init.spec p alloc slot_count true true hinit
  rw [hp] at hrun
  have hstart := init_inv (buf_pool.fresh_kept p.self slot_count hmax).accounted
  have hend : Inv s := run_keeps (I := Inv) (fun _ _ _ h _ hs => step_keeps hcount hpool h hs)
    hstart (along_true acts) hrun
  exact hend.core.balanced

/-- A frame goes through the provider and then through the consumer. -/
def one_frame (consumer_count : Nat) : List Act :=
  .feed :: (List.replicate (7 + consumer_count) (.go .provider .VF_SUCCESS) ++
    List.replicate 4 (.go .consumer .VF_SUCCESS))

/-- With more consumers the frame is in nobody's hands at the end, and was not released. -/
theorem one_frame_is_kept (data : vf_stream_provider_data_t) (h : 2 ≤ data.consumer_count)
    (h' : data.consumer_count ≤ VF_STREAM_PROVIDER_MAX_CONSUMERS) :
    ∃ s, run (step true data) (St.init (buf_pool.vf_buf_pool_init (buf_pool.zeroed .pool_in)
        (fun _ => .VF_SUCCESS) 1 true true).2.1) (one_frame data.consumer_count) = some s ∧
      s.popped ⟨.pool_in, 0⟩ = 1 ∧ s.released ⟨.pool_in, 0⟩ = 0 ∧
      pending s ⟨.pool_in, 0⟩ = 0 := by
  obtain ⟨count, src_pool, fb⟩ := data
  have hcount : count = 2 ∨ count = 3 ∨ count = 4 := by
    unfold VF_STREAM_PROVIDER_MAX_CONSUMERS at h'
    dsimp only at h h'
    omega
  rcases hcount with rfl | rfl | rfl
  · exact ⟨_, rfl, rfl, rfl, rfl⟩
  · exact ⟨_, rfl, rfl, rfl, rfl⟩
  · exact ⟨_, rfl, rfl, rfl, rfl⟩

theorem unbalanced_for_more {data : vf_stream_provider_data_t} (h : 2 ≤ data.consumer_count)
    (h' : data.consumer_count ≤ VF_STREAM_PROVIDER_MAX_CONSUMERS) : ¬ AlwaysBalanced data := by
  intro hall
  obtain ⟨s, hrun, hpopped, hreleased, hpending⟩ := one_frame_is_kept data h h'
  obtain ⟨-, hcount, -⟩ := hall true _ _ _ _ s rfl hrun ⟨.pool_in, 0⟩
  rw [hpopped, hreleased, hpending] at hcount
  cases hcount

/-- For every consumer count that the init accepts: each frame that the provider pops ends with
the count 0 and is released once, in every run, just if the count is 1. -/
theorem references_balance_just_for_one_consumer (cfg : vf_stream_provider_cfg_t)
    (data : vf_stream_provider_data_t) (h : vf_stream_provider_unit_init cfg true = .ok data) :
    AlwaysBalanced data ↔ cfg.consumer_count = 1 := by
  unfold vf_stream_provider_unit_init at h
  by_cases hbad : cfg.consumer_count = 0 ∨ cfg.consumer_count > VF_STREAM_PROVIDER_MAX_CONSUMERS
  · rw [if_pos hbad] at h
    cases h
  · rw [if_neg hbad] at h
    rcases hpool : cfg.src_pool with _ | pool
    · rw [if_pos hpool] at h
      cases h
    · rw [if_neg (by simp [hpool])] at h
      cases h
      constructor
      · intro hall
        by_contra hne
        refine unbalanced_for_more ?_ ?_ hall <;> dsimp only <;> omega
      · exact fun hone => balanced_for_one hone hpool

theorem the_service_balances_its_references :
    vf_stream_provider_unit_init ⟨1, some .pool_in⟩ true = .ok ⟨1, some .pool_in, none⟩ ∧
      AlwaysBalanced ⟨1, some .pool_in, none⟩ :=
  ⟨rfl, (references_balance_just_for_one_consumer ⟨1, some .pool_in⟩ ⟨1, some .pool_in, none⟩
    rfl).mpr rfl⟩

/-- A provider with two consumers is accepted, and does not release its frames. -/
theorem a_second_consumer_keeps_the_frame :
    vf_stream_provider_unit_init ⟨2, some .pool_in⟩ true = .ok ⟨2, some .pool_in, none⟩ ∧
      ¬ AlwaysBalanced ⟨2, some .pool_in, none⟩ :=
  ⟨rfl, unbalanced_for_more (Nat.le_refl 2) (by decide)⟩

end vision_flow.stream_references
