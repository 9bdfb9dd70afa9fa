-- Runs of the camera service, from `vf_service_init` on: any number of calls of the
-- controlling thread, and any order of the steps of the threads.
import VisionFlow.Lib.Runs
import VisionFlow.ServiceInvariant

namespace vision_flow.service

open programs units lifecycle places runs
open framebuffer (vf_framebuffer_t vf_fb_params_t)

/-! ## The service after `vf_service_init` -/

section
variable {cfg : vf_service_cfg_t} {m : Mem}

/-- What `vf_service_init` makes: free slots, empty queues and an empty history. -/
structure Made (cfg : vf_service_cfg_t) (m : Mem) : Prop where
  supported : conversion.Supported cfg.src_fmt cfg.dst_fmt
  slots : 1 ≤ cfg.pool_slot_count ∧ cfg.pool_slot_count ≤ buf_pool.VF_BUF_POOL_MAX_SLOTS
  initialized : ∀ o, m.initialized o = true
  pool : ∀ p, m.pool p = { buf_pool.zeroed p with
    capacity := cfg.pool_slot_count, available := cfg.pool_slot_count, initialized := 1 }
  queue : ∀ q, Ring (m.queue q) ∧ entries (m.queue q) = []
  fb : ∀ f, (m.fb f).ref_count = 0 ∧ (f.idx < cfg.pool_slot_count →
    (m.fb f).data.isSome ∧ (m.fb f).params = cfg.params f.pool)
  conv_ctx : m.conv_ctx = (conversion.vf_conversion_init cfg.src_fmt cfg.dst_fmt).2
  ptr : ∀ u p, m.ptr u p = none
  held : ∀ u, m.owned u = [] ∧ m.dropped u = [] ∧ m.carry u = none
  history : m.pushed = [] ∧ m.consumed = [] ∧ m.before = []

theorem vf_service_init.spec (h : vf_service_init cfg = .ok m) : Made cfg m := by
  unfold vf_service_init at h
  simp only at h
  split at h
  · cases h
  · split at h
    · cases h
    · split at h
      · cases h
      · split at h
        · cases h
        · rename_i hin hout _ hconv
          simp only [ne_eq, not_not] at hin hout hconv
          cases h
          obtain ⟨-, hsim⟩ := buf_queue.vf_buf_queue_init.spec (α := Frame) buf_queue.zeroed
            buf_queue.VF_BUF_QUEUE_MAX_CAPACITY (by decide) (Nat.le_refl _)
          have hpool : ∀ p, (buf_pool.vf_buf_pool_init (buf_pool.zeroed p)
              (fun _ => (framebuffer.vf_framebuffer_alloc framebuffer.zeroed (cfg.params p)
                true).1) cfg.pool_slot_count true true).1 = .VF_SUCCESS := by
            intro p
            cases p
            · exact hin
            · exact hout
          have hspec := fun p => buf_pool.vf_buf_pool_init.spec _ _ _ true true (hpool p)
          have hslot := fun p => framebuffer.vf_framebuffer_alloc.made
            (buf_pool.vf_buf_pool_init.first_slot (hpool p))
          refine ⟨?_, ⟨(hspec .pool_in).1, (hspec .pool_in).2.1⟩, fun _ => rfl,
            fun p => (hspec p).2.2, fun _ => ⟨⟨_, hsim, rfl⟩, entries_eq hsim⟩, ?_, rfl,
            fun _ _ => rfl, fun _ => ⟨rfl, rfl, rfl⟩, rfl, rfl, rfl⟩
          · unfold conversion.vf_conversion_init at hconv
            unfold conversion.Supported
            cases hfn : conversion.lookup_convert_fn cfg.src_fmt cfg.dst_fmt with
            | none => simp [hfn] at hconv
            | some fn => rfl
          · intro f
            by_cases hf : f.idx < cfg.pool_slot_count
            · simpa [hf] using ⟨(hslot f.pool).2.2, (hslot f.pool).1, (hslot f.pool).2.1⟩
            · simp [hf, framebuffer.zeroed]

theorem Made.frames (h : Made cfg m) : Frames cfg m := by
  have hfree : ∀ f, m.in_use f = 0 := fun f => by simp [Mem.in_use, h.pool, buf_pool.zeroed]
  refine ⟨h.supported, h.initialized, ?_, ?_, fun q => (h.queue q).1, ?_, ?_, ?_,
    fun f _ => (h.fb f).1, ?_, ?_, h.conv_ctx, ?_, ?_⟩
  · intro p
    rw [h.pool]
    exact (buf_pool.fresh_kept p cfg.pool_slot_count h.slots.2).accounted
  · intro p
    simp [h.pool, buf_pool.zeroed]
  · intro f
    simp [hfree, Mem.holders, total, h.held, h.queue]
  · intro q f hf
    simp [(h.queue q).2] at hf
  · intro u f hf
    simp [(h.held u).2.1] at hf
  · intro u f hf
    simp [(h.held u).1] at hf
  · intro f hf
    rw [h.pool] at hf
    exact (h.fb f).2 hf
  · simp [Mem.in_flight, Mem.numbers, h.held, h.queue, h.history]
  · simp [Mem.taken, h.held, h.history]

theorem Made.inv (h : Made cfg m) : Inv cfg (St.init m) := by
  refine ⟨h.frames, ?_, ?_, by simp [St.init]⟩
  · intro u
    apply UnitOk.gone
    · have hcells : (m.view u).cells = [] := by simp [Mem.view, h.held]
      cases u with
      | conversion => exact ⟨h.ptr .conversion .out_fb, Or.inl hcells⟩
      | _ => exact hcells
    · exact fun _ => (h.held u).2.2
  · intro u _
    simp [St.ctl_view, St.init]

end

/-! ## Runs -/

section
variable {cfg : vf_service_cfg_t} {m : Mem} {s s' t : St} {acts : List Act}

/-- In a run that starts the service only when no unit is running, the invariant holds. -/
theorem run_inv (hinit : vf_service_init cfg = .ok m)
    (hok : Along step StartsStopped (St.init m) acts)
    (hrun : run step (St.init m) acts = some t) : Inv cfg t :=
  run_keeps (fun _ _ _ h hguard hs => h.step hguard hs) (vf_service_init.spec hinit).inv hok hrun

/-! ## What a step leaves alone -/

theorem signal_leaves {on : Option Cond} {wakes : Nat → Bool} (h : s.signal on wakes = some s') :
    s'.running = s.running ∧ s'.calling = s.calling ∧ s'.mem = s.mem := by
  unfold St.signal at h
  split at h
  · cases h
    exact ⟨rfl, rfl, rfl⟩
  · split at h
    · cases h
      exact ⟨rfl, rfl, rfl⟩
    · cases h

/-- A unit sets no running flag, and changes the memory only with a command. -/
theorem worker_leaves {u : UnitId} {th : Thread} {o : Oracle} (h : worker s u th o = some s') :
    s'.running = s.running ∧ s'.calling = s.calling ∧
      (s'.mem = s.mem ∨ ∃ c k, th.pc = some (.op c k) ∧ s'.mem = (exec u o s.mem c).mem) := by
  unfold worker at h
  split at h
  · cases h
  · rcases hpc : th.pc with _ | err | ⟨c, k⟩ <;> simp only [hpc] at h
    · split at h <;> cases h <;> exact ⟨rfl, rfl, Or.inl rfl⟩
    · split at h
      · cases h
        exact ⟨rfl, rfl, Or.inl rfl⟩
      · split at h <;> cases h <;> exact ⟨rfl, rfl, Or.inl rfl⟩
    · cases hexec : exec u o s.mem c with
      | done r m' on =>
        rw [hexec] at h
        simp only at h
        obtain ⟨hrun, hcall, hmem⟩ := signal_leaves h
        exact ⟨hrun, hcall, Or.inr ⟨c, k, rfl, by rw [hmem, hexec]; rfl⟩⟩
      | waits m' on =>
        rw [hexec] at h
        cases h
        exact ⟨rfl, rfl, Or.inr ⟨c, k, rfl, by rw [hexec]; rfl⟩⟩

/-- The controlling thread keeps the history, but for the start of a call. -/
theorem control_leaves {c : CtlCmd UnitId QueueId} {ok : Bool} {r : c.Res × St}
    (h : control s ok c = some r) :
    r.2.mem.before = s.mem.before ∧ r.2.mem.dropped = s.mem.dropped := by
  cases c with
  | pthread_create u =>
    simp only [control] at h
    split at h <;> cases h <;> exact ⟨rfl, rfl⟩
  | pthread_join u =>
    simp only [control] at h
    split at h <;> cases h
    exact ⟨rfl, rfl⟩
  | _ =>
    cases h
    exact ⟨rfl, rfl⟩

theorem call_leaves {c : Call} (h : step s (.call c) = some s') :
    s'.mem = if c.starts then s.begin.mem else s.mem := by
  rcases hcall : s.calling with _ | called
  · simp only [service.step, hcall, Option.some.injEq] at h
    subst h
    split <;> rfl
  · simp [service.step, hcall] at h

/-- What a step does with the frames that were in the queues at the last start, and with
the dropped frames: a unit does a command, or a start begins, or they stay as they are. -/
theorem step_leaves {a : Act} (h : step s a = some s') :
    (∃ u tid o c k, a = .worker u tid o ∧ (∃ th ∈ s.threads u, th.pc = some (.op c k)) ∧
      s'.mem = (exec u o s.mem c).mem) ∨
    (∃ c, a = .call c ∧ c.starts = true ∧ s'.mem = s.begin.mem) ∨
    (s'.mem.before = s.mem.before ∧ s'.mem.dropped = s.mem.dropped) := by
  cases a with
  | worker u tid o =>
    obtain ⟨th, hth, hw⟩ := Option.bind_eq_some_iff.mp h
    obtain ⟨-, -, hmem | ⟨c, k, hpc, hmem⟩⟩ := worker_leaves hw
    · exact Or.inr (Or.inr (by rw [hmem]; exact ⟨rfl, rfl⟩))
    · exact Or.inl ⟨u, tid, o, c, k, rfl, ⟨th, List.mem_of_find?_eq_some hth, hpc⟩, hmem⟩
  | wake_up u tid =>
    obtain ⟨th, -, rfl⟩ := Option.map_eq_some_iff.mp h
    exact Or.inr (Or.inr ⟨rfl, rfl⟩)
  | call c =>
    have hmem := call_leaves h
    by_cases hc : c.starts = true
    · rw [if_pos hc] at hmem
      exact Or.inr (Or.inl ⟨c, rfl, hc, hmem⟩)
    · rw [if_neg hc] at hmem
      exact Or.inr (Or.inr (by rw [hmem]; exact ⟨rfl, rfl⟩))
  | control ok =>
    rcases hcall : s.calling with _ | ⟨c, err | ⟨op, k⟩⟩
    · simp [service.step, hcall] at h
    · simp only [service.step, hcall, Option.some.injEq] at h
      subst h
      exact Or.inr (Or.inr ⟨rfl, rfl⟩)
    · simp only [service.step, hcall] at h
      obtain ⟨r, hr, rfl⟩ := Option.map_eq_some_iff.mp h
      exact Or.inr (Or.inr (control_leaves hr))

/-! ## Starts and stops that alternate -/

/-- `started`: the service is started. A start is called when it is not. -/
def Alternating : Bool → List Act → Prop
  | _, [] => True
  | started, .call c :: rest =>
    (c.starts = true → started = false) ∧
      Alternating (if c.starts then true else if c.stops then false else started) rest
  | started, _ :: rest => Alternating started rest

instance decidable_alternating : (started : Bool) → (acts : List Act) →
    Decidable (Alternating started acts)
  | _, [] => isTrue trivial
  | started, .call c :: rest =>
    have := decidable_alternating
      (if c.starts then true else if c.stops then false else started) rest
    inferInstanceAs (Decidable (_ ∧ _))
  | started, .worker _ _ _ :: rest => decidable_alternating started rest
  | started, .wake_up _ _ :: rest => decidable_alternating started rest
  | started, .control _ :: rest => decidable_alternating started rest

/-- While the service is not started, no unit is running, except in the call that stops
it. -/
structure Halted (s : St) : Prop where
  calling : ∀ c p, s.calling = some (c, p) → c.starts = false
  off : (∀ c p, s.calling = some (c, p) → c.stops = false) → ∀ u, s.running u = false

/-- A call that does not start the service sets no unit running. -/
theorem control_running (h : Inv cfg s) {c : Call} {op : CtlCmd UnitId QueueId}
    {k : op.Res → ServiceCode vf_err_t} {ok : Bool} {r : op.Res × St}
    (hcall : s.calling = some (c, .op op k)) (hr : control s ok op = some r)
    (hstart : c.starts = false) {u : UnitId} (hu : s.running u = false) :
    r.2.running u = false := by
  have hfit := h.calling
  rw [hcall] at hfit
  simp only [CallFits, wp_op] at hfit
  cases op with
  | set_running v b =>
    obtain ⟨hb, -⟩ := hfit
    simp only [control, Option.some.injEq] at hr
    subst hr
    by_cases hv : u = v
    · subst hv
      cases b with
      | false => simp
      | true => simp [hstart] at hb
    · simpa [hv] using hu
  | pthread_create v =>
    simp only [control] at hr
    split at hr <;> cases hr <;> exact hu
  | pthread_join v =>
    simp only [control] at hr
    split at hr <;> cases hr
    exact hu
  | _ =>
    cases hr
    exact hu

/-- One step, with the call that it may begin. -/
theorem Halted.step (h : Inv cfg s) {started : Bool} (hs : started = false → Halted s) {a : Act}
    {rest : List Act} (halt : Alternating started (a :: rest)) (hstep : step s a = some s') :
    StartsStopped s a ∧ ∃ started', Alternating started' rest ∧
      (started' = false → Halted s') := by
  cases a with
  | worker u tid o =>
    refine ⟨trivial, started, halt, fun hst => ?_⟩
    obtain ⟨th, -, hw⟩ := Option.bind_eq_some_iff.mp hstep
    obtain ⟨hrun, hcall, -⟩ := worker_leaves hw
    exact ⟨hcall ▸ (hs hst).calling, hrun ▸ hcall ▸ (hs hst).off⟩
  | wake_up u tid =>
    refine ⟨trivial, started, halt, fun hst => ?_⟩
    obtain ⟨th, -, rfl⟩ := Option.map_eq_some_iff.mp hstep
    exact ⟨(hs hst).calling, (hs hst).off⟩
  | call c =>
    obtain ⟨hnot, halt⟩ := halt
    rcases hcall : s.calling with _ | called
    · simp only [service.step, hcall, Option.some.injEq] at hstep
      have hoff : started = false → ∀ u, s.running u = false :=
        fun hst => (hs hst).off fun c p hc => by simp [hcall] at hc
      refine ⟨fun hc => hoff (hnot hc), _, halt, fun hst => ?_⟩
      subst hstep
      by_cases hc : c.starts = true
      · simp [hc] at hst
      · simp only [Bool.not_eq_true] at hc
        simp only [hc, Bool.false_eq_true, if_false] at hst ⊢
        refine ⟨fun c' p hc' => ?_, fun hstops => ?_⟩
        · cases hc'
          exact hc
        · have hnostop := hstops c _ rfl
          simp only [hnostop, Bool.false_eq_true, if_false] at hst
          exact hoff hst
    · simp [service.step, hcall] at hstep
  | control ok =>
    refine ⟨trivial, started, halt, fun hst => ?_⟩
    rcases hcall : s.calling with _ | ⟨c, err | ⟨op, k⟩⟩
    · simp [service.step, hcall] at hstep
    · -- the end of the call
      simp only [service.step, hcall, Option.some.injEq] at hstep
      subst hstep
      have hfit := h.calling
      rw [hcall] at hfit
      refine ⟨by simp, fun _ => ?_⟩
      cases hstops : c.stops with
      | true => exact hfit.2 hstops
      | false =>
        apply (hs hst).off
        intro c' p hc'
        rw [hcall] at hc'
        cases hc'
        exact hstops
    · simp only [service.step, hcall] at hstep
      obtain ⟨r, hr, rfl⟩ := Option.map_eq_some_iff.mp hstep
      have hstart := (hs hst).calling c _ hcall
      refine ⟨fun c' p hc' => ?_, fun hstops u => ?_⟩
      · cases hc'
        exact hstart
      · have hstops' := hstops c _ rfl
        refine control_running h hcall hr hstart ((hs hst).off ?_ u)
        intro c' p hc'
        rw [hcall] at hc'
        cases hc'
        exact hstops'

/-- Where starts and stops alternate, the service is started only when no unit is
running. -/
theorem alternating_starts_stopped (hinit : vf_service_init cfg = .ok m)
    (halt : Alternating false acts) (hrun : run step (St.init m) acts = some t) :
    Along step StartsStopped (St.init m) acts := by
  have hall : ∀ started s, Inv cfg s → (started = false → Halted s) →
      Alternating started acts → run step s acts = some t → Along step StartsStopped s acts := by
    clear hinit halt hrun
    induction acts with
    | nil => exact fun _ _ _ _ _ _ => trivial
    | cons a rest ih =>
      intro started s h hs halt hrun
      obtain ⟨s', hstep, hrest⟩ := run_cons hrun
      obtain ⟨hguard, started', halt', hs'⟩ := Halted.step h hs halt hstep
      refine ⟨hguard, fun s'' hstep' => ?_⟩
      rw [hstep] at hstep'
      cases hstep'
      exact ih started' s' (h.step hguard hstep) hs' halt' hrest
  apply hall false _ (vf_service_init.spec hinit).inv _ halt hrun
  exact fun _ => ⟨by simp [St.init], fun _ _ => rfl⟩

end

/-! ## A small service -/

/-- Frames of 2×2 pixels, from RGB888 to YUV420P, and one slot for each pool. -/
def small : vf_service_cfg_t := ⟨2, 2, .VF_PIXEL_FMT_RGB888, .VF_PIXEL_FMT_YUV420P, 1⟩

def small_mem : Mem := (vf_service_init small).toOption.get (by decide)

theorem small_init : vf_service_init small = .ok small_mem := rfl

/-- The thread `tid` of the unit takes `n` steps, and nothing fails. -/
def works (u : UnitId) (tid n : Nat) : List Act :=
  List.replicate n (.worker u tid ⟨.VF_SUCCESS, fun _ => 0, fun _ => true⟩)

/-- A call, with `n` steps of the controlling thread. -/
def calls (c : Call) (n : Nat) : List Act := .call c :: List.replicate n (.control true)

/-- What follows the call that starts the service: the first picture comes to its file, and
the second one to the conversion unit. -/
def two_pictures : List Act :=
  List.replicate 20 (.control true) ++ works .camera 0 9 ++ works .stream_provider 1 8 ++
    works .conversion 2 14 ++ works .file_out 3 8 ++ works .camera 0 9 ++
    works .stream_provider 1 8 ++ works .conversion 2 5

end vision_flow.service
