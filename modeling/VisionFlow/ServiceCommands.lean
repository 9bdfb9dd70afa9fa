-- The commands of the units. A command that its unit may do keeps the frames, whatever
-- the other units are doing, and has the outcome that the unit expects. If it sleeps, it
-- sleeps on a condition that is not shut down.
import VisionFlow.ServiceFrames

namespace vision_flow.service

open programs units
open framebuffer (vf_framebuffer_t)

section
variable {cfg : vf_service_cfg_t} {m : Mem} {u : UnitId}

/-! ## Every command -/

/-- The condition that a command may sleep on. -/
def sleeps_on : UnitCmd → Option Cond
  | .acquire_blocking p _ => some (.slot_available p)
  | .pop_blocking q _ => some (.not_empty q)
  | _ => none

/-- The answer of the conversion, for two frames of the service. -/
theorem conversion_succeeds {cfg : vf_service_cfg_t}
    (hsup : conversion.Supported cfg.src_fmt cfg.dst_fmt) {src dst : vf_framebuffer_t}
    (hs : src.data.isSome) (hd : dst.data.isSome) (hps : src.params = cfg.params .pool_in)
    (hpd : dst.params = cfg.params .pool_out) :
    ∃ d accs, conversion.vf_conversion_process
        (conversion.vf_conversion_init cfg.src_fmt cfg.dst_fmt).2 src dst =
      (.VF_SUCCESS, dst.holding d, accs) := by
  obtain ⟨s, hs⟩ := Option.isSome_iff_exists.mp hs
  obtain ⟨d, hd⟩ := Option.isSome_iff_exists.mp hd
  have hsrc : src = src.holding s := by rw [framebuffer.vf_framebuffer_t.holding, ← hs]
  have hdst : dst = dst.holding d := by rw [framebuffer.vf_framebuffer_t.holding, ← hd]
  have hall : ∀ e ∈ conversion.g_conversion_table, ∃ body, e.fn = conversion.convert body := by
    intro e he
    simp only [conversion.g_conversion_table, List.mem_cons, List.not_mem_nil, or_false] at he
    rcases he with rfl | rfl | rfl | rfl | rfl | rfl | rfl | rfl <;> exact ⟨_, rfl⟩
  obtain ⟨fn, hfn⟩ := Option.isSome_iff_exists.mp hsup
  have hbody : ∃ body, fn = conversion.convert body := by
    unfold conversion.lookup_convert_fn at hfn
    obtain ⟨e, he, rfl⟩ := Option.map_eq_some_iff.mp hfn
    exact hall e (List.mem_of_find?_eq_some he)
  obtain ⟨body, rfl⟩ := hbody
  rw [conversion.process_eq hfn src dst (by rw [hps]; rfl) (by rw [hpd]; rfl), hsrc, hdst,
    conversion.convert.spec body src dst s d (by rw [hps, hpd]; rfl) (by rw [hps, hpd]; rfl)]
  exact ⟨_, _, rfl⟩

/-- A command that the unit may do is done, or sleeps on a condition that is not shut
down. In both cases it keeps the frames. -/
def Sound (cfg : vf_service_cfg_t) (u : UnitId) (m : Mem) (c : UnitCmd)
    (Q : c.Res → View → Prop) : Outcome c.Res → Prop
  | .done r m' _ => Q r (m'.view u) ∧ Kept cfg u m m'
  | .waits m' on => Steps u c Q (m'.view u) ∧ Kept cfg u m m' ∧ sleeps_on c = some on ∧
      m'.down on = false

theorem acquire_sound (h : Frames cfg m) {p : PoolId} {fd : Field} {Q : vf_err_t → View → Prop}
    (hs : Steps u (.acquire_blocking p fd) Q (m.view u)) :
    Sound cfg u m (.acquire_blocking p fd) Q (exec_acquire_blocking u p fd m) := by
  obtain ⟨-, hfd, hloose, hok, hdownQ⟩ := id hs
  have hkept := kept_put h hloose
  have hnull : (m.put u fd none).ptr u fd = none := by simp [Mem.put]
  have hview := view_put m u fd none
  have hsleep := hs.sleep_acquire
  unfold exec_acquire_blocking
  simp only [(h.accounted p).initialized, one_ne_zero, if_false, forget_loose hloose]
  rw [← hview] at hsleep
  generalize hm : m.put u fd none = m1 at *
  have hpool : m1.pool p = m.pool p := by rw [← hm]; rfl
  rcases pool_acquire (hkept.frames.accounted p) (m1.ptr u fd) with
    ⟨hcall, hdown⟩ | hcall | ⟨i, pool, hcall, hacc, hfree, huse, hself, hcap, hdown⟩
  · rw [hcall]
    exact ⟨hsleep, hkept, rfl, hdown⟩
  · rw [hcall]
    have hsame : (m1.set_pool p (m1.pool p)).put u fd none = m1 := by
      rw [Mem.set_pool, Function.update_eq_self, ← hm]
      simp [Mem.put]
    simp only [hsame]
    refine ⟨?_, hkept⟩
    rw [hview]
    exact hdownQ
  · rw [hcall, hkept.frames.at_base p]
    refine ⟨?_, hkept.trans (kept_acquire hkept.frames hfd hnull hfree hacc huse hself hcap hdown)⟩
    have hzero : (m1.fb ⟨p, i⟩).ref_count = 0 := hkept.frames.unused ⟨p, i⟩ hfree
    have hnew : ∀ x ∈ (m.view u).cells, x.frame ≠ ⟨p, i⟩ := by
      intro x hx he
      have hfree' : m.in_use ⟨p, i⟩ = 0 := by
        rw [hpool] at hfree
        exact hfree
      exact (h.free_alone hfree').1 u (he ▸ (mem_cells hx).1)
    have hcell := view_take (m1.set_pool p pool) u fd ⟨p, i⟩
    have hbase : (m1.set_pool p pool).view u = (m.view u).put fd none := hview
    rw [hbase] at hcell
    rw [hcell]
    have hQ := hok ⟨p, i⟩ (m1.number ⟨p, i⟩) rfl hnew
    simpa [View.put, Mem.set_pool, hzero] using hQ

theorem release_sound (h : Frames cfg m) {p : PoolId} {fd : Field} {Q : vf_err_t → View → Prop}
    (hs : Steps u (.release p fd) Q (m.view u)) :
    Sound cfg u m (.release p fd) Q (exec_release u p fd m) := by
  obtain ⟨-, x, hx, hptr, hpool, href, hcarry, hQ⟩ := hs
  obtain ⟨hf, hxr, hxn⟩ := mem_cells hx
  generalize x.frame = f at *
  have hptr' : m.ptr u fd = some f := hptr
  have hused := (h.sole hf).used
  subst hpool
  have hheld : f.idx ∈ buf_pool.held (m.pool f.pool) := by
    have hne : (m.pool f.pool).in_use f.idx ≠ 0 := by
      unfold Mem.in_use at hused
      omega
    simp [buf_pool.held, hne, in_use_lt (h.accounted f.pool) hne]
  have hcall := buf_pool.release_held (h.accounted f.pool) hheld
  have hacc := buf_pool.accounted_release (h.accounted f.pool) hheld
  have hself := h.at_base f.pool
  rw [hself] at hcall hacc
  unfold exec_release
  rw [hptr', hcall]
  refine ⟨?_, kept_release h hf rfl (hxr ▸ href) ?_ hacc rfl hself.symm rfl rfl⟩
  · have hview := view_part_with m u f
    exact hview ▸ hQ
  · rw [hxn] at hcarry
    exact hcarry

theorem pop_sound (h : Frames cfg m) {q : QueueId} {fd : Field} {Q : vf_err_t → View → Prop}
    (hs : Steps u (.pop_blocking q fd) Q (m.view u)) :
    Sound cfg u m (.pop_blocking q fd) Q (exec_pop_blocking u q fd m) := by
  have hsleep := hs.sleep_pop
  obtain ⟨-, hfd, hq, hcarry, hforget, hok, hdownQ⟩ := hs
  have hkept : Kept cfg u m (m.forget u fd) := by
    apply kept_forget h
    intro f hf hp
    obtain ⟨hu, -, hpool, href⟩ := hforget _ (cell_mem hf) hp
    exact ⟨hu, hpool, href⟩
  have hnull : (m.forget u fd).ptr u fd = none := by simp [Mem.forget, Mem.put]
  have hview := view_forget m u fd
  have hcarry' : (m.forget u fd).carry u = none := hcarry
  unfold exec_pop_blocking
  simp only [(h.ring q).initialized, one_ne_zero, if_false]
  rw [← hview] at hsleep hok hdownQ
  generalize m.forget u fd = m1 at *
  rcases ring_pop (hkept.frames.ring q) (m1.ptr u fd) with
    ⟨hcall, hdown⟩ | hcall | ⟨f, queue, hcall, hring, hitems, hdown⟩
  · rw [hcall]
    exact ⟨hsleep, hkept, rfl, hdown⟩
  · rw [hcall]
    have hsame : (m1.set_queue q (m1.queue q)).put u fd none = m1 := by
      have hptr : Function.update (m1.ptr u) fd none = m1.ptr u := by
        rw [← hnull, Function.update_eq_self]
      simp [Mem.set_queue, Mem.put, hptr]
    simp only [hsame]
    exact ⟨hdownQ, hkept⟩
  · rw [hcall]
    refine ⟨?_, hkept.trans (kept_pop hkept.frames hfd hq hnull hcarry' hring hitems hdown)⟩
    have hmem : f ∈ entries (m1.queue q) := by simp [hitems]
    obtain ⟨hpool, href⟩ := hkept.frames.queued q f hmem
    have hnew : ∀ x ∈ (m1.view u).cells, x.frame ≠ f := by
      intro x hx he
      exact (hkept.frames.queued_alone hmem).2.2.1 u (he ▸ (mem_cells hx).1)
    have hcell := view_take (m1.set_queue q queue) u fd f
    have hQ := hok f (m1.number f) hpool hnew
    rw [← href] at hQ
    have hfinal : (((m1.set_queue q queue).put u fd (some f)).receive u f).view u =
        ((((m1.set_queue q queue).put u fd (some f)).take u f).view u).carrying
          (some (m1.number f)) := by
      simp [Mem.view, Mem.receive, View.carrying]
      rfl
    rw [hfinal, hcell]
    exact hQ

theorem push_sound (h : Frames cfg m) {q : QueueId} {fd : Field} {Q : vf_err_t → View → Prop}
    (hs : Steps u (.push q fd) Q (m.view u)) :
    Sound cfg u m (.push q fd) Q (exec_push u q fd m) := by
  obtain ⟨-, hq, x, hx, hptr, hpool, href, hcarry, hQ⟩ := hs
  obtain ⟨hf, hxr, hxn⟩ := mem_cells hx
  generalize x.frame = f at *
  have hptr' : m.ptr u fd = some f := hptr
  obtain ⟨queue, hcall, hring, hitems, hdown⟩ := ring_push (h.ring q) f (h.room hf hpool)
  rw [hxn] at hcarry
  unfold exec_push
  simp only [hptr', hcall]
  refine ⟨?_, kept_push h hf hq hpool (hxr ▸ href) hcarry hring hitems hdown⟩
  have hview := view_part_with m u f
  exact hview ▸ hQ

/-- An atomic operation on the counter of a frame of the unit. -/
theorem fetch_sound (h : Frames cfg m) {fd : Field} (change : Nat → Nat)
    {Q : Option Nat → View → Prop} {x : Cell} (hx : x ∈ (m.view u).cells)
    (hptr : m.ptr u fd = some x.frame)
    (hQ : Q (some x.ref) ((m.view u).change x.frame fun y => { y with ref := change y.ref })) :
    ∃ m', exec_fetch u fd change m = .done (some x.ref) m' none ∧ Q (some x.ref) (m'.view u) ∧
      Kept cfg u m m' := by
  obtain ⟨hf, hxr, hxn⟩ := mem_cells hx
  generalize hxf : x.frame = f at *
  obtain ⟨hd, -⟩ := h.shape hf
  have hsame : m.set_fb f { m.fb f with ref_count := change (m.fb f).ref_count } =
      m.touch f { m.fb f with ref_count := change (m.fb f).ref_count } (m.number f) := by
    simp [Mem.set_fb, Mem.touch]
  refine ⟨m.set_fb f { m.fb f with ref_count := change (m.fb f).ref_count }, ?_, ?_, ?_⟩
  · simp [exec_fetch, hptr, hxr]
  · rw [hsame, view_touch]
    have hcongr : (m.view u).change f (fun _ => ⟨f, change (m.fb f).ref_count, m.number f⟩) =
        (m.view u).change f fun y => { y with ref := change y.ref } := by
      apply change_congr
      intro y hy hyf
      obtain ⟨-, hyr, hyn⟩ := mem_cells hy
      rw [hyf] at hyr hyn
      rw [← hyr, ← hyn, ← hyf]
    exact hcongr ▸ hQ
  · rw [hsame]
    exact kept_touch h hf _ _ hd rfl

theorem acquire_frame_sound (h : Frames cfg m) {fd : Field} {Q : vf_err_t → View → Prop}
    (o : Oracle) (hs : Steps u (.acquire_frame fd) Q (m.view u)) :
    Sound cfg u m (.acquire_frame fd) Q (exec_acquire_frame u fd o m) := by
  obtain ⟨-, hu, hcarry, x, hx, hptr, hok, herr⟩ := hs
  obtain ⟨hf, -, -⟩ := mem_cells hx
  generalize x.frame = f at *
  have hptr' : m.ptr u fd = some f := hptr
  unfold exec_acquire_frame
  simp only [hptr']
  by_cases he : o.err = .VF_SUCCESS
  · rw [if_pos he]
    refine ⟨?_, kept_capture h hu hf hcarry rfl rfl⟩
    have hview := view_touch m u f ((m.fb f).holding o.bytes) m.captured
    have hcongr : (m.view u).change f (fun _ => ⟨f, (m.fb f).ref_count, m.captured⟩) =
        (m.view u).change f fun y => { y with number := m.captured } := by
      apply change_congr
      intro y hy hyf
      obtain ⟨-, hyr, -⟩ := mem_cells hy
      rw [← hyf, hyr]
    have hfinal : ((m.set_fb f ((m.fb f).holding o.bytes)).capture u f).view u =
        ((m.touch f ((m.fb f).holding o.bytes) m.captured).view u).carrying
          (some m.captured) := by
      simp [Mem.view, Mem.touch, Mem.set_fb, Mem.capture, View.carrying]
    rw [hfinal, hview]
    have hQ := hok m.captured
    rw [← hcongr] at hQ
    rw [he]
    exact hQ
  · rw [if_neg he]
    have hsame : m.set_fb f ((m.fb f).holding o.bytes) =
        m.touch f ((m.fb f).holding o.bytes) (m.number f) := by
      simp [Mem.set_fb, Mem.touch]
    refine ⟨?_, hsame ▸ kept_touch h hf _ _ rfl rfl⟩
    rw [view_set_fb m u f ((m.fb f).holding o.bytes) rfl]
    exact herr o.err he

theorem convert_sound (h : Frames cfg m) {src dst : Field} {Q : vf_err_t → View → Prop}
    (hs : Steps u (.convert src dst) Q (m.view u)) :
    Sound cfg u m (.convert src dst) Q (exec_convert u src dst m) := by
  obtain ⟨-, x, hx, y, hy, hsrc, hdst, hxp, hyp, hQ⟩ := hs
  obtain ⟨hf, -, hxn⟩ := mem_cells hx
  obtain ⟨hg, -, -⟩ := mem_cells hy
  generalize x.frame = f at *
  generalize y.frame = g at *
  have hsrc' : m.ptr u src = some f := hsrc
  have hdst' : m.ptr u dst = some g := hdst
  obtain ⟨hfd, hfp⟩ := h.shape hf
  obtain ⟨hgd, hgp⟩ := h.shape hg
  rw [hxp] at hfp
  rw [hyp] at hgp
  obtain ⟨d, accs, hcall⟩ := conversion_succeeds h.supported hfd hgd hfp hgp
  unfold exec_convert
  simp only [hsrc', hdst', h.conv_ctx, hcall]
  refine ⟨?_, kept_touch h hg ((m.fb g).holding d) (m.number f) rfl rfl⟩
  have hview := view_touch m u g ((m.fb g).holding d) (m.number f)
  have hcongr : (m.view u).change g (fun _ => ⟨g, (m.fb g).ref_count, m.number f⟩) =
      (m.view u).change g fun z => { z with number := x.number } := by
    apply change_congr
    intro z hz hzg
    obtain ⟨-, hzr, -⟩ := mem_cells hz
    rw [hxn, ← hzg, hzr]
  have hfinal : (m.touch g ((m.fb g).holding d) (m.number f)).view u =
      (m.view u).change g fun z => { z with number := x.number } := hview.trans hcongr
  rw [← hfinal] at hQ
  exact hQ

/-- Each command that a unit may do keeps the frames. -/
theorem exec_sound (h : Frames cfg m) (o : Oracle) (c : UnitCmd) {Q : c.Res → View → Prop}
    (hs : Steps u c Q (m.view u)) : Sound cfg u m c Q (exec u o m c) := by
  cases c with
  | initialized =>
    refine ⟨?_, Kept.refl h⟩
    rw [h.initialized]
    exact hs.2
  | load p => exact ⟨hs.2, Kept.refl h⟩
  | set_null p =>
    refine ⟨?_, kept_put h hs.2.1⟩
    rw [view_put]
    exact hs.2.2
  | acquire_blocking p fd => exact acquire_sound h hs
  | release p fd => exact release_sound h hs
  | pop_blocking q fd => exact pop_sound h hs
  | push q fd => exact push_sound h hs
  | fetch_add fd =>
    obtain ⟨-, x, hx, hptr, hQ⟩ := hs
    obtain ⟨m', hexec, hQ', hkept⟩ := fetch_sound h (fun n => u32 (n + 1)) hx hptr hQ
    simp only [exec, hexec]
    exact ⟨hQ', hkept⟩
  | fetch_sub fd =>
    obtain ⟨-, x, hx, hptr, hQ⟩ := hs
    obtain ⟨m', hexec, hQ', hkept⟩ := fetch_sound h (fun n => u32_sub n 1) hx hptr hQ
    simp only [exec, hexec]
    exact ⟨hQ', hkept⟩
  | acquire_frame fd => exact acquire_frame_sound h o hs
  | convert src dst => exact convert_sound h hs
  | publish p => exact ⟨hs.2 o.err, Kept.refl h⟩
  | open_output => exact ⟨hs.2 o.err, Kept.refl h⟩
  | write p =>
    obtain ⟨-, ⟨x, -, hptr⟩, hQ⟩ := hs
    have hptr' : m.ptr u p = some x.frame := hptr
    simp only [exec, hptr', reduceCtorEq, if_false]
    exact ⟨hQ o.err, Kept.refl h⟩

/-! ## What a command leaves alone -/

/-- The memory after a command, done or not. -/
def Outcome.mem {R : Type} : Outcome R → Mem
  | .done _ m _ => m
  | .waits m _ => m

/-- The pointer that a command sets to NULL before anything else. -/
def nulls : UnitCmd → Option Field
  | .acquire_blocking _ p => some p
  | .pop_blocking _ p => some p
  | _ => none

/-- What was in the queues at the last start stays known, and a frame is only dropped by a
pointer that is set to NULL. -/
theorem exec_leaves (u : UnitId) (o : Oracle) (m : Mem) (c : UnitCmd) :
    (exec u o m c).mem.before = m.before ∧
      ((∀ p, nulls c = some p → (m.view u).Loose p) → (exec u o m c).mem.dropped = m.dropped) := by
  cases c with
  | acquire_blocking p fd =>
    refine ⟨?_, fun hl => ?_⟩
    · simp only [exec, exec_acquire_blocking]
      repeat' split
      all_goals rfl
    · simp only [exec, exec_acquire_blocking, forget_loose (hl fd rfl)]
      repeat' split
      all_goals rfl
  | pop_blocking q fd =>
    refine ⟨?_, fun hl => ?_⟩
    · simp only [exec, exec_pop_blocking]
      repeat' split
      all_goals rfl
    · simp only [exec, exec_pop_blocking, forget_loose (hl fd rfl)]
      repeat' split
      all_goals rfl
  | release p fd =>
    simp only [exec, exec_release]
    split <;> exact ⟨rfl, fun _ => rfl⟩
  | push q fd =>
    simp only [exec, exec_push]
    split <;> exact ⟨rfl, fun _ => rfl⟩
  | fetch_add fd =>
    simp only [exec, exec_fetch]
    split <;> exact ⟨rfl, fun _ => rfl⟩
  | fetch_sub fd =>
    simp only [exec, exec_fetch]
    split <;> exact ⟨rfl, fun _ => rfl⟩
  | acquire_frame fd =>
    simp only [exec, exec_acquire_frame]
    split
    · exact ⟨rfl, fun _ => rfl⟩
    · split <;> exact ⟨rfl, fun _ => rfl⟩
  | convert src dst =>
    simp only [exec, exec_convert]
    split <;> exact ⟨rfl, fun _ => rfl⟩
  | _ => exact ⟨rfl, fun _ => rfl⟩

end

end vision_flow.service
