-- How the pictures go through the pipeline. From a start on empty queues to the next
-- start, the file unit gets the pictures that the camera unit pushed, in their order, and
-- no queue is ever too full for a push.
import VisionFlow.ServiceOwnership

namespace vision_flow.service

open units lifecycle runs

/-- The pictures that the file unit gave back and those in the pipeline, the oldest first,
are the pictures that the camera unit pushed, in the order in which it captured them. -/
structure Delivered (s : St) : Prop where
  in_order : s.mem.consumed ++ s.mem.in_flight = s.mem.pushed
  capture_order : s.mem.pushed.Pairwise (· < ·)
  captured : ∀ n ∈ s.mem.pushed, n < s.mem.captured
  no_oom : ∀ u q p, s.next u = .push q p →
    (buf_queue.vf_buf_queue_push (s.mem.queue q) (s.mem.ptr u p)).1 = .VF_SUCCESS

section
variable {cfg : vf_service_cfg_t} {m : Mem} {s t : St} {acts rest : List Act} {c : Call}

/-- A unit that is about to push finds room. -/
theorem Inv.push_succeeds (h : Inv cfg s) {u : UnitId} {q : QueueId} {p : Field}
    (hnext : s.next u = .push q p) :
    (buf_queue.vf_buf_queue_push (s.mem.queue q) (s.mem.ptr u p)).1 = .VF_SUCCESS := by
  rcases h.at_next u with ⟨hinit, -⟩ | ⟨Q, hsteps⟩
  · rw [hinit] at hnext
    cases hnext
  · generalize s.next u = c at *
    subst hnext
    obtain ⟨-, -, x, hx, hptr, hpool, -⟩ := hsteps
    have hptr' : s.mem.ptr u p = some x.frame := hptr
    obtain ⟨queue, hcall, -⟩ := ring_push (h.frames.ring q) x.frame
      (h.frames.room (mem_cells hx).1 hpool)
    rw [hptr', hcall]

/-- Where nothing was in the queues at the last start, the camera unit pushed all that
came since. -/
theorem Inv.delivered (h : Inv cfg s) (hbefore : s.mem.before = []) : Delivered s := by
  have hflow := h.frames.flow
  obtain ⟨horder, hcaptured⟩ := h.frames.order
  rw [hbefore, List.nil_append] at hflow
  refine ⟨hflow, ?_, ?_, fun _ _ _ => h.push_succeeds⟩
  · exact horder.sublist (List.sublist_append_left _ _)
  · exact fun n hn => hcaptured n (List.mem_append_left _ hn)

/-- A step that is no start. -/
def NoStart (_ : St) (a : Act) : Prop := ∀ c, a = .call c → c.starts = false

theorem step_before {a : Act} {s' : St} (hno : NoStart s a) (hs : step s a = some s') :
    s'.mem.before = s.mem.before := by
  rcases step_leaves hs with ⟨u, tid, o, c, k, -, -, hmem⟩ | ⟨c, hc, hstart, -⟩ | ⟨hbefore, -⟩
  · rw [hmem]
    exact (exec_leaves u o s.mem c).1
  · rw [hno c hc] at hstart
    cases hstart
  · exact hbefore

theorem along_no_start (hrest : ∀ c', Act.call c' ∈ rest → c'.starts = false) :
    Along step NoStart s rest := by
  induction rest generalizing s with
  | nil => trivial
  | cons a rest ih =>
    refine ⟨fun c hc => hrest c (by simp [hc]), fun s' _ => ih fun c' hc' => ?_⟩
    exact hrest c' (List.mem_cons_of_mem _ hc')

/-- The service starts on empty queues. Until it starts again, the file unit gets the
pictures of the camera unit, and each push succeeds. -/
theorem the_pictures_arrive_in_order (hinit : vf_service_init cfg = .ok m)
    (halt : Alternating false (acts ++ .call c :: rest))
    (hbefore : run step (St.init m) acts = some s)
    (hempty : ∀ q, entries (s.mem.queue q) = []) (hstart : c.starts = true)
    (hrest : ∀ c', Act.call c' ∈ rest → c'.starts = false)
    (hrun : run step s (.call c :: rest) = some t) : Delivered t := by
  have hall : run step (St.init m) (acts ++ .call c :: rest) = some t := by
    rw [run_append, hbefore]
    exact hrun
  have h := run_inv hinit (alternating_starts_stopped hinit halt hall) hall
  apply h.delivered
  obtain ⟨s', hcall, hrest'⟩ := run_cons hrun
  have hbegun : s'.mem.before = [] := by
    rw [call_leaves hcall, if_pos hstart]
    simp [St.begin, Mem.numbers, hempty]
  exact run_keeps (fun _ _ _ hb hno hs => (step_before hno hs).trans hb) hbegun
    (along_no_start hrest) hrest'

/-- The first picture is in its file, and the second one with the conversion unit. -/
theorem two_pictures_arrive_in_order :
    ∃ t, run step (St.init small_mem) (.call .service_start :: two_pictures) = some t ∧
      t.mem.consumed = [0] ∧ t.mem.in_flight = [1] ∧ t.mem.pushed = [0, 1] ∧ Delivered t := by
  have hstate : (run step (St.init small_mem) (.call .service_start :: two_pictures)).map
      (fun t => (t.mem.consumed, t.mem.in_flight, t.mem.pushed)) = some ([0], [1], [0, 1]) := by
    decide
  have halt : Alternating false ([] ++ .call .service_start :: two_pictures) := by decide
  have hrest : ∀ c', Act.call c' ∈ two_pictures → c'.starts = false := by
    simp [two_pictures, works]
  obtain ⟨t, ht, heq⟩ := Option.map_eq_some_iff.mp hstate
  simp only [Prod.mk.injEq] at heq
  exact ⟨t, ht, heq.1, heq.2.1, heq.2.2,
    the_pictures_arrive_in_order small_init halt rfl (by decide) rfl hrest ht⟩

end

end vision_flow.service
