-- Who holds the frames of the camera service. Each slot of a pool has at most one holder,
-- a unit uses only frames that it owns, and the counter of a frame follows from its
-- place.
import VisionFlow.ServiceRuns

namespace vision_flow.service

open programs units places runs

/-- The next command of the unit. Between two runs it is the first one of a run. -/
def St.next (s : St) (u : UnitId) : UnitCmd :=
  match s.threads u with
  | ⟨_, some (.op c _), _⟩ :: _ => c
  | _ => .initialized

/-- A unit owns a frame from its acquire or pop on, until its own push or release. The
frames that it owns and does not point to any more are `dropped`. -/
structure Exclusive (s : St) : Prop where
  one_thread : ∀ u, (s.threads u).length ≤ 1
  one_holder : ∀ f, s.mem.holders f ≤ 1
  owned_in_use : ∀ u, ∀ f ∈ s.mem.owned u ++ s.mem.dropped u, s.mem.in_use f = 1
  queued_in_use : ∀ q, ∀ f ∈ entries (s.mem.queue q), s.mem.in_use f = 1
  uses_own : ∀ u, ∀ p ∈ (s.next u).uses, ∃ f ∈ s.mem.owned u, s.mem.ptr u p = some f
  free_ref : ∀ f, s.mem.in_use f = 0 → (s.mem.fb f).ref_count = 0
  queued_ref : ∀ q, ∀ f ∈ entries (s.mem.queue q),
    f.pool = q.pool ∧ (s.mem.fb f).ref_count = q.ref
  owned_ref : ∀ u, ∀ f ∈ s.mem.owned u, (s.mem.fb f).ref_count = u.ref (s.next u) f.pool
  dropped_ref : ∀ u, ∀ f ∈ s.mem.dropped u,
    u = .conversion ∧ f.pool = .pool_in ∧ (s.mem.fb f).ref_count = 1

section
variable {cfg : vf_service_cfg_t} {m : Mem} {s t : St} {acts : List Act} {u : UnitId}

/-- The unit is at a command, or it rests. -/
theorem Inv.at_next (h : Inv cfg s) (u : UnitId) :
    (s.next u = .initialized ∧ Rests u (s.mem.view u)) ∨
      ∃ Q, Steps u (s.next u) Q (s.mem.view u) := by
  have hu := h.units u
  rcases hth : s.threads u with _ | ⟨⟨tid, pc, wait⟩, rest⟩
  · exact Or.inl ⟨by simp [St.next, hth], hu.rests hth⟩
  · have hfits : Fits u (s.mem.view u) pc := hu.fits ⟨tid, pc, wait⟩ (by simp [hth])
    rcases pc with _ | err | ⟨c, k⟩
    · exact Or.inl ⟨by simp [St.next, hth], hfits.1⟩
    · have hran : Ran u err (s.mem.view u) := hfits
      exact Or.inl ⟨by simp [St.next, hth], hran.rests⟩
    · have hnext : s.next u = c := by simp [St.next, hth]
      rw [hnext]
      exact Or.inr ⟨_, hfits⟩

theorem Inv.uses_own (h : Inv cfg s) (u : UnitId) :
    ∀ p ∈ (s.next u).uses, ∃ f ∈ s.mem.owned u, s.mem.ptr u p = some f := by
  intro p hp
  rcases h.at_next u with ⟨hnext, -⟩ | ⟨Q, -, hdoes⟩
  · simp [hnext, UnitCmd.uses] at hp
  · obtain ⟨x, hx, hptr⟩ := hdoes.uses_own p hp
    exact ⟨x.frame, (mem_cells hx).1, hptr⟩

theorem Inv.owned_ref (h : Inv cfg s) (u : UnitId) :
    ∀ f ∈ s.mem.owned u, (s.mem.fb f).ref_count = u.ref (s.next u) f.pool := by
  intro f hf
  rcases h.at_next u with ⟨hnext, hrest⟩ | ⟨Q, hrefs, -⟩
  · rw [hnext]
    exact hrest.refs _ (cell_mem hf)
  · exact hrefs _ (cell_mem hf)

theorem Frames.dropped_used (h : Frames cfg s.mem) {f : Frame} (hf : f ∈ s.mem.dropped u) :
    s.mem.in_use f = 1 := by
  have hle := h.holders_le f
  have hpos := total_pos hf
  rw [← h.holders]
  unfold Mem.holders at hle ⊢
  omega

/-- While starts and stops alternate, in every state of every run from `vf_service_init`
on, each frame has at most one holder, and its counter is as its place says. -/
theorem a_frame_has_one_holder (hinit : vf_service_init cfg = .ok m)
    (halt : Alternating false acts) (hrun : run step (St.init m) acts = some t) :
    Exclusive t := by
  have h := run_inv hinit (alternating_starts_stopped hinit halt hrun) hrun
  refine ⟨fun u => (h.units u).one, h.frames.holders_le, ?_, ?_, h.uses_own, h.frames.unused,
    h.frames.queued, h.owned_ref, h.frames.dropped⟩
  · intro u f hf
    rcases List.mem_append.mp hf with hf | hf
    · exact (h.frames.sole hf).used
    · exact h.frames.dropped_used hf
  · intro q f hf
    exact (h.frames.queued_alone hf).1

/-- The conversion unit is about to convert the first frame: it owns its two frames. -/
theorem two_frames_have_one_holder : ∃ t, run step (St.init small_mem)
      (calls .service_start 20 ++ works .camera 0 9 ++ works .stream_provider 1 8 ++
        works .conversion 2 5) = some t ∧
    t.next .conversion = .convert .in_fb .out_fb ∧
    t.mem.owned .conversion = [⟨.pool_out, 0⟩, ⟨.pool_in, 0⟩] ∧ Exclusive t := by
  have hstate : (run step (St.init small_mem)
      (calls .service_start 20 ++ works .camera 0 9 ++ works .stream_provider 1 8 ++
        works .conversion 2 5)).map (fun t => (t.next .conversion, t.mem.owned .conversion)) =
      some (.convert .in_fb .out_fb, [⟨.pool_out, 0⟩, ⟨.pool_in, 0⟩]) := by
    decide
  obtain ⟨t, ht, heq⟩ := Option.map_eq_some_iff.mp hstate
  obtain ⟨hnext, howned⟩ := Prod.mk.inj heq
  exact ⟨t, ht, hnext, howned, a_frame_has_one_holder small_init (by decide) ht⟩

end

end vision_flow.service
