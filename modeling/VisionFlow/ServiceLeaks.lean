-- Slots that are lost. The conversion unit keeps its input frame in `in_fb` when the
-- output pool is shut down, and takes the next frame from its queue over it. As long as it
-- takes a frame only when it has none, each slot in use can be found.
import VisionFlow.ServiceOwnership

namespace vision_flow.service

open programs units places runs

/-- The frame is an entry of a queue, or a unit has a pointer to it. -/
def Reachable (s : St) (f : Frame) : Prop :=
  (∃ q, f ∈ entries (s.mem.queue q)) ∨ ∃ u, ∃ p ∈ u.fields, s.mem.ptr u p = some f

/-- `in_fb` is NULL when the conversion unit takes a frame from its queue. -/
def KeepsInput (s : St) : Act → Prop
  | .worker .conversion _ _ =>
    s.next .conversion = .pop_blocking .queue1 .in_fb → s.mem.ptr .conversion .in_fb = none
  | _ => True

instance (s : St) (f : Frame) : Decidable (Reachable s f) := inferInstanceAs (Decidable (_ ∨ _))

instance (s : St) : (a : Act) → Decidable (KeepsInput s a)
  | .worker .conversion _ _ => inferInstanceAs (Decidable (_ → _))
  | .worker .camera _ _ => isTrue trivial
  | .worker .stream_provider _ _ => isTrue trivial
  | .worker .file_out _ _ => isTrue trivial
  | .wake_up _ _ => isTrue trivial
  | .call _ => isTrue trivial
  | .control _ => isTrue trivial

section
variable {cfg : vf_service_cfg_t} {m : Mem} {s s' t : St} {acts : List Act}

theorem Inv.reachable (h : Inv cfg s) (hdropped : ∀ u, s.mem.dropped u = []) {f : Frame}
    (hf : s.mem.in_use f = 1) : Reachable s f := by
  have hholders := h.frames.holders f
  have hzero : total s.mem.dropped f = 0 := by simp [total, hdropped]
  unfold Mem.holders at hholders
  by_cases howned : total s.mem.owned f = 0
  · have hqueued : total (fun q => entries (s.mem.queue q)) f ≠ 0 := by omega
    exact Or.inl (exists_place hqueued)
  · obtain ⟨u, hu⟩ := exists_place howned
    exact Or.inr ⟨u, h.frames.recorded u f hu⟩

/-- The pointer that a unit is about to set to NULL is to no frame that it owns, but for
`in_fb` at the conversion unit's pop. -/
theorem Inv.nulls_loose (h : Inv cfg s) {u : UnitId} {th : Thread} {c : UnitCmd}
    {k : c.Res → Code vf_err_t} (hth : th ∈ s.threads u) (hpc : th.pc = some (.op c k))
    {p : Field} (hp : nulls c = some p) :
    (s.mem.view u).Loose p ∨
      u = .conversion ∧ p = .in_fb ∧ s.next .conversion = .pop_blocking .queue1 .in_fb := by
  have hu := h.units u
  have hnext : s.next u = c := by
    obtain ⟨tid, pc, wait⟩ := th
    simp only at hpc
    simp [St.next, (hu.alone hth).1, hpc]
  have hfits := hu.fits th hth
  rw [hpc] at hfits
  obtain ⟨-, hdoes⟩ : Steps u c _ (s.mem.view u) := hfits
  by_cases hl : (s.mem.view u).Loose p
  · exact Or.inl hl
  · right
    cases c with
    | acquire_blocking pool p' =>
      cases hp
      exact absurd hdoes.2.1 hl
    | pop_blocking q p' =>
      cases hp
      obtain ⟨-, hq, -, hforget, -⟩ := hdoes
      unfold View.Loose at hl
      push Not at hl
      obtain ⟨x, hx, hptr⟩ := hl
      obtain ⟨rfl, rfl, -⟩ := hforget x hx hptr
      cases hq
      exact ⟨rfl, rfl, hnext⟩
    | _ => cases hp

/-- A step that takes no frame over another one drops none. -/
theorem drops_none (h : Inv cfg s) {a : Act} (hkeeps : KeepsInput s a)
    (hs : step s a = some s') (hdropped : ∀ u, s.mem.dropped u = []) :
    ∀ u, s'.mem.dropped u = [] := by
  have hsame : s'.mem.dropped = s.mem.dropped := by
    rcases step_leaves hs with
      ⟨u, tid, o, c, k, rfl, ⟨th, hth, hpc⟩, hmem⟩ | ⟨c, -, -, hmem⟩ | ⟨-, hsame⟩
    · rw [hmem]
      apply (exec_leaves u o s.mem c).2
      intro p hp
      rcases h.nulls_loose hth hpc hp with hl | ⟨rfl, rfl, hnext⟩
      · exact hl
      · have hnull : s.mem.ptr .conversion .in_fb = none := hkeeps hnext
        intro x _
        simp [Mem.view, hnull]
    · rw [hmem]
      rfl
    · exact hsame
  rw [hsame]
  exact hdropped

/-- Over any number of starts and stops: if `in_fb` is NULL each time that the conversion
unit takes a frame from its queue, each slot in use is in a queue or in a unit's data. -/
theorem no_slot_is_lost (hinit : vf_service_init cfg = .ok m) (halt : Alternating false acts)
    (hkeeps : Along step KeepsInput (St.init m) acts)
    (hrun : run step (St.init m) acts = some t) :
    ∀ f, t.mem.in_use f = 1 → Reachable t f := by
  have hstops := alternating_starts_stopped hinit halt hrun
  have hboth : Inv cfg t ∧ ∀ u, t.mem.dropped u = [] := by
    refine run_keeps (I := fun s => Inv cfg s ∧ ∀ u, s.mem.dropped u = []) ?_
      ⟨(vf_service_init.spec hinit).inv, ?_⟩ (along_and hstops hkeeps) hrun
    · intro s a s' h hok hs
      exact ⟨h.1.step hok.1 hs, drops_none h.1 hok.2 hs h.2⟩
    · exact fun u => ((vf_service_init.spec hinit).held u).2.1
  exact fun f hf => hboth.1.reachable hboth.2 hf

theorem two_pictures_keep_their_slots :
    ∃ t, run step (St.init small_mem) (.call .service_start :: two_pictures) = some t ∧
      t.mem.in_use ⟨.pool_in, 0⟩ = 1 ∧ Reachable t ⟨.pool_in, 0⟩ := by
  have hstate : (run step (St.init small_mem) (.call .service_start :: two_pictures)).map
      (fun t => t.mem.in_use ⟨.pool_in, 0⟩) = some 1 := by
    decide
  obtain ⟨t, ht, hused⟩ := Option.map_eq_some_iff.mp hstate
  exact ⟨t, ht, hused, no_slot_is_lost small_init (by decide) (by decide +kernel) ht _ hused⟩

/-! ## A lost slot -/

/-- The file unit does not run, so the second picture finds no output slot. The service
stops, and starts again. Then the conversion unit waits for the next picture. -/
def stop_and_start : List Act :=
  calls .service_start 20 ++ works .camera 0 9 ++ works .stream_provider 1 8 ++
    works .conversion 2 14 ++ works .camera 0 9 ++ works .stream_provider 1 8 ++
    works .conversion 2 5 ++ calls .service_stop 3 ++ works .conversion 2 2 ++
    List.replicate 4 (.control true) ++ works .file_out 3 1 ++
    List.replicate 7 (.control true) ++ works .stream_provider 1 1 ++
    List.replicate 4 (.control true) ++ works .camera 0 1 ++
    List.replicate 2 (.control true) ++ calls .service_start 20 ++ works .conversion 6 3

/-- The slot of the second picture is in use, and nothing points to it. -/
theorem an_input_slot_is_lost :
    ¬ ∀ cfg m acts t, vf_service_init cfg = .ok m → Alternating false acts →
      run step (St.init m) acts = some t → ∀ f, t.mem.in_use f = 1 → Reachable t f := by
  intro h
  have hstate : (run step (St.init small_mem) stop_and_start).map
      (fun t => (t.mem.in_use ⟨.pool_in, 0⟩, decide (Reachable t ⟨.pool_in, 0⟩))) =
      some (1, false) := by
    decide
  obtain ⟨t, ht, heq⟩ := Option.map_eq_some_iff.mp hstate
  simp only [Prod.mk.injEq, decide_eq_false_iff_not] at heq
  exact heq.2 (h small small_mem stop_and_start t small_init (by decide) ht _ heq.1)

end

end vision_flow.service
