-- What a run of each unit does with its frames, seen from the unit alone: the frames it
-- owns, its pointers and the picture it carries. Nobody else changes these, so a run
-- can be verified as if the unit were alone.
import VisionFlow.Units

namespace vision_flow.units

open programs

/-! ## A unit's view -/

/-- A frame that the unit owns, with its reference counter and the number of the picture
in it. -/
structure Cell where
  frame : Frame
  ref : Nat
  number : Nat

structure View where
  ptr : Field → Option Frame
  cells : List Cell
  carry : Option Nat

/-- The pointer is to no frame that the unit owns. -/
def View.Loose (L : View) (p : Field) : Prop := ∀ x ∈ L.cells, L.ptr p ≠ some x.frame

def View.put (L : View) (p : Field) (o : Option Frame) : View :=
  { L with ptr := Function.update L.ptr p o }

def View.add (L : View) (x : Cell) : View := { L with cells := x :: L.cells }

def View.carrying (L : View) (n : Option Nat) : View := { L with carry := n }

def View.without (L : View) (f : Frame) : View :=
  { L with cells := L.cells.filter (·.frame ≠ f) }

/-- The pointer is NULL, and its frame is not the unit's any more. -/
def View.forget (L : View) (p : Field) : View :=
  { L.put p none with cells := L.cells.filter (some ·.frame ≠ L.ptr p) }

/-- The cell of the frame is changed. -/
def View.change (L : View) (f : Frame) (g : Cell → Cell) : View :=
  { L with cells := L.cells.map fun x => if x.frame = f then g x else x }

section
variable (ptr : Field → Option Frame) (cells : List Cell) (carry : Option Nat)

@[simp] theorem View.put_mk (p : Field) (o : Option Frame) :
    View.put ⟨ptr, cells, carry⟩ p o = ⟨Function.update ptr p o, cells, carry⟩ := rfl

@[simp] theorem View.add_mk (x : Cell) :
    View.add ⟨ptr, cells, carry⟩ x = ⟨ptr, x :: cells, carry⟩ := rfl

@[simp] theorem View.carrying_mk (n : Option Nat) :
    View.carrying ⟨ptr, cells, carry⟩ n = ⟨ptr, cells, n⟩ := rfl

@[simp] theorem View.without_mk (f : Frame) :
    View.without ⟨ptr, cells, carry⟩ f = ⟨ptr, cells.filter (·.frame ≠ f), carry⟩ := rfl

@[simp] theorem View.change_mk (f : Frame) (g : Cell → Cell) :
    View.change ⟨ptr, cells, carry⟩ f g =
      ⟨ptr, cells.map fun x => if x.frame = f then g x else x, carry⟩ := rfl

@[simp] theorem View.forget_mk (p : Field) :
    View.forget ⟨ptr, cells, carry⟩ p =
      ⟨Function.update ptr p none, cells.filter (some ·.frame ≠ ptr p), carry⟩ := rfl

@[simp] theorem View.loose_nil (p : Field) : View.Loose ⟨ptr, [], carry⟩ p := by
  simp [View.Loose]

end

/-! ## What the queues hold -/

/-- The pool of the frames in a queue. -/
def QueueId.pool : QueueId → PoolId
  | .queue2 => .pool_out
  | _ => .pool_in

/-- The reference counter of the frames in a queue. -/
def QueueId.ref : QueueId → Nat
  | .queue1 => 1
  | _ => 0

/-! ## Commands of a unit -/

/-- The reference counter of a frame of a pool that the unit owns, just before a command:
the stream provider counts its consumer before anything else, and the conversion unit
gives the count back just before it releases the frame. -/
def UnitId.ref (u : UnitId) (c : UnitCmd) (pool : PoolId) : Nat :=
  match u, pool with
  | .stream_provider, .pool_in => if c = .fetch_add .current_fb then 0 else 1
  | .conversion, .pool_in => if c = .release .pool_in .in_fb then 0 else 1
  | _, _ => 0

/-- The command is one that the unit may do, and each outcome of it leads to `Q`. -/
def Does (u : UnitId) : (c : UnitCmd) → (c.Res → View → Prop) → View → Prop
  | .initialized, Q, L => Q true L
  | .load p, Q, L => Q (L.ptr p) L
  | .set_null p, Q, L => L.Loose p ∧ Q () (L.put p none)
  | .acquire_blocking pool p, Q, L =>
    p ∈ u.fields ∧ L.Loose p ∧
      (∀ f n, f.pool = pool → (∀ x ∈ L.cells, x.frame ≠ f) →
        Q .VF_SUCCESS ((L.put p (some f)).add ⟨f, 0, n⟩)) ∧
      Q .VF_QUEUE_SHUTDOWN (L.put p none)
  | .release pool p, Q, L =>
    ∃ x ∈ L.cells, L.ptr p = some x.frame ∧ x.frame.pool = pool ∧ x.ref = 0 ∧
      (L.carry = if u = .file_out then some x.number else none) ∧
      Q .VF_SUCCESS ((L.without x.frame).carrying none)
  | .pop_blocking q p, Q, L =>
    p ∈ u.fields ∧ u.unit.in_queue = some q ∧ L.carry = none ∧
      (∀ x ∈ L.cells, L.ptr p = some x.frame →
        u = .conversion ∧ p = .in_fb ∧ x.frame.pool = .pool_in ∧ x.ref = 1) ∧
      (∀ f n, f.pool = q.pool → (∀ x ∈ (L.forget p).cells, x.frame ≠ f) →
        Q .VF_SUCCESS ((((L.forget p).put p (some f)).add ⟨f, q.ref, n⟩).carrying (some n))) ∧
      Q .VF_QUEUE_SHUTDOWN (L.forget p)
  | .push q p, Q, L =>
    u.unit.out_queue = some q ∧
      ∃ x ∈ L.cells, L.ptr p = some x.frame ∧ x.frame.pool = q.pool ∧ x.ref = q.ref ∧
        L.carry = some x.number ∧ Q .VF_SUCCESS ((L.without x.frame).carrying none)
  | .fetch_add p, Q, L =>
    ∃ x ∈ L.cells, L.ptr p = some x.frame ∧
      Q (some x.ref) (L.change x.frame fun y => { y with ref := u32 (y.ref + 1) })
  | .fetch_sub p, Q, L =>
    ∃ x ∈ L.cells, L.ptr p = some x.frame ∧
      Q (some x.ref) (L.change x.frame fun y => { y with ref := u32_sub y.ref 1 })
  | .acquire_frame p, Q, L =>
    u = .camera ∧ L.carry = none ∧ ∃ x ∈ L.cells, L.ptr p = some x.frame ∧
      (∀ n, Q .VF_SUCCESS
        ((L.change x.frame fun y => { y with number := n }).carrying (some n))) ∧
      ∀ err, err ≠ .VF_SUCCESS → Q err L
  | .convert src dst, Q, L =>
    ∃ x ∈ L.cells, ∃ y ∈ L.cells, L.ptr src = some x.frame ∧ L.ptr dst = some y.frame ∧
      x.frame.pool = .pool_in ∧ y.frame.pool = .pool_out ∧
      Q .VF_SUCCESS (L.change y.frame fun z => { z with number := x.number })
  | .publish _, Q, L => ∀ err, Q err L
  | .open_output, Q, L => ∀ err, Q err L
  | .write p, Q, L => (∃ x ∈ L.cells, L.ptr p = some x.frame) ∧ ∀ err, Q err L

/-- The pointers to the frames that a command uses. -/
def UnitCmd.uses : UnitCmd → List Field
  | .release _ p => [p]
  | .push _ p => [p]
  | .fetch_add p => [p]
  | .fetch_sub p => [p]
  | .acquire_frame p => [p]
  | .convert src dst => [src, dst]
  | .write p => [p]
  | _ => []

/-- A unit uses only frames that it owns. -/
theorem Does.uses_own {u : UnitId} {c : UnitCmd} {Q : c.Res → View → Prop} {L : View}
    (h : Does u c Q L) : ∀ p ∈ c.uses, ∃ x ∈ L.cells, L.ptr p = some x.frame := by
  intro p hp
  cases c with
  | release pool p' =>
    obtain ⟨x, hx, hptr, -⟩ := h
    rw [List.mem_singleton.mp hp]
    exact ⟨x, hx, hptr⟩
  | push q p' =>
    obtain ⟨-, x, hx, hptr, -⟩ := h
    rw [List.mem_singleton.mp hp]
    exact ⟨x, hx, hptr⟩
  | fetch_add p' =>
    obtain ⟨x, hx, hptr, -⟩ := h
    rw [List.mem_singleton.mp hp]
    exact ⟨x, hx, hptr⟩
  | fetch_sub p' =>
    obtain ⟨x, hx, hptr, -⟩ := h
    rw [List.mem_singleton.mp hp]
    exact ⟨x, hx, hptr⟩
  | acquire_frame p' =>
    obtain ⟨-, -, x, hx, hptr, -⟩ := h
    rw [List.mem_singleton.mp hp]
    exact ⟨x, hx, hptr⟩
  | convert src dst =>
    obtain ⟨x, hx, y, hy, hsrc, hdst, -⟩ := h
    simp only [UnitCmd.uses, List.mem_cons, List.not_mem_nil, or_false] at hp
    rcases hp with rfl | rfl
    · exact ⟨x, hx, hsrc⟩
    · exact ⟨y, hy, hdst⟩
  | write p' =>
    rw [List.mem_singleton.mp hp]
    exact h.1
  | _ => simp [UnitCmd.uses] at hp

/-- A command, with the reference counters that the unit's frames have before it. -/
def Steps (u : UnitId) (c : UnitCmd) (Q : c.Res → View → Prop) (L : View) : Prop :=
  (∀ x ∈ L.cells, x.ref = u.ref c x.frame.pool) ∧ Does u c Q L

/-- A thread that sleeps in a blocking call may do the call again: its pointer is NULL
now. -/
theorem Steps.sleep_acquire {u : UnitId} {pool : PoolId} {p : Field}
    {Q : vf_err_t → View → Prop} {L : View} (h : Steps u (.acquire_blocking pool p) Q L) :
    Steps u (.acquire_blocking pool p) Q (L.put p none) := by
  obtain ⟨hrefs, hp, -, hok, hdown⟩ := h
  refine ⟨hrefs, hp, fun x _ => by simp [View.put], ?_, ?_⟩
  · intro f n hf hnew
    simpa [View.put] using hok f n hf hnew
  · simpa [View.put] using hdown

theorem View.forget_forget (L : View) (p : Field) : (L.forget p).forget p = L.forget p := by
  simp [View.forget, View.put]

theorem Steps.sleep_pop {u : UnitId} {q : QueueId} {p : Field} {Q : vf_err_t → View → Prop}
    {L : View} (h : Steps u (.pop_blocking q p) Q L) :
    Steps u (.pop_blocking q p) Q (L.forget p) := by
  obtain ⟨hrefs, hfd, hq, hcarry, -, hok, hdown⟩ := h
  refine ⟨fun x hx => hrefs x (List.mem_of_mem_filter hx), hfd, hq, hcarry, ?_, ?_, ?_⟩
  · intro x _ hp
    simp [View.forget, View.put] at hp
  · rw [View.forget_forget]
    exact hok
  · rw [View.forget_forget]
    exact hdown

/-! ## Between two runs -/

/-- The unit owns no frame. Only the conversion unit may still have its input frame: a
run that ended with an error keeps it in `in_fb`. -/
def Rests (u : UnitId) (L : View) : Prop :=
  match u with
  | .conversion => L.ptr .out_fb = none ∧ (L.cells = [] ∨
      ∃ f n, f.pool = .pool_in ∧ L.cells = [⟨f, 1, n⟩] ∧ L.ptr .in_fb = some f)
  | _ => L.cells = []

/-- At the test of the loop: the unit rests, and carries no picture. -/
def Idle (u : UnitId) (L : View) : Prop := Rests u L ∧ L.carry = none

/-- After a run. With `VF_QUEUE_SHUTDOWN` the thread ends. -/
def Ran (u : UnitId) (err : vf_err_t) (L : View) : Prop :=
  if err = .VF_QUEUE_SHUTDOWN then Rests u L else Idle u L

theorem Idle.ran {u : UnitId} {L : View} (h : Idle u L) (err : vf_err_t) : Ran u err L := by
  unfold Ran
  split
  · exact h.1
  · exact h

theorem Ran.rests {u : UnitId} {err : vf_err_t} {L : View} (h : Ran u err L) : Rests u L := by
  unfold Ran at h
  split at h
  · exact h
  · exact h.1

/-- A frame of the unit has the count of any command that is not one of the two special
ones. -/
theorem Rests.refs {u : UnitId} {L : View} (h : Rests u L) :
    ∀ x ∈ L.cells, x.ref = u.ref .initialized x.frame.pool := by
  intro x hx
  cases u with
  | conversion =>
    obtain ⟨-, hcells | ⟨f, n, hf, hcells, -⟩⟩ := h
    · simp [hcells] at hx
    · simp only [hcells, List.mem_singleton] at hx
      simp [hx, UnitId.ref, hf]
  | _ =>
    have hcells : L.cells = [] := h
    simp [hcells] at hx

/-- A run is its three operations, one after the other, up to the first error. -/
theorem vf_unit_run.spec {u : UnitId} {get process send : Code vf_err_t} {L : View}
    (h : Idle u L)
    (hget : wp (Steps u) get (fun err L => if err ≠ .VF_SUCCESS then Ran u err L else
      wp (Steps u) process (fun err L => if err ≠ .VF_SUCCESS then Ran u err L else
        wp (Steps u) send (fun err L => Ran u err L) L) L) L) :
    wp (Steps u) (vf_unit_run get process send) (Ran u) L := by
  have hend : (fun err L => if err ≠ .VF_SUCCESS then Ran u err L else Ran u .VF_SUCCESS L) =
      Ran u := by
    funext err L
    by_cases he : err = .VF_SUCCESS <;> simp [he]
  unfold vf_unit_run
  simp only [wp_bind, wp_ite, wp_pure, hend]
  refine ⟨h.1.refs, ?_⟩
  simpa only [wp, Does, Bool.not_true, Bool.false_eq_true, if_false] using hget

/-! ## The camera -/

section camera
variable {Q : vf_err_t → View → Prop} {ptr : Field → Option Frame}

theorem vf_camera_unit_get_data.spec
    (hok : ∀ f n, f.pool = .pool_in →
      Q .VF_SUCCESS ⟨Function.update ptr .current_fb (some f), [⟨f, 0, n⟩], some n⟩)
    (herr : ∀ err ptr, err ≠ .VF_SUCCESS → Q err ⟨ptr, [], none⟩) :
    wp (Steps .camera) (vf_camera_unit_get_data .pool_in) Q ⟨ptr, [], none⟩ := by
  unfold vf_camera_unit_get_data
  simp only [wp_bind, wp_ite, wp_pure, wp_perform, Steps, Does]
  refine ⟨by simp, by decide, by simp, ?_, ?_⟩
  · intro f n hf _
    simp only [View.put_mk, View.add_mk, ne_eq, not_true_eq_false, if_false]
    refine ⟨by simp [UnitId.ref], trivial, trivial, ⟨f, 0, n⟩, by simp, by simp, ?_, ?_⟩
    · intro n'
      simpa using hok f n' hf
    · intro err he
      rw [if_pos he]
      refine ⟨by simp [UnitId.ref], ⟨f, 0, n⟩, by simp, by simp, hf, rfl, rfl, ?_⟩
      simpa using herr err _ he
  · exact herr _ _ (by decide)

theorem vf_camera_unit_send_data.spec {f : Frame} {n : Nat} (hf : f.pool = .pool_in)
    (hp : ptr .current_fb = some f) (hok : ∀ ptr, Q .VF_SUCCESS ⟨ptr, [], none⟩) :
    wp (Steps .camera) (vf_camera_unit_send_data UnitId.camera.unit .pool_in) Q
      ⟨ptr, [⟨f, 0, n⟩], some n⟩ := by
  unfold vf_camera_unit_send_data
  simp only [wp_bind, wp_ite, wp_pure, wp_perform, Steps, Does, UnitId.unit, push, hp,
    reduceCtorEq, if_false]
  refine ⟨by simp [UnitId.ref], by simp [UnitId.ref], trivial, ⟨f, 0, n⟩, by simp, by simp, hf,
    rfl, rfl, ?_⟩
  simpa using fun _ => hok _

theorem camera_runs {L : View} (h : Idle .camera L) :
    wp (Steps .camera) UnitId.camera.run (Ran .camera) L := by
  apply vf_unit_run.spec h
  obtain ⟨ptr, cells, carry⟩ := L
  obtain ⟨rfl, rfl⟩ : cells = [] ∧ carry = none := h
  have idle : ∀ ptr, Idle .camera ⟨ptr, [], none⟩ := fun _ => ⟨rfl, rfl⟩
  apply vf_camera_unit_get_data.spec
  · intro f n hf
    simp only [vf_camera_unit_process_data, wp_pure, ne_eq, not_true_eq_false, if_false]
    exact vf_camera_unit_send_data.spec hf (by simp) fun _ => (idle _).ran _
  · intro err ptr he
    rw [if_pos he]
    exact (idle _).ran _

end camera

/-! ## The stream provider -/

section stream_provider
variable {Q : vf_err_t → View → Prop} {ptr : Field → Option Frame}

theorem vf_stream_provider_unit_get_data.spec
    (hok : ∀ f n, f.pool = .pool_in →
      Q .VF_SUCCESS ⟨Function.update ptr .current_fb (some f), [⟨f, 1, n⟩], some n⟩)
    (herr : ∀ ptr, Q .VF_QUEUE_SHUTDOWN ⟨ptr, [], none⟩) :
    wp (Steps .stream_provider)
      (vf_stream_provider_unit_get_data UnitId.stream_provider.unit 1) Q ⟨ptr, [], none⟩ := by
  unfold vf_stream_provider_unit_get_data
  simp only [wp_bind, wp_ite, wp_pure, wp_perform, Steps, Does, UnitId.unit, ref_each,
    vf_framebuffer_ref]
  refine ⟨by simp, by decide, trivial, trivial, by simp, ?_, ?_⟩
  · intro f n hf _
    simp only [View.forget_mk, View.put_mk, View.add_mk, View.carrying_mk, QueueId.ref, ne_eq,
      not_true_eq_false, if_false]
    refine ⟨?_, ⟨f, 0, n⟩, by simp, by simp, ?_⟩
    · have hpool : f.pool = .pool_in := hf
      simp [UnitId.ref, hpool]
    · simpa [u32] using hok f n hf
  · exact herr _

theorem vf_stream_provider_unit_send_data.spec {f : Frame} {n : Nat} (hf : f.pool = .pool_in)
    (hp : ptr .current_fb = some f) (hok : ∀ ptr, Q .VF_SUCCESS ⟨ptr, [], none⟩) :
    wp (Steps .stream_provider)
      (vf_stream_provider_unit_send_data UnitId.stream_provider.unit (some .pool_in)) Q
      ⟨ptr, [⟨f, 1, n⟩], some n⟩ := by
  unfold vf_stream_provider_unit_send_data
  simp only [wp_bind, wp_ite, wp_pure, wp_perform, Steps, Does, UnitId.unit, push, hp,
    reduceCtorEq, if_false]
  refine ⟨by simp [UnitId.ref, hf], by simp [UnitId.ref, hf], trivial, ⟨f, 1, n⟩, by simp,
    by simp, hf, rfl, rfl, ?_⟩
  simpa using hok _

theorem stream_provider_runs {L : View} (h : Idle .stream_provider L) :
    wp (Steps .stream_provider) UnitId.stream_provider.run (Ran .stream_provider) L := by
  apply vf_unit_run.spec h
  obtain ⟨ptr, cells, carry⟩ := L
  obtain ⟨rfl, rfl⟩ : cells = [] ∧ carry = none := h
  have idle : ∀ ptr, Idle .stream_provider ⟨ptr, [], none⟩ := fun _ => ⟨rfl, rfl⟩
  apply vf_stream_provider_unit_get_data.spec
  · intro f n hf
    simp only [vf_stream_provider_unit_process_data, wp_pure, ne_eq, not_true_eq_false, if_false]
    exact vf_stream_provider_unit_send_data.spec hf (by simp) fun _ => (idle _).ran _
  · intro ptr
    rw [if_pos (by decide)]
    exact (idle _).ran _

end stream_provider

/-! ## The conversion unit -/

section conversion
variable {Q : vf_err_t → View → Prop} {ptr : Field → Option Frame} {f : Frame} {n : Nat}

/-- A frame that a run before left in `in_fb` is forgotten. -/
theorem vf_conversion_unit_get_data.spec {L : View} (h : Idle .conversion L)
    (hok : ∀ ptr f n, ptr .in_fb = some f → ptr .out_fb = none → f.pool = .pool_in →
      Q .VF_SUCCESS ⟨ptr, [⟨f, 1, n⟩], some n⟩)
    (herr : ∀ ptr, ptr .out_fb = none → Q .VF_QUEUE_SHUTDOWN ⟨ptr, [], none⟩) :
    wp (Steps .conversion) (vf_conversion_unit_get_data UnitId.conversion.unit) Q L := by
  have hforget : (L.forget .in_fb).cells = [] := by
    obtain ⟨-, hcells | ⟨f, n, -, hcells, hp⟩⟩ := h.1
    · simp [View.forget, hcells]
    · simp [View.forget, hcells, hp]
  have hold : ∀ x ∈ L.cells, x.frame.pool = .pool_in ∧ x.ref = 1 := by
    obtain ⟨-, hcells | ⟨f, n, hf, hcells, -⟩⟩ := h.1
    · simp [hcells]
    · simp [hcells, hf]
  have hout : L.ptr .out_fb = none := h.1.1
  have hrefs := h.1.refs
  unfold vf_conversion_unit_get_data
  simp only [wp_bind, wp_ite, wp_pure, wp_perform, Steps, Does, UnitId.unit]
  refine ⟨hrefs, by decide, trivial, h.2, fun x hx _ => ⟨trivial, trivial, hold x hx⟩, ?_, ?_⟩
  · intro f n hf _
    rw [if_neg (by decide)]
    have := hok (Function.update (L.forget .in_fb).ptr .in_fb (some f)) f n (by simp)
      (by simp [View.forget, View.put, hout]) hf
    simpa [View.put, View.add, View.carrying, hforget, QueueId.ref] using this
  · have := herr (L.forget .in_fb).ptr (by simp [View.forget, View.put, hout])
    have hcarry : (L.forget .in_fb).carry = none := h.2
    rw [← hforget, ← hcarry] at this
    exact this

theorem vf_conversion_unit_process_data.spec (hf : f.pool = .pool_in)
    (hin : ptr .in_fb = some f) (hout : ptr .out_fb = none)
    (hok : ∀ g, g.pool = .pool_out →
      Q .VF_SUCCESS ⟨Function.update ptr .out_fb (some g), [⟨g, 0, n⟩, ⟨f, 1, n⟩], some n⟩)
    (herr : Q .VF_QUEUE_SHUTDOWN ⟨Function.update ptr .out_fb none, [⟨f, 1, n⟩], some n⟩) :
    wp (Steps .conversion) (vf_conversion_unit_process_data .pool_out) Q
      ⟨ptr, [⟨f, 1, n⟩], some n⟩ := by
  unfold vf_conversion_unit_process_data
  simp only [wp_bind, wp_ite, wp_pure, wp_perform, Steps, Does, hin, reduceCtorEq, if_false]
  refine ⟨by simp [UnitId.ref, hf], by simp [UnitId.ref, hf], by decide,
    by simp [View.Loose, hout], ?_,
    herr⟩
  intro g m hg hne
  have hfg : f ≠ g := fun he => by simp [← he, hf] at hg
  simp only [View.put_mk, View.add_mk, ne_eq, not_true_eq_false, if_false]
  refine ⟨by simp [UnitId.ref, hf, hg], ⟨f, 1, n⟩, by simp, ⟨g, 0, m⟩, by simp, by simp [hin],
    by simp, hf, hg, ?_⟩
  simpa [hfg] using hok g hg

/-- The last count of the input is given back, and with it the frame. -/
theorem vf_framebuffer_unref.spec (hf : f.pool = .pool_in) (hin : ptr .in_fb = some f)
    (hok : Q .VF_SUCCESS ⟨ptr, [], none⟩) :
    wp (Steps .conversion) (vf_framebuffer_unref .in_fb (some .pool_in)) Q
      ⟨ptr, [⟨f, 1, n⟩], none⟩ := by
  have hzero : u32_sub 1 1 = 0 := u32_sub_of_le (Nat.le_refl 1) (by decide)
  have hsub : ([⟨f, 1, n⟩] : List Cell).map (fun x =>
      if x.frame = f then { x with ref := u32_sub x.ref 1 } else x) = [⟨f, 0, n⟩] := by
    simp [hzero]
  unfold vf_framebuffer_unref
  simp only [wp_bind, wp_perform, Steps, Does]
  refine ⟨by simp [UnitId.ref, hf], ⟨f, 1, n⟩, by simp, hin, ?_⟩
  simp only [View.change_mk, hsub, one_ne_zero, if_false, if_true]
  refine ⟨by simp [UnitId.ref, hf], ⟨f, 0, n⟩, by simp, hin, hf, rfl, rfl, ?_⟩
  simpa using hok

theorem vf_conversion_unit_send_data.spec {g : Frame} (hf : f.pool = .pool_in)
    (hg : g.pool = .pool_out) (hin : ptr .in_fb = some f) (hout : ptr .out_fb = some g)
    (hok : ∀ ptr, ptr .out_fb = none → Q .VF_SUCCESS ⟨ptr, [], none⟩) :
    wp (Steps .conversion)
      (vf_conversion_unit_send_data UnitId.conversion.unit .pool_out (some .pool_in)) Q
      ⟨ptr, [⟨g, 0, n⟩, ⟨f, 1, n⟩], some n⟩ := by
  have hfg : f ≠ g := fun he => by simp [← he, hf] at hg
  have hleft : [⟨g, 0, n⟩, ⟨f, 1, n⟩].filter (fun x : Cell => x.frame ≠ g) = [⟨f, 1, n⟩] := by
    simp [hfg]
  unfold vf_conversion_unit_send_data
  simp only [wp_bind, wp_ite, wp_pure, wp_perform, Steps, Does, UnitId.unit, push, hout,
    reduceCtorEq, if_false]
  refine ⟨by simp [UnitId.ref, hf, hg], by simp [UnitId.ref, hf, hg], trivial, ⟨g, 0, n⟩,
    by simp, by simp, hg, rfl, rfl, ?_⟩
  simp only [View.without_mk, View.carrying_mk, hleft, hin, ne_eq, not_true_eq_false, if_false,
    reduceCtorEq, not_false_eq_true, if_true]
  refine ⟨by simp [UnitId.ref, hf], ?_⟩
  apply vf_framebuffer_unref.spec hf hin
  refine ⟨by simp, by simp, by simp, by simp, ?_⟩
  exact hok _ (by simp)

theorem conversion_runs {L : View} (h : Idle .conversion L) :
    wp (Steps .conversion) UnitId.conversion.run (Ran .conversion) L := by
  have idle : ∀ ptr, ptr .out_fb = none → Idle .conversion ⟨ptr, [], none⟩ :=
    fun _ hout => ⟨⟨hout, Or.inl rfl⟩, rfl⟩
  apply vf_unit_run.spec h
  apply vf_conversion_unit_get_data.spec h
  · intro ptr f n hin hout hf
    rw [if_neg (by decide)]
    apply vf_conversion_unit_process_data.spec hf hin hout
    · intro g hg
      rw [if_neg (by decide)]
      apply vf_conversion_unit_send_data.spec hf hg (by simp [hin]) (by simp)
      intro ptr hout
      exact (idle ptr hout).ran _
    · rw [if_pos (by decide)]
      exact ⟨by simp, Or.inr ⟨f, n, hf, rfl, by simp [hin]⟩⟩
  · intro ptr hout
    rw [if_pos (by decide)]
    exact (idle ptr hout).ran _

end conversion

/-! ## The file unit -/

section file_out
variable {Q : vf_err_t → View → Prop} {ptr : Field → Option Frame}

theorem vf_file_unit_get_data.spec
    (hok : ∀ f n, f.pool = .pool_out →
      Q .VF_SUCCESS ⟨Function.update ptr .current_fb (some f), [⟨f, 0, n⟩], some n⟩)
    (herr : ∀ ptr, Q .VF_QUEUE_SHUTDOWN ⟨ptr, [], none⟩) :
    wp (Steps .file_out) (vf_file_unit_get_data UnitId.file_out.unit) Q ⟨ptr, [], none⟩ := by
  unfold vf_file_unit_get_data
  simp only [wp_bind, wp_ite, wp_pure, wp_perform, Steps, Does, UnitId.unit]
  refine ⟨by simp, by decide, trivial, trivial, by simp, ?_, ?_⟩
  · intro f n hf _
    simpa [QueueId.ref] using hok f n hf
  · exact herr _

/-- The frame goes back to its pool, whatever the file does. -/
theorem vf_file_unit_send_data.spec {f : Frame} {n : Nat} (hf : f.pool = .pool_out)
    (hp : ptr .current_fb = some f) (hQ : ∀ err ptr, Q err ⟨ptr, [], none⟩) :
    wp (Steps .file_out) (vf_file_unit_send_data (some .pool_out)) Q
      ⟨ptr, [⟨f, 0, n⟩], some n⟩ := by
  have hrefs : ∀ c, ∀ x ∈ [(⟨f, 0, n⟩ : Cell)], x.ref = UnitId.file_out.ref c x.frame.pool := by
    simp [UnitId.ref]
  have hrelease : ∀ err, wp (Steps .file_out) (release .pool_out .current_fb)
      (fun _ L => wp (Steps .file_out) (set_null .current_fb) (fun _ L => Q err L) L)
      ⟨ptr, [⟨f, 0, n⟩], some n⟩ := by
    intro err
    refine ⟨hrefs _, ⟨f, 0, n⟩, by simp, hp, hf, rfl, rfl, by simp, by simp, ?_⟩
    simpa using hQ err _
  unfold vf_file_unit_send_data
  simp only [wp_bind, wp_ite, wp_pure]
  refine ⟨hrefs _, ?_⟩
  simp only [Does, hp]
  refine ⟨hrefs _, fun err => ?_⟩
  by_cases he : err = .VF_SUCCESS
  · simp only [wp_ret, he, ne_eq, not_true_eq_false, if_false]
    exact ⟨hrefs _, ⟨⟨f, 0, n⟩, by simp, hp⟩, hrelease⟩
  · simp only [wp_ret, he, ne_eq, not_false_eq_true, if_true]
    exact hrelease err

theorem file_out_runs {L : View} (h : Idle .file_out L) :
    wp (Steps .file_out) UnitId.file_out.run (Ran .file_out) L := by
  apply vf_unit_run.spec h
  obtain ⟨ptr, cells, carry⟩ := L
  obtain ⟨rfl, rfl⟩ : cells = [] ∧ carry = none := h
  have idle : ∀ ptr, Idle .file_out ⟨ptr, [], none⟩ := fun _ => ⟨rfl, rfl⟩
  apply vf_file_unit_get_data.spec
  · intro f n hf
    simp only [vf_file_unit_process_data, wp_pure, ne_eq, not_true_eq_false, if_false]
    exact vf_file_unit_send_data.spec hf (by simp) fun _ _ => (idle _).ran _
  · intro ptr
    rw [if_pos (by decide)]
    exact (idle _).ran _

end file_out

/-- A unit that starts a run with nothing but a frame it may have kept does only what it
may do, and ends its run like this again. -/
theorem UnitId.runs (u : UnitId) {L : View} (h : Idle u L) : wp (Steps u) u.run (Ran u) L := by
  cases u with
  | camera => exact camera_runs h
  | stream_provider => exact stream_provider_runs h
  | conversion => exact conversion_runs h
  | file_out => exact file_out_runs h

end vision_flow.units
