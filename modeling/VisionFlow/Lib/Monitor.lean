-- Monitors: data behind one lock, and one condition variable. A thread runs an operation
-- as one critical section, which ends, or waits on the condition and goes on later. When
-- one signal for each new resource is enough, no wake-up is lost.
import VisionFlow.Lib.Runs

namespace monitor

open runs

/-! ## The machine -/

/-- Whom a critical section wakes: nobody, at least one of the blocked threads, or all. -/
inductive Signal
  | nobody
  | one
  | all
  deriving DecidableEq

/-- A critical section leaves new data, or it waits. `rest` is what runs when the thread
has the lock again. `κ` are the operations, and `σ` is the data. -/
inductive Outcome (κ σ : Type)
  | leaves (data : σ) (signal : Signal)
  | waits (rest : κ)

/-- A woken thread does not have the lock yet. -/
inductive Status (κ : Type)
  | outside
  | blocked (rest : κ)
  | woken (rest : κ)

def Status.is_blocked {κ : Type} : Status κ → Bool
  | .blocked _ => true
  | _ => false

def Status.is_woken {κ : Type} : Status κ → Bool
  | .woken _ => true
  | _ => false

structure St (ι κ σ : Type) where
  data : σ
  status : ι → Status κ

inductive Act (ι κ : Type)
  /-- The thread `i` takes the lock for an operation. `wakes` are those that its signal
  wakes. -/
  | enter (i : ι) (op : κ) (wakes : ι → Bool)
  /-- A woken thread takes the lock again. -/
  | resume (i : ι) (wakes : ι → Bool)
  /-- A blocked thread wakes up without a signal. -/
  | wake_up (i : ι)

variable {ι κ σ : Type}

/-- No thread is in the monitor. -/
def St.start (data : σ) : St ι κ σ := ⟨data, fun _ => .outside⟩

def wake (status : ι → Status κ) (wakes : ι → Bool) (i : ι) : Status κ :=
  match status i with
  | .blocked rest => if wakes i then .woken rest else .blocked rest
  | other => other

/-- A signal wakes a blocked thread, if there is one. -/
def SomeWoken (status : ι → Status κ) (wakes : ι → Bool) : Prop :=
  (∃ i, (status i).is_blocked = true) → ∃ i, (status i).is_blocked = true ∧ wakes i = true

section
variable [Fintype ι]

instance (status : ι → Status κ) (wakes : ι → Bool) : Decidable (SomeWoken status wakes) := by
  unfold SomeWoken
  infer_instance

/-- `none`: the signal would wake nobody, though a thread is blocked. -/
def signal (s : St ι κ σ) (wakes : ι → Bool) : Signal → Option (St ι κ σ)
  | .nobody => some s
  | .one => if SomeWoken s.status wakes then some { s with status := wake s.status wakes } else none
  | .all => some { s with status := wake s.status fun _ => true }

variable [DecidableEq ι]

/-- The thread `i` runs a critical section with this outcome. -/
def finish (s : St ι κ σ) (i : ι) (wakes : ι → Bool) : Outcome κ σ → Option (St ι κ σ)
  | .leaves data sig => signal ⟨data, Function.update s.status i .outside⟩ wakes sig
  | .waits rest => some { s with status := Function.update s.status i (.blocked rest) }

/-- `none`: the step does not happen in this state. -/
def step (body : κ → σ → Outcome κ σ) (s : St ι κ σ) : Act ι κ → Option (St ι κ σ)
  | .enter i op wakes =>
    match s.status i with
    | .outside => finish s i wakes (body op s.data)
    | _ => none
  | .resume i wakes =>
    match s.status i with
    | .woken rest => finish s i wakes (body rest s.data)
    | _ => none
  | .wake_up i =>
    match s.status i with
    | .blocked rest => some { s with status := Function.update s.status i (.woken rest) }
    | _ => none

end

/-! ## Woken threads -/

section
variable {status : ι → Status κ} {wakes : ι → Bool} {i : ι}

theorem blocked_of_wake (h : (wake status wakes i).is_blocked = true) :
    (status i).is_blocked = true ∧ wakes i = false := by
  unfold wake at h
  rcases hs : status i with _ | rest | rest <;> simp only [hs] at h
  · cases h
  · cases hw : wakes i with
    | true => simp [hw, Status.is_blocked] at h
    | false => exact ⟨rfl, rfl⟩
  · cases h

theorem nobody_blocked_of_wake_all : (wake status (fun _ => true) i).is_blocked = false := by
  unfold wake
  cases status i <;> rfl

theorem woken_of_wake (h : (status i).is_blocked = true) (hw : wakes i = true) :
    (wake status wakes i).is_woken = true := by
  unfold wake
  rcases hs : status i with _ | rest | rest
  · simp [hs, Status.is_blocked] at h
  · simp [hw, Status.is_woken]
  · rfl

theorem woken_stays (h : (status i).is_woken = true) :
    (wake status wakes i).is_woken = true := by
  unfold wake
  rcases hs : status i with _ | rest | rest
  · simp [hs, Status.is_woken] at h
  · simp [hs, Status.is_woken] at h
  · rfl

variable [Fintype ι]

def woken (status : ι → Status κ) : Finset ι := Finset.univ.filter fun i => (status i).is_woken

theorem mem_woken : i ∈ woken status ↔ (status i).is_woken = true := by
  simp [woken]

/-- A signal that finds a blocked thread makes one more woken thread. -/
theorem card_wake (hsome : SomeWoken status wakes) (h : ∃ i, (status i).is_blocked = true) :
    (woken status).card + 1 ≤ (woken (wake status wakes)).card := by
  obtain ⟨k, hk, hw⟩ := hsome h
  have hnot : k ∉ woken status := by
    rw [mem_woken]
    rcases hs : status k with _ | rest | rest
    · simp [Status.is_woken]
    · simp [Status.is_woken]
    · simp [hs, Status.is_blocked] at hk
  have hmem : k ∈ woken (wake status wakes) := mem_woken.mpr (woken_of_wake hk hw)
  have hsub : woken status ⊆ woken (wake status wakes) := fun j hj =>
    mem_woken.mpr (woken_stays (mem_woken.mp hj))
  exact Finset.card_lt_card ⟨hsub, fun hback => hnot (hback hmem)⟩

end

section
variable [DecidableEq ι] {status : ι → Status κ} {i j : ι}

theorem blocked_of_update {st : Status κ} (hst : st.is_blocked = false)
    (h : (Function.update status i st j).is_blocked = true) : (status j).is_blocked = true := by
  by_cases hj : j = i
  · subst hj
    simp [hst] at h
  · simpa [hj] using h

variable [Fintype ι]

/-- A thread that was not woken, and is not woken now. -/
theorem woken_update {st : Status κ} (h : (status i).is_woken = st.is_woken) :
    woken (Function.update status i st) = woken status := by
  ext j
  by_cases hj : j = i
  · subst hj
    simp [mem_woken, h]
  · simp [mem_woken, hj]

/-- A woken thread that leaves. -/
theorem card_leave (h : (status i).is_woken = true) :
    (woken (Function.update status i .outside)).card + 1 = (woken status).card := by
  have herase : woken (Function.update status i .outside) = (woken status).erase i := by
    ext j
    by_cases hj : j = i
    · subst hj
      simp [mem_woken, Status.is_woken]
    · simp [mem_woken, hj]
  rw [herase, Finset.card_erase_add_one (mem_woken.mpr h)]

/-- A blocked thread that wakes up. -/
theorem card_wake_up (rest : κ) (h : (status i).is_blocked = true) :
    (woken (Function.update status i (.woken rest))).card = (woken status).card + 1 := by
  have hnot : i ∉ woken status := by
    rw [mem_woken]
    rcases hs : status i with _ | rest | rest
    · simp [Status.is_woken]
    · simp [Status.is_woken]
    · simp [hs, Status.is_blocked] at h
  have hinsert : woken (Function.update status i (.woken rest)) = insert i (woken status) := by
    ext j
    by_cases hj : j = i
    · subst hj
      simp [mem_woken, Status.is_woken]
    · simp [mem_woken, hj]
  rw [hinsert, Finset.card_insert_of_notMem hnot]

end

/-! ## Counting wake-ups -/

/-- What an operation may do with the resources, which `avail` counts, and with the flag
`down`. Only an operation in `Takes` waits, and only with no resource left and the flag not
set. It wakes nobody, and takes a resource if it does not find the flag set. Who puts out a
resource wakes a thread, and who sets the flag wakes all. -/
structure Counts (body : κ → σ → Outcome κ σ) (ok : σ → Prop) (avail : σ → Nat) (down : σ → Bool)
    (Takes : κ → Prop) : Prop where
  keeps : ∀ op d d' sig, ok d → body op d = .leaves d' sig → ok d'
  waits : ∀ op d rest, ok d → body op d = .waits rest →
    avail d = 0 ∧ down d = false ∧ Takes rest
  takes : ∀ op d d' sig, ok d → Takes op → body op d = .leaves d' sig →
    sig = .nobody ∧ (down d = true ∨ avail d' + 1 ≤ avail d)
  nobody : ∀ op d d', ok d → body op d = .leaves d' .nobody →
    avail d' ≤ avail d ∧ (down d = false → down d' = false)
  one : ∀ op d d', ok d → body op d = .leaves d' .one →
    avail d' ≤ avail d + 1 ∧ (down d = false → down d' = false)

/-- While a thread is blocked, the flag is not set, and there are no more resources than
woken threads. So with no woken thread left, there is no resource. -/
structure NoneLost [Fintype ι] (avail : σ → Nat) (down : σ → Bool) (s : St ι κ σ) : Prop where
  counted : ∀ i, (s.status i).is_blocked = true →
    down s.data = false ∧ avail s.data ≤ (woken s.status).card
  settled : woken s.status = ∅ → ∀ i, (s.status i).is_blocked = true →
    down s.data = false ∧ avail s.data = 0

section
variable {Takes : κ → Prop} {status : ι → Status κ}

/-- A thread in the monitor waits for one of the operations that wait. -/
def Waiting (Takes : κ → Prop) (status : ι → Status κ) : Prop :=
  ∀ i rest, status i = .blocked rest ∨ status i = .woken rest → Takes rest

theorem Waiting.wake (h : Waiting Takes status) (wakes : ι → Bool) :
    Waiting Takes (wake status wakes) := by
  intro i rest hi
  apply h i rest
  unfold monitor.wake at hi
  rcases hs : status i with _ | r | r <;> simp only [hs] at hi
  · simp at hi
  · split at hi <;> simpa using hi
  · simpa using hi

theorem Waiting.update [DecidableEq ι] (h : Waiting Takes status) (i : ι) {st : Status κ}
    (hst : ∀ rest, st = .blocked rest ∨ st = .woken rest → Takes rest) :
    Waiting Takes (Function.update status i st) := by
  intro j rest hj
  by_cases hji : j = i
  · subst hji
    simp only [Function.update_self] at hj
    exact hst rest hj
  · simp only [Function.update_of_ne hji] at hj
    exact h j rest hj

end

structure Inv [Fintype ι] (ok : σ → Prop) (avail : σ → Nat) (down : σ → Bool) (Takes : κ → Prop)
    (s : St ι κ σ) : Prop where
  data : ok s.data
  waiting : Waiting Takes s.status
  counted : ∀ i, (s.status i).is_blocked = true →
    down s.data = false ∧ avail s.data ≤ (woken s.status).card

section
variable [Fintype ι] {body : κ → σ → Outcome κ σ} {ok : σ → Prop} {avail : σ → Nat}
  {down : σ → Bool} {Takes : κ → Prop} {s s' t : St ι κ σ} {wakes : ι → Bool}

theorem Inv.none_lost (h : Inv ok avail down Takes s) : NoneLost avail down s := by
  refine ⟨h.counted, fun hnone i hi => ?_⟩
  obtain ⟨hdown, hle⟩ := h.counted i hi
  rw [hnone, Finset.card_empty] at hle
  exact ⟨hdown, Nat.le_zero.mp hle⟩

variable [DecidableEq ι]

/-- A critical section of a thread that is outside, or goes on with what it waited for. -/
theorem Inv.finish (hc : Counts body ok avail down Takes) (h : Inv ok avail down Takes s) {i : ι}
    {op : κ} (hi : s.status i = .outside ∨ s.status i = .woken op)
    (hs : finish s i wakes (body op s.data) = some s') : Inv ok avail down Takes s' := by
  have hcount : ∀ j, (Function.update s.status i .outside j).is_blocked = true →
      down s.data = false ∧ avail s.data ≤ (woken s.status).card :=
    fun j hj => h.counted j (blocked_of_update rfl hj)
  have hwaiting : Waiting Takes (Function.update s.status i .outside) :=
    h.waiting.update i (by simp)
  rcases hbody : body op s.data with ⟨d, sig⟩ | rest <;> rw [hbody] at hs
  · simp only [monitor.finish] at hs
    have hok := hc.keeps op _ d sig h.data hbody
    cases sig with
    | nobody =>
      cases hs
      obtain ⟨hle, hflag⟩ := hc.nobody op _ d h.data hbody
      refine ⟨hok, hwaiting, fun j hj => ?_⟩
      obtain ⟨hdown, havail⟩ := hcount j hj
      refine ⟨hflag hdown, ?_⟩
      rcases hi with hi | hi
      · rw [woken_update (by rw [hi])]
        exact hle.trans havail
      · -- the woken thread is not counted any more, but it has taken a resource
        have hwoken : (s.status i).is_woken = true := by
          rw [hi]
          rfl
        have hleave := card_leave hwoken
        have htakes := hc.takes op _ d .nobody h.data (h.waiting i op (Or.inr hi)) hbody
        rcases htakes.2 with hset | htook
        · exact absurd (hdown.symm.trans hset) (by decide)
        · simp only
          omega
    | one =>
      obtain ⟨hle, hflag⟩ := hc.one op _ d h.data hbody
      have hout : s.status i = .outside := by
        rcases hi with hi | hi
        · exact hi
        · cases (hc.takes op _ d .one h.data (h.waiting i op (Or.inr hi)) hbody).1
      simp only [signal] at hs
      split at hs <;> cases hs
      rename_i hsome
      refine ⟨hok, hwaiting.wake wakes, fun j hj => ?_⟩
      obtain ⟨hwas, -⟩ := blocked_of_wake hj
      obtain ⟨hdown, havail⟩ := hcount j hwas
      -- a thread is still blocked, so there was one to wake for the new resource
      have hmore := card_wake hsome ⟨j, hwas⟩
      rw [woken_update (by rw [hout])] at hmore
      refine ⟨hflag hdown, ?_⟩
      simp only
      omega
    | all =>
      cases hs
      refine ⟨hok, hwaiting.wake _, fun j hj => ?_⟩
      exact absurd (nobody_blocked_of_wake_all.symm.trans hj) (by decide)
  · cases hs
    obtain ⟨hzero, hflag, htake⟩ := hc.waits op _ rest h.data hbody
    refine ⟨h.data, ?_, fun j _ => ⟨hflag, by simp [hzero]⟩⟩
    apply h.waiting.update
    rintro r (hr | hr) <;> cases hr
    exact htake

theorem Inv.step (hc : Counts body ok avail down Takes) (h : Inv ok avail down Takes s)
    {a : Act ι κ} (hs : step body s a = some s') : Inv ok avail down Takes s' := by
  cases a with
  | enter i op wakes =>
    simp only [monitor.step] at hs
    split at hs
    · rename_i hi
      exact h.finish hc (Or.inl hi) hs
    · cases hs
  | resume i wakes =>
    simp only [monitor.step] at hs
    split at hs
    · rename_i rest hi
      exact h.finish hc (Or.inr hi) hs
    · cases hs
  | wake_up i =>
    simp only [monitor.step] at hs
    split at hs
    · rename_i rest hi
      cases hs
      refine ⟨h.data, ?_, fun j hj => ?_⟩
      · apply h.waiting.update
        rintro r (hr | hr) <;> cases hr
        exact h.waiting i rest (Or.inl hi)
      · obtain ⟨hdown, havail⟩ := h.counted j (blocked_of_update rfl hj)
        have hblocked : (s.status i).is_blocked = true := by
          rw [hi]
          rfl
        have hmore := card_wake_up rest hblocked
        refine ⟨hdown, ?_⟩
        simp only
        omega
    · cases hs

/-- With operations that count their wake-ups, no run loses one. -/
theorem run_loses_none (hc : Counts body ok avail down Takes) {d : σ} (hd : ok d)
    {acts : List (Act ι κ)} (hrun : run (step body) (St.start d) acts = some t) :
    NoneLost avail down t := by
  have hstart : Inv ok avail down Takes (St.start d : St ι κ σ) :=
    ⟨hd, fun i rest hi => by simp [St.start] at hi,
      fun i hi => by simp [St.start, Status.is_blocked] at hi⟩
  have hstep : ∀ (s : St ι κ σ) a s', Inv ok avail down Takes s → True → step body s a = some s' →
      Inv ok avail down Takes s' := fun _ _ _ h _ hs => h.step hc hs
  exact (run_keeps hstep hstart (along_true acts) hrun).none_lost

end

end monitor
