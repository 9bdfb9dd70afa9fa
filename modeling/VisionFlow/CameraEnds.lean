-- The end of the program with a camera. In each run that is scheduled fairly, the program ends
-- after the signal, and before it each client is served.
import VisionFlow.CameraCallers

namespace vision_flow.camera_program

open programs units lifecycle runs fairness

section
variable {e : Endless step}

/-! ## The main thread as a caller -/

def Scheduled.main (h : Scheduled e) : Caller e (Option vf_err_t) where
  pc := St.main
  task := .main
  holds := fun _ => True
  stays i _ _ ha := ⟨trivial, main_stays (e.goes i) ha⟩
  goes i _ hbusy ha := by
    obtain ⟨o, ha⟩ := act_of_main ha
    have hs := e.goes i
    rw [ha] at hs
    have hs' := (main_step_busy o hbusy).symm.trans (step_main hs)
    obtain ⟨⟨pc', t⟩, hadv, heq⟩ := Option.map_eq_some_iff.mp hs'
    refine ⟨trivial, o, t, hadv.trans ?_⟩
    rw [← heq]
  can i hbusy hadv := by
    change (main_step calm (e.state i)).isSome = true
    rw [main_step_busy calm hbusy, Option.isSome_map]
    exact hadv
  own := .inl rfl
  calling i c q k hpc := by simp [St.calling, hpc, Pc.calling]
  alone i c q k hpc hne ha := by
    obtain ⟨stage, hinv⟩ := (h.good i).inv
    have hfit := hinv.main
    rw [hpc] at hfit
    have hgone := hinv.joinable hfit.1
    rcases ha with ha | ha
    · exact absurd ha hne
    · obtain ⟨o, ha⟩ := act_of_server ha
      have hs := e.goes i
      rw [ha] at hs
      have hs' := step_server hs
      unfold server_step at hs'
      rw [hgone] at hs'
      cases hs'
  served i c q k hpc := by
    obtain ⟨stage, hinv⟩ := (h.good i).inv
    have hfit := hinv.main
    rw [hpc] at hfit
    obtain ⟨-, -, v, hv, -⟩ := hfit
    exact ⟨v, hv⟩
  forward i := (h.good i).main

/-! ## The thread of the server as a caller -/

/-- What holds while the thread of the server runs. The main thread waits. -/
structure Meanwhile (e : Endless step) (Z : St → Prop) : Prop where
  keeps : ∀ i, Z (e.state i) → (e.state i).server ≠ .gone → Z (e.state (i + 1))
  main : ∀ i, Z (e.state i) → (e.state i).server ≠ .gone → (e.act i).task = some .main →
    e.state (i + 1) = e.state i

theorem Pc.is_gone_iff {α : Type} {pc : Pc α} : pc.is_gone = true ↔ pc = .gone := by
  cases pc <;> simp [Pc.is_gone]

theorem Pc.busy_ne_gone {α : Type} {pc : Pc α} (h : pc.busy = true) : pc ≠ .gone := by
  rintro rfl
  cases h

variable {Z : St → Prop}

def Meanwhile.server (hz : Meanwhile e Z) (h : Scheduled e) : Caller e Bool where
  pc := St.server
  task := .server
  holds := Z
  stays i hi hbusy ha := by
    have hne := Pc.busy_ne_gone hbusy
    obtain ⟨stage, hinv⟩ := (h.good i).inv
    exact ⟨hz.keeps i hi hne, server_stays hinv (e.goes i) ha hne⟩
  goes i hi hbusy ha := by
    obtain ⟨o, ha⟩ := act_of_server ha
    have hs := e.goes i
    rw [ha] at hs
    have hs' := (server_step_busy o hbusy).symm.trans (step_server hs)
    obtain ⟨⟨pc', t⟩, hadv, heq⟩ := Option.map_eq_some_iff.mp hs'
    refine ⟨hz.keeps i hi (Pc.busy_ne_gone hbusy), o, t, hadv.trans ?_⟩
    rw [← heq]
  can i hbusy hadv := by
    change (server_step calm (e.state i)).isSome = true
    rw [server_step_busy calm hbusy, Option.isSome_map]
    exact hadv
  own := .inr rfl
  calling i c q k hpc := by
    obtain ⟨stage, hinv⟩ := (h.good i).inv
    rcases hinv.one_call with hmain | hgone
    · rw [calling_of_server hmain, hpc]
      rfl
    · rw [hgone] at hpc
      cases hpc
  alone i c q k hpc hne ha := by
    obtain ⟨stage, hinv⟩ := (h.good i).inv
    rcases ha with ha | ha
    · obtain ⟨o, ha⟩ := act_of_main ha
      have hs := e.goes i
      rw [ha] at hs
      exact main_beside hinv (by rw [hpc]; simp) (step_main hs)
    · exact absurd ha hne
  served i c q k hpc := by
    obtain ⟨stage, hinv⟩ := (h.good i).inv
    have hlive := hinv.live (by
      by_contra hj
      rw [hinv.joinable (Bool.eq_false_iff.mpr hj)] at hpc
      cases hpc)
    exact Option.isSome_iff_exists.mp hlive.1
  forward i := (h.good i).server

/-! ## The body of the server's loop -/

theorem advance_code {α : Type} {s t : St} {o : Oracle} {c : SysCmd} {k : c.Res → Code α}
    {pc' : Pc α} (hcall : ∀ d, c ≠ .call d)
    (hadv : advance o s (.code (.op c k)) = some (pc', t)) :
    ∃ r, do_sys o s c = some (r, t) ∧ pc' = .code (k r) := by
  rcases advance_cases hadv with ⟨d, k', heq, -⟩ | ⟨c', k', r, heq, hdo, rfl⟩ |
    ⟨_, _, _, _, _, heq, -⟩ | ⟨_, _, _, heq, -⟩
  · cases heq
    exact absurd rfl (hcall d)
  · cases heq
    exact ⟨r, hdo, rfl⟩
  · cases heq
  · cases heq

theorem advance_isSome {α : Type} {s : St} {o : Oracle} {c : SysCmd} {k : c.Res → Code α}
    (hdo : (do_sys o s c).isSome = true) : (advance o s (.code (.op c k))).isSome = true := by
  cases c with
  | call d => rfl
  | _ => simpa [advance] using hdo

/-- The server's thread is at this place in its code. -/
def ServerAt (Z : St → Prop) (p : Code Bool) (s : St) : Prop := Z s ∧ s.server = .code p

/-- The server's thread is about to read from a client. -/
def ReadsFrom (Z : St → Prop) (k : List Char → Code Bool) (n : Nat) (s : St) : Prop :=
  ServerAt Z (.op .read k) s ∧ s.client_fd = some n ∧ n ∈ s.open_fds ∧ n < s.accepted

theorem ReadsFrom.stays (hz : Meanwhile e Z) {k : List Char → Code Bool} {n i : Nat}
    (hr : ReadsFrom Z k n (e.state i)) (ha : (e.act i).task ≠ some .server)
    (hat : ServerAt Z (.op .read k) (e.state (i + 1))) :
    ReadsFrom Z k n (e.state (i + 1)) ∧ (((e.state i).clients n).heard = true →
      ((e.state (i + 1)).clients n).heard = true) := by
  obtain ⟨⟨hZ, hpc⟩, hfd, hopen, haccepted⟩ := hr
  have hne : (e.state i).server ≠ .gone := by rw [hpc]; simp
  rcases step_cases (e.goes i) with ⟨o, hact, -⟩ | ⟨o, hact, -⟩ | ⟨v, v', -, -, hs⟩ |
    ⟨-, hworld⟩
  · unfold ReadsFrom
    rw [hz.main i hZ hne (by rw [hact]; rfl)] at hat ⊢
    exact ⟨⟨hat, hfd, hopen, haccepted⟩, id⟩
  · exact absurd (by rw [hact]; rfl) ha
  · unfold ReadsFrom
    rw [hs] at hat ⊢
    exact ⟨⟨hat, hfd, hopen, haccepted⟩, id⟩
  · obtain ⟨_, _, _, hs⟩ := hworld.same
    refine ⟨⟨hat, ?_⟩, hworld.heard n⟩
    rw [hs]
    exact ⟨hfd, hopen, haccepted⟩

/-- A command of the server's thread, other than a call, that cannot wait for ever. -/
theorem ServerAt.by_step (hz : Meanwhile e Z) (h : Scheduled e) {c : SysCmd}
    (hcall : ∀ d, c ≠ .call d) (k : c.Res → Code Bool)
    (hcan : ∀ i, ServerAt Z (.op c k) (e.state i) → (do_sys calm (e.state i) c).isSome = true) :
    LeadsTo e (ServerAt Z (.op c k)) fun s => ∃ r, ServerAt Z (k r) s := by
  refine (hz.server h).by_step h rfl (fun i hi => hi)
    (fun i hi => advance_isSome (hcan i hi)) (fun i _ _ hholds hpc => .inl ⟨hholds, hpc⟩)
    fun i o t _ hholds hadv => ?_
  obtain ⟨r, -, hpc⟩ := advance_code hcall hadv
  exact ⟨r, hholds, hpc⟩

theorem ServerAt.serves (h : Scheduled e) {p : Code Bool} {i : Nat}
    (hat : ServerAt Z p (e.state i)) :
    ∃ b, Holding (e.state i) b ∧ wp Serves p (fun _ b => b = false) b := by
  obtain ⟨stage, hinv⟩ := (h.good i).inv
  have hfit := hinv.server
  rw [hat.2] at hfit
  exact hfit

/-- A read of a client that was heard of does not wait. -/
theorem ServerAt.reads (hz : Meanwhile e Z) (h : Scheduled e) (k : List Char → Code Bool) :
    LeadsTo e (ServerAt Z (.op .read k)) fun s => ∃ text, ServerAt Z (k text) s := by
  have hdone : ∀ i o t, Z (e.state (i + 1)) →
      advance o (e.state i) (.code (.op .read k)) = some ((e.state (i + 1)).server, t) →
      ∃ text, ServerAt Z (k text) (e.state (i + 1)) := by
    intro i o t hZ hadv
    obtain ⟨text, -, hpc⟩ := advance_code (by simp) hadv
    exact ⟨text, hZ, hpc⟩
  intro i hat
  obtain ⟨b, hhold, hserves⟩ := hat.serves h
  obtain ⟨rfl, -⟩ := hserves
  obtain ⟨n, hfd, hopen, haccepted, -⟩ := hhold
  have hreads : ReadsFrom Z k n (e.state i) :=
    ⟨hat, hfd, by simp [hopen], by omega⟩
  refine LeadsTo.waits (P := ReadsFrom Z k n) (Q := fun s => ∃ text, ServerAt Z (k text) s)
    (R := fun s => (s.clients n).heard = true) (fun i hi => ?_) (fun i hi => h.heard i n hi.2.2.2) ?_ i hreads
  · by_cases ha : (e.act i).task = some .server
    · obtain ⟨hZ, o, t, hadv⟩ := (hz.server h).goes i hi.1.1 (by
        simp only [Meanwhile.server, hi.1.2, Pc.busy]) ha
      simp only [Meanwhile.server, hi.1.2] at hZ hadv
      exact .inr (hdone i o t hZ hadv)
    · obtain ⟨hZ, hpc⟩ := (hz.server h).stays i hi.1.1 (by
        simp only [Meanwhile.server, hi.1.2, Pc.busy]) ha
      exact .inl (hi.stays hz ha ⟨hZ, hpc.trans hi.1.2⟩).1
  · refine (hz.server h).by_step h rfl (fun i hi => hi.1.1)
      (fun i hi => ?_) (fun i hi ha hholds hpc => ?_) fun i o t _ => hdone i o t
    · obtain ⟨⟨-, hfd, hopen, -⟩, hheard⟩ := hi
      apply advance_isSome
      simp only [do_sys, do_read, hfd, hopen, not_true_eq_false, if_false]
      unfold Client.heard at hheard
      rcases hsent : ((e.state i).clients n).sent with _ | text
      · rw [hsent] at hheard
        simp only [Option.isSome_none, Bool.false_or] at hheard
        simp [hheard]
      · rfl
    · obtain ⟨hkept, hheard⟩ := hi.1.stays hz ha ⟨hholds, hpc⟩
      exact .inl ⟨hkept, hheard hi.2⟩

/-- A call of the server's thread returns. -/
theorem ServerAt.call_leaves (hz : Meanwhile e Z) (h : Scheduled e) (c : Call)
    (k : vf_err_t → Code Bool) (err : vf_err_t) :
    LeadsTo e ((hz.server h).At c k (.ret err)) (ServerAt Z (k err)) := by
  refine (hz.server h).by_step h rfl (fun i hi => hi) (fun i _ => rfl)
    (fun i _ _ hholds hpc => .inl ⟨hholds, hpc⟩) fun i o t _ hholds hadv => ?_
  exact ⟨hholds, (congrArg Prod.fst (Option.some.inj hadv)).symm⟩

/-- A call of the server's thread. -/
theorem ServerAt.calls (hz : Meanwhile e Z) (h : Scheduled e) (c : Call)
    (k : vf_err_t → Code Bool) :
    LeadsTo e (ServerAt Z (.op (.call c) k)) fun s => ∃ err, ServerAt Z (k err) s := by
  have hbegins : LeadsTo e (ServerAt Z (.op (.call c) k)) ((hz.server h).At c k c.code) := by
    refine (hz.server h).by_step h rfl (fun i hi => hi) (fun i _ => rfl)
      (fun i _ _ hholds hpc => .inl ⟨hholds, hpc⟩) fun i o t _ hholds hadv => ?_
    exact ⟨hholds, (congrArg Prod.fst (Option.some.inj hadv)).symm⟩
  refine hbegins.trans (((hz.server h).call_ends h c k c.code).trans (LeadsTo.exists fun err => ?_))
  exact (ServerAt.call_leaves hz h c k err).trans (LeadsTo.of_imp fun i hi => ⟨err, hi⟩)

/-- The next command of the server's thread is answered, if an `accept` is. -/
theorem ServerAt.goes (hz : Meanwhile e Z) (h : Scheduled e) (c : SysCmd) (k : c.Res → Code Bool)
    (haccept : c = .accept → ∀ i, ServerAt Z (.op c k) (e.state i) →
      (do_accept calm (e.state i)).isSome = true) :
    LeadsTo e (ServerAt Z (.op c k)) fun s => ∃ r, ServerAt Z (k r) s := by
  cases c with
  | accept => exact ServerAt.by_step hz h (by simp) k (haccept rfl)
  | load_running => exact ServerAt.by_step hz h (by simp) k fun i _ => rfl
  | close => exact ServerAt.by_step hz h (by simp) k fun i _ => rfl
  | read => exact ServerAt.reads hz h k
  | call c => exact ServerAt.calls hz h c k
  | _ =>
    intro i hat
    obtain ⟨b, -, hserves⟩ := hat.serves h
    exact hserves.elim

/-- The server's thread tests the end of its loop, or of its body. -/
theorem server_tests (hz : Meanwhile e Z) (h : Scheduled e) {pc : Pc Bool} (hne : pc ≠ .gone)
    {Q : St → Prop} (hcan : ∀ i, (e.state i).server = pc →
      (server_step calm (e.state i)).isSome = true)
    (hnext : ∀ i o, Z (e.state i) → Z (e.state (i + 1)) → (e.state i).server = pc →
      server_step o (e.state i) = some (e.state (i + 1)) → Q (e.state (i + 1))) :
    LeadsTo e (fun s => Z s ∧ s.server = pc) Q := by
  refine LeadsTo.by_task h.fair .server (fun i hi => hcan i hi.2) (fun i hi ha => ?_)
    fun i hi ha => ?_
  · obtain ⟨stage, hinv⟩ := (h.good i).inv
    have hne' : (e.state i).server ≠ .gone := by rw [hi.2]; exact hne
    exact .inl ⟨hz.keeps i hi.1 hne', (server_stays hinv (e.goes i) ha hne').trans hi.2⟩
  · obtain ⟨o, ha⟩ := act_of_server ha
    have hs := e.goes i
    rw [ha] at hs
    exact hnext i o hi.1 (hz.keeps i hi.1 (by rw [hi.2]; exact hne)) hi.2 (step_server hs)

/-! ## The server ends -/

/-- The main thread waits for the thread of the server. -/
def JoinsServer (k : Unit → Code (Option vf_err_t)) (s : St) : Prop :=
  s.main = .code (.op .pthread_join k)

variable {k : Unit → Code (Option vf_err_t)}

theorem JoinsServer.meanwhile : Meanwhile e (JoinsServer k) := by
  have hblocked : ∀ i, JoinsServer k (e.state i) → (e.state i).server ≠ .gone →
      (e.act i).task ≠ some .main := by
    intro i hi hne ha
    obtain ⟨o, ha⟩ := act_of_main ha
    have hs := e.goes i
    rw [ha] at hs
    have hi' : (e.state i).main = .code (.op .pthread_join k) := hi
    have hs' := step_main hs
    rw [main_step_busy o (by rw [hi']; rfl), hi'] at hs'
    have hserves : (e.state i).serves = true := by
      rcases hpc : (e.state i).server with _ | p | ⟨c, q, k'⟩ | _
      · simp [St.serves, hpc, Pc.is_gone]
      · simp [St.serves, hpc, Pc.is_gone]
      · simp [St.serves, hpc, Pc.is_gone]
      · exact absurd hpc hne
    simp [advance, do_sys, hserves] at hs'
  refine ⟨fun i hi hne => ?_, fun i hi hne ha => absurd ha (hblocked i hi hne)⟩
  exact (main_stays (e.goes i) (hblocked i hi hne)).trans hi

/-- The server was told to stop before its thread is joined. -/
theorem JoinsServer.told (h : Scheduled e) {i : Nat} (hi : JoinsServer k (e.state i)) :
    (e.state i).running = false ∧ (e.state i).listener = some .shut := by
  obtain ⟨stage, hinv⟩ := (h.good i).inv
  have hfit := hinv.main
  have hi' : (e.state i).main = .code (.op .pthread_join k) := hi
  rw [hi'] at hfit
  obtain ⟨⟨-, hrunning, hshut, -⟩, -⟩ := hfit
  exact ⟨hrunning, hshut⟩

/-- An `accept` at the socket that was shut down does not wait. -/
theorem JoinsServer.accepts (h : Scheduled e) {i : Nat} (hi : JoinsServer k (e.state i)) :
    (do_accept calm (e.state i)).isSome = true := by
  obtain ⟨-, hshut⟩ := hi.told h
  unfold do_accept
  simp only [hshut, calm, Bool.not_true, Bool.false_eq_true, if_false, if_true]
  split <;> rfl

theorem JoinsServer.server_ends (h : Scheduled e) :
    LeadsTo e (JoinsServer k) fun s => JoinsServer k s ∧ s.server = .gone := by
  have hz : Meanwhile e (JoinsServer k) := JoinsServer.meanwhile
  have hloop : LeadsTo e (fun s => JoinsServer k s ∧ s.server = .loop)
      fun s => JoinsServer k s ∧ s.server = .gone := by
    refine server_tests hz h (by simp) (fun i hi => by simp [server_step, hi])
      fun i o hi hi' hpc hs => ⟨hi', ?_⟩
    obtain ⟨hrunning, -⟩ := hi.told h
    unfold server_step at hs
    simp only [hpc, hrunning, Bool.false_eq_true, if_false, Option.some.injEq] at hs
    rw [← hs]
  have hend : ∀ stop, LeadsTo e (ServerAt (JoinsServer k) (.ret stop))
      fun s => JoinsServer k s ∧ s.server = .gone := by
    intro stop
    have hnext : LeadsTo e (ServerAt (JoinsServer k) (.ret stop)) fun s =>
        (JoinsServer k s ∧ s.server = .gone) ∨ (JoinsServer k s ∧ s.server = .loop) := by
      refine server_tests hz h (by simp) (fun i hi => by simp [server_step, hi])
        fun i o hi hi' hpc hs => ?_
      unfold server_step at hs
      simp only [hpc, Option.some.injEq] at hs
      cases stop with
      | true => exact .inl ⟨hi', by rw [← hs]; rfl⟩
      | false => exact .inr ⟨hi', by rw [← hs]; rfl⟩
    exact hnext.trans (LeadsTo.or (LeadsTo.of_imp fun _ h => h) hloop)
  have hcode : ∀ p, LeadsTo e (ServerAt (JoinsServer k) p)
      fun s => JoinsServer k s ∧ s.server = .gone := by
    intro p
    refine (program_ends (ServerAt (JoinsServer k)) (fun c k' => ?_) p).trans
      (LeadsTo.exists hend)
    exact ServerAt.goes hz h c k' fun _ i hi => hi.1.accepts h
  have hcall : ∀ c q k', LeadsTo e ((hz.server h).At c k' q)
      fun s => JoinsServer k s ∧ s.server = .gone := by
    intro c q k'
    refine ((hz.server h).call_ends h c k' q).trans (LeadsTo.exists fun err => ?_)
    refine LeadsTo.trans ?_ (hcode (k' err))
    exact ServerAt.call_leaves hz h c k' err
  intro i hi
  rcases hpc : (e.state i).server with _ | p | ⟨c, q, k'⟩ | _
  · exact hloop i ⟨hi, hpc⟩
  · exact hcode p i ⟨hi, hpc⟩
  · exact hcall c q k' i ⟨hi, hpc⟩
  · exact ⟨i, le_rfl, hi, hpc⟩

/-! ## The main thread -/

/-- The main thread is at this place in its code, which ends with one of these results. -/
def MainAt (P : Option vf_err_t → Prop) (p : Code (Option vf_err_t)) (s : St) : Prop :=
  s.main = .code p ∧ p.Returns P

variable {P : Option vf_err_t → Prop}

theorem MainAt.by_step (h : Scheduled e) {c : SysCmd} (hcall : ∀ d, c ≠ .call d)
    (k : c.Res → Code (Option vf_err_t))
    (hcan : ∀ i, MainAt P (.op c k) (e.state i) → (do_sys calm (e.state i) c).isSome = true) :
    LeadsTo e (MainAt P (.op c k)) fun s => ∃ r, MainAt P (k r) s := by
  refine h.main.by_step h rfl (fun i hi => ⟨trivial, hi.1⟩)
    (fun i hi => advance_isSome (hcan i hi)) (fun i hi _ _ hpc => .inl ⟨hpc, hi.2⟩)
    fun i o t hi _ hadv => ?_
  obtain ⟨r, -, hpc⟩ := advance_code hcall hadv
  exact ⟨r, hpc, hi.2 r⟩

theorem MainAt.calls (h : Scheduled e) (c : Call) (k : vf_err_t → Code (Option vf_err_t)) :
    LeadsTo e (MainAt P (.op (.call c) k)) fun s => ∃ err, MainAt P (k err) s := by
  intro i hi
  have hbegins : LeadsTo e (fun s => s.main = .code (.op (.call c) k)) (h.main.At c k c.code) := by
    refine h.main.by_step h rfl (fun i hi => ⟨trivial, hi⟩) (fun i _ => rfl)
      (fun i _ _ _ hpc => .inl hpc) fun i o t _ _ hadv => ?_
    exact ⟨trivial, (congrArg Prod.fst (Option.some.inj hadv)).symm⟩
  have hleaves : ∀ err, LeadsTo e (h.main.At c k (.ret err)) (MainAt P (k err)) := by
    intro err
    refine h.main.by_step h rfl (fun i hi => hi) (fun i _ => rfl)
      (fun i _ _ hholds hpc => .inl ⟨hholds, hpc⟩) fun i o t _ _ hadv => ?_
    exact ⟨(congrArg Prod.fst (Option.some.inj hadv)).symm, hi.2 err⟩
  have hreturns : LeadsTo e (fun s => ∃ err, h.main.At c k (.ret err) s)
      fun s => ∃ err, MainAt P (k err) s := by
    refine LeadsTo.exists fun err => ?_
    exact (hleaves err).trans (LeadsTo.of_imp fun i hi => ⟨err, hi⟩)
  exact (hbegins.trans ((h.main.call_ends h c k c.code).trans hreturns)) i hi.1

/-- The join of the server's thread. -/
theorem MainAt.joins (h : Scheduled e) (k : Unit → Code (Option vf_err_t)) :
    LeadsTo e (MainAt P (.op .pthread_join k)) fun s => ∃ r, MainAt P (k r) s := by
  intro i hi
  have hjoins : LeadsTo e (fun s => JoinsServer k s ∧ s.server = .gone)
      fun s => ∃ r, MainAt P (k r) s := by
    refine h.main.by_step h rfl (fun i hi => ⟨trivial, hi.1⟩) (fun i hi => ?_)
      (fun i hi hne _ hpc => .inl ⟨hpc, ?_⟩) fun i o t _ _ hadv => ?_
    · apply advance_isSome
      simp [do_sys, St.serves, Pc.is_gone, hi.2]
    · -- no other thread makes a thread of the server
      rcases step_cases (e.goes i) with ⟨o, ha, -⟩ | ⟨o, -, hs⟩ | ⟨v, v', -, -, hs⟩ | ⟨-, hworld⟩
      · exact absurd (by rw [ha]; rfl) hne
      · unfold server_step at hs
        rw [hi.2] at hs
        cases hs
      · rw [hs]
        exact hi.2
      · obtain ⟨_, _, _, hs⟩ := hworld.same
        rw [hs]
        exact hi.2
    · obtain ⟨r, -, hpc⟩ := advance_code (by simp) hadv
      exact ⟨r, hpc, hi.2 r⟩
  exact ((JoinsServer.server_ends h).trans hjoins) i hi.1

theorem MainAt.goes (h : Scheduled e) (c : SysCmd) (k : c.Res → Code (Option vf_err_t)) :
    LeadsTo e (MainAt P (.op c k)) fun s => ∃ r, MainAt P (k r) s := by
  cases c with
  | call c => exact MainAt.calls h c k
  | pthread_join => exact MainAt.joins h k
  | service_init => exact MainAt.by_step h (by simp) k fun i _ => rfl
  | service_deinit => exact MainAt.by_step h (by simp) k fun i _ => rfl
  | socket => exact MainAt.by_step h (by simp) k fun i _ => rfl
  | bind => exact MainAt.by_step h (by simp) k fun i _ => rfl
  | listen => exact MainAt.by_step h (by simp) k fun i _ => rfl
  | shutdown => exact MainAt.by_step h (by simp) k fun i _ => rfl
  | close_listener => exact MainAt.by_step h (by simp) k fun i _ => rfl
  | has_fd => exact MainAt.by_step h (by simp) k fun i _ => rfl
  | load_initialized => exact MainAt.by_step h (by simp) k fun i _ => rfl
  | set_initialized b => exact MainAt.by_step h (by simp) k fun i _ => rfl
  | set_running b => exact MainAt.by_step h (by simp) k fun i _ => rfl
  | clear => exact MainAt.by_step h (by simp) k fun i _ => rfl
  | pthread_create => exact MainAt.by_step h (by simp) k fun i _ => rfl
  | _ =>
    intro i hi
    obtain ⟨stage, hinv⟩ := (h.good i).inv
    have hfit := hinv.main
    rw [hi.1] at hfit
    exact hfit.1.elim

theorem MainAt.ends (h : Scheduled e) (p : Code (Option vf_err_t)) :
    LeadsTo e (MainAt P p) fun s => ∃ r, s.main = .code (.ret r) ∧ P r :=
  (program_ends (MainAt P) (MainAt.goes h) p).trans
    (LeadsTo.of_imp fun _ hi => hi)

/-- The main thread is not in its code any more, or it waits for the signal. -/
theorem main_tests (h : Scheduled e) {pc : Pc (Option vf_err_t)} {Q : St → Prop}
    (hcan : ∀ i, (e.state i).main = pc → (main_step calm (e.state i)).isSome = true)
    {R : St → Prop} (hR : ∀ i, R (e.state i) → R (e.state (i + 1)))
    (hnext : ∀ i o, (e.state i).main = pc → R (e.state i) →
      main_step o (e.state i) = some (e.state (i + 1)) → Q (e.state (i + 1))) :
    LeadsTo e (fun s => s.main = pc ∧ R s) Q := by
  refine LeadsTo.by_task h.fair .main (fun i hi => hcan i hi.1) (fun i hi ha => ?_)
    fun i hi ha => ?_
  · exact .inl ⟨(main_stays (e.goes i) ha).trans hi.1, hR i hi.2⟩
  · obtain ⟨o, ha⟩ := act_of_main ha
    have hs := e.goes i
    rw [ha] at hs
    exact hnext i o hi.1 hi.2 (step_main hs)

theorem exits (h : Scheduled e) (err : vf_err_t) :
    LeadsTo e (fun s => s.main = .code (.ret (some err))) fun s => s.exit_code = some err := by
  have hexits : LeadsTo e (fun s => s.main = .code (.ret (some err)) ∧ True)
      fun s => s.exit_code = some err := by
    refine main_tests h (fun i hi => by simp [main_step, hi]) (fun _ _ => trivial)
      fun i o hi _ hs => ?_
    unfold main_step at hs
    simp only [hi, Option.some.injEq] at hs
    rw [← hs]
  exact fun i hi => hexits i ⟨hi, trivial⟩

/-- After the loop of the main thread there is no way back to it. -/
theorem wind_up.returns : wind_up.Returns (·.isSome = true) := by
  unfold wind_up vf_control_server_stop vf_control_server_deinit
  simp [Prog.Returns, EOK]

theorem winds_up (h : Scheduled e) :
    LeadsTo e (fun s => s.main = .code wind_up) fun s => ∃ err, s.exit_code = some err := by
  intro i hi
  obtain ⟨j, hij, r, hpc, hr⟩ :=
    MainAt.ends (P := (·.isSome = true)) h wind_up i ⟨hi, wind_up.returns⟩
  obtain ⟨err, rfl⟩ := Option.isSome_iff_exists.mp hr
  obtain ⟨k, hjk, hk⟩ := exits h err j hpc
  exact ⟨k, hij.trans hjk, err, hk⟩

/-- The loop of the main thread ends after the signal. -/
theorem leaves_the_loop (h : Scheduled e) (hsignal : ∃ i, e.act i = .signal) :
    LeadsTo e (fun s => s.main = .loop) fun s => s.main = .code wind_up := by
  obtain ⟨i₀, hact⟩ := hsignal
  have hcome : (e.state (i₀ + 1)).g_running = false := by
    have hs := e.goes i₀
    rw [hact] at hs
    unfold step at hs
    split at hs
    · cases hs
    · rw [← Option.some.inj hs]
  have hafter : ∀ i, (e.state i).g_running = false → (e.state (i + 1)).g_running = false :=
    fun i => (step_goes_on (e.goes i)).1
  refine LeadsTo.waits (R := fun s : St => s.g_running = false) (fun i hi => ?_) (fun i _ => ?_) ?_
  · by_cases ha : (e.act i).task = some .main
    · obtain ⟨o, ha⟩ := act_of_main ha
      have hs := e.goes i
      rw [ha] at hs
      rcases main_step_cases (step_main hs) with ⟨-, heq | ⟨-, heq⟩⟩ | ⟨hpc, -⟩ |
        ⟨err, hpc, -⟩ | ⟨pc', t, hadv, -⟩
      · exact .inl (by rw [heq]; exact hi)
      · exact .inr (by rw [heq])
      · rw [hi] at hpc
        cases hpc
      · rw [hi] at hpc
        cases hpc
      · rw [hi] at hadv
        cases hadv
    · exact .inl ((main_stays (e.goes i) ha).trans hi)
  · exact ⟨max i (i₀ + 1), le_max_left _ _,
      holds_on (P := fun s : St => s.g_running = false) hafter hcome (le_max_right _ _)⟩
  · refine main_tests h (fun i hi => by simp [main_step, hi]) hafter fun i o hi hfalse hs => ?_
    unfold main_step at hs
    simp only [hi, hfalse, Bool.false_eq_true, if_false, Option.some.injEq] at hs
    rw [← hs]

/-- Each run that is scheduled fairly, and in which the signal comes, is a run in which the
program ends. -/
theorem each_fair_run_ends_after_the_signal (h : Scheduled e)
    (hsignal : ∃ i, e.act i = .signal) : ∃ i err, (e.state i).exit_code = some err := by
  have hsetup : MainAt (fun _ => True) setup (e.state 0) :=
    ⟨by rw [h.start]; rfl, setup.returns_any⟩
  obtain ⟨i, -, r, hpc, -⟩ := MainAt.ends h setup 0 hsetup
  cases r with
  | some err =>
    obtain ⟨j, -, hj⟩ := exits h err i hpc
    exact ⟨j, err, hj⟩
  | none =>
    have hloop : LeadsTo e (fun s => s.main = .code (.ret none)) fun s => s.main = .loop := by
      have hloops : LeadsTo e (fun s => s.main = .code (.ret none) ∧ True)
          fun s => s.main = .loop := by
        refine main_tests h (fun i hi => by simp [main_step, hi]) (fun _ _ => trivial)
          fun i o hi _ hs => ?_
        unfold main_step at hs
        simp only [hi, Option.some.injEq] at hs
        rw [← hs]
      exact fun i hi => hloops i ⟨hi, trivial⟩
    obtain ⟨j, -, err, hj⟩ :=
      (hloop.trans ((leaves_the_loop h hsignal).trans (winds_up h))) i hpc
    exact ⟨j, err, hj⟩

/-- A client stops the service, the signal comes, the program ends, and then nothing happens
but further signals. -/
def one_client_and_no_more : List Act := a_client_and_a_signal ++ mains 2

theorem one_client_is_scheduled : ∃ e : Endless step, Scheduled e ∧ (∃ i, e.act i = .signal) ∧
    (∀ n ≤ one_client_and_no_more.length,
      run step .start (one_client_and_no_more.take n) = some (e.state n)) ∧
    ∀ ok : St → Act → Prop, Along step ok .start one_client_and_no_more → (∀ s, ok s .signal) →
      ∀ i, ok (e.state i) (e.act i) := by
  have hstate : (run step .start one_client_and_no_more).map (fun s =>
      (s.g_running || s.killed, s.main.is_gone && s.server.is_gone && s.svc.isNone,
        (s.clients 0).heard, s.accepted)) = some (false, true, true, 1) := by
    decide +kernel
  have hone : Along step (fun s _ => s.accepted ≤ 1) .start one_client_and_no_more := by
    decide +kernel
  have hstarts : Along step StartsStopped .start one_client_and_no_more := by decide +kernel
  have hcreates : Along step Creates .start one_client_and_no_more := by decide +kernel
  obtain ⟨t, hrun, heq⟩ := Option.map_eq_some_iff.mp hstate
  simp only [Prod.mk.injEq, Bool.or_eq_false_iff, Bool.and_eq_true] at heq
  obtain ⟨⟨hsignal, hkilled⟩, ⟨⟨hmain, hserver⟩, hsvc⟩, hheard, haccepted⟩ := heq
  have hlast : t.accepted ≤ 1 := haccepted.le
  have hstays : step t .signal = some t := by
    unfold step
    rw [if_neg (by simp [hkilled])]
    change some { t with g_running := false } = some t
    rw [← hsignal]
  have hlate : ∀ i, (Endless.of_run hrun hstays).state (max i one_client_and_no_more.length) = t :=
    fun i => of_run_late (le_max_right _ _)
  have hnone : ∀ p, ¬ CanRun p t := by
    rintro (_ | _ | ⟨u, tid⟩) hcan
    · have hpc := Pc.is_gone_iff.mp hmain
      simp [CanRun, main_step, hpc, advance] at hcan
    · have hpc := Pc.is_gone_iff.mp hserver
      simp [CanRun, server_step, hpc, advance] at hcan
    · obtain ⟨v, th, hv, -⟩ := hcan
      rw [hv] at hsvc
      cases hsvc
  refine ⟨.of_run hrun hstays, ⟨rfl, fun p i hi => ?_, fun i n hn => ?_, ?_, ?_⟩,
    ⟨one_client_and_no_more.length, by simp [Endless.of_run]⟩, fun n hn => of_run_take hn,
    fun ok hok hsignals => of_run_ok hok (hsignals t)⟩
  · have hlast := hi _ (le_max_left i one_client_and_no_more.length)
    rw [hlate] at hlast
    exact absurd hlast (hnone p)
  · have hle : ((Endless.of_run hrun hstays).state i).accepted ≤ 1 := of_run_ok hone hlast i
    obtain rfl : n = 0 := by omega
    refine ⟨_, le_max_left i one_client_and_no_more.length, ?_⟩
    rw [hlate]
    exact hheard
  · exact of_run_ok hstarts trivial
  · exact of_run_ok hcreates trivial

theorem one_client_comes_to_the_end : ∃ e : Endless step, Scheduled e ∧
    ∃ i err, (e.state i).exit_code = some err := by
  obtain ⟨e, h, hsignal, -⟩ := one_client_is_scheduled
  exact ⟨e, h, each_fair_run_ends_after_the_signal h hsignal⟩

end

end vision_flow.camera_program
