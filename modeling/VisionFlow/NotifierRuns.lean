-- What the notifiers do in each run: the calls of the API that take the mutex take effect one
-- at a time, and a callback runs just where these calls, one after the other, make it. No
-- notification is lost or made twice, whatever the threads and the callbacks do.
import VisionFlow.Notifier

namespace vision_flow.notifier

open programs runs

variable {N T F P : Type}

/-! ## One call at a time -/

/-- A notifier whose calls come one after the other: its subscribers, and the callbacks that
it has made. -/
structure Spec (F P : Type) where
  subscribers : List (vf_notifier_subscriber_t F P)
  sent : List (Delivery F P)

/-- The subscribers that a notification goes to. -/
def called (all : Bool) (event : vf_notifier_event_t)
    (subscribers : List (vf_notifier_subscriber_t F P)) : List (vf_notifier_subscriber_t F P) :=
  subscribers.filter fun subscriber => all || subscriber.event = event

/-- The callbacks of a notification. -/
def deliveries (all : Bool) (event : vf_notifier_event_t) (data : P)
    (subscribers : List (vf_notifier_subscriber_t F P)) : List (Delivery F P) :=
  (called all event subscribers).map fun subscriber => ⟨subscriber, event, data⟩

def Spec.after (x : Spec F P) : Api N F P → Spec F P
  | .subscribe _ event cb ctx =>
    if x.subscribers.length < VF_NOTIFIER_MAX_SUBSCRIBERS then
      { x with subscribers := x.subscribers ++ [⟨event, cb, ctx⟩] }
    else x
  | .publish _ event data =>
    { x with sent := x.sent ++ deliveries false event data x.subscribers }
  | .broadcast _ event data =>
    { x with sent := x.sent ++ deliveries true event data x.subscribers }

/-- The notifier after these calls. -/
def after_calls [DecidableEq N] (n : N) (history : List (T × Api N F P)) : Spec F P :=
  (history.filter fun e => e.2.target = n).foldl (fun x e => x.after e.2) ⟨[], []⟩

/-- The array holds these subscribers. -/
structure Shows (x : Spec F P) (notifier : vf_notifier_t F P) : Prop where
  count : notifier.subscriber_count = x.subscribers.length
  fits : x.subscribers.length ≤ VF_NOTIFIER_MAX_SUBSCRIBERS
  get : ∀ i, notifier.subscribers i = x.subscribers[i]?

theorem after_calls_own [DecidableEq N] (history : List (T × Api N F P)) (t : T) (c : Api N F P) :
    after_calls c.target (history ++ [(t, c)]) = (after_calls c.target history).after c := by
  simp [after_calls, List.filter_append]

theorem after_calls_other [DecidableEq N] (history : List (T × Api N F P)) (t : T) {n : N}
    {c : Api N F P} (h : n ≠ c.target) :
    after_calls n (history ++ [(t, c)]) = after_calls n history := by
  simp [after_calls, List.filter_append, Ne.symm h]

/-! ## What a call does -/

/-- What a call may count on: it has not taken the mutex, it has it, or it has given it back.
While it has the mutex, these are the notifier before it, its fields, and the callbacks that
have begun. -/
inductive View (F P : Type)
  | before
  | held (x : Spec F P) (notifier : vf_notifier_t F P) (begun : List (Delivery F P))
  | after

def View.Held (v : View F P)
    (Q : Spec F P → vf_notifier_t F P → List (Delivery F P) → Prop) : Prop :=
  match v with
  | .held x notifier begun => Q x notifier begun
  | _ => False

/-- What a command of the call `c` needs, and what it leads to. -/
def Does (c : Api N F P) : (cmd : Cmd N F P) → (cmd.Ans → View F P → Prop) → View F P → Prop
  | .initialized _, Q, v => ∀ r, Q r v
  | .mode _, Q, v => ∀ r, Q r v
  | .lock n, Q, v => n = c.target ∧ v = .before ∧ Q false v ∧
      ∀ x notifier, Shows x notifier → Q true (.held x notifier x.sent)
  | .unlock n, Q, v => n = c.target ∧ v.Held fun x notifier begun =>
      Shows (x.after c) notifier ∧ begun = (x.after c).sent ∧ Q true .after
  | .subscriber_count n, Q, v => n = c.target ∧ v.Held fun _ notifier _ =>
      Q notifier.subscriber_count v
  | .set_subscriber n i subscriber, Q, v => n = c.target ∧ i < VF_NOTIFIER_MAX_SUBSCRIBERS ∧
      v.Held fun x notifier begun => Q () (.held x { notifier with
        subscribers := Function.update notifier.subscribers i (some subscriber) } begun)
  | .set_subscriber_count n count, Q, v => n = c.target ∧ v.Held fun x notifier begun =>
      Q () (.held x { notifier with subscriber_count := count } begun)
  | .event n i, Q, v => n = c.target ∧ v.Held fun _ notifier _ =>
      ∃ subscriber, notifier.subscribers i = some subscriber ∧ Q subscriber.event v
  | .call n i event data, Q, v => n = c.target ∧ v.Held fun x notifier begun =>
      ∃ subscriber, notifier.subscribers i = some subscriber ∧
        begun ++ [⟨subscriber, event, data⟩] <+: (x.after c).sent ∧
        Q () (.held x notifier (begun ++ [⟨subscriber, event, data⟩]))

/-- The errors of a call that had the mutex. -/
def took (err : vf_err_t) : Bool := err = .VF_SUCCESS ∨ err = .VF_OOM

/-- A call has taken effect just if its error says so. -/
def Done (err : vf_err_t) : View F P → Prop
  | .before => took err = false
  | .held _ _ _ => False
  | .after => took err = true

theorem View.Held.mono {v : View F P}
    {Q Q' : Spec F P → vf_notifier_t F P → List (Delivery F P) → Prop}
    (hQ : ∀ x notifier begun, v = .held x notifier begun → Q x notifier begun →
      Q' x notifier begun) (h : v.Held Q) : v.Held Q' := by
  cases v with
  | held x notifier begun => exact hQ x notifier begun rfl h
  | before => exact h
  | after => exact h

theorem View.Held.out {v : View F P}
    {Q : Spec F P → vf_notifier_t F P → List (Delivery F P) → Prop} (h : v.Held Q) :
    ∃ x notifier begun, v = .held x notifier begun ∧ Q x notifier begun := by
  cases v with
  | held x notifier begun => exact ⟨x, notifier, begun, rfl, h⟩
  | before => exact h.elim
  | after => exact h.elim

theorem Does.mono {c : Api N F P} (cmd : Cmd N F P) (Q Q' : cmd.Ans → View F P → Prop)
    (v : View F P) (hQ : ∀ r v, Q r v → Q' r v) (h : Does c cmd Q v) : Does c cmd Q' v := by
  cases cmd with
  | initialized n => exact fun r => hQ r v (h r)
  | mode n => exact fun r => hQ r v (h r)
  | lock n =>
    obtain ⟨hn, hv, hfalse, htrue⟩ := h
    exact ⟨hn, hv, hQ _ _ hfalse, fun x notifier hx => hQ _ _ (htrue x notifier hx)⟩
  | unlock n => exact ⟨h.1, h.2.mono fun _ _ _ _ hv => ⟨hv.1, hv.2.1, hQ _ _ hv.2.2⟩⟩
  | subscriber_count n => exact ⟨h.1, h.2.mono fun _ _ _ _ hv => hQ _ _ hv⟩
  | set_subscriber n i subscriber =>
    exact ⟨h.1, h.2.1, h.2.2.mono fun _ _ _ _ hv => hQ _ _ hv⟩
  | set_subscriber_count n count => exact ⟨h.1, h.2.mono fun _ _ _ _ hv => hQ _ _ hv⟩
  | event n i =>
    refine ⟨h.1, h.2.mono fun _ _ _ _ hv => ?_⟩
    obtain ⟨subscriber, hget, hv⟩ := hv
    exact ⟨subscriber, hget, hQ _ _ hv⟩
  | call n i event data =>
    refine ⟨h.1, h.2.mono fun _ _ _ _ hv => ?_⟩
    obtain ⟨subscriber, hget, hto, hv⟩ := hv
    exact ⟨subscriber, hget, hto, hQ _ _ hv⟩

/-- The part of a subscription that has the mutex. -/
theorem add_subscriber.spec (n : N) (event : vf_notifier_event_t) (cb : F) (ctx : P)
    {x : Spec F P} {notifier : vf_notifier_t F P} (h : Shows x notifier) :
    wp (Does (.subscribe n event cb ctx)) (add_subscriber n ⟨event, cb, ctx⟩)
      (fun err v => took err = true ∧ ∃ notifier', v = .held x notifier' x.sent ∧
        Shows (x.after (.subscribe n event cb ctx)) notifier') (.held x notifier x.sent) := by
  unfold add_subscriber
  simp only [wp_bind, wp_perform, Does, View.Held, Api.target, true_and]
  by_cases hfull : notifier.subscriber_count ≥ VF_NOTIFIER_MAX_SUBSCRIBERS
  · have hlen : ¬ x.subscribers.length < VF_NOTIFIER_MAX_SUBSCRIBERS := by
      rw [← h.count]
      omega
    rw [if_pos hfull]
    refine ⟨rfl, notifier, rfl, ?_⟩
    simpa only [Spec.after, hlen, if_false] using h
  · have hlen : x.subscribers.length < VF_NOTIFIER_MAX_SUBSCRIBERS := by
      rw [← h.count]
      omega
    rw [if_neg hfull]
    simp only [wp_bind, wp_perform, Does, View.Held, Api.target, true_and]
    refine ⟨by omega, rfl, _, rfl, ?_⟩
    simp only [Spec.after, hlen, if_true]
    refine ⟨by simp [h.count], by simp; omega, fun i => ?_⟩
    simp only [h.count]
    rcases Nat.lt_trichotomy i x.subscribers.length with hi | rfl | hi
    · rw [Function.update_of_ne (by omega), h.get, List.getElem?_append_left hi]
    · simp
    · rw [Function.update_of_ne (by omega), h.get, List.getElem?_eq_none (by omega),
        List.getElem?_eq_none (by simp; omega)]

section
variable {all : Bool} {n : N} {event : vf_notifier_event_t} {data : P} {c : Api N F P}

/-- One more subscriber. -/
theorem deliveries_next {subscribers : List (vf_notifier_subscriber_t F P)} {i : Nat}
    {subscriber : vf_notifier_subscriber_t F P} (h : subscribers[i]? = some subscriber) :
    deliveries all event data (subscribers.take (i + 1)) =
      deliveries all event data (subscribers.take i) ++
        if all || subscriber.event = event then [⟨subscriber, event, data⟩] else [] := by
  unfold deliveries called
  rw [List.take_add_one, h, List.filter_append, List.map_append]
  by_cases hto : (all || decide (subscriber.event = event)) = true
  · simp [hto]
  · simp [hto]

theorem deliveries_start (subscribers : List (vf_notifier_subscriber_t F P)) (i : Nat) :
    deliveries all event data (subscribers.take i) <+: deliveries all event data subscribers :=
  ((List.take_prefix i subscribers).filter _).map _

/-- The loop calls the subscribers that are left. -/
theorem call_from.spec (hn : n = c.target) {x : Spec F P} {notifier : vf_notifier_t F P}
    (hsent : (x.after c).sent = x.sent ++ deliveries all event data x.subscribers)
    (h : Shows x notifier) (left i : Nat) (hi : left + i = VF_NOTIFIER_MAX_SUBSCRIBERS) :
    wp (Does c) (call_from all n event data left i)
      (fun _ v => v = .held x notifier (x.after c).sent)
      (.held x notifier (x.sent ++ deliveries all event data (x.subscribers.take i))) := by
  induction left generalizing i with
  | zero =>
    have hlen : ¬ i < notifier.subscriber_count := by
      have := h.fits
      rw [h.count]
      omega
    simp only [call_from, wp_bind, wp_perform, Does, View.Held, hlen, if_false, wp_pure]
    refine ⟨hn, ?_⟩
    rw [hsent, List.take_of_length_le (by rw [← h.count]; omega)]
  | succ left ih =>
    simp only [call_from, wp_bind, wp_perform, Does, View.Held]
    refine ⟨hn, ?_⟩
    by_cases hlt : i < notifier.subscriber_count
    · obtain ⟨subscriber, hget⟩ : ∃ subscriber, x.subscribers[i]? = some subscriber :=
        ⟨_, List.getElem?_eq_getElem (h.count ▸ hlt)⟩
      have hcall : (all || decide (subscriber.event = event)) = true →
          wp (Does c) (act (.call n i event data) >>= fun _ =>
              call_from all n event data left (i + 1))
            (fun _ v => v = .held x notifier (x.after c).sent)
            (.held x notifier (x.sent ++ deliveries all event data (x.subscribers.take i))) := by
        intro hto
        have hnext : x.sent ++ deliveries all event data (x.subscribers.take i) ++
            [⟨subscriber, event, data⟩] =
              x.sent ++ deliveries all event data (x.subscribers.take (i + 1)) := by
          rw [deliveries_next hget, if_pos hto, List.append_assoc]
        simp only [wp_bind, wp_perform, Does, View.Held]
        refine ⟨hn, subscriber, (h.get i).trans hget, ?_, ?_⟩
        · rw [hnext, hsent]
          exact (List.prefix_append_right_inj _).mpr (deliveries_start _ _)
        · rw [hnext]
          exact ih (i + 1) (by omega)
      rw [if_pos hlt]
      cases all with
      | true =>
        simp only [if_true, wp_bind, wp_pure, ne_eq, not_true_eq_false, if_false]
        exact hcall rfl
      | false =>
        simp only [Bool.false_eq_true, if_false, wp_bind, wp_perform, Does, View.Held]
        refine ⟨hn, subscriber, (h.get i).trans hget, ?_⟩
        by_cases hev : subscriber.event = event
        · rw [if_neg (not_not.mpr hev)]
          exact hcall (by simp [hev])
        · -- the subscriber is passed over
          rw [if_pos hev]
          have hskip : deliveries false event data (x.subscribers.take (i + 1)) = _ :=
            deliveries_next hget
          rw [if_neg (by simp [hev]), List.append_nil] at hskip
          rw [← hskip]
          exact ih (i + 1) (by omega)
    · rw [if_neg hlt, wp_pure, hsent, List.take_of_length_le (by rw [← h.count]; omega)]

/-- The part of a notification that has the mutex. -/
theorem call_subscribers.spec (hn : n = c.target) {x : Spec F P} {notifier : vf_notifier_t F P}
    (hsent : (x.after c).sent = x.sent ++ deliveries all event data x.subscribers)
    (h : Shows x notifier) :
    wp (Does c) (call_subscribers all n event data)
      (fun _ v => v = .held x notifier (x.after c).sent) (.held x notifier x.sent) := by
  simp only [call_subscribers, wp_bind, wp_perform, Does, View.Held]
  refine ⟨hn, ?_⟩
  by_cases hnone : notifier.subscriber_count = 0
  · have hnil : x.subscribers = [] := List.length_eq_zero_iff.mp (h.count.symm.trans hnone)
    have hsame : (x.after c).sent = x.sent := by
      rw [hsent, hnil]
      exact List.append_nil _
    rw [if_pos hnone, wp_pure, hsame]
  · have hloop := call_from.spec hn hsent h VF_NOTIFIER_MAX_SUBSCRIBERS 0 rfl
    rw [if_neg hnone]
    simpa [deliveries, called] using hloop

theorem send.spec (hn : n = c.target)
    (hafter : ∀ x : Spec F P, x.after c =
      { x with sent := x.sent ++ deliveries all event data x.subscribers }) :
    wp (Does c) (send all n event data) Done .before := by
  simp only [send, wp_bind, wp_perform, Does]
  intro initialized
  by_cases hi : initialized = false
  · rw [if_pos hi]
    rfl
  rw [if_neg hi]
  simp only [wp_bind, wp_perform, Does]
  intro mode
  by_cases hm : vf_notifier_is_sender mode = false
  · rw [if_pos hm]
    rfl
  rw [if_neg hm]
  simp only [wp_bind, wp_perform, Does, true_and]
  refine ⟨hn, rfl, fun x notifier h => ?_⟩
  have hsent : (x.after c).sent = x.sent ++ deliveries all event data x.subscribers := by
    rw [hafter]
  rw [if_neg Bool.noConfusion]
  simp only [wp_bind, wp_perform]
  refine wp_mono Does.mono (fun _ v hv => ?_) (call_subscribers.spec hn hsent h)
  subst hv
  refine ⟨hn, ?_, rfl, rfl⟩
  rw [hafter]
  exact ⟨h.count, h.fits, h.get⟩

end

/-- Each call of the API takes effect at most once, and just if its error says so. -/
theorem Api.code.spec (c : Api N F P) : wp (Does c) c.code Done .before := by
  cases c with
  | publish n event data => exact send.spec rfl fun x => rfl
  | broadcast n event data => exact send.spec rfl fun x => rfl
  | subscribe n event cb ctx =>
    simp only [Api.code, vf_notifier_subscribe, wp_bind, wp_perform, Does]
    intro initialized
    by_cases hi : initialized = false
    · rw [if_pos hi]
      rfl
    rw [if_neg hi]
    simp only [wp_bind, wp_perform, Does]
    intro mode
    by_cases hm : vf_notifier_is_receiver mode = false
    · rw [if_pos hm]
      rfl
    rw [if_neg hm]
    simp only [wp_bind, wp_perform, Does, true_and]
    refine ⟨rfl, rfl, fun x notifier h => ?_⟩
    rw [if_neg Bool.noConfusion]
    simp only [wp_bind, wp_perform]
    refine wp_mono Does.mono (fun err v hv => ?_) (add_subscriber.spec n event cb ctx h)
    obtain ⟨htook, notifier', rfl, hshows⟩ := hv
    have hsent : (x.after (.subscribe n event cb ctx : Api N F P)).sent = x.sent := by
      simp only [Spec.after]
      split <;> rfl
    exact ⟨rfl, hshows, hsent.symm, htook⟩

/-- While a call has the mutex, it has made only callbacks that it has to make. -/
theorem held_sent {c : Api N F P} {p : Code N F P vf_err_t} {x : Spec F P}
    {notifier : vf_notifier_t F P} {begun : List (Delivery F P)}
    (h : wp (Does c) p Done (.held x notifier begun)) : begun <+: (x.after c).sent := by
  induction p generalizing notifier begun with
  | ret err => exact h.elim
  | op cmd k ih =>
    cases cmd with
    | initialized n => exact ih _ (h true)
    | mode n => exact ih _ (h .VF_NOTIFIER_MODE_SENDER)
    | lock n => cases h.2.1
    | unlock n => rw [h.2.2.1]
    | subscriber_count n => exact ih _ h.2
    | set_subscriber n i subscriber => exact ih _ h.2.2
    | set_subscriber_count n count => exact ih _ h.2
    | event n i =>
      obtain ⟨-, subscriber, -, hk⟩ := h
      exact ih _ hk
    | call n i event data =>
      obtain ⟨-, subscriber, -, hto, -⟩ := h
      exact (List.prefix_append _ _).trans hto

/-! ## The invariant -/

section
variable [DecidableEq N]
variable {s s' : St N T F P} {t : T} {n : N} {c : Api N F P} {v : View F P} {running : Nat}
  {p : Code N F P vf_err_t} {x : Spec F P} {notifier : vf_notifier_t F P}
  {begun : List (Delivery F P)}

/-- A notifier that no thread has is as its calls leave it, and its callbacks are over. -/
structure Free (s : St N T F P) (n : N) : Prop where
  as_called : Shows (after_calls n s.history) (s.notifiers n)
  begun : s.begun n = (after_calls n s.history).sent
  ended : s.ended n = (s.begun n).length

/-- A notifier that is in the call `c`: the callbacks of the calls before are over, those of
this call come in their order, and at most one of them runs. -/
structure Busy (s : St N T F P) (n : N) (c : Api N F P) : Prop where
  target : c.target = n
  before : (after_calls n s.history).sent <+: s.begun n
  to_make : s.begun n <+: ((after_calls n s.history).after c).sent
  ended : s.ended n ≤ (s.begun n).length ∧ (s.begun n).length ≤ s.ended n + 1

/-- What a call counts on is so. `running` is 1 while it waits for a callback. -/
def Sees (s : St N T F P) (t : T) (c : Api N F P) (running : Nat) : View F P → Prop
  | .held x notifier begun => s.holder c.target = some t ∧
      x = after_calls c.target s.history ∧ notifier = s.notifiers c.target ∧
      begun = s.begun c.target ∧ x.sent <+: begun ∧ s.ended c.target + running = begun.length
  | _ => True

def NowFits (s : St N T F P) (t : T) (v : View F P) : Now N F P → Prop
  | .user _ => True
  | .inside c p _ => wp (Does c) p Done v ∧ Sees s t c 0 v

def CallerFits (s : St N T F P) (t : T) (caller : Caller N F P) : Prop :=
  ∃ x notifier begun, wp (Does caller.api) caller.rest Done (.held x notifier begun) ∧
    Sees s t caller.api 1 (.held x notifier begun)

theorem Sees.busy (hrest : wp (Does c) p Done (.held x notifier begun))
    (h : Sees s t c running (.held x notifier begun)) (hone : running ≤ 1) :
    Busy s c.target c := by
  obtain ⟨-, rfl, -, rfl, hbefore, hended⟩ := h
  exact ⟨rfl, hbefore, held_sent hrest, by omega⟩

/-! ## What a step leaves alone -/

/-- The notifier is as before. -/
structure Same (s s' : St N T F P) (n : N) : Prop where
  holder : s'.holder n = s.holder n
  fields : s'.notifiers n = s.notifiers n
  begun : s'.begun n = s.begun n
  ended : s'.ended n = s.ended n
  calls : after_calls n s'.history = after_calls n s.history

theorem Sees.same (h : Sees s t c running v)
    (hsame : s.holder c.target = some t → Same s s' c.target) : Sees s' t c running v := by
  cases v with
  | before => trivial
  | after => trivial
  | held x notifier begun =>
    obtain ⟨hholder, hx, hnotifier, hbegun, hbefore, hended⟩ := h
    have hs := hsame hholder
    exact ⟨hs.holder.trans hholder, hx.trans hs.calls.symm, hnotifier.trans hs.fields.symm,
      hbegun.trans hs.begun.symm, hbefore, by rw [hs.ended]; exact hended⟩

theorem NowFits.same {now : Now N F P} (h : NowFits s t v now)
    (hsame : ∀ n, s.holder n = some t → Same s s' n) : NowFits s' t v now := by
  cases now with
  | user p => trivial
  | inside c p k => exact ⟨h.1, h.2.same (hsame _)⟩

theorem CallerFits.same {caller : Caller N F P} (h : CallerFits s t caller)
    (hsame : s.holder caller.api.target = some t → Same s s' caller.api.target) :
    CallerFits s' t caller := by
  obtain ⟨x, notifier, begun, hrest, hsees⟩ := h
  exact ⟨x, notifier, begun, hrest, hsees.same hsame⟩

theorem Free.same (h : Free s n) (hsame : Same s s' n) : Free s' n where
  as_called := by
    rw [hsame.calls, hsame.fields]
    exact h.as_called
  begun := by rw [hsame.begun, hsame.calls, h.begun]
  ended := by rw [hsame.begun, hsame.ended, h.ended]

theorem Busy.same (h : Busy s n c) (hsame : Same s s' n) : Busy s' n c where
  target := h.target
  before := by
    rw [hsame.begun, hsame.calls]
    exact h.before
  to_make := by
    rw [hsame.begun, hsame.calls]
    exact h.to_make
  ended := by
    rw [hsame.begun, hsame.ended]
    exact h.ended

/-- The thread `t` changes the notifier, which no other thread has. -/
structure Changed (s s' : St N T F P) (t : T) (n : N) : Prop where
  was : ∀ t', s.holder n = some t' → t' = t
  holder : ∀ t', s'.holder n = some t' → t' = t
  free : s'.holder n = none → Free s' n
  busy : s'.holder n = some t → ∃ c, Busy s' n c

/-! ## The threads -/

/-- The notifier that the thread has by the call that it is in. -/
def Now.has (v : View F P) : Now N F P → List N
  | .user _ => []
  | .inside c _ _ => match v with
    | .held _ _ _ => [c.target]
    | _ => []

/-- The call that has taken effect and has not returned. -/
def Now.pending (v : View F P) : Now N F P → List (Api N F P)
  | .user _ => []
  | .inside c _ _ => match v with
    | .after => [c]
    | _ => []

/-- The notifiers that a thread has. -/
def Thread.has (th : Thread N F P) (v : View F P) : List N :=
  th.now.has v ++ th.callers.map (·.api.target)

variable [DecidableEq T]

/-- The calls of a thread that have taken effect, in their order. -/
def St.effects (s : St N T F P) (t : T) : List (Api N F P) :=
  (s.history.filter fun e => e.1 = t).map (·.2)

/-- The calls that have returned to a thread after they had the mutex, in their order. -/
def St.answers (s : St N T F P) (t : T) : List (Api N F P) :=
  (s.returned.filter fun e => e.1 = t ∧ took e.2.2).map (·.2.1)

structure ThreadFits (s : St N T F P) (t : T) (th : Thread N F P) (v : View F P) : Prop where
  now : NowFits s t v th.now
  callers : ∀ caller ∈ th.callers, CallerFits s t caller
  apart : (th.has v).Nodup
  has : ∀ n, s.holder n = some t → n ∈ th.has v
  effects : s.effects t = s.answers t ++ th.now.pending v

structure Inv (s : St N T F P) : Prop where
  fault : s.fault = false
  free : ∀ n, s.holder n = none → Free s n
  busy : ∀ n t, s.holder n = some t → ∃ c, Busy s n c
  threads : ∀ t, ∃ v, ThreadFits s t (s.thread t) v

/-- The invariant without the thread `t`. -/
structure Rest (s : St N T F P) (t : T) : Prop where
  fault : s.fault = false
  free : ∀ n, s.holder n = none → Free s n
  busy : ∀ n t, s.holder n = some t → ∃ c, Busy s n c
  others : ∀ t', t' ≠ t → ∃ v, ThreadFits s t' (s.thread t') v

theorem Inv.rest (h : Inv s) (t : T) : Rest s t :=
  ⟨h.fault, h.free, h.busy, fun t' _ => h.threads t'⟩

theorem ThreadFits.same {th : Thread N F P} (h : ThreadFits s t th v)
    (hsame : ∀ n, s.holder n = some t → Same s s' n)
    (hholder : ∀ n, s'.holder n = some t → s.holder n = some t)
    (heffects : s'.effects t = s.effects t) (hanswers : s'.answers t = s.answers t) :
    ThreadFits s' t th v where
  now := h.now.same hsame
  callers := fun caller hmem => (h.callers caller hmem).same (hsame _)
  apart := h.apart
  has := fun n hn => h.has n (hholder n hn)
  effects := by rw [heffects, hanswers, h.effects]

/-- The thread `t` changes some notifiers, which no other thread has. -/
theorem Rest.moves (h : Rest s t) (hthread : s'.thread = s.thread) (hfault : s'.fault = false)
    (heach : ∀ n, Same s s' n ∨ Changed s s' t n)
    (heffects : ∀ t', t' ≠ t → s'.effects t' = s.effects t')
    (hanswers : ∀ t', t' ≠ t → s'.answers t' = s.answers t') : Rest s' t where
  fault := hfault
  free := by
    intro n hn
    rcases heach n with hsame | hchanged
    · exact (h.free n (hsame.holder.symm.trans hn)).same hsame
    · exact hchanged.free hn
  busy := by
    intro n t' hn
    rcases heach n with hsame | hchanged
    · obtain ⟨c, hc⟩ := h.busy n t' (hsame.holder.symm.trans hn)
      exact ⟨c, hc.same hsame⟩
    · obtain rfl := hchanged.holder t' hn
      exact hchanged.busy hn
  others := by
    intro t' ht'
    obtain ⟨v, hv⟩ := h.others t' ht'
    refine ⟨v, ?_⟩
    rw [hthread]
    refine hv.same (fun n hn => ?_) (fun n hn => ?_) (heffects t' ht') (hanswers t' ht')
    · rcases heach n with hsame | hchanged
      · exact hsame
      · exact absurd (hchanged.was t' hn) ht'
    · rcases heach n with hsame | hchanged
      · exact hsame.holder.symm.trans hn
      · exact absurd (hchanged.holder t' hn) ht'

/-- The thread `t` changes the notifier of a call that has it after the step. -/
theorem Rest.holds (h : Rest s t) (hthread : s'.thread = s.thread) (hfault : s'.fault = false)
    (hwas : ∀ t', s.holder c.target = some t' → t' = t)
    (hapart : ∀ n, n ≠ c.target → Same s s' n)
    (hrest : wp (Does c) p Done (.held x notifier begun))
    (hsees : Sees s' t c running (.held x notifier begun)) (hone : running ≤ 1)
    (heffects : s'.history = s.history) (hanswers : s'.returned = s.returned) : Rest s' t := by
  have hholder : s'.holder c.target = some t := hsees.1
  have hchanged : Changed s s' t c.target := by
    refine ⟨hwas, fun t' ht' => ?_, fun hn => ?_, fun _ => ⟨c, hsees.busy hrest hone⟩⟩
    · exact Option.some.inj (ht'.symm.trans hholder)
    · cases hn.symm.trans hholder
  refine h.moves hthread hfault (fun n => ?_) (fun t' _ => ?_) (fun t' _ => ?_)
  · by_cases hn : n = c.target
    · exact .inr (hn ▸ hchanged)
    · exact .inl (hapart n hn)
  · rw [St.effects, St.effects, heffects]
  · rw [St.answers, St.answers, hanswers]

/-- The thread `t` goes on. -/
theorem Rest.put (h : Rest s t) {th : Thread N F P} (ht : ThreadFits s t th v) :
    Inv (s.put t th) := by
  have hsame : ∀ n, Same s (s.put t th) n := fun n => ⟨rfl, rfl, rfl, rfl, rfl⟩
  refine ⟨h.fault, fun n hn => (h.free n hn).same (hsame n), fun n t' hn => ?_, fun t' => ?_⟩
  · obtain ⟨c, hc⟩ := h.busy n t' hn
    exact ⟨c, hc.same (hsame n)⟩
  · by_cases ht' : t' = t
    · subst ht'
      refine ⟨v, ?_⟩
      simp only [St.put, Function.update_self]
      exact ht.same (fun n _ => hsame n) (fun _ hn => hn) rfl rfl
    · obtain ⟨v', hv'⟩ := h.others t' ht'
      refine ⟨v', ?_⟩
      simp only [St.put, Function.update_of_ne ht']
      exact hv'.same (fun n _ => hsame n) (fun _ hn => hn) rfl rfl

/-! ## Steps -/

section
variable {callers : List (Caller N F P)} {k : vf_err_t → User N F P}

/-- A callback returns to the call that made it. -/
theorem Inv.callback_ends (h : Inv s) {caller : Caller N F P} {q : User N F P}
    (hth : s.thread t = ⟨.user q, caller :: callers⟩) :
    Inv ((s.ends caller.api.target).put t
      ⟨.inside caller.api caller.rest caller.k, callers⟩) := by
  obtain ⟨v, ht⟩ := h.threads t
  rw [hth] at ht
  obtain ⟨x, notifier, begun, hrest, hsees⟩ := ht.callers caller List.mem_cons_self
  obtain ⟨hholder, hx, hnotifier, hbegun, hbefore, hended⟩ := id hsees
  have hapart : ∀ n, n ≠ caller.api.target → Same s (s.ends caller.api.target) n :=
    fun n hn => ⟨rfl, rfl, rfl, Function.update_of_ne hn _ _, rfl⟩
  have hsees' : Sees (s.ends caller.api.target) t caller.api 0 (.held x notifier begun) := by
    refine ⟨hholder, hx, hnotifier, hbegun, hbefore, ?_⟩
    simp only [St.ends, Function.update_self]
    exact hended
  have hothers : caller.api.target ∉ callers.map (·.api.target) :=
    (List.nodup_cons.mp ht.apart).1
  have hmoved : Rest (s.ends caller.api.target) t := (h.rest t).holds rfl h.fault
    (fun t' ht' => Option.some.inj (ht'.symm.trans hholder)) hapart hrest hsees' (Nat.zero_le 1)
    rfl rfl
  refine hmoved.put (v := .held x notifier begun)
    ⟨⟨hrest, hsees'⟩, fun other hmem => ?_, ht.apart, ht.has, ht.effects⟩
  refine (ht.callers other (List.mem_cons_of_mem _ hmem)).same fun _ => hapart _ fun heq => ?_
  exact hothers (heq ▸ List.mem_map_of_mem hmem)

/-- A thread or a callback calls the API. -/
theorem Inv.call_begins (h : Inv s) {q : User N F P} (hth : s.thread t = ⟨.user q, callers⟩) :
    Inv (s.put t ⟨.inside c c.code k, callers⟩) := by
  obtain ⟨v, ht⟩ := h.threads t
  rw [hth] at ht
  exact (h.rest t).put (v := .before)
    ⟨⟨Api.code.spec c, trivial⟩, ht.callers, ht.apart, ht.has, ht.effects⟩

theorem Inv.logs (h : Inv s) {q q' : User N F P} (text : String)
    (hth : s.thread t = ⟨.user q, callers⟩) :
    Inv ({ s with logged := s.logged ++ [text] }.put t ⟨.user q', callers⟩) := by
  obtain ⟨v, ht⟩ := h.threads t
  rw [hth] at ht
  let s' : St N T F P := { s with logged := s.logged ++ [text] }
  have hsame : ∀ n, Same s s' n := fun n => ⟨rfl, rfl, rfl, rfl, rfl⟩
  have hmoved : Rest s' t := (h.rest t).moves rfl h.fault (fun n => .inl (hsame n))
    (fun _ _ => rfl) (fun _ _ => rfl)
  have hfits : ThreadFits s t ⟨.user q', callers⟩ v :=
    ⟨trivial, ht.callers, ht.apart, ht.has, ht.effects⟩
  exact hmoved.put (hfits.same (fun n _ => hsame n) (fun _ hn => hn) rfl rfl)

/-- A call of the API returns. -/
theorem Inv.call_ends (h : Inv s) {err : vf_err_t} {q : User N F P}
    (hth : s.thread t = ⟨.inside c (.ret err) k, callers⟩) :
    Inv ({ s with returned := s.returned ++ [(t, c, err)] }.put t ⟨.user q, callers⟩) := by
  obtain ⟨v, ht⟩ := h.threads t
  rw [hth] at ht
  let s' : St N T F P := { s with returned := s.returned ++ [(t, c, err)] }
  have hsame : ∀ n, Same s s' n := fun n => ⟨rfl, rfl, rfl, rfl, rfl⟩
  have hmoved : Rest s' t := by
    refine (h.rest t).moves rfl h.fault (fun n => .inl (hsame n)) (fun _ _ => rfl)
      (fun t' ht' => ?_)
    simp [St.answers, s', List.filter_append, Ne.symm ht']
  have hanswers : s'.answers t = s.answers t ++ if took err then [c] else [] := by
    cases hto : took err <;> simp [St.answers, s', List.filter_append, hto]
  have hcallers : ∀ caller ∈ callers, CallerFits s' t caller := fun caller hmem =>
    (ht.callers caller hmem).same fun _ => hsame _
  have hdone : Done err v := ht.now.1
  have hleft : Thread.has ⟨.inside c (.ret err) k, callers⟩ v = callers.map (·.api.target) ∧
      (Now.inside c (.ret err) k).pending v = if took err then [c] else [] := by
    cases v with
    | held x notifier begun => exact hdone.elim
    | before =>
      have hto : took err = false := hdone
      simp [Thread.has, Now.has, Now.pending, hto]
    | after =>
      have hto : took err = true := hdone
      simp [Thread.has, Now.has, Now.pending, hto]
  have hapart := ht.apart
  have hhas := ht.has
  have heffects := ht.effects
  rw [hleft.1] at hapart
  rw [hleft.1] at hhas
  rw [hleft.2, ← hanswers] at heffects
  exact hmoved.put (v := .before)
    ⟨trivial, hcallers, hapart, hhas, heffects.trans (List.append_nil _).symm⟩

/-- No caller has the notifier of the call that the thread is in. -/
theorem ThreadFits.callers_apart
    (ht : ThreadFits s t ⟨.inside c p k, callers⟩ (.held x notifier begun))
    (hapart : ∀ n, n ≠ c.target → Same s s' n) {caller : Caller N F P} (hmem : caller ∈ callers) :
    CallerFits s' t caller := by
  have hother : c.target ∉ callers.map (·.api.target) := (List.nodup_cons.mp ht.apart).1
  refine (ht.callers caller hmem).same fun _ => hapart _ fun heq => ?_
  exact hother (heq ▸ List.mem_map_of_mem hmem)

/-- A notification makes a callback. -/
theorem Inv.callback_begins (h : Inv s) {i : Nat} {event : vf_notifier_event_t} {data : P}
    {p : Unit → Code N F P vf_err_t}
    (hth : s.thread t = ⟨.inside c (.op (.call n i event data) p) k, callers⟩) :
    ∃ subscriber, (s.notifiers n).subscribers i = some subscriber ∧
      ∀ q, Inv ((s.begins n ⟨subscriber, event, data⟩).put t
        ⟨.user q, ⟨c, p (), k⟩ :: callers⟩) := by
  obtain ⟨v, ht⟩ := h.threads t
  rw [hth] at ht
  obtain ⟨⟨rfl, hheld⟩, hsees⟩ := ht.now
  obtain ⟨x, notifier, begun, rfl, subscriber, hget, -, hrest⟩ := hheld.out
  obtain ⟨hholder, hx, rfl, rfl, hbefore, hended⟩ := id hsees
  refine ⟨subscriber, hget, fun q => ?_⟩
  let d : Delivery F P := ⟨subscriber, event, data⟩
  have hapart : ∀ n, n ≠ c.target → Same s (s.begins c.target d) n :=
    fun n hn => ⟨rfl, rfl, Function.update_of_ne hn _ _, rfl, rfl⟩
  have hsees' : Sees (s.begins c.target d) t c 1
      (.held x (s.notifiers c.target) (s.begun c.target ++ [d])) := by
    refine ⟨hholder, hx, rfl, ?_, hbefore.trans (List.prefix_append _ _), ?_⟩
    · simp [St.begins]
    · simp only [St.begins, List.length_append, List.length_singleton]
      omega
  have hmoved : Rest (s.begins c.target d) t := (h.rest t).holds rfl h.fault
    (fun t' ht' => Option.some.inj (ht'.symm.trans hholder)) hapart hrest hsees' (Nat.le_refl 1)
    rfl rfl
  refine hmoved.put (v := .before) ⟨trivial, fun caller hmem => ?_, ht.apart, ht.has, ht.effects⟩
  rcases List.mem_cons.mp hmem with rfl | hmem
  · exact ⟨_, _, _, hrest, hsees'⟩
  · exact ht.callers_apart hapart hmem

/-- A call that has the mutex changes its notifier. -/
theorem Inv.writes (h : Inv s) {p' : Code N F P vf_err_t} {notifier' : vf_notifier_t F P}
    (ht : ThreadFits s t ⟨.inside c p k, callers⟩ (.held x notifier begun))
    (hrest : wp (Does c) p' Done (.held x notifier' begun)) :
    Inv ((s.write c.target notifier').put t ⟨.inside c p' k, callers⟩) := by
  obtain ⟨-, hsees⟩ := ht.now
  obtain ⟨hholder, hx, -, hbegun, hbefore, hended⟩ := id hsees
  have hapart : ∀ n, n ≠ c.target → Same s (s.write c.target notifier') n :=
    fun n hn => ⟨rfl, Function.update_of_ne hn _ _, rfl, rfl, rfl⟩
  have hsees' : Sees (s.write c.target notifier') t c 0 (.held x notifier' begun) := by
    refine ⟨hholder, hx, ?_, hbegun, hbefore, hended⟩
    simp [St.write]
  have hmoved : Rest (s.write c.target notifier') t := (h.rest t).holds rfl h.fault
    (fun t' ht' => Option.some.inj (ht'.symm.trans hholder)) hapart hrest hsees' (Nat.zero_le 1)
    rfl rfl
  exact hmoved.put (v := .held x notifier' begun)
    ⟨⟨hrest, hsees'⟩, fun caller hmem => ht.callers_apart hapart hmem, ht.apart, ht.has, ht.effects⟩

/-- A call takes the mutex. -/
theorem Inv.locks (h : Inv s) {p' : Code N F P vf_err_t}
    (ht : ThreadFits s t ⟨.inside c p k, callers⟩ .before) (hfree : s.holder c.target = none)
    (hrest : ∀ x notifier, Shows x notifier →
      wp (Does c) p' Done (.held x notifier x.sent)) :
    Inv ({ s with holder := Function.update s.holder c.target (some t) }.put t
      ⟨.inside c p' k, callers⟩) := by
  let s' : St N T F P := { s with holder := Function.update s.holder c.target (some t) }
  obtain ⟨hshows, hbegun, hended⟩ := h.free c.target hfree
  have hp := hrest _ _ hshows
  have hapart : ∀ n, n ≠ c.target → Same s s' n :=
    fun n hn => ⟨Function.update_of_ne hn _ _, rfl, rfl, rfl, rfl⟩
  have hsees' : Sees s' t c 0 (.held (after_calls c.target s.history) (s.notifiers c.target)
      (after_calls c.target s.history).sent) := by
    refine ⟨Function.update_self _ _ _, rfl, rfl, hbegun.symm, List.prefix_rfl, ?_⟩
    rw [← hbegun]
    exact hended
  have hmoved : Rest s' t := (h.rest t).holds rfl h.fault
    (fun t' ht' => absurd (hfree.symm.trans ht') (by simp)) hapart hp hsees' (Nat.zero_le 1) rfl rfl
  -- a caller has its notifier, and this one was free
  have hother : ∀ caller ∈ callers, caller.api.target ≠ c.target := by
    intro caller hmem heq
    obtain ⟨x, notifier, begun, -, hsees⟩ := ht.callers caller hmem
    have hheld := hsees.1
    rw [heq, hfree] at hheld
    cases hheld
  refine hmoved.put ⟨⟨hp, hsees'⟩, fun caller hmem => ?_, ?_, fun n hn => ?_, ht.effects⟩
  · exact (ht.callers caller hmem).same fun _ => hapart _ (hother caller hmem)
  · refine List.nodup_cons.mpr ⟨fun hmem => ?_, ht.apart⟩
    obtain ⟨caller, hcaller, heq⟩ := List.mem_map.mp hmem
    exact hother caller hcaller heq
  · by_cases heq : n = c.target
    · exact List.mem_cons.mpr (.inl heq)
    · exact List.mem_cons_of_mem _ (ht.has n (by rwa [← (hapart n heq).holder]))

/-- A call gives back the mutex, and has taken effect. -/
theorem Inv.unlocks (h : Inv s) {p' : Code N F P vf_err_t}
    (ht : ThreadFits s t ⟨.inside c p k, callers⟩ (.held x notifier begun))
    (hshows : Shows (x.after c) notifier) (hsent : begun = (x.after c).sent)
    (hrest : wp (Does c) p' Done .after) :
    Inv ({ s with
      holder := Function.update s.holder c.target none
      history := s.history ++ [(t, c)] }.put t ⟨.inside c p' k, callers⟩) := by
  let s' : St N T F P := { s with
    holder := Function.update s.holder c.target none
    history := s.history ++ [(t, c)] }
  obtain ⟨-, hsees⟩ := ht.now
  obtain ⟨hholder, rfl, rfl, rfl, hbefore, hended⟩ := hsees
  have hapart : ∀ n, n ≠ c.target → Same s s' n := fun n hn =>
    ⟨Function.update_of_ne hn _ _, rfl, rfl, rfl, after_calls_other s.history t hn⟩
  have hnone : s'.holder c.target = none := Function.update_self _ _ _
  have hfree : Free s' c.target := by
    have hcalls : after_calls c.target s'.history = _ := after_calls_own s.history t c
    exact ⟨hcalls ▸ hshows, hsent.trans (by rw [hcalls]), hended⟩
  have hchanged : Changed s s' t c.target :=
    ⟨fun t' ht' => Option.some.inj (ht'.symm.trans hholder),
      fun t' ht' => absurd (hnone.symm.trans ht') (by simp), fun _ => hfree,
      fun ht' => absurd (hnone.symm.trans ht') (by simp)⟩
  have hmoved : Rest s' t := by
    refine (h.rest t).moves rfl h.fault (fun n => ?_) (fun t' ht' => ?_) (fun _ _ => rfl)
    · by_cases hn : n = c.target
      · exact .inr (hn ▸ hchanged)
      · exact .inl (hapart n hn)
    · simp [St.effects, s', List.filter_append, Ne.symm ht']
  have heffects : s'.effects t = s.answers t ++ [c] := by
    have hbefore : s.effects t = s.answers t ++ [] := ht.effects
    rw [List.append_nil] at hbefore
    rw [← hbefore]
    simp [St.effects, s', List.filter_append]
  refine hmoved.put (v := .after) ⟨⟨hrest, trivial⟩,
    fun caller hmem => ht.callers_apart hapart hmem, (List.nodup_cons.mp ht.apart).2,
    fun n hn => ?_, heffects⟩
  have hne : n ≠ c.target := by
    rintro rfl
    cases hnone.symm.trans hn
  have hmem := ht.has n (by rwa [← (hapart n hne).holder])
  exact (List.mem_cons.mp hmem).resolve_left hne

/-- A command other than a call. -/
theorem Inv.goes_on (h : Inv s) {cmd : Cmd N F P} {p : cmd.Ans → Code N F P vf_err_t} {ok : Bool}
    {r : cmd.Ans × St N T F P} (hth : s.thread t = ⟨.inside c (.op cmd p) k, callers⟩)
    (hr : command s t ok c cmd = some r) :
    Inv (r.2.put t ⟨.inside c (p r.1) k, callers⟩) := by
  obtain ⟨v, ht⟩ := h.threads t
  rw [hth] at ht
  obtain ⟨hdoes, hsees⟩ := id ht.now
  have hreads : ∀ p', wp (Does c) p' Done v → Inv (s.put t ⟨.inside c p' k, callers⟩) :=
    fun p' hp' => (h.rest t).put ⟨⟨hp', hsees⟩, ht.callers, ht.apart, ht.has, ht.effects⟩
  cases cmd with
  | initialized n =>
    cases hr
    exact hreads _ (hdoes _)
  | mode n =>
    cases hr
    exact hreads _ (hdoes _)
  | lock n =>
    obtain ⟨rfl, rfl, hfalse, htrue⟩ := hdoes
    simp only [command] at hr
    split at hr
    · cases hr
      exact hreads _ hfalse
    · split at hr
      · rename_i hfree
        cases hr
        exact h.locks ht hfree htrue
      · cases hr
  | call n i event data => cases hr
  | unlock n =>
    obtain ⟨rfl, hheld⟩ := hdoes
    obtain ⟨x, notifier, begun, rfl, hshows, hsent, hrest⟩ := hheld.out
    simp only [command, hsees.1, if_true] at hr
    cases hr
    exact h.unlocks ht hshows hsent hrest
  | subscriber_count n =>
    obtain ⟨rfl, hheld⟩ := hdoes
    obtain ⟨x, notifier, begun, rfl, hrest⟩ := hheld.out
    obtain ⟨-, -, rfl, -⟩ := hsees
    cases hr
    exact hreads _ hrest
  | set_subscriber n i subscriber =>
    obtain ⟨rfl, hi, hheld⟩ := hdoes
    obtain ⟨x, notifier, begun, rfl, hrest⟩ := hheld.out
    obtain ⟨-, -, rfl, -⟩ := hsees
    simp only [command, hi, if_true] at hr
    cases hr
    exact h.writes ht hrest
  | set_subscriber_count n count =>
    obtain ⟨rfl, hheld⟩ := hdoes
    obtain ⟨x, notifier, begun, rfl, hrest⟩ := hheld.out
    obtain ⟨-, -, rfl, -⟩ := hsees
    cases hr
    exact h.writes ht hrest
  | event n i =>
    obtain ⟨rfl, hheld⟩ := hdoes
    obtain ⟨x, notifier, begun, rfl, subscriber, hget, hrest⟩ := hheld.out
    obtain ⟨-, -, rfl, -⟩ := hsees
    simp only [command, hget] at hr
    cases hr
    exact hreads _ hrest

end

/-! ## Runs -/

variable {body : F → vf_notifier_event_t → P → P → User N F P}

theorem Inv.step (h : Inv s) {a : T × Bool} (hs : step body s a = some s') : Inv s' := by
  obtain ⟨t, ok⟩ := a
  rcases hth : s.thread t with ⟨now, callers⟩
  simp only [notifier.step, hth] at hs
  cases now with
  | user p =>
    cases p with
    | ret u =>
      cases callers with
      | nil => cases hs
      | cons caller callers =>
        cases hs
        exact h.callback_ends hth
    | op w k =>
      cases w with
      | api c =>
        cases hs
        exact h.call_begins hth
      | log_info text =>
        cases hs
        exact h.logs text hth
  | inside c p k =>
    cases p with
    | ret err =>
      cases hs
      exact h.call_ends hth
    | op cmd p =>
      cases cmd with
      | call n i event data =>
        obtain ⟨subscriber, hget, hnext⟩ := h.callback_begins hth
        simp only [hget] at hs
        cases hs
        exact hnext _
      | _ =>
        obtain ⟨r, hr, rfl⟩ := Option.map_eq_some_iff.mp hs
        exact h.goes_on hth hr

theorem St.start.inv (mode : N → vf_notifier_mode_t) (mutex_ok : N → Bool)
    (main : T → User N F P) : Inv (St.start mode mutex_ok main) where
  fault := rfl
  free := fun n hn => by
    refine ⟨?_, rfl, rfl⟩
    simp only [St.start, vf_notifier_init]
    split <;> exact ⟨rfl, Nat.zero_le _, fun i => rfl⟩
  busy := fun n t hn => by cases hn
  threads := fun t => by
    refine ⟨.before, trivial, fun _ hmem => ?_, List.nodup_nil, fun n hn => ?_, rfl⟩
    · cases hmem
    · cases hn

/-- The calls of the API take effect one at a time, in the order of the history. `free` and
`busy` say how far the callbacks of each notifier have come, `once` and `outside` that a call
takes effect just once if its error is a success or says that there is no room, and never
else, and `let_go` that no thread keeps a mutex. -/
structure InTurn (s : St N T F P) : Prop where
  fault : s.fault = false
  free : ∀ n, s.holder n = none → Free s n
  busy : ∀ n t, s.holder n = some t → ∃ c, Busy s n c
  once : ∀ t, ∃ left, left.length ≤ 1 ∧ s.effects t = s.answers t ++ left
  outside : ∀ t p, (s.thread t).now = .user p → s.effects t = s.answers t
  let_go : ∀ t p, s.thread t = ⟨.user p, []⟩ → ∀ n, s.holder n ≠ some t

end

/-- The program that makes these calls, whatever they return. -/
def calls : List (Api N F P) → User N F P
  | [] => .ret ()
  | c :: rest => .op (.api c) fun _ => calls rest

/-- The callback `true` publishes on the notifier `false`, and the other one is that of the
program. -/
def passes_on : Bool → vf_notifier_event_t → Unit → Unit → User Bool Bool Unit
  | true, event, data, _ => calls [.publish false event data]
  | false, event, data, ctx => on_frame_ready event data ctx

/-- One thread subscribes to both notifiers and publishes, the other one broadcasts. -/
def two_threads : Bool → User Bool Bool Unit
  | true => calls [.subscribe true .VF_NOTIFIER_EVENT_FRAME_READY true (),
      .subscribe false .VF_NOTIFIER_EVENT_FRAME_READY false (),
      .publish true .VF_NOTIFIER_EVENT_FRAME_READY ()]
  | false => calls [.broadcast true .VF_NOTIFIER_EVENT_FRAME_RECEIVED ()]

def two_notifiers : St Bool Bool Bool Unit :=
  St.start (fun _ => .VF_NOTIFIER_MODE_BIDIRECTIONAL) (fun _ => true) two_threads

/-- The broadcast waits for the mutex while a callback of the publication runs. -/
def a_broadcast_waits : List (Bool × Bool) :=
  List.replicate 30 (true, true) ++ List.replicate 3 (false, true) ++
    List.replicate 13 (true, true) ++ List.replicate 18 (false, true)

end vision_flow.notifier
