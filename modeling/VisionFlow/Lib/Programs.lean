-- Programs over a set of commands: each command has its type of answers, and the rest
-- of a program depends on the answer. A thread is what is left of its program, so a
-- fact about what is left holds between any two steps of other threads.
import Mathlib

namespace programs

variable {C : Type} {R : C → Type} {α β σ : Type}

inductive Prog (C : Type) (R : C → Type) (α : Type)
  | ret (a : α)
  | op (c : C) (k : R c → Prog C R α)

def Prog.bind : Prog C R α → (α → Prog C R β) → Prog C R β
  | .ret a, f => f a
  | .op c k, f => .op c fun r => (k r).bind f

instance : Monad (Prog C R) where
  pure := .ret
  bind := .bind

/-- The program of one command. -/
def perform (c : C) : Prog C R (R c) := .op c .ret

/-- What must hold before a program, for `Q` to hold of its result and the state after
it. `T c` says this of the command `c`. -/
def wp (T : (c : C) → (R c → σ → Prop) → σ → Prop) :
    Prog C R α → (α → σ → Prop) → σ → Prop
  | .ret a, Q, s => Q a s
  | .op c k, Q, s => T c (fun r s' => wp T (k r) Q s') s

variable {T : (c : C) → (R c → σ → Prop) → σ → Prop}

@[simp] theorem wp_ret (a : α) (Q : α → σ → Prop) (s : σ) : wp T (.ret a) Q s ↔ Q a s := Iff.rfl

@[simp] theorem wp_op (c : C) (k : R c → Prog C R α) (Q : α → σ → Prop) (s : σ) :
    wp T (.op c k) Q s ↔ T c (fun r s' => wp T (k r) Q s') s := Iff.rfl

@[simp] theorem wp_pure (a : α) (Q : α → σ → Prop) (s : σ) :
    wp T (pure a : Prog C R α) Q s ↔ Q a s := Iff.rfl

@[simp] theorem wp_perform (c : C) (Q : R c → σ → Prop) (s : σ) :
    wp T (perform c) Q s ↔ T c Q s := Iff.rfl

/-- A program after another: the first must lead to where the second may start. -/
theorem wp_bind_eq (p : Prog C R α) (f : α → Prog C R β) (Q : β → σ → Prop) (s : σ) :
    wp T (p.bind f) Q s = wp T p (fun a s' => wp T (f a) Q s') s := by
  induction p generalizing s with
  | ret a => rfl
  | op c k ih =>
    simp only [Prog.bind, wp, ih]

@[simp] theorem wp_bind (p : Prog C R α) (f : α → Prog C R β) (Q : β → σ → Prop) (s : σ) :
    wp T (p >>= f) Q s ↔ wp T p (fun a s' => wp T (f a) Q s') s :=
  iff_of_eq (wp_bind_eq p f Q s)

@[simp] theorem wp_ite {b : Prop} [Decidable b] (p q : Prog C R α) (Q : α → σ → Prop) (s : σ) :
    wp T (if b then p else q) Q s ↔ if b then wp T p Q s else wp T q Q s := by
  split <;> rfl

/-- What a program leads to may be weakened, if each command allows it. -/
theorem wp_mono (hT : ∀ c (Q Q' : R c → σ → Prop) s, (∀ r s, Q r s → Q' r s) → T c Q s → T c Q' s)
    {p : Prog C R α} {Q Q' : α → σ → Prop} {s : σ} (hQ : ∀ a s, Q a s → Q' a s)
    (h : wp T p Q s) : wp T p Q' s := by
  induction p generalizing s with
  | ret a => exact hQ a s h
  | op c k ih => exact hT c _ _ s (fun r _ hr => ih r hr) h

/-- A program that uses only the commands on the left. -/
def Prog.inl {D : Type} {S : D → Type} : Prog C R α → Prog (C ⊕ D) (Sum.elim R S) α
  | .ret a => .ret a
  | .op c k => .op (.inl c) fun r => (k r).inl

theorem wp_inl {D : Type} {S : D → Type}
    {T : (c : C ⊕ D) → (Sum.elim R S c → σ → Prop) → σ → Prop} (p : Prog C R α)
    (Q : α → σ → Prop) (s : σ) : wp T p.inl Q s ↔ wp (fun c => T (.inl c)) p Q s := by
  induction p generalizing s with
  | ret a => exact Iff.rfl
  | op c k ih =>
    have hk : (fun (r : R c) s' => wp T (k r).inl Q s') =
        fun r s' => wp (fun c => T (.inl c)) (k r) Q s' :=
      funext fun r => funext fun s' => propext (ih r s')
    exact iff_of_eq (congrArg (fun K => T (.inl c) K s) hk)

/-- The program without its commands on the right, each of which gives its answer. -/
def Prog.skip {D : Type} {S : D → Type} (answer : (d : D) → S d) :
    Prog (C ⊕ D) (Sum.elim R S) α → Prog C R α
  | .ret a => .ret a
  | .op (.inl c) k => .op c fun r => (k r).skip answer
  | .op (.inr d) k => (k (answer d)).skip answer

@[simp] theorem skip_pure {D : Type} {S : D → Type} (answer : (d : D) → S d) (a : α) :
    (pure a : Prog (C ⊕ D) (Sum.elim R S) α).skip answer = pure a := rfl

@[simp] theorem skip_inl {D : Type} {S : D → Type} (answer : (d : D) → S d) (p : Prog C R α) :
    p.inl.skip answer = p := by
  induction p with
  | ret a => rfl
  | op c k ih => exact congrArg (Prog.op c) (funext ih)

@[simp] theorem skip_bind {D : Type} {S : D → Type} (answer : (d : D) → S d)
    (p : Prog (C ⊕ D) (Sum.elim R S) α) (f : α → Prog (C ⊕ D) (Sum.elim R S) β) :
    (p >>= f).skip answer = p.skip answer >>= fun a => (f a).skip answer := by
  change (p.bind f).skip answer = (p.skip answer).bind fun a => (f a).skip answer
  induction p with
  | ret a => rfl
  | op c k ih =>
    cases c with
    | inl c => exact congrArg (Prog.op c) (funext ih)
    | inr d => exact ih (answer d)

/-- All commands of the program are of this kind, whatever they answer. -/
def Prog.Uses (A : C → Prop) (p : Prog C R α) : Prop :=
  wp (fun c Q (u : Unit) => A c ∧ ∀ r, Q r u) p (fun _ _ => True) ()

theorem Prog.uses_any (p : Prog C R α) : p.Uses fun _ => True := by
  unfold Prog.Uses
  induction p with
  | ret a => trivial
  | op c k ih => exact ⟨trivial, fun r => ih r⟩

/-- The program ends with one of these results, whatever its commands answer. -/
def Prog.Returns (P : α → Prop) (p : Prog C R α) : Prop :=
  wp (fun _ Q (u : Unit) => ∀ r, Q r u) p (fun a _ => P a) ()

theorem Prog.returns_any (p : Prog C R α) : p.Returns fun _ => True := by
  unfold Prog.Returns
  induction p with
  | ret a => trivial
  | op c k ih => exact fun r => ih r

/-! ## Runs of a program alone -/

section
variable {step : (c : C) → σ → Option (R c × σ)}

/-- The run of a program on a machine that answers each command. `none`: a command
waits. -/
def exec (step : (c : C) → σ → Option (R c × σ)) : Prog C R α → σ → Option (α × σ)
  | .ret a, s => some (a, s)
  | .op c k, s => (step c s).bind fun r => exec step (k r.1) r.2

@[simp] theorem exec_pure (a : α) (s : σ) :
    exec step (pure a : Prog C R α) s = some (a, s) := rfl

@[simp] theorem exec_perform (c : C) (s : σ) : exec step (perform c) s = step c s := by
  simp [perform, exec]

/-- A program after another starts where the first ends. -/
@[simp] theorem exec_bind (p : Prog C R α) (f : α → Prog C R β) (s : σ) :
    exec step (p >>= f) s = (exec step p s).bind fun r => exec step (f r.1) r.2 := by
  change exec step (p.bind f) s = _
  induction p generalizing s with
  | ret a => rfl
  | op c k ih =>
    simp only [Prog.bind, exec, ih, Option.bind_assoc]

theorem exec_inl {D : Type} {S : D → Type}
    {step : (c : C ⊕ D) → σ → Option (Sum.elim R S c × σ)} (p : Prog C R α) (s : σ) :
    exec step p.inl s = exec (fun c => step (.inl c)) p s := by
  induction p generalizing s with
  | ret a => rfl
  | op c k ih =>
    have hk : (fun r : R c × σ => exec step (k r.1).inl r.2) =
        fun r => exec (fun c => step (.inl c)) (k r.1) r.2 := funext fun r => ih r.1 r.2
    exact congrArg (Option.bind (step (.inl c) s)) hk

/-- What each of its commands keeps, a program keeps. -/
theorem exec_keeps {A : C → Prop} {I : σ → Prop}
    (hstep : ∀ c s r, A c → I s → step c s = some r → I r.2) {p : Prog C R α} (hp : p.Uses A)
    {s : σ} {r : α × σ} (hs : I s) (hrun : exec step p s = some r) : I r.2 := by
  unfold Prog.Uses at hp
  induction p generalizing s with
  | ret a =>
    cases hrun
    exact hs
  | op c k ih =>
    obtain ⟨hc, hk⟩ := hp
    obtain ⟨r', hone, hrest⟩ := Option.bind_eq_some_iff.mp hrun
    exact ih r'.1 (hk r'.1) (hstep c s r' hc hs hone) hrest

/-- Two machines that answer each command alike, and stay related, answer a program alike. -/
theorem exec_rel {σ' : Type} {step' : (c : C) → σ' → Option (R c × σ')} {I : σ → σ' → Prop}
    (hstep : ∀ c s s', I s s' →
      Option.Rel (fun r r' => r.1 = r'.1 ∧ I r.2 r'.2) (step c s) (step' c s'))
    (p : Prog C R α) {s : σ} {s' : σ'} (hs : I s s') :
    Option.Rel (fun r r' => r.1 = r'.1 ∧ I r.2 r'.2) (exec step p s) (exec step' p s') := by
  induction p generalizing s s' with
  | ret a => exact .some ⟨rfl, hs⟩
  | op c k ih =>
    have hone := hstep c s s' hs
    unfold exec
    generalize step c s = o at hone ⊢
    generalize step' c s' = o' at hone ⊢
    cases hone with
    | none => exact .none
    | some h =>
      rename_i r r'
      obtain ⟨a, t⟩ := r
      obtain ⟨a', t'⟩ := r'
      obtain ⟨rfl, ht⟩ : a = a' ∧ I t t' := h
      exact ih a ht

end

end programs
