-- A program that reads one memory and writes another, with a log of its accesses. The
-- memories are apart, so what is read does not depend on what was written. Each write
-- names the region that it is meant for. A loop's log is its rounds' logs, in order.
import VisionFlow.Lib.Memory

namespace access

variable {β α γ : Type}

inductive Access (β : Type)
  | read (a : Nat)
  | write (region a : Nat) (v : β)
  deriving DecidableEq

/-- A program over the read memory: its value and its log. -/
def Prog (β α : Type) : Type := (Nat → β) → α × List (Access β)

instance : Monad (Prog β) where
  pure a := fun _ => (a, [])
  bind p f := fun m =>
    let r := p m
    let q := f r.1 m
    (q.1, r.2 ++ q.2)

def value (p : Prog β α) (m : Nat → β) : α := (p m).1

def log (p : Prog β α) (m : Nat → β) : List (Access β) := (p m).2

def read (a : Nat) : Prog β β := fun m => (m a, [.read a])

def write (region a : Nat) (v : β) : Prog β Unit := fun _ => ((), [.write region a v])

/-- The rounds `i`, `i + 1`, and so on, `n` of them. -/
def rounds (body : Nat → Prog β Unit) : Nat → Nat → Prog β Unit
  | _, 0 => pure ()
  | i, n + 1 => do
    body i
    rounds body (i + 1) n

/-- `for (i = 0; i < n; i++)`. -/
def for_each (n : Nat) (body : Nat → Prog β Unit) : Prog β Unit := rounds body 0 n

@[simp] theorem log_pure (a : α) (m : Nat → β) : log (pure a) m = [] := rfl

@[simp] theorem value_pure (a : α) (m : Nat → β) : value (pure a) m = a := rfl

@[simp] theorem log_bind (p : Prog β α) (f : α → Prog β γ) (m : Nat → β) :
    log (p >>= f) m = log p m ++ log (f (value p m)) m := rfl

@[simp] theorem value_bind (p : Prog β α) (f : α → Prog β γ) (m : Nat → β) :
    value (p >>= f) m = value (f (value p m)) m := rfl

@[simp] theorem log_read (a : Nat) (m : Nat → β) : log (read a) m = [.read a] := rfl

@[simp] theorem value_read (a : Nat) (m : Nat → β) : value (read a) m = m a := rfl

@[simp] theorem log_write (region a : Nat) (v : β) (m : Nat → β) :
    log (write region a v) m = [.write region a v] := rfl

@[simp] theorem log_ite {c : Prop} [Decidable c] (p q : Prog β α) (m : Nat → β) :
    log (if c then p else q) m = if c then log p m else log q m := by
  split <;> rfl

/-- An access of a loop is an access of one of its rounds. -/
@[simp] theorem mem_log_for_each {n : Nat} {body : Nat → Prog β Unit} {m : Nat → β}
    {x : Access β} : x ∈ log (for_each n body) m ↔ ∃ i < n, x ∈ log (body i) m := by
  have key : ∀ i n, x ∈ log (rounds body i n) m ↔ ∃ k < n, x ∈ log (body (i + k)) m := by
    intro i n
    induction n generalizing i with
    | zero => simp [rounds]
    | succ n ih =>
      simp only [rounds, log_bind, List.mem_append, ih]
      constructor
      · rintro (h | ⟨k, hk, h⟩)
        · exact ⟨0, by omega, h⟩
        · exact ⟨k + 1, by omega, by rwa [Nat.add_right_comm] at h⟩
      · rintro ⟨k, hk, h⟩
        cases k with
        | zero => exact Or.inl h
        | succ k => exact Or.inr ⟨k, by omega, by rwa [Nat.add_right_comm]⟩
  simpa [for_each] using key 0 n

/-- The writes of a log, in order. -/
def writes : List (Access β) → List (Nat × β)
  | [] => []
  | .read _ :: rest => writes rest
  | .write _ a v :: rest => (a, v) :: writes rest

theorem mem_writes {l : List (Access β)} {a : Nat} {v : β} :
    (a, v) ∈ writes l ↔ ∃ region, .write region a v ∈ l := by
  induction l with
  | nil => simp [writes]
  | cons x rest ih => cases x <;> simp [writes, ih, exists_or]

/-- The written memory at the end of a log. -/
def result (m : Nat → β) (l : List (Access β)) : Nat → β := memory.write_all m (writes l)

/-- An address that the log does not write keeps its value. -/
theorem result_of_not_written (m : Nat → β) (l : List (Access β)) (a : Nat)
    (h : ∀ i v, .write i a v ∉ l) : result m l a = m a := by
  apply memory.write_all_of_not_named
  intro v hv
  obtain ⟨i, hi⟩ := mem_writes.mp hv
  exact h i v hi

/-- An address that the log writes, and always with one value, gets that value. -/
theorem result_of_agree (m : Nat → β) (l : List (Access β)) (a : Nat) (v : β)
    (hmem : ∃ i, .write i a v ∈ l) (h : ∀ i v', .write i a v' ∈ l → v' = v) :
    result m l a = v := by
  apply memory.write_all_of_agree _ _ _ _ (mem_writes.mpr hmem)
  intro v' hv'
  obtain ⟨i, hi⟩ := mem_writes.mp hv'
  exact h i v' hi

end access
