-- Programs that call an environment. The environment's answers are given in advance, one
-- for each call, and a program that has used them up does not return. Each call is logged
-- with its answer, so a law about what was called is a law about the log.
import Mathlib

namespace oracle

variable {C A α β : Type}

/-- A call and its answer. -/
structure Event (C A : Type) where
  call : C
  answer : A

/-- The answers still to come, and the calls so far, in order. -/
structure World (C A : Type) where
  answers : List A
  log : List (Event C A)

/-- `none`: the program does not return. -/
def Prog (C A α : Type) : Type := World C A → Option (α × World C A)

instance : Monad (Prog C A) where
  pure a := fun w => some (a, w)
  bind p f := fun w => (p w).bind fun r => f r.1 r.2

def ask (c : C) : Prog C A A := fun w =>
  match w.answers with
  | [] => none
  | a :: rest => some (a, ⟨rest, w.log ++ [⟨c, a⟩]⟩)

def ask_until_from (again : A → Bool) (c : C) :
    List A → List (Event C A) → Option (A × World C A)
  | [], _ => none
  | a :: rest, log =>
    if again a then ask_until_from again c rest (log ++ [⟨c, a⟩])
    else some (a, ⟨rest, log ++ [⟨c, a⟩]⟩)

/-- A call that is made again for as long as the answer says so. -/
def ask_until (again : A → Bool) (c : C) : Prog C A A := fun w =>
  ask_until_from again c w.answers w.log

/-! ## What a program gives -/

/-- Whatever the answers: where the program returns, its value and its calls meet `Q`. -/
def Gives (p : Prog C A α) (Q : α → List (Event C A) → Prop) : Prop :=
  ∀ w a w', p w = some (a, w') → ∃ l, w'.log = w.log ++ l ∧ Q a l

/-- The calls of a repeated call: each answer but the last asked for another try. -/
structure Tried (again : A → Bool) (c : C) (l : List (Event C A)) (a : A) : Prop where
  calls : ∃ tries, l = tries ++ [⟨c, a⟩] ∧ ∀ e ∈ tries, e.call = c ∧ again e.answer = true
  last : again a = false

theorem gives_pure {a : α} {Q : α → List (Event C A) → Prop} (h : Q a []) :
    Gives (pure a) Q := by
  intro w b w' hp
  cases hp
  exact ⟨[], by simp, h⟩

theorem gives_bind {p : Prog C A α} {f : α → Prog C A β} {P : α → List (Event C A) → Prop}
    {Q : β → List (Event C A) → Prop} (hp : Gives p P)
    (hf : ∀ a l, P a l → Gives (f a) fun b l' => Q b (l ++ l')) : Gives (p >>= f) Q := by
  intro w b w' h
  obtain ⟨⟨a, w1⟩, h1, h2⟩ := Option.bind_eq_some_iff.mp h
  obtain ⟨l, hl, hP⟩ := hp w a w1 h1
  obtain ⟨l', hl', hQ⟩ := hf a l hP w1 b w' h2
  exact ⟨l ++ l', by rw [hl', hl, List.append_assoc], hQ⟩

theorem Gives.mono {p : Prog C A α} {P Q : α → List (Event C A) → Prop} (h : Gives p P)
    (hPQ : ∀ a l, P a l → Q a l) : Gives p Q := by
  intro w a w' hp
  obtain ⟨l, hl, hP⟩ := h w a w' hp
  exact ⟨l, hl, hPQ a l hP⟩

theorem gives_ask {c : C} {Q : A → List (Event C A) → Prop} (h : ∀ a, Q a [⟨c, a⟩]) :
    Gives (ask c) Q := by
  intro w a w' hp
  unfold ask at hp
  split at hp
  · cases hp
  · cases hp
    exact ⟨_, rfl, h _⟩

theorem gives_ask_until (again : A → Bool) (c : C) :
    Gives (ask_until again c) fun a l => Tried again c l a := by
  -- the log grows by one interrupted call at each step
  have key : ∀ answers (log : List (Event C A)) a w',
      ask_until_from again c answers log = some (a, w') →
        ∃ l, w'.log = log ++ l ∧ Tried again c l a := by
    intro answers
    induction answers with
    | nil =>
      intro log a w' h
      cases h
    | cons b rest ih =>
      intro log a w' h
      unfold ask_until_from at h
      by_cases hb : again b = true
      · rw [if_pos hb] at h
        obtain ⟨l, hl, ⟨tries, rfl, htries⟩, hlast⟩ := ih _ a w' h
        refine ⟨⟨c, b⟩ :: (tries ++ [⟨c, a⟩]), by rw [hl]; simp, ⟨⟨c, b⟩ :: tries, rfl, ?_⟩, hlast⟩
        intro e he
        rcases List.mem_cons.mp he with rfl | he
        · exact ⟨rfl, hb⟩
        · exact htries e he
      · rw [if_neg hb] at h
        cases h
        exact ⟨[⟨c, b⟩], rfl, ⟨[], rfl, by simp⟩, by simpa using hb⟩
  exact fun w a w' h => key w.answers w.log a w' h

theorem gives_ite {b : Prop} [Decidable b] {p q : Prog C A α}
    {Q : α → List (Event C A) → Prop} (hp : b → Gives p Q) (hq : ¬ b → Gives q Q) :
    Gives (if b then p else q) Q := by
  split
  · exact hp ‹_›
  · exact hq ‹_›

end oracle
