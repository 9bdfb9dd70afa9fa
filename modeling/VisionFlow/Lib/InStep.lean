-- Two models of one program: checked runs over a memory that keeps a log of its calls, and
-- programs that call an environment. The second follows the first if, with some answers, it
-- makes the same calls and gives a related result.
import VisionFlow.Lib.CMemory
import VisionFlow.Lib.Oracle

namespace in_step

open c_memory oracle

variable {C A σ α β γ δ : Type} {log : σ → List (Event C A)} {s : σ} {P : α → σ → β → Prop}

/-- `P` relates the results of the two, and the memory after the checked run. The second makes
the calls of the first with their answers, whatever calls it has made before. -/
def Follows (log : σ → List (Event C A)) (s : σ) (p : Checked σ α) (q : Prog C A β)
    (P : α → σ → β → Prop) : Prop :=
  ∀ a s', p s = some (a, s') → ∃ calls b, log s' = log s ++ calls ∧
    (∀ rest before, q ⟨calls.map (·.answer) ++ rest, before⟩ =
      some (b, ⟨rest, before ++ calls⟩)) ∧ P a s' b

theorem follows_pure {a : α} {b : β} (h : P a s b) : Follows log s (pure a) (pure b) P := by
  intro a' s' hp
  cases hp
  refine ⟨[], b, (List.append_nil _).symm, fun rest before => ?_, h⟩
  rw [List.append_nil]
  rfl

theorem follows_bind {p : Checked σ α} {f : α → Checked σ γ} {q : Prog C A β}
    {g : β → Prog C A δ} {Q : γ → σ → δ → Prop} (hp : Follows log s p q P)
    (hf : ∀ a s' b, P a s' b → Follows log s' (f a) (g b) Q) :
    Follows log s (p >>= f) (q >>= g) Q := by
  intro c s2 hrun
  rw [run_bind] at hrun
  obtain ⟨⟨a, s1⟩, h1, h2⟩ := Option.bind_eq_some_iff.mp hrun
  obtain ⟨calls, b, hlog, hq, hP⟩ := hp a s1 h1
  obtain ⟨calls', d, hlog', hg, hQ⟩ := hf a s1 b hP c s2 h2
  -- the calls of the first part, and then the ones of the second
  refine ⟨calls ++ calls', d, by rw [hlog', hlog, List.append_assoc], fun rest before => ?_, hQ⟩
  have hfirst := hq (calls'.map (·.answer) ++ rest) before
  rw [← List.append_assoc, ← List.map_append] at hfirst
  change (q _).bind _ = _
  rw [hfirst, ← List.append_assoc]
  exact hg rest (before ++ calls)

/-- A step that makes no call. -/
theorem follows_silent {p : Checked σ γ} {f : γ → Checked σ α} {q : Prog C A β}
    (h : ∀ c s', p s = some (c, s') → log s' = log s ∧ Follows log s' (f c) q P) :
    Follows log s (p >>= f) q P := by
  intro a s2 hrun
  rw [run_bind] at hrun
  obtain ⟨⟨c, s1⟩, h1, h2⟩ := Option.bind_eq_some_iff.mp hrun
  obtain ⟨hlog, hf⟩ := h c s1 h1
  obtain ⟨calls, b, hlog', hq, hP⟩ := hf a s2 h2
  exact ⟨calls, b, hlog ▸ hlog', hq, hP⟩

theorem follows_reads {read : σ → Option γ} {f : γ → Checked σ α} {q : Prog C A β}
    (h : ∀ c, read s = some c → Follows log s (f c) q P) :
    Follows log s (reads read >>= f) q P := by
  apply follows_silent
  intro c s' hrun
  obtain ⟨c', hread, heq⟩ := Option.map_eq_some_iff.mp hrun
  cases heq
  exact ⟨rfl, h c hread⟩

theorem follows_writes {write : σ → Option σ} {f : Unit → Checked σ α} {q : Prog C A β}
    (h : ∀ s', write s = some s' → log s' = log s ∧ Follows log s' (f ()) q P) :
    Follows log s (writes write >>= f) q P := by
  apply follows_silent
  intro c s' hrun
  obtain ⟨s1, hwrite, heq⟩ := Option.map_eq_some_iff.mp hrun
  cases heq
  exact h s' hwrite

theorem follows_ite {c : Prop} [Decidable c] {p p' : Checked σ α} {q q' : Prog C A β}
    (h : c → Follows log s p q P) (h' : ¬ c → Follows log s p' q' P) :
    Follows log s (if c then p else p') (if c then q else q') P := by
  split
  · exact h ‹_›
  · exact h' ‹_›

end in_step
