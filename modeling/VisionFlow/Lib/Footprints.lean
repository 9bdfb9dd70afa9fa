-- Programs over a store that read and write only a part of it. Where each program of a list
-- writes off what the others read and write, the list does what each program does alone.
import Mathlib.Data.List.Nodup
import Mathlib.Logic.Function.Basic

namespace footprints

variable {ι κ α β : Type}

/-- The stores agree on the places of `S`. -/
def Agree (S : κ → Prop) (s s' : κ → α) : Prop :=
  ∀ k, S k → s' k = s k

theorem Agree.update [DecidableEq κ] {S : κ → Prop} {s s' : κ → α} (h : Agree S s s') (k : κ)
    (a : α) : Agree S (Function.update s k a) (Function.update s' k a) := by
  intro k' hk'
  by_cases he : k' = k
  · subst he
    rw [Function.update_self, Function.update_self]
  · rw [Function.update_of_ne he, Function.update_of_ne he]
    exact h k' hk'

/-- Runs that end alike: neither ends, or both have one result and stores that agree on `S`. -/
abbrev EndAlike (S : κ → Prop) : Option (β × (κ → α)) → Option (β × (κ → α)) → Prop :=
  Option.Rel fun r r' => r.1 = r'.1 ∧ Agree S r.2 r'.2

/-- The program ends, changes places of `W` alone, and its result depends on the places of `R`
alone: stores that agree on these agree, where they did, also after it. -/
structure Local (R W : κ → Prop) (op : (κ → α) → Option (β × (κ → α))) : Prop where
  ends : ∀ s, ∃ r, op s = some r
  confined : ∀ s r, op s = some r → Agree (fun k => ¬ W k) s r.2
  alike : ∀ (S : κ → Prop) s s', (∀ k, R k → S k) → Agree S s s' → EndAlike S (op s) (op s')

/-- The programs of the list in turn, with their results. -/
def run_all (op : ι → (κ → α) → Option (β × (κ → α))) :
    List ι → (κ → α) → Option (List β × (κ → α))
  | [], s => some ([], s)
  | i :: rest, s => (op i s).bind fun r =>
    (run_all op rest r.2).map fun out => (r.1 :: out.1, out.2)

section
variable {op : ι → (κ → α) → Option (β × (κ → α))} {R W : ι → κ → Prop}

theorem run_all.confined {l : List ι} (hlocal : ∀ i ∈ l, Local (R i) (W i) (op i))
    (s : κ → α) : ∃ out, run_all op l s = some out ∧
      Agree (fun k => ∀ i ∈ l, ¬ W i k) s out.2 := by
  induction l generalizing s with
  | nil => exact ⟨([], s), rfl, fun _ _ => rfl⟩
  | cons i rest ih =>
    have hi := hlocal i List.mem_cons_self
    obtain ⟨r, hr⟩ := hi.ends s
    obtain ⟨out, hout, hagree⟩ := ih (fun j hj => hlocal j (List.mem_cons_of_mem i hj)) r.2
    refine ⟨(r.1 :: out.1, out.2), by simp [run_all, hr, hout], fun k hk => ?_⟩
    have hrest := hagree k fun j hj => hk j (List.mem_cons_of_mem i hj)
    exact hrest.trans (hi.confined s r hr k (hk i List.mem_cons_self))

/-- Where each writes off the places of the others, each has the result that it has alone,
and leaves on its places what it leaves alone. -/
theorem run_all.apart {l : List ι} (hlocal : ∀ i ∈ l, Local (R i) (W i) (op i))
    (hnodup : l.Nodup)
    (hapart : ∀ i ∈ l, ∀ j ∈ l, i ≠ j → ∀ k, W j k → ¬ R i k ∧ ¬ W i k) {s : κ → α}
    {alone : ι → β × (κ → α)} (halone : ∀ i ∈ l, op i s = some (alone i)) :
    ∃ out, run_all op l s = some (l.map fun i => (alone i).1, out) ∧
      ∀ i ∈ l, ∀ k, W i k → out k = (alone i).2 k := by
  induction l generalizing s alone with
  | nil => exact ⟨s, rfl, fun i hi => absurd hi List.not_mem_nil⟩
  | cons i rest ih =>
    obtain ⟨hni, hnodup⟩ := List.nodup_cons.mp hnodup
    have hi : i ∈ i :: rest := List.mem_cons_self
    have hin : ∀ j ∈ rest, j ∈ i :: rest := fun j hj => List.mem_cons_of_mem i hj
    have hne : ∀ j ∈ rest, j ≠ i := fun j hj he => hni (he ▸ hj)
    -- the first leaves what the others read, so each of them does the same after it
    have hoff : Agree (fun k => ¬ W i k) s (alone i).2 :=
      (hlocal i hi).confined s _ (halone i hi)
    have hafter : ∀ j, ∃ r, j ∈ rest → op j (alone i).2 = some r ∧ r.1 = (alone j).1 ∧
        Agree (fun k => ¬ W i k) (alone j).2 r.2 := by
      intro j
      by_cases hj : j ∈ rest
      · have hread : ∀ k, R j k → ¬ W i k := fun k hr hw =>
          (hapart j (hin j hj) i hi (hne j hj) k hw).1 hr
        obtain ⟨r, hr⟩ := (hlocal j (hin j hj)).ends (alone i).2
        have hrel := (hlocal j (hin j hj)).alike _ _ _ hread hoff
        rw [halone j (hin j hj), hr] at hrel
        cases hrel with
        | some h => exact ⟨r, fun _ => ⟨hr, h.1.symm, h.2⟩⟩
      · exact ⟨alone j, fun h => absurd h hj⟩
    choose after hafter using hafter
    obtain ⟨out, hout, hplaces⟩ := ih (fun j hj => hlocal j (hin j hj)) hnodup
      (fun j hj j' hj' => hapart j (hin j hj) j' (hin j' hj')) (fun j hj => (hafter j hj).1)
    have hresults : rest.map (fun j => (after j).1) = rest.map fun j => (alone j).1 :=
      List.map_congr_left fun j hj => (hafter j hj).2.1
    refine ⟨out, by simp [run_all, halone i hi, hout, hresults], fun j hj k hk => ?_⟩
    rcases List.mem_cons.mp hj with rfl | hj
    · obtain ⟨out', hout', hkeep⟩ := run_all.confined (fun j' hj' => hlocal j' (hin j' hj'))
        (alone j).2
      obtain rfl : out'.2 = out := by rw [Option.some.inj (hout'.symm.trans hout)]
      exact hkeep k fun j' hj' => (hapart j' (hin j' hj') j hi (hne j' hj') k hk).2
    · rw [hplaces j hj k hk]
      exact (hafter j hj).2.2 k fun hw => (hapart j (hin j hj) i hi (hne j hj) k hw).2 hk

end

end footprints
