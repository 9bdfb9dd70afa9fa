-- A memory is a value for each address. What a program stores is a list of writes, in
-- order: an address that no write names keeps its value, and an address where all
-- writes agree gets their value.
import Mathlib

namespace memory

variable {β : Type}

/-- The memory after one write. -/
def write (m : Nat → β) (w : Nat × β) : Nat → β := Function.update m w.1 w.2

/-- The memory after the writes, in order. -/
def write_all (m : Nat → β) (ws : List (Nat × β)) : Nat → β := ws.foldl write m

@[simp] theorem write_all_nil (m : Nat → β) : write_all m [] = m := rfl

@[simp] theorem write_all_cons (m : Nat → β) (w : Nat × β) (ws : List (Nat × β)) :
    write_all m (w :: ws) = write_all (write m w) ws := rfl

theorem write_all_append (m : Nat → β) (ws vs : List (Nat × β)) :
    write_all m (ws ++ vs) = write_all (write_all m ws) vs := by
  simp [write_all]

/-- An address that no write names keeps its value. -/
theorem write_all_of_not_named (m : Nat → β) (ws : List (Nat × β)) (a : Nat)
    (h : ∀ v, (a, v) ∉ ws) : write_all m ws a = m a := by
  induction ws generalizing m with
  | nil => rfl
  | cons w rest ih =>
    rw [write_all_cons, ih _ fun v hv => h v (List.mem_cons_of_mem _ hv)]
    have hne : a ≠ w.1 := by
      intro he
      exact h w.2 (by simp [he])
    simp [write, hne]

/-- An address that is named, and always with one value, gets that value. -/
theorem write_all_of_agree (m : Nat → β) (ws : List (Nat × β)) (a : Nat) (v : β)
    (hmem : (a, v) ∈ ws) (h : ∀ v', (a, v') ∈ ws → v' = v) : write_all m ws a = v := by
  induction ws generalizing m with
  | nil => simp at hmem
  | cons w rest ih =>
    rw [write_all_cons]
    by_cases hrest : ∃ v', (a, v') ∈ rest
    · obtain ⟨v', hv'⟩ := hrest
      have hv : v' = v := h v' (List.mem_cons_of_mem _ hv')
      exact ih _ (hv ▸ hv') fun v'' h'' => h v'' (List.mem_cons_of_mem _ h'')
    · rw [write_all_of_not_named _ _ _ fun v' hv' => hrest ⟨v', hv'⟩]
      rcases List.mem_cons.mp hmem with hw | hr
      · simp [write, ← hw]
      · exact absurd ⟨v, hr⟩ hrest

/-- The addresses of a list get the values of another, and no other address changes. -/
theorem write_all_zip_of_notMem (m : Nat → β) (as : List Nat) (bs : List β) (a : Nat)
    (h : a ∉ as) : write_all m (as.zip bs) a = m a :=
  write_all_of_not_named m _ a fun _ hv => h (List.of_mem_zip hv).1

theorem map_write_all_zip (m : Nat → β) (as : List Nat) (bs : List β) (hnd : as.Nodup)
    (hlen : as.length = bs.length) : as.map (write_all m (as.zip bs)) = bs := by
  induction as generalizing m bs with
  | nil =>
    cases bs with
    | nil => rfl
    | cons b bs => simp at hlen
  | cons a as ih =>
    cases bs with
    | nil => simp at hlen
    | cons b bs =>
      obtain ⟨ha, hnd'⟩ := List.nodup_cons.mp hnd
      simp only [List.length_cons, Nat.add_right_cancel_iff] at hlen
      rw [List.zip_cons_cons, List.map_cons, write_all_cons, ih _ bs hnd' hlen,
        write_all_zip_of_notMem _ as bs a ha]
      simp [write]

/-- The addresses of a list get the values of another memory. -/
theorem write_all_zip_map_of_mem (m e : Nat → β) {as : List Nat} (hnd : as.Nodup) {a : Nat}
    (h : a ∈ as) : write_all m (as.zip (as.map e)) a = e a := by
  have hall := map_write_all_zip m as (as.map e) hnd (by simp)
  exact List.map_inj_left.mp hall a h

end memory
