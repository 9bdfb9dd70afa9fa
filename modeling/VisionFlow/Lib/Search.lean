-- Searches in lists: a place in a list is what the list has from there on. The first place
-- where a list occurs, all such places, and what a search in a part of a list finds.
import Mathlib

namespace search

variable {α : Type}

variable [DecidableEq α]

/-- The first place in a list where `needle` begins. -/
def find (needle : List α) : List α → Option (List α)
  | [] => if needle <+: [] then some [] else none
  | a :: l => if needle <+: a :: l then some (a :: l) else find needle l

/-- All places in a list where `needle` begins, in order. -/
def places (needle : List α) : List α → List (List α)
  | [] => if needle <+: [] then [[]] else []
  | a :: l => if needle <+: a :: l then (a :: l) :: places needle l else places needle l

section
variable {needle l p q s t : List α} {a : α}

/-! ## Places -/

theorem mem_places : s ∈ places needle l ↔ s <:+ l ∧ needle <+: s := by
  induction l with
  | nil =>
    unfold places
    split
    · rename_i h
      simp only [List.mem_singleton, List.suffix_nil]
      exact ⟨fun hs => ⟨hs, hs ▸ h⟩, fun hs => hs.1⟩
    · rename_i h
      simp only [List.not_mem_nil, List.suffix_nil, false_iff, not_and]
      rintro rfl
      exact h
  | cons a l ih =>
    unfold places
    split
    · rename_i h
      rw [List.mem_cons, ih, List.suffix_cons_iff]
      refine ⟨?_, fun hs => ?_⟩
      · rintro (rfl | hs)
        · exact ⟨Or.inl rfl, h⟩
        · exact ⟨Or.inr hs.1, hs.2⟩
      · rcases hs.1 with heq | hsuf
        · exact Or.inl heq
        · exact Or.inr ⟨hsuf, hs.2⟩
    · rename_i h
      rw [ih, List.suffix_cons_iff]
      refine ⟨fun hs => ⟨Or.inr hs.1, hs.2⟩, fun hs => ⟨?_, hs.2⟩⟩
      rcases hs.1 with heq | hsuf
      · exact absurd (heq ▸ hs.2) h
      · exact hsuf

theorem find_eq_head : find needle l = (places needle l).head? := by
  induction l with
  | nil =>
    unfold find places
    split <;> rfl
  | cons a l ih =>
    unfold find places
    split
    · rfl
    · exact ih

/-- The places in the rest of a list are those that do not lie before it. -/
theorem places_suffix (h : t <:+ l) :
    places needle t = (places needle l).filter (·.length ≤ t.length) := by
  induction l with
  | nil =>
    rw [List.suffix_nil.mp h]
    unfold places
    split <;> simp
  | cons a l ih =>
    rcases List.suffix_cons_iff.mp h with rfl | hsuf
    · symm
      rw [List.filter_eq_self]
      intro s hs
      simpa using (mem_places.mp hs).1.length_le
    · rw [ih hsuf]
      have hlong : ¬ (a :: l).length ≤ t.length := by
        have := hsuf.length_le
        simp only [List.length_cons]
        omega
      conv_rhs => unfold places
      split
      · rw [List.filter_cons_of_neg (by simpa using hlong)]
      · rfl

/-! ## The first place -/

theorem find_suffix (h : find needle l = some s) : s <:+ l ∧ needle <+: s := by
  rw [find_eq_head] at h
  exact mem_places.mp (List.mem_of_head? h)

theorem find_at_start (h : needle <+: l) : find needle l = some l := by
  cases l with
  | nil => simp [find, h]
  | cons a l => simp [find, h]

theorem find_cons (h : ¬ needle <+: a :: l) : find needle (a :: l) = find needle l := by
  simp [find, h]

/-- No place lies before the first one. -/
theorem find_first (h : find needle l = some s) (ht : t <:+ l) (hn : needle <+: t) :
    t.length ≤ s.length := by
  induction l with
  | nil =>
    rw [List.suffix_nil.mp ht]
    exact Nat.zero_le _
  | cons a l ih =>
    unfold find at h
    split at h
    · cases h
      exact ht.length_le
    · rename_i hno
      rcases List.suffix_cons_iff.mp ht with rfl | hsuf
      · exact absurd hn hno
      · exact ih h hsuf

/-- A search that starts later, but not after the first place, finds it too. -/
theorem find_later (h : find needle l = some s) (ht : t <:+ l) (hle : s.length ≤ t.length) :
    find needle t = some s := by
  rw [find_eq_head] at h ⊢
  rw [places_suffix ht]
  cases hp : places needle l with
  | nil => simp [hp] at h
  | cons x rest =>
    rw [hp, List.head?_cons, Option.some.injEq] at h
    subst h
    rw [List.filter_cons_of_pos (by simpa using hle), List.head?_cons]

/-- After the first place come those in the rest of it. -/
theorem places_of_find (h : find needle l = some (a :: s)) :
    places needle l = (a :: s) :: places needle s := by
  induction l with
  | nil =>
    unfold find at h
    split at h <;> cases h
  | cons b l ih =>
    unfold find at h
    conv_lhs => unfold places
    split at h
    · rename_i hn
      cases h
      rw [if_pos hn]
    · rename_i hno
      rw [if_neg hno]
      exact ih h

theorem places_ne_nil (hn : needle ≠ []) (h : s ∈ places needle l) : s ≠ [] := by
  rintro rfl
  exact hn (List.prefix_nil.mp (mem_places.mp h).2)

/-- A search after one place finds the next one. -/
theorem places_next {j : Nat} (hn : needle ≠ []) (h : (places needle l)[j]? = some (a :: s)) :
    (places needle l)[j + 1]? = find needle s := by
  induction j generalizing l with
  | zero =>
    have hfind : find needle l = some (a :: s) := by
      rw [find_eq_head, List.head?_eq_getElem?, h]
    rw [places_of_find hfind, List.getElem?_cons_succ, find_eq_head, List.head?_eq_getElem?]
  | succ j ih =>
    rcases hfirst : find needle l with _ | first
    · rw [find_eq_head, List.head?_eq_none_iff] at hfirst
      simp [hfirst] at h
    · have hmem : first ∈ places needle l := by
        rw [find_eq_head] at hfirst
        exact List.mem_of_head? hfirst
      obtain ⟨b, t, rfl⟩ := List.exists_cons_of_ne_nil (places_ne_nil hn hmem)
      rw [places_of_find hfirst, List.getElem?_cons_succ] at h ⊢
      exact ih h

/-- Each place lies before the next ones. -/
theorem places_sorted (needle l : List α) :
    (places needle l).Pairwise fun s t => t.length < s.length := by
  induction l with
  | nil =>
    unfold places
    split <;> simp
  | cons a l ih =>
    unfold places
    split
    · rw [List.pairwise_cons]
      refine ⟨fun t ht => ?_, ih⟩
      have := (mem_places.mp ht).1.length_le
      simp only [List.length_cons]
      omega
    · exact ih

/-- The places before a bound are the first ones. -/
theorem filter_places_prefix (needle l : List α) (n : Nat) :
    (places needle l).filter (n < ·.length) <+: places needle l := by
  have hsorted := places_sorted needle l
  generalize places needle l = ps at hsorted ⊢
  induction ps with
  | nil => exact List.nil_prefix
  | cons s ps ih =>
    obtain ⟨hfirst, hsorted⟩ := List.pairwise_cons.mp hsorted
    by_cases hs : n < s.length
    · rw [List.filter_cons_of_pos (by simpa using hs), List.cons_prefix_cons]
      exact ⟨rfl, ih hsorted⟩
    · have hnone : ps.filter (n < ·.length) = [] := by
        rw [List.filter_eq_nil_iff]
        intro t ht
        have := hfirst t ht
        simp only [decide_eq_true_eq]
        omega
      rw [List.filter_cons_of_neg (by simpa using hs), hnone]
      exact List.nil_prefix

/-! ## Parts of a list -/

theorem find_skip (h : a ∉ p) : find [a] (p ++ q) = find [a] q := by
  induction p with
  | nil => rfl
  | cons b p ih =>
    obtain ⟨hb, hp⟩ := not_or.mp (List.mem_cons.not.mp h)
    rw [List.cons_append, find_cons (by simpa using hb), ih hp]

/-- What a search finds in the first part of a list, it finds in the list. -/
theorem find_append (h : find needle p = some s) : find needle (p ++ q) = some (s ++ q) := by
  induction p with
  | nil =>
    unfold find at h
    split at h <;> cases h
    rename_i hn
    rw [List.prefix_nil.mp hn]
    exact find_at_start (List.nil_prefix)
  | cons a p ih =>
    unfold find at h
    split at h
    · rename_i hn
      cases h
      exact find_at_start (hn.trans (List.prefix_append _ _))
    · rename_i hno
      rw [List.cons_append, find_cons, ih h]
      -- an occurrence at the head ends before the one that was found, so in the first part
      intro hn
      apply hno
      obtain ⟨hs, hns⟩ := find_suffix h
      have hlen : needle.length ≤ (a :: p).length := by
        have h1 := hns.length_le
        have h2 := hs.length_le
        simp only [List.length_cons]
        omega
      rw [← List.cons_append] at hn
      exact List.prefix_of_prefix_length_le hn (List.prefix_append _ _) hlen

/-- What a search finds in a list, with all of its `needle` in the first part, it finds in
the first part. -/
theorem find_of_append (h : find needle (p ++ q) = some s)
    (hfit : q.length + needle.length ≤ s.length) :
    ∃ s', s = s' ++ q ∧ find needle p = some s' := by
  induction p with
  | nil =>
    obtain ⟨hs, -⟩ := find_suffix h
    have hle := hs.length_le
    simp only [List.nil_append] at h hle
    have hnil : needle = [] := List.length_eq_zero_iff.mp (by omega)
    subst hnil
    rw [find_at_start List.nil_prefix, Option.some.injEq] at h
    subst h
    exact ⟨[], rfl, by simp [find]⟩
  | cons a p ih =>
    by_cases hn : needle <+: a :: p
    · refine ⟨a :: p, ?_, find_at_start hn⟩
      rw [find_at_start (hn.trans (List.prefix_append _ _)), Option.some.injEq] at h
      exact h.symm
    · by_cases hpre : needle <+: a :: (p ++ q)
      · rw [List.cons_append, find_at_start hpre, Option.some.injEq] at h
        subst h
        refine absurd ?_ hn
        rw [← List.cons_append] at hpre
        apply List.prefix_of_prefix_length_le hpre (List.prefix_append _ _)
        simp only [List.length_cons, List.length_append] at hfit ⊢
        omega
      · rw [List.cons_append, find_cons hpre] at h
        rw [find_cons hn]
        exact ih h

/-- The places in the first part of a list are those in the list that have all of `needle` in
it. -/
theorem places_append (hn : needle ≠ []) :
    (places needle (p ++ q)).filter (q.length + needle.length ≤ ·.length) =
      (places needle p).map (· ++ q) := by
  have hpos : 0 < needle.length := List.length_pos_iff.mpr hn
  induction p with
  | nil =>
    have hnil : places needle ([] : List α) = [] := by
      unfold places
      rw [if_neg fun h => hn (List.prefix_nil.mp h)]
    rw [hnil, List.map_nil, List.filter_eq_nil_iff]
    intro s hs
    have hle := (mem_places.mp hs).1.length_le
    simp only [List.nil_append, decide_eq_true_eq] at hle ⊢
    omega
  | cons a p ih =>
    by_cases hfit : needle <+: a :: p
    · have hwhole : needle <+: a :: (p ++ q) := hfit.trans (List.prefix_append (a :: p) q)
      have hlong := hfit.length_le
      rw [List.cons_append, places, if_pos hwhole, places, if_pos hfit, List.map_cons,
        List.filter_cons_of_pos, ih, List.cons_append]
      simp only [List.length_cons, List.length_append, decide_eq_true_eq] at hlong ⊢
      omega
    · rw [List.cons_append, places]
      conv_rhs => rw [places, if_neg hfit]
      split
      · rename_i hwhole
        rw [List.filter_cons_of_neg, ih]
        -- the occurrence would end in the first part
        rw [decide_eq_true_eq]
        intro hlong
        apply hfit
        refine List.prefix_of_prefix_length_le hwhole (List.prefix_append (a :: p) q) ?_
        simp only [List.length_cons, List.length_append] at hlong ⊢
        omega
      · exact ih

/-- The places in the first part of a list are the first ones in the list. -/
theorem places_append_prefix (hn : needle ≠ []) :
    (places needle p).map (· ++ q) <+: places needle (p ++ q) := by
  have hpos : 0 < needle.length := List.length_pos_iff.mpr hn
  have hfirst := filter_places_prefix needle (p ++ q) (q.length + needle.length - 1)
  rw [← places_append hn]
  refine (List.filter_congr fun s _ => ?_) ▸ hfirst
  exact decide_eq_decide.mpr (by omega)

end

end search
