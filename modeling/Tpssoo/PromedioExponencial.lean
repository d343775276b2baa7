import Mathlib.Algebra.Order.Field.Basic
import Mathlib.Data.List.Induction
import Mathlib.Tactic.Linarith
import Mathlib.Tactic.LinearCombination
import Mathlib.Tactic.Ring

/-!
# Exponential averages

The average of a sequence of samples in which each new one weighs `a` and all that came before
it weighs `1 - a`. It never leaves the range of the samples.
-/
namespace PromedioExponencial

variable {α : Type*} [Field α] [LinearOrder α] [IsStrictOrderedRing α] {a e r : α} {rs : List α}

/-- One more sample. -/
def promediar (a e r : α) : α := a * r + (1 - a) * e

def promedio (a e : α) (rs : List α) : α := rs.foldl (promediar a) e

omit [LinearOrder α] [IsStrictOrderedRing α] in
theorem promedio_concat : promedio a e (rs ++ [r]) = promediar a (promedio a e rs) r := by
  rw [promedio, promedio, List.foldl_append]
  rfl

omit [LinearOrder α] [IsStrictOrderedRing α] in
/-- The average moves when the sample is not the average itself. -/
theorem promediar_eq_iff (ha : a ≠ 0) : promediar a e r = e ↔ r = e := by
  constructor
  · intro h
    have hcero : a * (r - e) = 0 := by
      rw [promediar] at h
      linear_combination h
    exact sub_eq_zero.mp ((mul_eq_zero.mp hcero).resolve_left ha)
  · rintro rfl
    rw [promediar]
    ring

omit [LinearOrder α] [IsStrictOrderedRing α] in
theorem promedio_constante (h : a = 0 ∨ ∀ r ∈ rs, r = e) : promedio a e rs = e := by
  induction rs using List.reverseRecOn with
  | nil => rfl
  | append_singleton rs r ih =>
    have hantes : promedio a e rs = e :=
      ih (h.imp_right fun h x hx => h x (List.mem_append_left [r] hx))
    rw [promedio_concat, hantes, promediar]
    rcases h with rfl | h
    · ring
    · rw [h r (List.mem_append_right rs List.mem_cons_self)]
      ring

theorem le_promediar (ha : 0 ≤ a) (ha' : a ≤ 1) {x : α} (he : x ≤ e) (hr : x ≤ r) :
    x ≤ promediar a e r := by
  have h₁ : 0 ≤ a * (r - x) := mul_nonneg ha (sub_nonneg.mpr hr)
  have h₂ : 0 ≤ (1 - a) * (e - x) := mul_nonneg (sub_nonneg.mpr ha') (sub_nonneg.mpr he)
  rw [promediar]
  linarith

theorem promediar_le (ha : 0 ≤ a) (ha' : a ≤ 1) {x : α} (he : e ≤ x) (hr : r ≤ x) :
    promediar a e r ≤ x := by
  have h₁ : 0 ≤ a * (x - r) := mul_nonneg ha (sub_nonneg.mpr hr)
  have h₂ : 0 ≤ (1 - a) * (x - e) := mul_nonneg (sub_nonneg.mpr ha') (sub_nonneg.mpr he)
  rw [promediar]
  linarith

/-- The average lies between the least and the greatest of the first value and the samples. -/
theorem promedio_entre (ha : 0 ≤ a) (ha' : a ≤ 1) :
    (∃ x ∈ e :: rs, x ≤ promedio a e rs) ∧ ∃ y ∈ e :: rs, promedio a e rs ≤ y := by
  induction rs using List.reverseRecOn with
  | nil => exact ⟨⟨e, List.mem_cons_self, le_rfl⟩, ⟨e, List.mem_cons_self, le_rfl⟩⟩
  | append_singleton rs r ih =>
    obtain ⟨⟨x, hx, hmenor⟩, y, hy, hmayor⟩ := ih
    have hsigue : ∀ z ∈ e :: rs, z ∈ e :: (rs ++ [r]) := fun z hz =>
      List.mem_append_left [r] hz
    have hr : r ∈ e :: (rs ++ [r]) := List.mem_append_right (e :: rs) List.mem_cons_self
    rw [promedio_concat]
    constructor
    · rcases le_total x r with h | h
      · exact ⟨x, hsigue x hx, le_promediar ha ha' hmenor h⟩
      · exact ⟨r, hr, le_promediar ha ha' (h.trans hmenor) le_rfl⟩
    · rcases le_total r y with h | h
      · exact ⟨y, hsigue y hy, promediar_le ha ha' hmayor h⟩
      · exact ⟨r, hr, promediar_le ha ha' (hmayor.trans h) le_rfl⟩

end PromedioExponencial
