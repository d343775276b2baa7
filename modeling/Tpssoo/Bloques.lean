import Tpssoo.RangosBytes

/-!
# A store cut into blocks

A flat store of `n` blocks of `t` cells, given block by block. Reading and writing inside a
block is reading and writing the store.
-/
namespace Bloques

open RangosBytes

variable {α : Type*} {t n k : ℕ} {w : ℕ → Option (List α)} {xs ys : List α}

/-- Block `k` of a store, when the store holds it whole. -/
def trozo (t : ℕ) (xs : List α) (k : ℕ) : Option (List α) :=
  if k * t + t ≤ xs.length then some (leerRango xs (k * t) t) else none

/-- The store `xs` has `n` blocks, and they are those that `w` gives. -/
structure Reparte (t n : ℕ) (w : ℕ → Option (List α)) (xs : List α) : Prop where
  largo : xs.length = n * t
  bloques : ∀ k, w k = trozo t xs k

theorem cabe_iff (ht : 0 < t) : k * t + t ≤ n * t ↔ k < n := by
  rw [← Nat.succ_mul]
  exact Nat.mul_le_mul_right_iff ht

theorem leer_leer {i j m : ℕ} (h : j + m ≤ t) :
    leerRango (leerRango xs i t) j m = leerRango xs (i + j) m := by
  apply List.ext_getElem?
  intro p
  rw [getElem?_leerRango, getElem?_leerRango, getElem?_leerRango]
  by_cases hp : p < m
  · rw [if_pos hp, if_pos (by omega), if_pos hp, Nat.add_assoc]
  · rw [if_neg hp, if_neg hp]

theorem Reparte.dentro (h : Reparte t n w xs) (hk : k < n) :
    w k = some (leerRango xs (k * t) t) := by
  rw [h.bloques, trozo, if_pos]
  rw [h.largo, ← Nat.succ_mul]
  exact Nat.mul_le_mul_right t hk

theorem Reparte.fuera (h : Reparte t n w xs) (ht : 0 < t) (hk : n ≤ k) : w k = none := by
  rw [h.bloques, trozo, if_neg]
  rw [h.largo, cabe_iff ht]
  omega

/-- The same blocks make the same store. -/
theorem Reparte.unica (h : Reparte t n w xs) (h' : Reparte t n w ys) (ht : 0 < t) : xs = ys := by
  have hlargo : xs.length = ys.length := h.largo.trans h'.largo.symm
  apply List.ext_getElem?
  intro p
  by_cases hp : p < xs.length
  · have hk : p / t < n := by
      apply Nat.div_lt_of_lt_mul
      rw [Nat.mul_comm, ← h.largo]
      exact hp
    have hbloque : leerRango xs (p / t * t) t = leerRango ys (p / t * t) t :=
      Option.some.inj ((h.dentro hk).symm.trans (h'.dentro hk))
    have hcelda := congrArg (·[p % t]?) hbloque
    rwa [getElem?_leerRango, getElem?_leerRango, if_pos (Nat.mod_lt _ ht), if_pos (Nat.mod_lt _ ht),
      Nat.div_add_mod'] at hcelda
  · rw [List.getElem?_eq_none (by omega), List.getElem?_eq_none (by omega)]

/-- The store that given blocks make. -/
theorem reparte_juntar (hdentro : ∀ k < n, ∃ ys, w k = some ys ∧ ys.length = t)
    (hfuera : ∀ k, n ≤ k → w k = none) (ht : 0 < t) :
    Reparte t n w ((List.range n).flatMap fun k => (w k).getD []) := by
  have hlargos : ∀ m ≤ n, ((List.range m).flatMap fun k => (w k).getD []).length = m * t := by
    intro m
    induction m with
    | zero =>
      intro _
      rw [Nat.zero_mul]
      rfl
    | succ m ih =>
      intro hm
      obtain ⟨ys, hys, hlargo⟩ := hdentro m hm
      rw [List.range_succ, List.flatMap_append, List.length_append, ih (by omega), Nat.succ_mul]
      simp [hys, hlargo]
  -- a block is read where those before it end
  have hbloque : ∀ m ≤ n, ∀ k < m,
      some (leerRango ((List.range m).flatMap fun k => (w k).getD []) (k * t) t) = w k := by
    intro m
    induction m with
    | zero =>
      intro _ k hk
      omega
    | succ m ih =>
      intro hm k hk
      obtain ⟨ys, hys, hlargo⟩ := hdentro m hm
      have hparte : ((List.range (m + 1)).flatMap fun k => (w k).getD []) =
          ((List.range m).flatMap fun k => (w k).getD []) ++ ys := by
        rw [List.range_succ, List.flatMap_append]
        simp [hys]
      have hantes := hlargos m (by omega)
      rw [hparte]
      by_cases hkm : k < m
      · rw [leer_append, ih (by omega) k hkm]
        rw [hantes, cabe_iff ht]
        exact hkm
      · have hkm' : k = m := by omega
        rw [hkm', leerRango, ← hantes, List.drop_left, ← hlargo, List.take_length, hys]
  refine ⟨hlargos n le_rfl, ?_⟩
  intro k
  rw [trozo, hlargos n le_rfl]
  by_cases hk : k < n
  · rw [if_pos ((cabe_iff ht).mpr hk), hbloque n le_rfl k hk]
  · rw [if_neg (mt (cabe_iff ht).mp hk), hfuera k (not_lt.mp hk)]

/-- A write inside block `k` is a write of the store. -/
theorem Reparte.escribir (h : Reparte t n w xs) (hk : k < n) {i : ℕ} (hi : i + ys.length ≤ t) :
    Reparte t n (Function.update w k (some (escribirRango (leerRango xs (k * t) t) i ys)))
      (escribirRango xs (k * t + i) ys) := by
  have hfin : k * t + t ≤ xs.length := by
    rw [h.largo, ← Nat.succ_mul]
    exact Nat.mul_le_mul_right t hk
  have hlargo : (escribirRango xs (k * t + i) ys).length = xs.length :=
    length_escribirRango (by omega)
  refine ⟨hlargo.trans h.largo, ?_⟩
  intro j
  rw [trozo, hlargo]
  by_cases hj : j = k
  · subst hj
    rw [Function.update_self, if_pos hfin, leer_escribir_dentro hfin (by omega) (by omega),
      Nat.add_sub_cancel_left]
  · rw [Function.update_of_ne hj, h.bloques, trozo, leer_escribir_disjunto (by omega)]
    rcases bloques_disjuntos (t := t) hj with hlt | hlt
    · left
      omega
    · right
      omega

end Bloques
